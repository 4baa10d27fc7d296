/-
Hold and priority in the transmit half of `gmii_cdc`: a data frame is started only behind a
whole start gap in which it was not held and no control frame was there, and control frames
are sent whatever the hold does.
-/
import EmacZero.GmiiCdcTxDrain

namespace EmacZero

namespace GmiiTxBench

variable {ramStyle : RamStyle} {maxFrame : Nat} {speed : BitVec 2}
variable {bench : GmiiTxBench ramStyle}

/-- No data frame was started sooner than this behind a hold or a control frame, and the one
that is loaded will not be. -/
structure Unhurried (speed : BitVec 2) (bench : GmiiTxBench ramStyle) : Prop where
  calms : ∀ calm ∈ bench.calms, (txGap speed).toNat ≤ calm
  counted : bench.calms.length = bench.started.count false
  loaded : bench.tx.txFrameLoaded = true → bench.tx.txSelCtl = false →
    bench.tx.txStartDelay ≠ 0 →
      (txGap speed).toNat + 1 ≤ bench.calm + bench.tx.txStartDelay.toNat

theorem unhurried_start (speed : BitVec 2) (datMem : BitVec 14 → GmiiTxWord)
    (ctlMem : BitVec 7 → GmiiTxWord) (headQ : GmiiTxWord) :
    Unhurried speed (start datMem ctlMem headQ : GmiiTxBench ramStyle) where
  calms := fun _ hcalm => absurd hcalm List.not_mem_nil
  counted := rfl
  loaded := fun hloaded => absurd hloaded Bool.false_ne_true

section Steps

variable {dat : PacketQueue GmiiTxWord (2 ^ 14) ramStyle.staged}
variable {ctl : PacketQueue GmiiTxWord (2 ^ 7) RamStyle.distributed.staged}

/-- What an edge of `media_clk` does to the data frame in its start gap. -/
theorem Unhurried.gap_mediaEdge (hunhurried : Unhurried speed bench)
    (hholds : Holds speed bench dat ctl) (caught : GmiiTxCatch)
    (hloaded : (bench.mediaEdge caught).tx.txFrameLoaded = true)
    (hsel : (bench.mediaEdge caught).tx.txSelCtl = false)
    (hdelay : (bench.mediaEdge caught).tx.txStartDelay ≠ 0) :
    (txGap speed).toNat + 1 ≤
      (bench.mediaEdge caught).calm + (bench.mediaEdge caught).tx.txStartDelay.toNat := by
  have hcalm : (bench.tx.txHoldS2 || bench.tx.ctl.packet.pending) = false →
      (bench.mediaEdge caught).calm = bench.calm + 1 := fun hfree => by
    change (if bench.tx.txHoldS2 || bench.tx.ctl.packet.pending then 0 else bench.calm + 1) = _
    rw [hfree, if_neg Bool.false_ne_true]
  cases hbefore : bench.tx.txFrameLoaded with
  | false =>
      rcases pick_mediaEdge hbefore caught with ⟨hpick, -, hctl, hgap⟩ | ⟨-, hnext, -⟩
      · have hnone : bench.tx.ctl.packet.pending = false := hctl.symm.trans hsel
        have hfree : (bench.tx.txHoldS2 || bench.tx.ctl.packet.pending) = false := by
          rw [hnone, Bool.false_or, Bool.and_eq_true, Bool.not_eq_true'] at hpick
          rw [hpick.2, hnone]
          rfl
        have hspeed := (hholds.speed_of_pick (by rwa [hnone] at hpick ⊢)).2
        rw [hcalm hfree, hgap, hspeed]
        omega
      · exact absurd (hnext.symm.trans hloaded) (by decide)
  | true =>
      have hkept : (bench.mediaEdge caught).tx.txSelCtl = bench.tx.txSelCtl :=
        GmiiTxReadout.edge_txSelCtl hbefore
      have hdata : bench.tx.txSelCtl = false := hkept.symm.trans hsel
      cases hback : bench.tx.givesWay bench.tx.ctl.packet.pending bench.tx.txHoldS2 with
      | true =>
          have hclosed : (bench.mediaEdge caught).tx.toGmiiTxReadout =
              { bench.tx.tick bench.tx.cfgSpeedS2 with txFrameLoaded := false } :=
            GmiiTxReadout.edge_back hbefore hback
          rw [hclosed] at hloaded
          cases hloaded
      | false =>
          have hless : (bench.mediaEdge caught).tx.txStartDelay =
              if bench.tx.txStartDelay = 0 then 0 else bench.tx.txStartDelay - 1 :=
            GmiiTxReadout.edge_txStartDelay hbefore hback
          have hnot : bench.tx.txStartDelay ≠ 0 := fun hzero => by
            rw [if_pos hzero] at hless
            exact hdelay hless
          rw [if_neg hnot] at hless
          have hpred := GmiiTxReadout.txStartDelay_pred hnot
          have hmore : (bench.tx.txStartDelay - 1).toNat ≠ 0 := fun hzero =>
            hdelay (hless.trans (BitVec.eq_of_toNat_eq hzero))
          have hfar : decide (1 < bench.tx.txStartDelay) = true := by
            rw [decide_eq_true_iff, BitVec.lt_def]
            change 1 < _
            omega
          have hfree : (bench.tx.txHoldS2 || bench.tx.ctl.packet.pending) = false := by
            rw [GmiiTxReadout.givesWay, hfar, hdata] at hback
            exact hback
          have hwait := hunhurried.loaded hbefore hdata hnot
          rw [hcalm hfree, hless]
          omega

theorem Unhurried.mediaEdge (hunhurried : Unhurried speed bench)
    (hholds : Holds speed bench dat ctl) (caught : GmiiTxCatch) :
    Unhurried speed (bench.mediaEdge caught) := by
  have hstarts : bench.tx.starts = true →
      bench.tx.txFrameLoaded = true ∧ bench.tx.txStartDelay = 1 := fun hstarts => by
    rwa [GmiiTxReadout.starts, Bool.and_eq_true, beq_iff_eq] at hstarts
  refine ⟨fun calm hcalm => ?_, ?_, hunhurried.gap_mediaEdge hholds caught⟩
  · change calm ∈ (if bench.tx.starts && !bench.tx.txSelCtl then bench.calms ++ [bench.calm]
      else bench.calms) at hcalm
    split at hcalm
    · rename_i hdata
      rw [Bool.and_eq_true, Bool.not_eq_true'] at hdata
      rcases List.mem_append.mp hcalm with hold | hnew
      · exact hunhurried.calms calm hold
      · obtain ⟨hloaded, hone⟩ := hstarts hdata.1
        have hwait := hunhurried.loaded hloaded hdata.2 (by rw [hone]; decide)
        rw [hone] at hwait
        rw [List.mem_singleton.mp hnew]
        exact Nat.le_of_succ_le_succ hwait
    · exact hunhurried.calms calm hcalm
  · change (if bench.tx.starts && !bench.tx.txSelCtl then bench.calms ++ [bench.calm]
      else bench.calms).length = (if bench.tx.starts then bench.started ++ [bench.tx.txSelCtl]
      else bench.started).count false
    have hcounted := hunhurried.counted
    cases bench.tx.starts with
    | false => exact hcounted
    | true =>
        rw [if_pos rfl, List.count_append]
        cases bench.tx.txSelCtl with
        | true => exact hcounted
        | false =>
            rw [Bool.not_false, Bool.and_true, if_pos rfl, List.length_append, hcounted]
            rfl

end Steps

/-- What holds of every run at a constant speed, whatever the writers do. -/
structure Orderly (speed : BitVec 2) (bench : GmiiTxBench ramStyle) : Prop where
  wired : ∃ dat ctl, Holds speed bench dat ctl ∧ Wired speed bench dat ctl
  unhurried : Unhurried speed bench

theorem orderly_start (speed : BitVec 2) (datMem : BitVec 14 → GmiiTxWord)
    (ctlMem : BitVec 7 → GmiiTxWord) (headQ : GmiiTxWord) :
    Orderly speed (start datMem ctlMem headQ : GmiiTxBench ramStyle) :=
  ⟨⟨_, _, holds_start speed datMem ctlMem headQ,
    (encodes_start 0 speed datMem ctlMem headQ).wired⟩,
    unhurried_start speed datMem ctlMem headQ⟩

theorem orderly_step (bench : GmiiTxBench ramStyle) (edge : GmiiTxEdge)
    (hok : bench.Steady speed edge) (horderly : Orderly speed bench) :
    Orderly speed (bench.step maxFrame edge) := by
  obtain ⟨⟨dat, ctl, hholds, hwired⟩, hunhurried⟩ := horderly
  cases edge with
  | sys datIn ctlIn datSkew ctlSkew =>
      exact ⟨⟨_, _, hholds.sysEdge hok, hwired.sysEdge hholds _ _ _ _ _ _ _ _ _ _⟩,
        ⟨hunhurried.calms, hunhurried.counted, hunhurried.loaded⟩⟩
  | media caught =>
      exact ⟨⟨_, _, hholds.mediaEdge hok, hwired.mediaEdge hholds caught⟩,
        hunhurried.mediaEdge hholds caught⟩

/-- Over every run at a constant speed, with any hold and any writers that end no frame of a
single word at 10 and 100 Mbit/s: the wire shows whole stored frames, each FIFO's in order,
with the gap between them, however often a data frame has been put back; each data frame was
started only when for a whole start gap it had not been held and no control frame had been
there; and once nothing more comes every control frame is started and read out, also during a
hold. -/
theorem gmiiTx_hold (datMem : BitVec 14 → GmiiTxWord) (ctlMem : BitVec 7 → GmiiTxWord)
    (headQ : GmiiTxWord) (edges : List GmiiTxEdge)
    (hok : Along (step maxFrame) (Steady speed)
      (start datMem ctlMem headQ : GmiiTxBench ramStyle) edges) :
    let bench : GmiiTxBench ramStyle :=
      runFrom (step maxFrame) (start datMem ctlMem headQ) edges
    (bench.wire.Shows (bench.images speed bench.started) ∧
        (∀ gap ∈ bench.wire.gaps, gapCycles speed ≤ gap) ∧
        bench.started.count false ≤ bench.dat.stored.whole.length ∧
        bench.started.count true ≤ bench.ctl.stored.whole.length) ∧
      (bench.calms.length = bench.started.count false ∧
        ∀ calm ∈ bench.calms, (txGap speed).toNat ≤ calm) ∧
      ∃ enough, ∀ last : List GmiiTxCatch, (∀ caught ∈ last, caught.cfgSpeed = speed) →
        enough ≤ last.length →
          let later := runFrom (step maxFrame) bench (last.map .media)
          later.started.count true = later.ctl.stored.whole.length ∧
            later.ctlDone = later.ctl.stored.whole.length := by
  intro bench
  have horderly : Orderly speed bench :=
    invariant_along orderly_step (orderly_start speed datMem ctlMem headQ) hok
  obtain ⟨⟨dat, ctl, hholds, hwired⟩, hunhurried⟩ := horderly
  obtain ⟨hshows, hgaps⟩ := hwired.shows
  refine ⟨⟨hshows, hgaps, hwired.started_le hholds⟩,
    ⟨hunhurried.counted, hunhurried.calms⟩, enough true speed bench,
    fun last hlast henough => ?_⟩
  have hdrained : Drained true (runFrom mediaEdge bench last) :=
    drained_after ⟨dat, ctl, hholds⟩ (fun caught hmem => by
      exact ⟨hlast caught hmem, fun hfree => absurd hfree.symm Bool.false_ne_true⟩) henough
  have hlater : Orderly speed (runFrom (step maxFrame) bench (last.map .media)) := by
    refine invariant_along orderly_step ⟨⟨dat, ctl, hholds, hwired⟩, hunhurried⟩ ?_
    have hmedia : ∀ edge ∈ last.map GmiiTxEdge.media,
        ∃ caught, edge = .media caught ∧ caught.cfgSpeed = speed := fun edge hmem => by
      obtain ⟨caught, hcaught, hedge⟩ := List.mem_map.mp hmem
      exact ⟨caught, hedge.symm, hlast caught hcaught⟩
    refine along_mono (fun bench edge hedge => ?_) (along_of_mem hmedia bench)
    obtain ⟨caught, rfl, hcaught⟩ := hedge
    exact hcaught
  rw [run_media] at hlater ⊢
  obtain ⟨⟨_, _, hholds', hwired'⟩, -⟩ := hlater
  have hnone := hdrained.awaited
  rw [awaited, if_pos rfl, Nat.zero_add] at hnone
  have hdone := hwired'.done_le_started
  have hstarted := (hwired'.started_le hholds').2
  have hread := hholds'.done_le.2
  exact ⟨by omega, by omega⟩

/-- A data frame is put back in its start gap by a hold, and a control frame is sent. -/
def putBack : List GmiiTxEdge :=
  writes [(0x55, false), (0xd5, false), (0x11, true)] [] ++ medias 1 false 30 ++
    medias 1 true 4 ++ writes [] [(0x55, false), (0x88, false)] ++ medias 1 true 155

/-- When the hold ends the data frame goes out. -/
def overtaken : List GmiiTxEdge := putBack ++ medias 1 false 180

theorem gmiiTx_hold_overtaken :
    let start : GmiiTxBench .distributed :=
      start (fun _ => ⟨false, false, 0⟩) (fun _ => ⟨false, false, 0⟩) ⟨false, false, 0⟩
    let early := runFrom (step 1536) start putBack
    let bench := runFrom (step 1536) start overtaken
    (early.wire.closed = [heldFor 10 [(0x55, false), (0x88, false)]] ∧
        early.dat.stored.whole = [[(0x55, false), (0xd5, false), (0x11, true)]] ∧
        bench.wire.closed = [heldFor 10 [(0x55, false), (0x88, false)],
          heldFor 10 [(0x55, false), (0xd5, false), (0x11, true)]] ∧
        bench.started = [true, false] ∧ bench.calms = [120]) ∧
      bench.wire.Shows (bench.images 1 bench.started) ∧
      (∀ gap ∈ bench.wire.gaps, gapCycles 1 ≤ gap) ∧
      ∀ calm ∈ bench.calms, (txGap 1).toNat ≤ calm := by
  have hok : Along (step 1536) (Steady 1)
      (start (fun _ => ⟨false, false, 0⟩) (fun _ => ⟨false, false, 0⟩) ⟨false, false, 0⟩ :
        GmiiTxBench .distributed) overtaken := by decide +kernel
  obtain ⟨⟨hshows, hgaps, -⟩, ⟨-, hcalms⟩, -⟩ := gmiiTx_hold _ _ _ _ hok
  exact ⟨by decide +kernel, hshows, hgaps, hcalms⟩

end GmiiTxBench

end EmacZero
