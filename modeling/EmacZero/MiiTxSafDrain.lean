/-
`mii_tx_saf` in the end: once nothing more is handed over and starting is allowed, every
committed frame comes onto the wire.
-/
import EmacZero.MiiTxSafWire

namespace EmacZero

namespace MiiTxFramer

/-- The cycles up to the end of the gap behind the frame. -/
def left (framer : MiiTxFramer) (frame : List MiiTxWord) : Nat :=
  2 * (8 + (padded (MiiTxWord.bytes frame)).length + 4 + ifgBytes) -
    (2 * (framer.place frame + if framer.st = .ifg then framer.cnt.toNat else 0) +
      framer.nib.toNat)

variable {framer : MiiTxFramer} {frame : List MiiTxWord} {taken : Nat} {rdData : MiiTxWord}
variable {ctlReady datReady : Bool}

theorem Sending.place_lt (hsending : Sending framer frame taken) :
    framer.place frame + (if framer.st = .ifg then framer.cnt.toNat else 0) <
      8 + (padded (MiiTxWord.bytes frame)).length + 4 + ifgBytes := by
  by_cases hifg : framer.st = .ifg
  · have hcnt : framer.cnt.toNat < ifgBytes := by
      cases hsending <;> simp_all
    rw [if_pos hifg, place, hifg]
    exact Nat.add_lt_add_left hcnt _
  · have hlt := (List.getElem?_eq_some_iff.mp (hsending.cur hifg)).1
    rw [length_encoding] at hlt
    rw [if_neg hifg]
    exact hlt.trans_le (Nat.le_add_right _ _)

theorem Sending.left_edge (hmarked : Marked frame) (hfits : frame.length ≤ 16383)
    (hne : frame ≠ []) (hsending : Sending framer frame taken)
    (hnext : taken < frame.length → frame[taken]? = some rdData)
    (hdone : framer.done = false) :
    (framer.edge rdData ctlReady datReady).left frame + 1 = framer.left frame := by
  have hst := hsending.not_idle
  have hlt := hsending.place_lt
  cases hnib : framer.nib with
  | false =>
      rw [edge_low hst hnib]
      have hplace : framer.nibbleEdge.place frame = framer.place frame := rfl
      have hstate : framer.nibbleEdge.st = framer.st := rfl
      have hcnt : framer.nibbleEdge.cnt = framer.cnt := rfl
      have hhigh : framer.nibbleEdge.nib = true := by rw [MiiTxFramer.nibbleEdge, hnib]; rfl
      rw [left, left, hplace, hstate, hcnt, hhigh, hnib, Bool.toNat_true, Bool.toNat_false]
      omega
  | true =>
      have hlow := (@nibbleOut_edge framer rdData ctlReady datReady hst).2
      rw [hnib, edge_high hst hnib] at hlow
      rw [edge_high hst hnib]
      by_cases hifg : framer.st = .ifg
      · have hcnt : framer.cnt.toNat < ifgBytes := by
          cases hsending <;> simp_all
        have hmore : framer.cnt.toNat ≠ ifgBytes - 1 := fun hlast =>
          Bool.false_ne_true (hdone.symm.trans (done_iff.mpr ⟨hifg, hnib, hlast⟩))
        obtain ⟨-, hsucc⟩ := @Sending.ifgEdge framer frame hifg hcnt hmore
        have hstate : framer.ifgEdge.st = .ifg := by
          rw [MiiTxFramer.ifgEdge, if_neg hmore]
          exact hifg
        have hplace : framer.ifgEdge.place frame = framer.place frame := by
          rw [place, place, hstate, hifg]
        simp only [MiiTxFramer.byteEdge, hifg] at hlow ⊢
        rw [left, left, hplace, hstate, hlow, hsucc, if_pos rfl, if_pos hifg, hnib]
        rw [if_pos hifg] at hlt
        simp only [Bool.not_true, Bool.toNat_false, Bool.toNat_true]
        omega
      · obtain ⟨-, hplace⟩ := hsending.byteEdge hmarked hfits hnib hnext hne hifg
        have hfirst : (if (framer.byteEdge rdData).st = .ifg
            then (framer.byteEdge rdData).cnt.toNat else 0) = 0 := by
          split
          · rw [cnt_ifg hifg ‹_›]
            rfl
          · rfl
        rw [left, left, hplace, hfirst, hlow, hnib, if_neg hifg]
        rw [if_neg hifg] at hlt
        simp only [Bool.not_true, Bool.toNat_false, Bool.toNat_true]
        omega

/-- No frame and its gap take longer. -/
def longest : Nat := 2 * (8 + 16383 + 4 + ifgBytes)

theorem left_le (hfits : frame.length ≤ 16383) : framer.left frame ≤ longest := by
  have hpadded : (padded (MiiTxWord.bytes frame)).length ≤ 16383 := by
    rw [length_padded, length_bytes]
    exact Nat.max_le.mpr ⟨hfits, by decide⟩
  rw [left, longest]
  omega

end MiiTxFramer

namespace MiiTxBench

variable {maxFrame addrWidth : Nat} {bench : MiiTxBench addrWidth}

/-- The frames that have not been sent to the end. -/
def unsent (maxFrame : Nat) (bench : MiiTxBench addrWidth) : Nat :=
  ((bench.dat.cut maxFrame).whole.length - bench.datDone) +
    (bench.ctl.whole.length - bench.ctlDone)

/-- A buffer whose reader has been idle for so many edges. -/
structure Settled {depth : Nat} (queue : PacketQueue MiiTxWord depth RamStyle.distributed.staged)
    (retired edges : Nat) : Prop where
  seen : queue.frames.length ≤ queue.toSeenCount.after (4 - edges)
  ready : 5 ≤ edges → retired < queue.frames.length → queue.Ready retired

/-- The framer has been idle for so many edges, and may start. -/
structure Idling (bench : MiiTxBench addrWidth)
    (dat : PacketQueue MiiTxWord (2 ^ addrWidth) RamStyle.distributed.staged)
    (ctl : PacketQueue MiiTxWord (2 ^ 6) RamStyle.distributed.staged) (edges : Nat) :
    Prop where
  idle : bench.tx.st = .idle
  first : 1 ≤ edges → bench.tx.startOkS1 = true
  second : 2 ≤ edges → bench.tx.startOkS2 = true
  dat : Settled dat bench.datDone edges
  ctl : Settled ctl bench.ctlDone edges

section Settled

variable {depth retired edges : Nat}
variable {queue : PacketQueue MiiTxWord depth RamStyle.distributed.staged}

theorem settled_start (queue : PacketQueue MiiTxWord depth RamStyle.distributed.staged)
    (retired : Nat) : Settled queue retired 0 :=
  ⟨queue.committed_eq.ge, fun hlate => absurd hlate (by decide)⟩

theorem Settled.rdEdge (hsettled : Settled queue retired edges) (skew : Skew) (late : Bool) :
    Settled (queue.rdEdge false skew late) retired (edges + 1) := by
  have hseen := hsettled.seen
  have hstep : queue.toSeenCount.after (4 - edges) ≤
      (queue.rdEdge false skew late).toSeenCount.after (4 - (edges + 1)) := by
    change _ ≤ (queue.toSeenCount.clock late).after _
    by_cases hfew : edges < 4
    · rw [show 4 - edges = 4 - (edges + 1) + 1 by omega]
      exact queue.toSeenCount.after_clock late _
    · have hnone : 4 - edges = 0 := by omega
      have hnone' : 4 - (edges + 1) = 0 := by omega
      rw [hnone, hnone']
      exact queue.seen3_le
  refine ⟨hseen.trans hstep, fun hlate hlt => PacketQueue.ready_rdEdge ?_ false skew late⟩
  rw [show 4 - edges = 0 by omega] at hseen
  exact lt_of_lt_of_le hlt hseen

/-- Where the reader has been idle for long enough a frame that is left may be read. -/
theorem Settled.offers {addrWidth : Nat} {fifo : PacketFifo MiiTxWord addrWidth .distributed}
    {queue : PacketQueue MiiTxWord (2 ^ addrWidth) RamStyle.distributed.staged}
    (hdepth : 1 < 2 ^ addrWidth) (hsettled : Settled queue retired 5)
    (hfollows : fifo.Follows queue retired) (hread : queue.ReadTo retired 0)
    (hleft : retired < queue.frames.length) :
    fifo.pending = true ∧ fifo.rdEmpty = false := by
  have hready := hsettled.ready le_rfl hleft
  obtain ⟨frame, hframe, hne⟩ := hready.exists_frame
  refine ⟨?_, ?_⟩
  · exact (hfollows.pending_iff
      (show RamStyle.distributed.staged.toNat + 1 < 2 ^ addrWidth from hdepth) hread).mpr
      hready.seen
  · rw [hfollows.rdEmpty_eq]
    exact decide_eq_false (PacketFifo.not_drained_of_visible hready hread hframe
      (List.length_pos_iff.mpr hne))

end Settled

section Steps

variable {dat : PacketQueue MiiTxWord (2 ^ addrWidth) RamStyle.distributed.staged}
variable {ctl : PacketQueue MiiTxWord (2 ^ 6) RamStyle.distributed.staged}
variable {edges : Nat}

theorem readTo_idle {framer : MiiTxFramer} {depth retired : Nat} {chosen : Bool}
    {queue : PacketQueue MiiTxWord depth RamStyle.distributed.staged}
    (hserves : Serves framer queue retired chosen) (hst : framer.st = .idle) :
    queue.ReadTo retired 0 := by
  cases hserves with
  | waiting hread => exact hread
  | sending _ _ _ hsending => exact absurd hst hsending.not_idle

/-- The framer starts as soon as it can. -/
theorem Idling.starts (hsized : Sized maxFrame addrWidth)
    (hholds : Holds maxFrame bench dat ctl) (hidling : Idling bench dat ctl 5)
    (hunsent : 0 < bench.unsent maxFrame) (caught : MiiTxCatch) :
    (bench.miiEdge caught).tx.st ≠ .idle := by
  have hst := hidling.idle
  have hready : (bench.tx.ctlReady || bench.tx.datReady) = true := by
    rw [unsent, ← hholds.datBuffer.whole, ← hholds.ctlBuffer.whole, List.length_map,
      List.length_map] at hunsent
    rw [Bool.or_eq_true]
    by_cases hctl : bench.ctlDone < ctl.frames.length
    · obtain ⟨hpending, hfilled⟩ := hidling.ctl.offers (by decide) hholds.ctlBuffer.follows
        (readTo_idle hholds.ctlServes hst) hctl
      left
      rw [MiiTxSaf.ctlReady, hpending, hfilled]
      rfl
    · have hdat : bench.datDone < dat.frames.length := by omega
      obtain ⟨hpending, hfilled⟩ := hidling.dat.offers hsized.depth hholds.datBuffer.follows
        (readTo_idle hholds.datServes hst) hdat
      right
      rw [MiiTxSaf.datReady, hpending, hfilled, hidling.second (by decide)]
      rfl
  change (bench.tx.toMiiTxFramer.edge _ _ _).st ≠ .idle
  rw [MiiTxFramer.edge_idle hst, MiiTxFramer.idleEdge, if_pos hready]
  intro hidle
  cases hidle

theorem Idling.miiEdge (hholds : Holds maxFrame bench dat ctl)
    (hidling : Idling bench dat ctl edges) {caught : MiiTxCatch}
    (hok : caught.txStartOk = true) (hidle : (bench.miiEdge caught).tx.st = .idle) :
    Idling (bench.miiEdge caught)
      (dat.rdEdge bench.tx.datRdEn caught.datSkew caught.datLate)
      (ctl.rdEdge bench.tx.ctlRdEn caught.ctlSkew caught.ctlLate) (edges + 1) := by
  have hst := hidling.idle
  have hrdEn := hholds.rdEn hst
  have hdone : bench.tx.done = false := by
    rw [MiiTxFramer.done, hst]
    rfl
  have hdatRd : bench.tx.datRdEn = false := by
    rw [MiiTxSaf.datRdEn, hrdEn]
    rfl
  have hctlRd : bench.tx.ctlRdEn = false := by
    rw [MiiTxSaf.ctlRdEn, hrdEn]
    rfl
  have hdatDone : (bench.miiEdge caught).datDone = bench.datDone := by
    change bench.datDone + (bench.tx.done && _).toNat = _
    rw [hdone]
    rfl
  have hctlDone : (bench.miiEdge caught).ctlDone = bench.ctlDone := by
    change bench.ctlDone + (bench.tx.done && _).toNat = _
    rw [hdone]
    rfl
  rw [hdatRd, hctlRd]
  refine ⟨hidle, fun _ => hok, fun hlate => hidling.first (by omega), ?_, ?_⟩
  · rw [hdatDone]
    exact hidling.dat.rdEdge _ _
  · rw [hctlDone]
    exact hidling.ctl.rdEdge _ _

/-- The time that a frame and the wait for it take at most. -/
def turn : Nat := MiiTxFramer.longest + 8

/-- So many edges of `mii_tx_clk` at most until every frame is sent. -/
inductive Waits (maxFrame : Nat) (bench : MiiTxBench addrWidth) (left : Nat) : Prop
  | idling {dat : PacketQueue MiiTxWord (2 ^ addrWidth) RamStyle.distributed.staged}
      {ctl : PacketQueue MiiTxWord (2 ^ 6) RamStyle.distributed.staged} {edges : Nat}
      (hholds : Holds maxFrame bench dat ctl) (hidling : Idling bench dat ctl edges)
      (hedges : edges ≤ 5) (hunsent : 0 < bench.unsent maxFrame)
      (hleft : (bench.unsent maxFrame - 1) * turn + MiiTxFramer.longest + (5 - edges) + 2 ≤
        left) : Waits maxFrame bench left
  | sending {dat : PacketQueue MiiTxWord (2 ^ addrWidth) RamStyle.distributed.staged}
      {ctl : PacketQueue MiiTxWord (2 ^ 6) RamStyle.distributed.staged}
      (hholds : Holds maxFrame bench dat ctl) (hst : bench.tx.st ≠ .idle)
      (hleft : ∀ frame, bench.current maxFrame = some (MiiTxWord.bytes frame) →
        (bench.unsent maxFrame - 1) * turn + bench.tx.left frame + 1 ≤ left) :
      Waits maxFrame bench left

theorem left_congr {framer : MiiTxFramer} {frame other : List MiiTxWord}
    (hbytes : MiiTxWord.bytes frame = MiiTxWord.bytes other) :
    framer.left frame = framer.left other := by
  have hplace : framer.place frame = framer.place other := by
    rw [MiiTxFramer.place, MiiTxFramer.place, hbytes]
  rw [MiiTxFramer.left, MiiTxFramer.left, hplace, hbytes]

/-- The frame that the framer is at is one that has not been sent. -/
theorem unsent_done {data : List (BitVec 8)} (hcurrent : bench.current maxFrame = some data)
    (caught : MiiTxCatch) :
    (bench.miiEdge caught).unsent maxFrame + bench.tx.done.toNat = bench.unsent maxFrame := by
  change ((bench.dat.cut maxFrame).whole.length -
      (bench.datDone + (bench.tx.done && !bench.tx.srcCtl).toNat)) +
    (bench.ctl.whole.length - (bench.ctlDone + (bench.tx.done && bench.tx.srcCtl).toNat)) +
      bench.tx.done.toNat = bench.unsent maxFrame
  rw [current] at hcurrent
  rw [unsent]
  cases hdone : bench.tx.done with
  | false => rfl
  | true =>
      split at hcurrent
      · have hlt := (List.getElem?_eq_some_iff.mp hcurrent).1
        have hsrc : bench.tx.srcCtl = true := ‹_›
        rw [hsrc]
        simp only [Bool.not_true, Bool.and_false, Bool.and_true, Bool.toNat_false,
          Bool.toNat_true]
        omega
      · have hlt := (List.getElem?_eq_some_iff.mp hcurrent).1
        have hsrc : bench.tx.srcCtl = false := Bool.not_eq_true _ |>.mp ‹_›
        rw [hsrc]
        simp only [Bool.not_false, Bool.and_false, Bool.and_true, Bool.toNat_false,
          Bool.toNat_true]
        omega

theorem unsent_idle (hst : bench.tx.st = .idle) (caught : MiiTxCatch) :
    (bench.miiEdge caught).unsent maxFrame = bench.unsent maxFrame := by
  have hdone : bench.tx.done = false := by
    rw [MiiTxFramer.done, hst]
    rfl
  change ((bench.dat.cut maxFrame).whole.length -
      (bench.datDone + (bench.tx.done && !bench.tx.srcCtl).toNat)) +
    (bench.ctl.whole.length - (bench.ctlDone + (bench.tx.done && bench.tx.srcCtl).toNat)) = _
  rw [hdone]
  rfl

theorem waits_step (hsized : Sized maxFrame addrWidth) {left : Nat} {caught : MiiTxCatch}
    (hok : caught.txStartOk = true) (hwaits : Waits maxFrame bench left) :
    ((bench.miiEdge caught).tx.st = .idle ∧ (bench.miiEdge caught).unsent maxFrame = 0) ∨
      Waits maxFrame (bench.miiEdge caught) (left - 1) := by
  cases hwaits with
  | idling hholds hidling hedges hunsent hleft =>
      rename_i dat ctl edges
      have hnext := hholds.miiEdge hsized caught
      have hsame := @unsent_idle maxFrame addrWidth bench hidling.idle caught
      right
      by_cases hidle : (bench.miiEdge caught).tx.st = .idle
      · have hfew : edges ≠ 5 := by
          rintro rfl
          exact hidling.starts hsized hholds hunsent caught hidle
        refine .idling hnext (hidling.miiEdge hholds hok hidle) (by omega) ?_ ?_
        · rw [hsame]
          exact hunsent
        · rw [hsame]
          omega
      · refine .sending hnext hidle fun frame hframe => ?_
        obtain ⟨other, -, hother, -, -, hfits, -⟩ := hnext.sends hsized hidle
        have hlong := @MiiTxFramer.left_le (bench.miiEdge caught).tx.toMiiTxFramer other hfits
        rw [left_congr (Option.some.inj (hframe.symm.trans hother)), hsame]
        omega
  | sending hholds hst hleft =>
      have hnext := hholds.miiEdge hsized caught
      obtain ⟨frame, taken, hframe, hsending, hmarked, hfits, hne, hword⟩ :=
        hholds.sends hsized hst
      have henough := hleft frame hframe
      have hcount := unsent_done hframe caught
      cases hdone : bench.tx.done with
      | true =>
          have hidle : (bench.miiEdge caught).tx.st = .idle := (hsending.edge_done hdone).1
          rw [hdone, Bool.toNat_true] at hcount
          by_cases hnone : (bench.miiEdge caught).unsent maxFrame = 0
          · exact .inl ⟨hidle, hnone⟩
          · refine .inr (.idling hnext ⟨hidle, fun hlate => absurd hlate (by decide),
              fun hlate => absurd hlate (by decide), settled_start _ _, settled_start _ _⟩
              (Nat.zero_le 5) (Nat.pos_of_ne_zero hnone) ?_)
            have hturns : bench.unsent maxFrame - 1 =
                (bench.miiEdge caught).unsent maxFrame - 1 + 1 := by omega
            rw [hturns, Nat.add_mul, Nat.one_mul] at henough
            have hturn : turn = MiiTxFramer.longest + 8 := rfl
            omega
      | false =>
          have hbusy : (bench.miiEdge caught).tx.st ≠ .idle :=
            (hsending.edge hmarked hfits hne (fun _ => hword) hdone).not_idle
          have hnearer : (bench.miiEdge caught).tx.left frame + 1 = bench.tx.left frame :=
            hsending.left_edge hmarked hfits hne hword hdone
          rw [hdone, Bool.toNat_false, Nat.add_zero] at hcount
          have hsrc : (bench.miiEdge caught).tx.srcCtl = bench.tx.srcCtl :=
            MiiTxFramer.edge_srcCtl hst
          have hcurrent : (bench.miiEdge caught).current maxFrame = bench.current maxFrame := by
            rw [current, current, hsrc]
            change (if bench.tx.srcCtl then
                bench.ctl.whole[bench.ctlDone + (bench.tx.done && bench.tx.srcCtl).toNat]?
              else (bench.dat.cut maxFrame).whole[bench.datDone +
                (bench.tx.done && !bench.tx.srcCtl).toNat]?) = _
            rw [hdone]
            rfl
          refine .inr (.sending hnext hbusy fun other hother => ?_)
          rw [hcurrent] at hother
          rw [left_congr (Option.some.inj (hother.symm.trans hframe)), hcount]
          omega

/-- Every frame is sent. -/
def Drained (maxFrame : Nat) (bench : MiiTxBench addrWidth) : Prop :=
  bench.tx.st = .idle ∧ bench.unsent maxFrame = 0

theorem drained_step (hsized : Sized maxFrame addrWidth)
    (hholds : ∃ dat ctl, Holds maxFrame bench dat ctl) (hdrained : Drained maxFrame bench)
    (caught : MiiTxCatch) : Drained maxFrame (bench.miiEdge caught) := by
  obtain ⟨dat, ctl, hholds⟩ := hholds
  obtain ⟨hst, hnone⟩ := hdrained
  refine ⟨?_, (unsent_idle hst caught).trans hnone⟩
  by_contra hstart
  obtain ⟨hctl, hdat⟩ := hholds.pick hsized hst caught hstart
  rw [unsent, ← hholds.datBuffer.whole, ← hholds.ctlBuffer.whole, List.length_map,
    List.length_map] at hnone
  cases hsrc : (bench.tx.miiTxEdge caught).srcCtl with
  | true =>
      have hlt := (hctl hsrc).trans_le ctl.seen3_le_frames
      omega
  | false =>
      have hlt := (hdat hsrc).trans_le dat.seen3_le_frames
      omega

theorem waits_start (hsized : Sized maxFrame addrWidth)
    (hholds : Holds maxFrame bench dat ctl) :
    Drained maxFrame bench ∨
      Waits maxFrame bench (bench.unsent maxFrame * turn + MiiTxFramer.longest + 7) := by
  have hturns : (bench.unsent maxFrame - 1) * turn ≤ bench.unsent maxFrame * turn :=
    Nat.mul_le_mul_right turn (Nat.sub_le _ 1)
  by_cases hst : bench.tx.st = .idle
  · by_cases hnone : bench.unsent maxFrame = 0
    · exact .inl ⟨hst, hnone⟩
    · refine .inr (.idling hholds ⟨hst, fun hlate => absurd hlate (by decide),
        fun hlate => absurd hlate (by decide), settled_start _ _, settled_start _ _⟩
        (Nat.zero_le 5) (Nat.pos_of_ne_zero hnone) ?_)
      omega
  · refine .inr (.sending hholds hst fun frame hframe => ?_)
    obtain ⟨other, -, hother, -, -, hfits, -⟩ := hholds.sends hsized hst
    have hlong := @MiiTxFramer.left_le bench.tx.toMiiTxFramer other hfits
    rw [left_congr (Option.some.inj (hframe.symm.trans hother))]
    omega

end Steps

theorem run_mii (bench : MiiTxBench addrWidth) (last : List MiiTxCatch) :
    runFrom (step maxFrame) bench (last.map .mii) = runFrom miiEdge bench last := by
  rw [runFrom, runFrom, List.foldl_map]
  rfl

theorem drained_after (hsized : Sized maxFrame addrWidth)
    (hholds : ∃ dat ctl, Holds maxFrame bench dat ctl) {last : List MiiTxCatch}
    (hok : ∀ caught ∈ last, caught.txStartOk = true)
    (henough : bench.unsent maxFrame * turn + MiiTxFramer.longest + 7 ≤ last.length) :
    Drained maxFrame (runFrom miiEdge bench last) := by
  let goal (later : MiiTxBench addrWidth) : Prop :=
    (∃ dat ctl, Holds maxFrame later dat ctl) ∧ Drained maxFrame later
  let waits (left : Nat) (later : MiiTxBench addrWidth) : Prop :=
    (∃ dat ctl, Holds maxFrame later dat ctl) ∧ Waits maxFrame later left
  have hgoal (later : MiiTxBench addrWidth) (caught : MiiTxCatch)
      (_ : caught.txStartOk = true) (hreached : goal later) : goal (later.miiEdge caught) :=
    ⟨holds_step hsized later (.mii caught) hreached.1,
      drained_step hsized hreached.1 hreached.2 caught⟩
  have hwaits (later : MiiTxBench addrWidth) (caught : MiiTxCatch) (left : Nat)
      (hok : caught.txStartOk = true) (hwaits : waits left later) :
      goal (later.miiEdge caught) ∨ waits (left - true.toNat) (later.miiEdge caught) := by
    have hnext := holds_step hsized later (.mii caught) hwaits.1
    rcases waits_step hsized hok hwaits.2 with hdrained | hleft
    · exact .inl ⟨hnext, hdrained⟩
    · exact .inr ⟨hnext, hleft⟩
  have hdone (later : MiiTxBench addrWidth) : ¬ waits 0 later := by
    rintro ⟨-, hnone⟩
    cases hnone with
    | idling _ _ _ _ hleft => omega
    | sending hholds hst hleft =>
        obtain ⟨frame, -, hframe, -⟩ := hholds.sends hsized hst
        have hnone := hleft frame hframe
        omega
  have hstart : goal bench ∨
      waits (bench.unsent maxFrame * turn + MiiTxFramer.longest + 7) bench := by
    obtain ⟨dat, ctl, hhere⟩ := hholds
    exact (waits_start hsized hhere).imp (fun hdrained => ⟨⟨dat, ctl, hhere⟩, hdrained⟩)
      fun hwaits => ⟨⟨dat, ctl, hhere⟩, hwaits⟩
  have hcount : bench.unsent maxFrame * turn + MiiTxFramer.longest + 7 ≤
      last.countP fun _ => true := by
    rw [List.countP_true]
    exact henough
  exact (reached_along goal waits hgoal hwaits hdone (along_of_mem hok bench) hstart hcount).2

/-! Whole runs. -/

/-- What holds of every run. -/
structure Encodes (maxFrame : Nat) (bench : MiiTxBench addrWidth) : Prop where
  holds : ∃ dat ctl, Holds maxFrame bench dat ctl
  wired : Wired maxFrame bench
  quiet : bench.wire.Quiet

theorem encodes_step (hsized : Sized maxFrame addrWidth) (bench : MiiTxBench addrWidth)
    (edge : MiiTxEdge) (hencodes : Encodes maxFrame bench) :
    Encodes maxFrame (bench.step maxFrame edge) := by
  have hholds := holds_step hsized bench edge hencodes.holds
  obtain ⟨dat, ctl, hhere⟩ := hencodes.holds
  cases edge with
  | clk i datSkew ctlSkew =>
      exact ⟨hholds, hencodes.wired.clkEdge hsized hhere i datSkew ctlSkew, hencodes.quiet⟩
  | mii caught =>
      exact ⟨hholds, hencodes.wired.miiEdge hsized hhere caught,
        Spaced.quiet_observe bench.wire bench.tx.miiOut⟩

theorem encodes_start (hsized : Sized maxFrame addrWidth)
    (datMem : BitVec addrWidth → MiiTxWord) (ctlMem : BitVec 6 → MiiTxWord)
    (headQ : MiiTxWord) : Encodes maxFrame (start datMem ctlMem headQ) :=
  ⟨⟨_, _, holds_start hsized datMem ctlMem headQ⟩,
    .resting rfl rfl rfl ⟨rfl, rfl, .inl rfl, fun _ hgap => absurd hgap List.not_mem_nil⟩,
    Spaced.quiet_unseen⟩

theorem encodes_after (hsized : Sized maxFrame addrWidth) (hencodes : Encodes maxFrame bench)
    (edges : List MiiTxEdge) :
    Encodes maxFrame (runFrom (step maxFrame) bench edges) :=
  invariant_runFrom (encodes_step hsized) hencodes edges

/-- The wire shows the frames that have been taken up. -/
theorem Wired.shows (hwired : Wired maxFrame bench) :
    bench.wire.Shows (bench.images maxFrame bench.started) ∧
      (∀ gap ∈ bench.wire.gaps, ifgNibbles ≤ gap) := by
  have hgaps : ∀ gap ∈ bench.ahead.gaps, ifgNibbles ≤ gap := by
    cases hwired with
    | resting _ _ _ hrested => exact hrested.gaps
    | busy _ _ _ _ _ hshowing => cases hshowing <;> assumption
  have hshows : bench.ahead.Shows (bench.images maxFrame bench.started) := by
    cases hwired with
    | resting _ _ _ hrested =>
        refine ⟨[], by rw [hrested.closed, List.append_nil], ?_⟩
        rw [hrested.opened]
        exact List.nil_prefix
    | @busy order frame hst hstarted hdat hctl hcurrent hshowing =>
        have himages : bench.images maxFrame bench.started =
            bench.images maxFrame order ++ [wireOf (MiiTxWord.bytes frame)] := by
          rw [hstarted]
          refine images_concat ?_
          rw [hdat, hctl]
          exact hcurrent
        rw [himages]
        cases hshowing with
        | sending _ hclosed hopened =>
            refine ⟨_, by rw [hclosed], ?_⟩
            rw [hopened]
            exact List.take_prefix _ _
        | whole _ _ _ hclosed hopened =>
            refine ⟨_, by rw [hclosed], ?_⟩
            rw [hopened]
            exact List.prefix_rfl
        | gap _ hclosed hopened =>
            refine ⟨[], by rw [hclosed, List.append_nil], ?_⟩
            rw [hopened]
            exact List.nil_prefix
  refine ⟨hshows.of_observe.of_observe, fun gap hgap => hgaps gap ?_⟩
  exact Spaced.gaps_subset_observe _ _ (Spaced.gaps_subset_observe _ _ hgap)

/-- A frame is taken up only after it has been handed over whole. -/
theorem Wired.started_le (hholds : ∃ dat ctl, Holds maxFrame bench dat ctl)
    (hwired : Wired maxFrame bench) :
    bench.started.count false ≤ (bench.dat.cut maxFrame).whole.length ∧
      bench.started.count true ≤ bench.ctl.whole.length := by
  obtain ⟨dat, ctl, hholds⟩ := hholds
  obtain ⟨hdatLe, hctlLe⟩ := hholds.done_le
  cases hwired with
  | resting _ hdat hctl => exact ⟨hdat.trans_le hdatLe, hctl.trans_le hctlLe⟩
  | busy _ hstarted hdat hctl hcurrent =>
      rw [hstarted, List.count_append, List.count_append, hdat, hctl]
      rw [current] at hcurrent
      cases hsrc : bench.tx.srcCtl with
      | true =>
          rw [hsrc, if_pos rfl] at hcurrent
          exact ⟨hdatLe, (List.getElem?_eq_some_iff.mp hcurrent).1⟩
      | false =>
          rw [hsrc, if_neg Bool.false_ne_true] at hcurrent
          exact ⟨(List.getElem?_eq_some_iff.mp hcurrent).1, hctlLe⟩

/-- Once every frame is sent, the wire has shown each of them. -/
theorem Encodes.drained (hencodes : Encodes maxFrame bench) (hdrained : Drained maxFrame bench) :
    bench.wire.closed = bench.images maxFrame bench.started ∧
      bench.started.count false = (bench.dat.cut maxFrame).whole.length ∧
      bench.started.count true = bench.ctl.whole.length := by
  obtain ⟨hst, hnone⟩ := hdrained
  obtain ⟨dat, ctl, hholds⟩ := hencodes.holds
  obtain ⟨hdatLe, hctlLe⟩ := hholds.done_le
  rw [unsent] at hnone
  cases hencodes.wired with
  | busy hbusy => exact absurd hst hbusy
  | resting _ hdat hctl hrested =>
      refine ⟨?_, by omega, by omega⟩
      rw [← hrested.closed]
      rcases hrested.low with hfirst | hlow
      · have hfront := ((bench.wire.closed_prefix_observe bench.tx.miiOut).trans
          (Envelopes.closed_prefix_observe _ bench.tx.nibbleOut)).length_le
        have hzero : bench.ahead.closed.length = 0 := List.length_eq_zero_iff.mpr hfirst
        rw [hfirst]
        exact List.length_eq_zero_iff.mp (Nat.le_zero.mp (hfront.trans_eq hzero))
      · have hquiet := Spaced.quiet_observe bench.wire bench.tx.miiOut
        have hlong : 24 ≤ bench.ahead.low := hlow
        obtain ⟨hclosed, hlow'⟩ := Spaced.closed_of_low hquiet (by
          change 2 ≤ bench.ahead.low
          omega)
        have hlong' : 2 ≤ (bench.wire.observe bench.tx.miiOut).low := by
          change bench.ahead.low = _ at hlow'
          omega
        exact ((hclosed.trans (Spaced.closed_of_low hencodes.quiet hlong').1).symm)

/-- Over every run: the wire shows the encodings of the frames of both ports, each port's in
order and none before it has been handed over whole, with the gap between them; and once
nothing more comes and starting is allowed, all of them. -/
theorem miiTx_run (hsized : Sized maxFrame addrWidth)
    (datMem : BitVec addrWidth → MiiTxWord) (ctlMem : BitVec 6 → MiiTxWord)
    (headQ : MiiTxWord) (edges : List MiiTxEdge) :
    let bench := runFrom (step maxFrame) (start datMem ctlMem headQ) edges
    bench.wire.Shows (bench.images maxFrame bench.started) ∧
      (∀ gap ∈ bench.wire.gaps, ifgNibbles ≤ gap) ∧
      (bench.started.count false ≤ (bench.dat.cut maxFrame).whole.length ∧
        bench.started.count true ≤ bench.ctl.whole.length) ∧
      ∃ enough, ∀ last : List MiiTxCatch, (∀ caught ∈ last, caught.txStartOk = true) →
        enough ≤ last.length →
          let later := runFrom (step maxFrame) bench (last.map .mii)
          later.wire.closed = later.images maxFrame later.started ∧
            later.started.count false = (later.dat.cut maxFrame).whole.length ∧
            later.started.count true = later.ctl.whole.length := by
  intro bench
  have hencodes : Encodes maxFrame bench :=
    encodes_after hsized (encodes_start hsized datMem ctlMem headQ) edges
  obtain ⟨hshows, hgaps⟩ := hencodes.wired.shows
  refine ⟨hshows, hgaps, hencodes.wired.started_le hencodes.holds,
    bench.unsent maxFrame * turn + MiiTxFramer.longest + 7, fun last hok henough => ?_⟩
  have hlater := encodes_after hsized hencodes (last.map .mii)
  refine hlater.drained ?_
  rw [run_mii]
  exact drained_after hsized hencodes.holds hok henough

theorem miiTx_run_endless :
    let start : MiiTxBench 3 := start (fun _ => ⟨false, 0⟩) (fun _ => ⟨false, 0⟩) ⟨false, 0⟩
    let bench := runFrom (step 4) start endless
    bench.wire.Shows (bench.images 4 bench.started) ∧
      (∀ gap ∈ bench.wire.gaps, ifgNibbles ≤ gap) ∧
      (bench.started.count false ≤ (bench.dat.cut 4).whole.length ∧
        bench.started.count true ≤ bench.ctl.whole.length) ∧
      ∃ enough, ∀ last : List MiiTxCatch, (∀ caught ∈ last, caught.txStartOk = true) →
        enough ≤ last.length →
          let later := runFrom (step 4) bench (last.map .mii)
          later.wire.closed = later.images 4 later.started ∧
            later.started.count false = (later.dat.cut 4).whole.length ∧
            later.started.count true = later.ctl.whole.length :=
  miiTx_run (⟨by decide, by decide, by decide⟩ : Sized 4 3) (fun _ => ⟨false, 0⟩)
    (fun _ => ⟨false, 0⟩) ⟨false, 0⟩ endless

end MiiTxBench

end EmacZero
