/-
The transmit half of `gmii_cdc` in the end: once the writers rest every stored control frame
is sent, and if nothing holds the data frames back every stored frame is.
-/
import EmacZero.GmiiCdcTxRun

namespace EmacZero

namespace GmiiTxReadout

variable {tx : GmiiTxReadout} {speed : BitVec 2} {frame : List GmiiTxWord} {taken : Nat}
variable {rdData : GmiiTxWord} {rdEmpty ctlPending datPending hold : Bool}

/-- The cycles until the frame is closed. -/
def left (speed : BitVec 2) (tx : GmiiTxReadout) (frame : List GmiiTxWord) (taken : Nat) : Nat :=
  if tx.txStartDelay = 0 then
    (frame.length - tx.sent frame taken) * byteCycles speed + tx.paceCnt.toNat + 1
  else tx.txStartDelay.toNat + frame.length * byteCycles speed + 1

theorem left_congr {other : List GmiiTxWord} (hlength : other.length = frame.length) :
    left speed tx other taken = left speed tx frame taken := by
  rw [left, left, sent, sent, hlength]

theorem left_le (speed : BitVec 2) (tx : GmiiTxReadout) (frame : List GmiiTxWord)
    (taken : Nat) : left speed tx frame taken ≤ 2 ^ 11 + frame.length * byteCycles speed := by
  have hdelay := tx.txStartDelay.isLt
  have hpace := tx.paceCnt.isLt
  have hrest : (frame.length - tx.sent frame taken) * byteCycles speed ≤
      frame.length * byteCycles speed := Nat.mul_le_mul_right _ (Nat.sub_le _ _)
  rw [left]
  split <;> omega

theorem left_pos (speed : BitVec 2) (tx : GmiiTxReadout) (frame : List GmiiTxWord)
    (taken : Nat) : 1 ≤ left speed tx frame taken := by
  rw [left]
  split <;> exact Nat.le_add_left 1 _

/-- Every edge within the frame brings its end nearer. -/
theorem At.left_edge (hat : tx.At speed frame taken) (hloaded : tx.txFrameLoaded = true)
    (hne : frame ≠ []) (hmarked : MarkedBy GmiiTxWord.eof frame)
    (hlong : LongEnough speed frame) (hback : tx.givesWay ctlPending hold = false)
    (hport : taken < frame.length → tx.txStartDelay.toNat < (txGap speed).toNat →
      rdEmpty = false ∧ frame[taken]? = some rdData) (hdone : tx.done = false) :
    left speed (tx.edge speed rdData rdEmpty ctlPending datPending hold) frame
      (taken + tx.txRdEn.toNat) + 1 = left speed tx frame taken := by
  have hgap := two_le_txGap speed
  by_cases hdelay : tx.txStartDelay = 0
  · have hnow : taken < frame.length → rdEmpty = false ∧ frame[taken]? = some rdData :=
      fun hlt => hport hlt (by rw [hdelay]; exact lt_of_lt_of_le (by decide) hgap)
    obtain ⟨hdelay', hcycle⟩ := @At.edge_sent tx speed frame taken rdData rdEmpty ctlPending
      datPending hold hat hloaded hdelay hmarked hlong hdone hnow
    have hcycles : byteCycles speed = (paceMax speed).toNat + 1 := rfl
    rw [left, left, if_pos hdelay', if_pos hdelay]
    rcases hcycle with ⟨hcnt, hsent, hnext, hlt, -⟩ | ⟨hnext, hsent, -⟩
    · obtain ⟨more, hmore⟩ := Nat.exists_eq_add_of_lt hlt
      rw [hsent, hnext, hcnt, hmore, show (0 : BitVec 10).toNat = 0 from rfl,
        show tx.sent frame taken + more + 1 - (tx.sent frame taken + 1) = more by omega,
        show tx.sent frame taken + more + 1 - tx.sent frame taken = more + 1 by omega,
        Nat.succ_mul]
      omega
    · rw [hsent]
      omega
  · have hpred := txStartDelay_pred hdelay
    have hless : (tx.edge speed rdData rdEmpty ctlPending datPending hold).txStartDelay =
        tx.txStartDelay - 1 := by
      rw [edge_gap hloaded hback hdelay, GmiiTxReadout.gapEdge]
      split <;> rfl
    rw [left, left, if_neg hdelay, hless]
    cases hat with
    | bytes hzero => exact absurd hzero hdelay
    | last hzero => exact absurd hzero hdelay
    | gap _ hend hrdEn _ hnone =>
        by_cases hlast : tx.txStartDelay = 1
        · have hfilled := (hport (by rw [hnone]; exact List.length_pos_iff.mpr hne) (by
            rw [hlast]
            exact lt_of_lt_of_le (by decide) hgap)).1
          have hcond : (tx.txStartDelay == 1 && !rdEmpty) = true := by
            rw [hlast, hfilled]
            rfl
          have hcnt : (tx.edge speed rdData rdEmpty ctlPending datPending hold).paceCnt = 0 := by
            rw [edge_gap hloaded hback hdelay, GmiiTxReadout.gapEdge, if_pos hcond]
          have hend' : (tx.edge speed rdData rdEmpty ctlPending datPending hold).txFrameEnd =
              false := by
            rw [edge_gap hloaded hback hdelay, GmiiTxReadout.gapEdge, if_pos hcond]
            exact hend
          have hzero : tx.txStartDelay - 1 = 0 := by
            rw [hlast]
            rfl
          rw [if_pos hzero, sent, hend', hcnt, hnone, hrdEn, hlast, if_neg Bool.false_ne_true]
          change (frame.length - 0) * _ + 0 + 1 + 1 = 1 + _ + 1
          rw [Nat.sub_zero]
          omega
        · have hmore : tx.txStartDelay - 1 ≠ 0 := fun hzero => by
            rw [hzero] at hpred
            exact hlast (BitVec.eq_of_toNat_eq hpred.symm)
          rw [if_neg hmore]
          omega

/-- The start delay runs down. -/
theorem edge_txStartDelay (hloaded : tx.txFrameLoaded = true)
    (hback : tx.givesWay ctlPending hold = false) :
    (tx.edge speed rdData rdEmpty ctlPending datPending hold).txStartDelay =
      if tx.txStartDelay = 0 then 0 else tx.txStartDelay - 1 := by
  by_cases hdelay : tx.txStartDelay = 0
  · rw [if_pos hdelay]
    cases hend : tx.txFrameEnd with
    | true =>
        rw [edge_end hloaded hdelay hend, GmiiTxReadout.endEdge]
        split <;> exact hdelay
    | false =>
        rw [edge_byte hloaded hdelay hend]
        simp only [GmiiTxReadout.byteEdge]
        split
        · exact hdelay
        · split <;> exact hdelay
  · rw [if_neg hdelay, edge_gap hloaded hback hdelay, GmiiTxReadout.gapEdge]
    split <;> rfl

/-- A frame that does not give way to a control frame goes on, unless it is held. -/
theorem givesWay_edge {later : Bool} (hloaded : tx.txFrameLoaded = true)
    (hback : tx.givesWay ctlPending hold = false) (hlater : later = true → ctlPending = true) :
    (tx.edge speed rdData rdEmpty ctlPending datPending hold).givesWay later false = false := by
  rw [givesWay, edge_txSelCtl hloaded, edge_txStartDelay hloaded hback]
  cases later with
  | false => exact Bool.and_false _
  | true =>
      rw [givesWay, hlater rfl] at hback
      cases hsel : tx.txSelCtl with
      | true => simp only [Bool.not_true, Bool.and_false, Bool.false_and]
      | false =>
          rw [hsel, Bool.or_true, Bool.not_false, Bool.and_true, Bool.and_true,
            decide_eq_false_iff_not, BitVec.lt_def, not_lt] at hback
          have hone : (1 : BitVec 11).toNat = 1 := rfl
          rw [hone] at hback
          have hzero : (if tx.txStartDelay = 0 then 0 else tx.txStartDelay - 1) =
              (0 : BitVec 11) := by
            split
            · rfl
            · rename_i hdelay
              have hpred := txStartDelay_pred hdelay
              exact BitVec.eq_of_toNat_eq (by
                change _ = 0
                omega)
          rw [hzero]
          rfl

end GmiiTxReadout

namespace GmiiTxBench

variable {ramStyle : RamStyle} {maxFrame : Nat} {speed : BitVec 2}
variable {bench : GmiiTxBench ramStyle} {held : Bool}

/-- The frames that have not been sent to the end: all of them, or those of control if the
data frames may be held back. -/
def awaited (held : Bool) (bench : GmiiTxBench ramStyle) : Nat :=
  (if held then 0 else bench.dat.stored.whole.length - bench.datDone) +
    (bench.ctl.stored.whole.length - bench.ctlDone)

/-- No frame has more words. -/
def mostWords (bench : GmiiTxBench ramStyle) : Nat :=
  bench.dat.stored.whole.flatten.length + bench.ctl.stored.whole.flatten.length

/-- The cycles that a frame and its gap take at most. -/
def turn (speed : BitVec 2) (bench : GmiiTxBench ramStyle) : Nat :=
  (txGap speed).toNat + bench.mostWords * byteCycles speed + 2

/-- The frame that is loaded is one of those awaited. -/
def awaits (held : Bool) (bench : GmiiTxBench ramStyle) : Bool := !held || bench.tx.txSelCtl

/-- For so many edges of `media_clk` nothing has been written, nor the data frames held back
if they may not be. -/
structure Quieted (held : Bool) (bench : GmiiTxBench ramStyle)
    (dat : PacketQueue GmiiTxWord (2 ^ 14) ramStyle.staged)
    (ctl : PacketQueue GmiiTxWord (2 ^ 7) RamStyle.distributed.staged) (edges : Nat) : Prop where
  dat : dat.Settled edges
  ctl : ctl.Settled edges
  first : held = false → 1 ≤ edges → bench.tx.txHoldS1 = false
  second : held = false → 2 ≤ edges → bench.tx.txHoldS2 = false

section Steps

variable {dat : PacketQueue GmiiTxWord (2 ^ 14) ramStyle.staged}
variable {ctl : PacketQueue GmiiTxWord (2 ^ 7) RamStyle.distributed.staged}
variable {frame : List GmiiTxWord} {taken edges : Nat}

theorem quieted_zero (held : Bool) (bench : GmiiTxBench ramStyle)
    (dat : PacketQueue GmiiTxWord (2 ^ 14) ramStyle.staged)
    (ctl : PacketQueue GmiiTxWord (2 ^ 7) RamStyle.distributed.staged) :
    Quieted held bench dat ctl 0 :=
  ⟨PacketQueue.settled_zero dat, PacketQueue.settled_zero ctl,
    fun _ hle => absurd hle (by decide), fun _ hle => absurd hle (by decide)⟩

theorem Quieted.mediaEdge (hquieted : Quieted held bench dat ctl edges) {caught : GmiiTxCatch}
    (hhold : held = false → caught.txHold = false) (datRd ctlRd : Bool) :
    Quieted held (bench.mediaEdge caught) (dat.rdEdge datRd caught.datSkew caught.datLate)
      (ctl.rdEdge ctlRd caught.ctlSkew caught.ctlLate) (edges + 1) :=
  ⟨hquieted.dat.rdEdge _ _ _, hquieted.ctl.rdEdge _ _ _, fun hfree _ => hhold hfree,
    fun hfree hle => hquieted.first hfree (Nat.le_of_succ_le_succ hle)⟩

/-- Then the counters tell exactly which frames are left. -/
theorem Quieted.pending (hholds : Holds speed bench dat ctl)
    (hquieted : Quieted held bench dat ctl edges) (hedges : 4 ≤ edges) :
    (bench.tx.ctl.packet.pending = true ↔ bench.ctlDone < bench.ctl.stored.whole.length) ∧
      (bench.tx.dat.packet.pending = true ↔
        bench.datDone < bench.dat.stored.whole.length) := by
  rw [hholds.ctlPending_iff, hholds.datPending_iff, hquieted.dat.seen3 hedges,
    hquieted.ctl.seen3 hedges, hholds.datStores.logs.length_eq, hholds.ctlStores.logs.length_eq]
  exact ⟨Iff.rfl, Iff.rfl⟩

/-- The frame that the readout is at is one that has not been sent. -/
theorem Reads.left_over (hreads : Reads speed bench dat ctl frame taken) :
    if bench.tx.txSelCtl then bench.ctlDone < bench.ctl.stored.whole.length
      else bench.datDone < bench.dat.stored.whole.length := by
  have hcurrent := hreads.current
  rw [GmiiTxBench.current] at hcurrent
  cases hsel : bench.tx.txSelCtl with
  | true =>
      rw [hsel, if_pos rfl] at hcurrent
      exact (List.getElem?_eq_some_iff.mp hcurrent).1
  | false =>
      rw [hsel, if_neg Bool.false_ne_true] at hcurrent
      exact (List.getElem?_eq_some_iff.mp hcurrent).1

theorem awaited_mediaEdge (hreads : Reads speed bench dat ctl frame taken)
    (held : Bool) (caught : GmiiTxCatch) :
    (bench.mediaEdge caught).awaited held + (bench.tx.done && bench.awaits held).toNat =
      bench.awaited held := by
  have hleft := hreads.left_over
  change (if held then 0 else bench.dat.stored.whole.length -
      (bench.datDone + (bench.tx.done && !bench.tx.txSelCtl).toNat)) +
    (bench.ctl.stored.whole.length -
      (bench.ctlDone + (bench.tx.done && bench.tx.txSelCtl).toNat)) +
      (bench.tx.done && (!held || bench.tx.txSelCtl)).toNat = _
  rw [awaited]
  cases hdone : bench.tx.done with
  | false => rfl
  | true =>
      cases hsel : bench.tx.txSelCtl with
      | true =>
          rw [hsel, if_pos rfl] at hleft
          cases held <;> simp only [Bool.not_true, Bool.not_false, Bool.and_true, Bool.and_false,
            Bool.or_true, Bool.toNat_true, Bool.toNat_false, if_true, Bool.false_eq_true,
            if_false] <;> omega
      | false =>
          rw [hsel, if_neg Bool.false_ne_true] at hleft
          cases held <;> simp only [Bool.not_true, Bool.not_false, Bool.and_true, Bool.and_false,
            Bool.or_false, Bool.toNat_true, Bool.toNat_false, if_true, Bool.false_eq_true,
            if_false] <;> omega

theorem awaited_of_not_loaded (hloaded : bench.tx.txFrameLoaded = false) (held : Bool)
    (caught : GmiiTxCatch) : (bench.mediaEdge caught).awaited held = bench.awaited held := by
  obtain ⟨hdat, hctl⟩ := done_mediaEdge (GmiiTxReadout.done_of_not_loaded hloaded) caught
  rw [awaited, awaited, hdat, hctl]
  rfl

theorem Holds.awaited_le (hholds : Holds speed bench dat ctl) (held : Bool)
    (caught : GmiiTxCatch) : (bench.mediaEdge caught).awaited held ≤ bench.awaited held := by
  cases hloaded : bench.tx.txFrameLoaded with
  | false => exact (awaited_of_not_loaded hloaded held caught).le
  | true =>
      obtain ⟨frame, taken, hreads⟩ := hholds.reads hloaded
      have hcount := awaited_mediaEdge hreads held caught
      omega

theorem turn_mediaEdge (caught : GmiiTxCatch) :
    turn speed (bench.mediaEdge caught) = turn speed bench := rfl

/-- The frame that the readout is at is one of the stored frames. -/
theorem Reads.length_le (hreads : Reads speed bench dat ctl frame taken) :
    frame.length ≤ bench.mostWords := by
  have hcurrent := hreads.current
  have hmap : frame.length = (frame.map GmiiTxWord.beat).length := by rw [List.length_map]
  rw [hmap, mostWords]
  rw [GmiiTxBench.current] at hcurrent
  split at hcurrent
  · exact (List.sublist_flatten_of_mem (List.mem_of_getElem? hcurrent)).length_le.trans
      (Nat.le_add_left _ _)
  · exact (List.sublist_flatten_of_mem (List.mem_of_getElem? hcurrent)).length_le.trans
      (Nat.le_add_right _ _)

/-- One edge further in the frame. -/
theorem Reads.next {shown : List GmiiTxWord} {other : Nat} (hholds : Holds speed bench dat ctl)
    (hreads : Reads speed bench dat ctl frame taken) (hloaded : bench.tx.txFrameLoaded = true)
    (hdone : bench.tx.done = false) {caught : GmiiTxCatch}
    (hnext : Reads speed (bench.mediaEdge caught)
      (dat.rdEdge bench.tx.txdRdEn caught.datSkew caught.datLate)
      (ctl.rdEdge bench.tx.ctlRdEn caught.ctlSkew caught.ctlLate) shown other) :
    shown.length = frame.length ∧ other = taken + bench.tx.txRdEn.toNat := by
  have hread := hholds.readsAt_mediaEdge hloaded hdone hreads.read caught
  have hcurrent := hnext.current
  rw [current_mediaEdge hloaded hdone, hreads.current, Option.some.injEq] at hcurrent
  refine ⟨?_, hnext.read.unique hread⟩
  rw [← List.length_map (f := GmiiTxWord.beat), ← hcurrent, List.length_map]

/-- An awaited frame that does not give way never will. -/
theorem Quieted.goes (hholds : Holds speed bench dat ctl)
    (hquieted : Quieted held bench dat ctl edges) (hedges : 4 ≤ edges)
    (hloaded : bench.tx.txFrameLoaded = true)
    (hback : bench.tx.givesWay bench.tx.ctl.packet.pending bench.tx.txHoldS2 = false)
    (hdone : bench.tx.done = false) (hawaits : bench.awaits held = true) {caught : GmiiTxCatch}
    (hnext : Holds speed (bench.mediaEdge caught)
      (dat.rdEdge bench.tx.txdRdEn caught.datSkew caught.datLate)
      (ctl.rdEdge bench.tx.ctlRdEn caught.ctlSkew caught.ctlLate))
    (hlater : Quieted held (bench.mediaEdge caught)
      (dat.rdEdge bench.tx.txdRdEn caught.datSkew caught.datLate)
      (ctl.rdEdge bench.tx.ctlRdEn caught.ctlSkew caught.ctlLate) (edges + 1)) :
    (bench.mediaEdge caught).tx.givesWay (bench.mediaEdge caught).tx.ctl.packet.pending
      (bench.mediaEdge caught).tx.txHoldS2 = false := by
  cases hsel : bench.tx.txSelCtl with
  | true =>
      have hkept : (bench.mediaEdge caught).tx.txSelCtl = bench.tx.txSelCtl :=
        GmiiTxReadout.edge_txSelCtl hloaded
      rw [GmiiTxReadout.givesWay, hkept, hsel, Bool.not_true, Bool.and_false, Bool.false_and]
  | false =>
      obtain ⟨hctl, -⟩ := hquieted.pending hholds hedges
      obtain ⟨hctl', -⟩ := hlater.pending hnext (Nat.le_succ_of_le hedges)
      obtain ⟨-, hctlDone⟩ := done_mediaEdge hdone caught
      rw [awaits, hsel, Bool.or_false, Bool.not_eq_true'] at hawaits
      rw [hlater.second hawaits (by omega)]
      refine GmiiTxReadout.givesWay_edge hloaded hback fun hpending => hctl.mpr ?_
      rw [hctl', hctlDone] at hpending
      exact hpending

/-- Where a frame is awaited one of those is picked, and it is sent. -/
theorem Quieted.picks (hholds : Holds speed bench dat ctl)
    (hquieted : Quieted held bench dat ctl edges) (hedges : 4 ≤ edges)
    (hloaded : bench.tx.txFrameLoaded = false) (hawaited : 0 < bench.awaited held)
    {caught : GmiiTxCatch} (hspeed : caught.cfgSpeed = speed)
    (hhold : held = false → caught.txHold = false) :
    (bench.mediaEdge caught).tx.txFrameLoaded = true ∧
      (bench.mediaEdge caught).tx.txStartDelay = txGap speed ∧
      (bench.mediaEdge caught).awaits held = true ∧
      (bench.mediaEdge caught).tx.givesWay (bench.mediaEdge caught).tx.ctl.packet.pending
        (bench.mediaEdge caught).tx.txHoldS2 = false := by
  have hnext := hholds.mediaEdge hspeed
  have hlater := hquieted.mediaEdge hhold bench.tx.txdRdEn bench.tx.ctlRdEn
  obtain ⟨hctl, hdat⟩ := hquieted.pending hholds hedges
  obtain ⟨hctl', -⟩ := hlater.pending hnext (Nat.le_succ_of_le hedges)
  obtain ⟨-, hctlDone⟩ := done_mediaEdge (GmiiTxReadout.done_of_not_loaded hloaded) caught
  have hsome : bench.tx.ctl.packet.pending = true ∨
      held = false ∧ bench.tx.dat.packet.pending = true := by
    rw [hctl, hdat]
    rw [awaited] at hawaited
    cases held with
    | true =>
        rw [if_pos rfl] at hawaited
        exact .inl (by omega)
    | false =>
        rw [if_neg Bool.false_ne_true] at hawaited
        by_cases hleft : bench.ctlDone < bench.ctl.stored.whole.length
        · exact .inl hleft
        · exact .inr ⟨rfl, by omega⟩
  have hpick : (bench.tx.ctl.packet.pending ||
      bench.tx.dat.packet.pending && !bench.tx.txHoldS2) = true := by
    rcases hsome with hpending | ⟨hfree, hpending⟩
    · rw [hpending, Bool.true_or]
    · rw [hpending, hquieted.second hfree (by omega), Bool.not_false, Bool.and_true,
        Bool.or_true]
  rcases pick_mediaEdge hloaded caught with ⟨-, hbusy, hsel, hdelay⟩ | ⟨hnone, -⟩
  · rw [(hholds.speed_of_pick hpick).2] at hdelay
    have hsame : (bench.mediaEdge caught).tx.ctl.packet.pending =
        bench.tx.ctl.packet.pending := by
      rw [Bool.eq_iff_iff, hctl', hctl, hctlDone]
      rfl
    refine ⟨hbusy, hdelay, ?_, ?_⟩
    · rw [awaits, hsel]
      rcases hsome with hpending | ⟨hfree, -⟩
      · rw [hpending, Bool.or_true]
      · rw [hfree, Bool.not_false, Bool.true_or]
    · rw [GmiiTxReadout.givesWay, hsel, hsame]
      rcases hsome with hpending | ⟨hfree, -⟩
      · rw [hpending, Bool.not_true, Bool.and_false, Bool.false_and]
      · rw [hlater.second hfree (by omega), Bool.false_or, Bool.and_assoc, Bool.not_and_self,
          Bool.and_false]
  · exact absurd (hpick.symm.trans hnone) (by decide)

/-- So many edges of `media_clk` at most until every awaited frame is sent. -/
inductive Waits (held : Bool) (speed : BitVec 2) (bench : GmiiTxBench ramStyle)
    (dat : PacketQueue GmiiTxWord (2 ^ 14) ramStyle.staged)
    (ctl : PacketQueue GmiiTxWord (2 ^ 7) RamStyle.distributed.staged) (left : Nat) : Prop
  | quieting {edges : Nat} (hquieted : Quieted held bench dat ctl edges) (hedges : edges < 4)
      (hleft : (bench.awaited held + 1) * turn speed bench + 2 ^ 11 + (4 - edges) ≤ left) :
      Waits held speed bench dat ctl left
  | resting {edges : Nat} (hquieted : Quieted held bench dat ctl edges) (hedges : 4 ≤ edges)
      (hloaded : bench.tx.txFrameLoaded = false)
      (hleft : bench.awaited held * turn speed bench + 1 ≤ left) :
      Waits held speed bench dat ctl left
  | yielding {edges : Nat} (hquieted : Quieted held bench dat ctl edges) (hedges : 4 ≤ edges)
      (hloaded : bench.tx.txFrameLoaded = true)
      (hback : bench.tx.givesWay bench.tx.ctl.packet.pending bench.tx.txHoldS2 = true)
      (hleft : bench.awaited held * turn speed bench + 2 ≤ left) :
      Waits held speed bench dat ctl left
  | going {edges : Nat} (hquieted : Quieted held bench dat ctl edges) (hedges : 4 ≤ edges)
      (hloaded : bench.tx.txFrameLoaded = true)
      (hback : bench.tx.givesWay bench.tx.ctl.packet.pending bench.tx.txHoldS2 = false)
      (hleft : ∀ frame taken, Reads speed bench dat ctl frame taken →
        (bench.awaited held - (bench.awaits held).toNat) * turn speed bench +
          GmiiTxReadout.left speed bench.tx.toGmiiTxReadout frame taken + 1 ≤ left) :
      Waits held speed bench dat ctl left

theorem waits_of_quieted {left : Nat} (hquieted : Quieted held bench dat ctl edges)
    (hedges : 4 ≤ edges)
    (hleft : (bench.awaited held + 1) * turn speed bench + 2 ^ 11 ≤ left) :
    Waits held speed bench dat ctl left := by
  have hturn : turn speed bench =
      (txGap speed).toNat + bench.mostWords * byteCycles speed + 2 := rfl
  rw [Nat.succ_mul] at hleft
  cases hloaded : bench.tx.txFrameLoaded with
  | false => exact .resting hquieted hedges hloaded (by omega)
  | true =>
      cases hback : bench.tx.givesWay bench.tx.ctl.packet.pending bench.tx.txHoldS2 with
      | true => exact .yielding hquieted hedges hloaded hback (by omega)
      | false =>
          refine .going hquieted hedges hloaded hback fun frame taken hreads => ?_
          have hmost := GmiiTxReadout.left_le speed bench.tx.toGmiiTxReadout frame taken
          have hwords : frame.length * byteCycles speed ≤
              bench.mostWords * byteCycles speed := Nat.mul_le_mul_right _ hreads.length_le
          have hturns : (bench.awaited held - (bench.awaits held).toNat) * turn speed bench ≤
              bench.awaited held * turn speed bench := Nat.mul_le_mul_right _ (Nat.sub_le _ _)
          omega

/-- Every awaited frame is sent, and where the data frames are not held back the last one has
ended. -/
structure Drained (held : Bool) (bench : GmiiTxBench ramStyle) : Prop where
  awaited : bench.awaited held = 0
  ended : held = false → bench.tx.txFrameLoaded = false ∧ bench.wire.opened = []

/-- Where nothing is left nothing is picked. -/
theorem Holds.not_picked (hholds : Holds speed bench dat ctl)
    (hnone : bench.awaited held = 0) (hloaded : held = false → bench.tx.txFrameLoaded = false)
    (caught : GmiiTxCatch) : Drained held (bench.mediaEdge caught) := by
  refine ⟨Nat.le_zero.mp ((hholds.awaited_le held caught).trans_eq hnone), fun hfree => ?_⟩
  have hidle := hloaded hfree
  have hdat := hholds.datStores.logs.length_eq
  have hctl := hholds.ctlStores.logs.length_eq
  have hdatSeen := dat.seen3_le_frames
  have hctlSeen := ctl.seen3_le_frames
  rw [GmiiTxBench.awaited, hfree, if_neg Bool.false_ne_true] at hnone
  have hdatPending : bench.tx.dat.packet.pending = false := by
    rw [← Bool.not_eq_true, hholds.datPending_iff]
    omega
  have hctlPending : bench.tx.ctl.packet.pending = false := by
    rw [← Bool.not_eq_true, hholds.ctlPending_iff]
    omega
  constructor
  · rcases pick_mediaEdge hidle caught with ⟨hpick, -⟩ | ⟨-, hnext, -⟩
    · rw [hdatPending, hctlPending] at hpick
      exact absurd hpick Bool.false_ne_true
    · exact hnext
  · change (bench.wire.observe bench.tx.gmiiOut).opened = []
    rw [gmiiOut_of_quiet (hholds.resting hidle).2]
    exact Envelopes.observe_none_opened _

theorem waits_step {left : Nat} {caught : GmiiTxCatch} (hholds : Holds speed bench dat ctl)
    (hspeed : caught.cfgSpeed = speed) (hhold : held = false → caught.txHold = false)
    (hwaits : Waits held speed bench dat ctl left) :
    Drained held (bench.mediaEdge caught) ∨
      Waits held speed (bench.mediaEdge caught)
        (dat.rdEdge bench.tx.txdRdEn caught.datSkew caught.datLate)
        (ctl.rdEdge bench.tx.ctlRdEn caught.ctlSkew caught.ctlLate) (left - 1) := by
  have hnext := hholds.mediaEdge hspeed
  have hfewer := hholds.awaited_le held caught
  cases hwaits with
  | @quieting edges hquieted hedges hleft =>
      have hlater := hquieted.mediaEdge hhold bench.tx.txdRdEn bench.tx.ctlRdEn
      have hturns : ((bench.mediaEdge caught).awaited held + 1) *
          turn speed (bench.mediaEdge caught) ≤ (bench.awaited held + 1) * turn speed bench :=
        Nat.mul_le_mul_right _ (Nat.succ_le_succ hfewer)
      right
      by_cases hmore : edges + 1 < 4
      · exact .quieting hlater hmore (by omega)
      · exact waits_of_quieted hlater (by omega) (by omega)
  | @resting edges hquieted hedges hloaded hleft =>
      have hlater := hquieted.mediaEdge hhold bench.tx.txdRdEn bench.tx.ctlRdEn
      by_cases hnone : bench.awaited held = 0
      · exact .inl (hholds.not_picked hnone (fun _ => hloaded) caught)
      · obtain ⟨hbusy, hdelay, hawaits, hback⟩ := hquieted.picks hholds hedges hloaded
          (Nat.pos_of_ne_zero hnone) hspeed hhold
        refine .inr (.going hlater (Nat.le_succ_of_le hedges) hbusy hback
          fun frame taken hreads => ?_)
        have hgap := two_le_txGap speed
        have hlong : txGap speed ≠ 0 := fun hzero => by
          rw [hzero] at hgap
          exact absurd hgap (by decide)
        have hwords : frame.length * byteCycles speed ≤ bench.mostWords * byteCycles speed :=
          Nat.mul_le_mul_right _ hreads.length_le
        have hturn : turn speed bench =
            (txGap speed).toNat + bench.mostWords * byteCycles speed + 2 := rfl
        have hturns : bench.awaited held = bench.awaited held - 1 + 1 := by omega
        rw [hturns, Nat.succ_mul] at hleft
        rw [GmiiTxReadout.left, if_neg (by rw [hdelay]; exact hlong), hdelay, hawaits,
          Bool.toNat_true, awaited_of_not_loaded hloaded, turn_mediaEdge]
        omega
  | @yielding edges hquieted hedges hloaded hback hleft =>
      have hlater := hquieted.mediaEdge hhold bench.tx.txdRdEn bench.tx.ctlRdEn
      have hturns : (bench.mediaEdge caught).awaited held * turn speed (bench.mediaEdge caught) ≤
          bench.awaited held * turn speed bench := Nat.mul_le_mul_right _ hfewer
      have hclosed : (bench.mediaEdge caught).tx.toGmiiTxReadout =
          { bench.tx.tick bench.tx.cfgSpeedS2 with txFrameLoaded := false } :=
        GmiiTxReadout.edge_back hloaded hback
      refine .inr (.resting hlater (Nat.le_succ_of_le hedges) ?_ (by omega))
      rw [hclosed]
  | @going edges hquieted hedges hloaded hback hleft =>
      have hlater := hquieted.mediaEdge hhold bench.tx.txdRdEn bench.tx.ctlRdEn
      obtain ⟨frame, taken, hreads⟩ := hholds.reads hloaded
      have henough := hleft frame taken hreads
      have hcount := awaited_mediaEdge hreads held caught
      right
      cases hdone : bench.tx.done with
      | true =>
          have hpos := GmiiTxReadout.left_pos speed bench.tx.toGmiiTxReadout frame taken
          rw [hdone, Bool.true_and] at hcount
          refine .resting hlater (Nat.le_succ_of_le hedges)
            (GmiiTxReadout.edge_done hdone).1 ?_
          rw [turn_mediaEdge, show (bench.mediaEdge caught).awaited held =
            bench.awaited held - (bench.awaits held).toNat by omega]
          omega
      | false =>
          obtain ⟨-, hnow⟩ := hholds.warm_of_loaded hloaded
          have hedge := @GmiiTxReadout.At.left_edge bench.tx.toGmiiTxReadout speed frame taken
            bench.tx.txRdData bench.tx.txRdEmpty bench.tx.ctl.packet.pending
            bench.tx.dat.packet.pending bench.tx.txHoldS2 hreads.place hloaded hreads.ne
            hreads.marked hreads.long hback hreads.port hdone
          have hbusy := @GmiiTxReadout.At.edge bench.tx.toGmiiTxReadout speed bench.tx.txRdData
            bench.tx.txRdEmpty bench.tx.ctl.packet.pending bench.tx.dat.packet.pending
            bench.tx.txHoldS2 frame taken hreads.place hloaded hreads.ne hreads.marked
            hreads.long hback hreads.port hdone
          have hsame : (bench.mediaEdge caught).tx.toGmiiTxReadout =
              bench.tx.edge speed bench.tx.txRdData bench.tx.txRdEmpty
                bench.tx.ctl.packet.pending bench.tx.dat.packet.pending bench.tx.txHoldS2 := by
            rw [← hnow]
            rfl
          have hkept : (bench.mediaEdge caught).awaits held = bench.awaits held := by
            rw [awaits, awaits]
            exact congrArg _ (GmiiTxReadout.edge_txSelCtl hloaded)
          rw [← hsame] at hedge hbusy
          rw [hdone, Bool.false_and, Bool.toNat_false, Nat.add_zero] at hcount
          cases hagain : (bench.mediaEdge caught).tx.givesWay
              (bench.mediaEdge caught).tx.ctl.packet.pending
              (bench.mediaEdge caught).tx.txHoldS2 with
          | false =>
              refine .going hlater (Nat.le_succ_of_le hedges) hbusy.1 hagain
                fun shown other hshown => ?_
              obtain ⟨hlength, rfl⟩ := hreads.next hholds hloaded hdone hshown
              rw [GmiiTxReadout.left_congr hlength, turn_mediaEdge, hkept, hcount]
              omega
          | true =>
              -- a data frame gives way later only if it is not awaited
              have hnot : bench.awaits held = false := by
                by_contra hawaits
                have hgoes := hquieted.goes hholds hedges hloaded hback hdone
                  ((Bool.not_eq_false _).mp hawaits) hnext hlater
                exact absurd (hagain.symm.trans hgoes) (by decide)
              have hfar : (bench.mediaEdge caught).tx.txStartDelay ≠ 0 := fun hzero => by
                rw [GmiiTxReadout.givesWay_of_zero hzero] at hagain
                cases hagain
              have htwo : 2 ≤ GmiiTxReadout.left speed
                  (bench.mediaEdge caught).tx.toGmiiTxReadout frame
                    (taken + bench.tx.txRdEn.toNat) := by
                have hpos : (bench.mediaEdge caught).tx.txStartDelay.toNat ≠ 0 :=
                  fun hzero => hfar (BitVec.eq_of_toNat_eq hzero)
                rw [GmiiTxReadout.left, if_neg hfar]
                omega
              rw [hnot, Bool.toNat_false, Nat.sub_zero] at henough
              refine .yielding hlater (Nat.le_succ_of_le hedges) hbusy.1 hagain ?_
              rw [turn_mediaEdge, hcount]
              omega

theorem drained_step (hholds : Holds speed bench dat ctl) (hdrained : Drained held bench)
    (caught : GmiiTxCatch) : Drained held (bench.mediaEdge caught) :=
  hholds.not_picked hdrained.awaited (fun hfree => (hdrained.ended hfree).1) caught

/-- Once every frame is sent, the wire has shown each of them. -/
theorem Wired.drained (hholds : Holds speed bench dat ctl) (hwired : Wired speed bench dat ctl)
    (hdrained : Drained false bench) :
    bench.wire.closed = bench.images speed bench.started ∧
      bench.started.count false = bench.dat.stored.whole.length ∧
      bench.started.count true = bench.ctl.stored.whole.length := by
  obtain ⟨hnone, hended⟩ := hdrained
  obtain ⟨hloaded, hclosed⟩ := hended rfl
  obtain ⟨hdatLe, hctlLe⟩ := hholds.done_le
  rw [GmiiTxBench.awaited, if_neg Bool.false_ne_true] at hnone
  cases hwired with
  | sending hbusy => exact absurd (hloaded.symm.trans hbusy) (by decide)
  | waiting _ hdat hctl hpaused =>
      refine ⟨?_, by omega, by omega⟩
      rw [← hpaused.closed, ahead, gmiiOut_of_quiet (hholds.resting hloaded).2,
        Spaced.observe_toEnvelopes, Envelopes.observe_none_closed, Envelopes.all_of_idle hclosed]

/-- A frame that has been sent has been started. -/
theorem Wired.done_le_started (hwired : Wired speed bench dat ctl) :
    bench.ctlDone ≤ bench.started.count true := by
  cases hwired with
  | waiting _ _ hctl => exact hctl.ge
  | sending _ _ hstarted _ hctl =>
      rw [hstarted, List.count_append, hctl]
      exact Nat.le_add_right _ _

end Steps

theorem run_media (bench : GmiiTxBench ramStyle) (last : List GmiiTxCatch) :
    runFrom (step maxFrame) bench (last.map .media) = runFrom mediaEdge bench last := by
  rw [runFrom, runFrom, List.foldl_map]
  rfl

/-- So many further edges of `media_clk` are enough. -/
def enough (held : Bool) (speed : BitVec 2) (bench : GmiiTxBench ramStyle) : Nat :=
  (bench.awaited held + 1) * turn speed bench + 2 ^ 11 + 4

theorem drained_after (hholds : ∃ dat ctl, Holds speed bench dat ctl)
    {last : List GmiiTxCatch}
    (hok : ∀ caught ∈ last,
      caught.cfgSpeed = speed ∧ (held = false → caught.txHold = false))
    (henough : enough held speed bench ≤ last.length) :
    Drained held (runFrom mediaEdge bench last) := by
  let goal (later : GmiiTxBench ramStyle) : Prop :=
    (∃ dat ctl, Holds speed later dat ctl) ∧ Drained held later
  let waits (left : Nat) (later : GmiiTxBench ramStyle) : Prop :=
    ∃ dat ctl, Holds speed later dat ctl ∧ Waits held speed later dat ctl left
  have hgoal (later : GmiiTxBench ramStyle) (caught : GmiiTxCatch)
      (hcaught : caught.cfgSpeed = speed ∧ (held = false → caught.txHold = false))
      (hreached : goal later) : goal (later.mediaEdge caught) := by
    obtain ⟨⟨dat, ctl, hhere⟩, hdrained⟩ := hreached
    exact ⟨⟨_, _, hhere.mediaEdge hcaught.1⟩, drained_step hhere hdrained caught⟩
  have hwaits (later : GmiiTxBench ramStyle) (caught : GmiiTxCatch) (left : Nat)
      (hcaught : caught.cfgSpeed = speed ∧ (held = false → caught.txHold = false))
      (hwaits : waits left later) :
      goal (later.mediaEdge caught) ∨ waits (left - true.toNat) (later.mediaEdge caught) := by
    obtain ⟨dat, ctl, hhere, hleft⟩ := hwaits
    rcases waits_step hhere hcaught.1 hcaught.2 hleft with hdrained | hmore
    · exact .inl ⟨⟨_, _, hhere.mediaEdge hcaught.1⟩, hdrained⟩
    · exact .inr ⟨_, _, hhere.mediaEdge hcaught.1, hmore⟩
  have hdone (later : GmiiTxBench ramStyle) : ¬ waits 0 later := by
    rintro ⟨dat, ctl, hhere, hnone⟩
    cases hnone with
    | quieting _ _ hleft => omega
    | resting _ _ _ hleft => omega
    | yielding _ _ _ _ hleft => omega
    | going _ _ hloaded _ hleft =>
        obtain ⟨frame, taken, hreads⟩ := hhere.reads hloaded
        have hzero := hleft frame taken hreads
        omega
  have hstart : goal bench ∨ waits (enough held speed bench) bench := by
    obtain ⟨dat, ctl, hhere⟩ := hholds
    exact .inr ⟨dat, ctl, hhere,
      .quieting (quieted_zero held bench dat ctl) (by decide) (le_of_eq rfl)⟩
  have hcount : enough held speed bench ≤ last.countP fun _ => true := by
    rw [List.countP_true]
    exact henough
  exact (reached_along goal waits hgoal hwaits hdone (along_of_mem hok bench) hstart hcount).2

theorem media_keeps (bench : GmiiTxBench ramStyle) (last : List GmiiTxCatch) :
    (runFrom mediaEdge bench last).dat = bench.dat ∧
      (runFrom mediaEdge bench last).ctl = bench.ctl := by
  induction last generalizing bench with
  | nil => exact ⟨rfl, rfl⟩
  | cons caught rest ih => exact ih (bench.mediaEdge caught)

/-- Where nothing more comes and nothing is held back every stored frame is sent. -/
theorem encodes_drains (hencodes : ∃ dat ctl, Encodes maxFrame speed bench dat ctl)
    {last : List GmiiTxCatch}
    (hlast : ∀ caught ∈ last, caught.cfgSpeed = speed ∧ caught.txHold = false)
    (henough : enough false speed bench ≤ last.length) :
    let later := runFrom mediaEdge bench last
    later.wire.closed = bench.images speed later.started ∧
      later.started.count false = bench.dat.stored.whole.length ∧
      later.started.count true = bench.ctl.stored.whole.length := by
  intro later
  have hdrained : Drained false later := by
    obtain ⟨dat, ctl, hhere⟩ := hencodes
    exact drained_after ⟨dat, ctl, hhere.holds⟩ (fun caught hmem => by
      exact ⟨(hlast caught hmem).1, fun _ => (hlast caught hmem).2⟩) henough
  obtain ⟨_, _, hlater⟩ := invariant_along
    (fun (bench : GmiiTxBench ramStyle) (caught : GmiiTxCatch)
      (hcaught : caught.cfgSpeed = speed ∧ caught.txHold = false)
      (hencodes : ∃ dat ctl, Encodes maxFrame speed bench dat ctl) => by
        obtain ⟨dat, ctl, hencodes⟩ := hencodes
        exact ⟨_, _, hencodes.mediaEdge hcaught.1⟩)
    hencodes (along_of_mem hlast bench)
  obtain ⟨hclosed, hdat, hctl⟩ := hlater.wired.drained hlater.holds hdrained
  obtain ⟨hdatKept, hctlKept⟩ := media_keeps bench last
  rw [hdatKept] at hdat
  rw [hctlKept] at hctl
  rw [images, hdatKept, hctlKept] at hclosed
  exact ⟨hclosed, hdat, hctl⟩

/-- Over every run in which both writers keep to their rules, at a constant speed: no word is
refused; the wire shows the frames of both, each one's in order and none before it has been
stored whole, every byte with its error flag for as long as the speed asks for, with the gap
between the frames; and once nothing more comes and nothing is held back, all of them. -/
theorem gmiiTx_run (hmax : maxFrame ≤ 16370) (datMem : BitVec 14 → GmiiTxWord)
    (ctlMem : BitVec 7 → GmiiTxWord) (headQ : GmiiTxWord) (edges : List GmiiTxEdge)
    (hok : Along (step maxFrame) (WellBehaved maxFrame speed)
      (start datMem ctlMem headQ : GmiiTxBench ramStyle) edges) :
    let bench : GmiiTxBench ramStyle :=
      runFrom (step maxFrame) (start datMem ctlMem headQ) edges
    (bench.dat.stored.whole = bench.dat.sent.closed ∧
        bench.ctl.stored.whole = bench.ctl.sent.closed) ∧
      bench.wire.Shows (bench.images speed bench.started) ∧
      (∀ gap ∈ bench.wire.gaps, gapCycles speed ≤ gap) ∧
      (bench.started.count false ≤ bench.dat.stored.whole.length ∧
        bench.started.count true ≤ bench.ctl.stored.whole.length) ∧
      ∃ enough, ∀ last : List GmiiTxCatch,
        (∀ caught ∈ last, caught.cfgSpeed = speed ∧ caught.txHold = false) →
        enough ≤ last.length →
          let later := runFrom (step maxFrame) bench (last.map .media)
          later.wire.closed = bench.images speed later.started ∧
            later.started.count false = bench.dat.stored.whole.length ∧
            later.started.count true = bench.ctl.stored.whole.length := by
  intro bench
  have hencodes : ∃ dat ctl, Encodes maxFrame speed bench dat ctl :=
    invariant_along (encodes_step hmax)
      ⟨_, _, encodes_start maxFrame speed datMem ctlMem headQ⟩ hok
  obtain ⟨dat, ctl, hhere⟩ := hencodes
  obtain ⟨hshows, hgaps⟩ := hhere.wired.shows
  refine ⟨⟨hhere.datKept.whole, hhere.ctlKept.whole⟩, hshows, hgaps,
    hhere.wired.started_le hhere.holds, enough false speed bench, fun last hlast henough => ?_⟩
  rw [run_media]
  exact encodes_drains ⟨dat, ctl, hhere⟩ hlast henough

/-- A cycle of a writer: a byte with its error flag, or nothing. -/
def offering : Option (BitVec 8 × Bool) → GmiiTxIn
  | some beat => ⟨beat.1, true, beat.2⟩
  | none => ⟨0, false, false⟩

/-- Each writer offers a frame, and leaves two cycles behind the longer one. -/
def writes (dat ctl : List (BitVec 8 × Bool)) : List GmiiTxEdge :=
  (List.range (max dat.length ctl.length + 2)).map fun index =>
    .sys (offering dat[index]?) (offering ctl[index]?) ⟨false, false⟩ ⟨false, false⟩

/-- `media_clk` runs and `sys_clk` stands still. -/
def medias (speed : BitVec 2) (hold : Bool) (count : Nat) : List GmiiTxEdge :=
  List.replicate count (.media ⟨speed, hold, ⟨false, false⟩, false, ⟨false, false⟩, false⟩)

/-- A frame of each writer at once, and another one of the data writer while the first ones
are sent. -/
def bothWriters : List GmiiTxEdge :=
  writes [(0x55, false), (0xd5, false), (0x11, true)] [(0x55, false), (0x88, false)] ++
    medias 0 false 24 ++ writes [(0x55, false), (0x22, false)] [] ++ medias 0 false 46

theorem gmiiTx_run_bothWriters :
    let bench : GmiiTxBench .block :=
      runFrom (step 9018) (start (fun _ => ⟨false, false, 0⟩) (fun _ => ⟨false, false, 0⟩)
        ⟨false, false, 0⟩) bothWriters
    bench.started = [true, false, false] ∧
      bench.wire.closed = [[(0x55, false), (0x88, false)],
        [(0x55, false), (0xd5, false), (0x11, true)], [(0x55, false), (0x22, false)]] ∧
      bench.wire.gaps = [12, 12] ∧
      (bench.dat.stored.whole = bench.dat.sent.closed ∧
        bench.ctl.stored.whole = bench.ctl.sent.closed) ∧
      bench.wire.Shows (bench.images 0 bench.started) := by
  have hok : Along (step 9018) (WellBehaved 9018 0)
      (start (fun _ => ⟨false, false, 0⟩) (fun _ => ⟨false, false, 0⟩) ⟨false, false, 0⟩ :
        GmiiTxBench .block) bothWriters := by decide +kernel
  obtain ⟨hstored, hshows, -⟩ := gmiiTx_run (by decide) _ _ _ _ hok
  exact ⟨by decide +kernel, by decide +kernel, by decide +kernel, hstored, hshows⟩

end GmiiTxBench

end EmacZero
