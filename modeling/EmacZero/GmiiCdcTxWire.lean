/-
The media side of the transmit half of `gmii_cdc`: each byte of a frame with its error flag
for as many cycles as the speed asks for, one frame after the other, with the gap between
them.
-/
import EmacZero.GmiiCdcTxHolds
import EmacZero.HeldBeats

namespace EmacZero

/-- The cycles of a byte. -/
def byteCycles (speed : BitVec 2) : Nat := (paceMax speed).toNat + 1

/-- The gap before each frame: the start delay, a cycle to close the frame before it and a
cycle to load the next one. -/
def gapCycles (speed : BitVec 2) : Nat := (txGap speed).toNat + 2

/-- Twelve byte times, the least gap that a frame may have before it. -/
theorem twelve_le_gapCycles (speed : BitVec 2) : 12 * byteCycles speed ≤ gapCycles speed := by
  revert speed
  decide

namespace GmiiTxReadout

variable {tx : GmiiTxReadout} {speed : BitVec 2} {frame : List GmiiTxWord} {taken : Nat}
variable {rdData : GmiiTxWord} {rdEmpty ctlPending datPending hold : Bool}

/-- The bytes of the frame that have been sent, the one in the output register included. -/
def sent (tx : GmiiTxReadout) (frame : List GmiiTxWord) (taken : Nat) : Nat :=
  if tx.txFrameEnd then frame.length else taken

/-- A cycle at the bytes of the frame: the next one goes out, or the last one stays. -/
theorem At.edge_sent (hat : tx.At speed frame taken) (hloaded : tx.txFrameLoaded = true)
    (hdelay : tx.txStartDelay = 0) (hmarked : MarkedBy GmiiTxWord.eof frame)
    (hlong : LongEnough speed frame) (hdone : tx.done = false)
    (hport : taken < frame.length → rdEmpty = false ∧ frame[taken]? = some rdData) :
    let next := tx.edge speed rdData rdEmpty ctlPending datPending hold
    let later := next.sent frame (taken + tx.txRdEn.toNat)
    next.txStartDelay = 0 ∧
      ((tx.paceCnt = 0 ∧ later = tx.sent frame taken + 1 ∧ next.paceCnt = paceMax speed ∧
          tx.sent frame taken < frame.length ∧
          next.gmiiOut = frame[tx.sent frame taken]?.map GmiiTxWord.beat) ∨
        (next.paceCnt.toNat + 1 = tx.paceCnt.toNat ∧ later = tx.sent frame taken ∧
          tx.sent frame taken ≠ 0 ∧ tx.sent frame taken ≤ frame.length ∧
          tx.paceCnt.toNat ≤ (paceMax speed).toNat ∧
          next.gmiiOut = frame[tx.sent frame taken - 1]?.map GmiiTxWord.beat)) := by
  intro next later
  cases hat with
  | gap hnot => exact absurd hdelay hnot
  | bytes _ hend hmore hrdEn hfirst hpace hout =>
      obtain ⟨hfilled, hword⟩ := hport hmore
      have hsent : tx.sent frame taken = taken := by
        rw [sent, hend, if_neg Bool.false_ne_true]
      have hnext : next = tx.byteEdge speed rdData false := by
        rw [← hfilled]
        exact edge_byte hloaded hdelay hend
      have hdelay' : next.txStartDelay = 0 := by
        rw [hnext, GmiiTxReadout.byteEdge, if_neg Bool.false_ne_true, ← hdelay]
        split <;> rfl
      refine ⟨hdelay', ?_⟩
      rw [hsent]
      by_cases htick : tx.paceCnt = 0
      · have htick' : tx.paceTick = true := beq_iff_eq.mpr htick
        have heof : rdData.eof = decide (taken + 1 = frame.length) := by
          rw [Bool.eq_iff_iff, decide_eq_true_iff]
          exact hmarked taken rdData hword
        have hpop := pop_eq hlong hmore hrdEn htick
        have hend' : next.txFrameEnd = decide (taken + 1 = frame.length) := by
          rw [hnext, GmiiTxReadout.byteEdge, if_neg Bool.false_ne_true, if_pos htick']
          change (if rdData.eof then true else tx.txFrameEnd) = _
          rw [hend, heof]
          cases decide (taken + 1 = frame.length) <;> rfl
        refine .inl ⟨htick, ?_, ?_, hmore, ?_⟩
        · change (if next.txFrameEnd then frame.length else taken + tx.txRdEn.toNat) = _
          rw [hend']
          by_cases hlast : taken + 1 = frame.length
          · rw [decide_eq_true hlast, if_pos rfl, hlast]
          · rw [decide_eq_false hlast, if_neg Bool.false_ne_true, hpop,
              decide_eq_true (by omega : taken + 1 < frame.length), Bool.or_true,
              Bool.toNat_true]
        · rw [hnext, GmiiTxReadout.byteEdge, if_neg Bool.false_ne_true, if_pos htick']
          exact if_pos htick'
        · rw [hnext, GmiiTxReadout.byteEdge, if_neg Bool.false_ne_true, if_pos htick', hword]
          rfl
      · have htick' : tx.paceTick = false := beq_eq_false_iff_ne.mpr htick
        have hpop : tx.txRdEn = false := by
          rw [hrdEn, beq_eq_false_iff_ne.mpr htick, Bool.false_and]
        have hpos : taken ≠ 0 := fun hzero => htick (hfirst hzero)
        refine .inr ⟨?_, ?_, hpos, hmore.le, hpace, ?_⟩
        · rw [hnext, GmiiTxReadout.byteEdge, if_neg Bool.false_ne_true, htick']
          change (if tx.paceTick then paceMax speed else tx.paceCnt - 1).toNat + 1 = _
          rw [htick', if_neg Bool.false_ne_true, paceCnt_pred htick]
        · change (if next.txFrameEnd then frame.length else taken + tx.txRdEn.toNat) = _
          rw [hnext, GmiiTxReadout.byteEdge, if_neg Bool.false_ne_true, htick', hpop]
          exact if_neg fun htrue => Bool.false_ne_true (hend.symm.trans htrue)
        · rw [if_neg hpos] at hout
          rw [hnext, GmiiTxReadout.byteEdge, if_neg Bool.false_ne_true, htick', ← hout]
          rfl
  | last _ hend hrdEn hpace htaken hout =>
      have hsent : tx.sent frame taken = frame.length := by
        rw [sent, hend, if_pos rfl]
      have htick : tx.paceCnt ≠ 0 := fun hzero => by
        rw [done_iff.mpr ⟨hloaded, hdelay, hend, hzero⟩] at hdone
        cases hdone
      have htick' : tx.paceTick = false := beq_eq_false_iff_ne.mpr htick
      have hnext : next = tx.tick speed := by
        change tx.edge speed rdData rdEmpty ctlPending datPending hold = _
        rw [edge_end hloaded hdelay hend, GmiiTxReadout.endEdge, htick',
          if_neg Bool.false_ne_true]
      have hslow : is1g speed = false := by
        by_contra hfast
        rw [paceMax_of_1g ((Bool.not_eq_false _).mp hfast)] at hpace
        exact htick (BitVec.eq_of_toNat_eq (Nat.le_zero.mp hpace))
      refine ⟨by rw [hnext]; exact hdelay, .inr ⟨?_, ?_, ?_, hsent.le, hpace, ?_⟩⟩
      · rw [hnext]
        change (if tx.paceTick then paceMax speed else tx.paceCnt - 1).toNat + 1 = _
        rw [htick', if_neg Bool.false_ne_true, paceCnt_pred htick]
      · change (if next.txFrameEnd then frame.length else taken + tx.txRdEn.toNat) = _
        rw [hsent, hnext]
        exact if_pos hend
      · rw [hsent, ← htaken, hslow]
        exact Nat.succ_ne_zero taken
      · rw [hsent, hnext]
        exact hout

/-- While nothing is sent no byte of the frame has been. -/
theorem At.sent_zero (hat : tx.At speed frame taken) (hdelay : tx.txStartDelay = 0)
    (hne : frame ≠ []) (hout : tx.gmiiOut = none) : tx.sent frame taken = 0 := by
  cases hat with
  | gap hnot => exact absurd hdelay hnot
  | bytes _ hend hmore _ _ _ hbyte =>
      rw [sent, hend, if_neg Bool.false_ne_true]
      by_contra hsome
      rw [hout, if_neg hsome, List.getElem?_eq_getElem (by omega)] at hbyte
      cases hbyte
  | last _ _ _ _ _ hbyte =>
      rw [hout, List.getElem?_eq_getElem (Nat.sub_one_lt (List.length_pos_iff.mpr hne).ne')]
        at hbyte
      cases hbyte

end GmiiTxReadout

/-- So many cycles of low enable are still to come before the next frame. -/
def owed (speed : BitVec 2) (tx : GmiiTxReadout) : Nat :=
  if tx.txFrameLoaded then tx.txStartDelay.toNat else (txGap speed).toNat + 1

/-- Before a frame these envelopes have ended, and part of the gap behind them. -/
structure Paused (speed : BitVec 2) (images : List (List (BitVec 8 × Bool))) (owed : Nat)
    (wire : Spaced (BitVec 8 × Bool)) : Prop where
  closed : wire.closed = images
  opened : wire.opened = []
  low : gapCycles speed ≤ wire.low + owed
  gaps : ∀ gap ∈ wire.gaps, gapCycles speed ≤ gap

/-- Behind these envelopes the frame shows as far as it has been sent. -/
structure GmiiShowing (speed : BitVec 2) (tx : GmiiTxReadout) (beats : List (BitVec 8 × Bool))
    (sent : Nat) (images : List (List (BitVec 8 × Bool))) (wire : Spaced (BitVec 8 × Bool)) :
    Prop where
  closed : wire.closed = images
  opened : wire.opened =
    (heldFor (byteCycles speed) beats).take (sent * byteCycles speed - tx.paceCnt.toNat)
  low : sent = 0 → gapCycles speed ≤ wire.low
  gaps : ∀ gap ∈ wire.gaps, gapCycles speed ≤ gap

section Frames

open GmiiTxReadout (LongEnough)

variable {speed : BitVec 2} {tx : GmiiTxReadout} {frame : List GmiiTxWord} {taken owing : Nat}
variable {rdData : GmiiTxWord} {rdEmpty ctlPending datPending hold : Bool}
variable {images : List (List (BitVec 8 × Bool))} {wire : Spaced (BitVec 8 × Bool)}

/-- A cycle of low enable. -/
theorem Paused.pass (hpaused : Paused speed images (owing + 1) wire) :
    Paused speed images owing (wire.observe none) := by
  have hclosed : (wire.observe none).closed = wire.closed := by
    rw [Spaced.observe_toEnvelopes, Envelopes.observe_none_closed,
      Envelopes.all_of_idle hpaused.opened]
  refine ⟨hclosed.trans hpaused.closed, Envelopes.observe_none_opened _, ?_, hpaused.gaps⟩
  rw [Spaced.observe_none_low]
  refine hpaused.low.trans_eq ?_
  omega

/-- The gap starts again; it never gets shorter. -/
theorem Paused.again (hpaused : Paused speed images owing wire) :
    Paused speed images ((txGap speed).toNat + 1) (wire.observe none) := by
  have hclosed : (wire.observe none).closed = wire.closed := by
    rw [Spaced.observe_toEnvelopes, Envelopes.observe_none_closed,
      Envelopes.all_of_idle hpaused.opened]
  refine ⟨hclosed.trans hpaused.closed, Envelopes.observe_none_opened _, ?_, hpaused.gaps⟩
  rw [Spaced.observe_none_low, gapCycles]
  omega

/-- The gap is over. -/
theorem Paused.showing (hpaused : Paused speed images 0 wire) (hcnt : tx.paceCnt = 0)
    (beats : List (BitVec 8 × Bool)) : GmiiShowing speed tx beats 0 images wire := by
  refine ⟨hpaused.closed, ?_, fun _ => hpaused.low, hpaused.gaps⟩
  rw [hpaused.opened, hcnt, Nat.zero_mul]
  rfl

/-- As soon as a byte has been sent the frame shows. -/
theorem GmiiShowing.opened_ne {sent : Nat}
    (hshowing : GmiiShowing speed tx (frame.map GmiiTxWord.beat) sent images wire)
    (hsome : sent ≠ 0) (hle : sent ≤ frame.length)
    (hpace : tx.paceCnt.toNat ≤ (paceMax speed).toNat) : wire.opened ≠ [] := by
  obtain ⟨before, rfl⟩ := Nat.exists_eq_succ_of_ne_zero hsome
  have hcycles : byteCycles speed = (paceMax speed).toNat + 1 := rfl
  have hfull : (before + 1) * byteCycles speed ≤ frame.length * byteCycles speed :=
    Nat.mul_le_mul_right _ hle
  rw [Nat.succ_mul] at hfull
  rw [hshowing.opened, ← List.length_pos_iff, List.length_take, length_heldFor, List.length_map,
    Nat.succ_mul]
  omega

/-- One more beat leaves the gaps as they are to be. -/
theorem GmiiShowing.gaps_beat {beats : List (BitVec 8 × Bool)} {sent : Nat}
    (hshowing : GmiiShowing speed tx beats sent images wire) (hsent : sent ≠ 0 → wire.opened ≠ [])
    (beat : Option (BitVec 8 × Bool)) :
    ∀ gap ∈ (wire.observe beat).gaps, gapCycles speed ≤ gap := by
  by_cases hfirst : sent = 0
  · exact Spaced.observe_gaps_of_low hshowing.gaps (hshowing.low hfirst) beat
  · rw [Spaced.observe_gaps_of_opened (hsent hfirst)]
    exact hshowing.gaps

/-- A cycle at the bytes of the frame. -/
theorem GmiiShowing.edge
    (hshowing : GmiiShowing speed tx (frame.map GmiiTxWord.beat) (tx.sent frame taken) images wire)
    (hat : tx.At speed frame taken) (hloaded : tx.txFrameLoaded = true)
    (hdelay : tx.txStartDelay = 0) (hmarked : MarkedBy GmiiTxWord.eof frame)
    (hlong : LongEnough speed frame) (hdone : tx.done = false)
    (hport : taken < frame.length → rdEmpty = false ∧ frame[taken]? = some rdData) :
    let next := tx.edge speed rdData rdEmpty ctlPending datPending hold
    next.txStartDelay = 0 ∧
      GmiiShowing speed next (frame.map GmiiTxWord.beat)
        (next.sent frame (taken + tx.txRdEn.toNat)) images (wire.observe next.gmiiOut) := by
  intro next
  obtain ⟨hdelay', hcycle⟩ := @GmiiTxReadout.At.edge_sent tx speed frame taken rdData rdEmpty
    ctlPending datPending hold hat hloaded hdelay hmarked hlong hdone hport
  refine ⟨hdelay', ?_⟩
  have hcycles : byteCycles speed = (paceMax speed).toNat + 1 := rfl
  have hpos : 0 < byteCycles speed := Nat.succ_pos _
  rcases hcycle with ⟨hcnt, hsent, hnext, hlt, hout⟩ | ⟨hnext, hsent, hsome, hle, hpace, hout⟩
  · have hbeat : (frame.map GmiiTxWord.beat)[tx.sent frame taken]? =
        some (frame[tx.sent frame taken]).beat := by
      rw [List.getElem?_map, List.getElem?_eq_getElem hlt]
      rfl
    have hout' : next.gmiiOut = some (frame[tx.sent frame taken]).beat := by
      rw [← hbeat, List.getElem?_map]
      exact hout
    have hopened := hshowing.opened
    rw [hcnt, show (0 : BitVec 10).toNat = 0 from rfl, Nat.sub_zero] at hopened
    have hshown : (wire.observe next.gmiiOut).opened =
        (heldFor (byteCycles speed) (frame.map GmiiTxWord.beat)).take
          (tx.sent frame taken * byteCycles speed + 0 + 1) := by
      rw [take_heldFor hpos hbeat, Nat.add_zero, ← hopened, hout']
      rfl
    refine ⟨?_, ?_, fun hzero => ?_, hshowing.gaps_beat (fun hfirst =>
      hshowing.opened_ne hfirst hlt.le (by rw [hcnt]; exact Nat.zero_le _)) _⟩
    · rw [hout']
      exact hshowing.closed
    · rw [hshown, hsent, hnext]
      congr 1
      rw [Nat.succ_mul]
      omega
    · rw [hsent] at hzero
      exact absurd hzero (Nat.succ_ne_zero _)
  · obtain ⟨before, hbefore⟩ := Nat.exists_eq_succ_of_ne_zero hsome
    have hcnt : next.paceCnt.toNat + 1 = tx.paceCnt.toNat := hnext
    have hlt : before < frame.length := by omega
    have hbeat : (frame.map GmiiTxWord.beat)[before]? = some (frame[before]).beat := by
      rw [List.getElem?_map, List.getElem?_eq_getElem hlt]
      rfl
    have hout' : next.gmiiOut = some (frame[before]).beat := by
      rw [hbefore, Nat.succ_sub_one] at hout
      rw [← hbeat, List.getElem?_map]
      exact hout
    have hplace : tx.sent frame taken * byteCycles speed - tx.paceCnt.toNat =
        before * byteCycles speed + (byteCycles speed - tx.paceCnt.toNat) := by
      rw [hbefore, Nat.succ_mul]
      omega
    have hopened := hshowing.opened
    rw [hplace] at hopened
    have hindex : byteCycles speed - tx.paceCnt.toNat < byteCycles speed := by omega
    have hshown : (wire.observe next.gmiiOut).opened =
        (heldFor (byteCycles speed) (frame.map GmiiTxWord.beat)).take
          (before * byteCycles speed + (byteCycles speed - tx.paceCnt.toNat) + 1) := by
      rw [take_heldFor hindex hbeat, ← hopened, hout']
      rfl
    refine ⟨?_, ?_, fun hzero => ?_,
      hshowing.gaps_beat (fun _ => hshowing.opened_ne hsome hle hpace) _⟩
    · rw [hout']
      exact hshowing.closed
    · rw [hshown, hsent, hbefore, Nat.succ_mul]
      congr 1
      omega
    · rw [hsent] at hzero
      exact absurd hzero hsome

/-- The frame is closed: all of it has shown. -/
theorem GmiiShowing.edge_done
    (hshowing : GmiiShowing speed tx (frame.map GmiiTxWord.beat) (tx.sent frame taken) images wire)
    (hne : frame ≠ []) (hdone : tx.done = true) :
    Paused speed (images ++ [heldFor (byteCycles speed) (frame.map GmiiTxWord.beat)])
      ((txGap speed).toNat + 1) (wire.observe none) := by
  obtain ⟨-, -, hend, hcnt⟩ := GmiiTxReadout.done_iff.mp hdone
  have hopened := hshowing.opened
  have hlength : (heldFor (byteCycles speed) (frame.map GmiiTxWord.beat)).length =
      frame.length * byteCycles speed := by
    rw [length_heldFor, List.length_map]
  rw [GmiiTxReadout.sent, hend, if_pos rfl, hcnt, show (0 : BitVec 10).toNat = 0 from rfl,
    Nat.sub_zero, List.take_of_length_le hlength.le] at hopened
  have hbusy : wire.opened ≠ [] := by
    rw [hopened, ← List.length_pos_iff, hlength]
    exact Nat.mul_pos (List.length_pos_iff.mpr hne) (Nat.succ_pos _)
  refine ⟨?_, Envelopes.observe_none_opened _, ?_, hshowing.gaps⟩
  · rw [Spaced.observe_toEnvelopes, Envelopes.observe_none_closed,
      Envelopes.all_of_busy hbusy, hshowing.closed, hopened]
  · rw [Spaced.observe_none_low, gapCycles]
    omega

end Frames

namespace GmiiTxBench

variable {ramStyle : RamStyle} {speed : BitVec 2} {bench : GmiiTxBench ramStyle}

/-- The wire with what is in the output registers. -/
def ahead (bench : GmiiTxBench ramStyle) : Spaced (BitVec 8 × Bool) :=
  bench.wire.observe bench.tx.gmiiOut

/-- What the wire shows of the stored frames started in this order. -/
def images (speed : BitVec 2) (bench : GmiiTxBench ramStyle) (order : List Bool) :
    List (List (BitVec 8 × Bool)) :=
  (merge order bench.dat.stored.whole bench.ctl.stored.whole).map
    (heldFor (byteCycles speed))

/-- The stored frame that the readout is at. -/
def current (bench : GmiiTxBench ramStyle) : Option (List (BitVec 8 × Bool)) :=
  if bench.tx.txSelCtl then bench.ctl.stored.whole[bench.ctlDone]?
  else bench.dat.stored.whole[bench.datDone]?

/-- So many words of the frame that is loaded have been consumed. -/
def ReadsAt (bench : GmiiTxBench ramStyle)
    (dat : PacketQueue GmiiTxWord (2 ^ 14) ramStyle.staged)
    (ctl : PacketQueue GmiiTxWord (2 ^ 7) RamStyle.distributed.staged) (taken : Nat) : Prop :=
  if bench.tx.txSelCtl then ctl.ReadTo bench.ctlDone taken else dat.ReadTo bench.datDone taken

/-- The readout is at this frame. -/
structure Reads (speed : BitVec 2) (bench : GmiiTxBench ramStyle)
    (dat : PacketQueue GmiiTxWord (2 ^ 14) ramStyle.staged)
    (ctl : PacketQueue GmiiTxWord (2 ^ 7) RamStyle.distributed.staged)
    (frame : List GmiiTxWord) (taken : Nat) : Prop where
  current : bench.current = some (frame.map GmiiTxWord.beat)
  ne : frame ≠ []
  marked : MarkedBy GmiiTxWord.eof frame
  long : GmiiTxReadout.LongEnough speed frame
  place : bench.tx.At speed frame taken
  read : bench.ReadsAt dat ctl taken
  port : taken < frame.length → bench.tx.txStartDelay.toNat < (txGap speed).toNat →
    bench.tx.txRdEmpty = false ∧ frame[taken]? = some bench.tx.txRdData

/-- The wire, told from the order in which frames have been started. -/
inductive Wired (speed : BitVec 2) (bench : GmiiTxBench ramStyle)
    (dat : PacketQueue GmiiTxWord (2 ^ 14) ramStyle.staged)
    (ctl : PacketQueue GmiiTxWord (2 ^ 7) RamStyle.distributed.staged) : Prop
  | waiting (hdelay : bench.tx.txFrameLoaded = true → bench.tx.txStartDelay ≠ 0)
      (hdat : bench.started.count false = bench.datDone)
      (hctl : bench.started.count true = bench.ctlDone)
      (hpaused : Paused speed (bench.images speed bench.started)
        (owed speed bench.tx.toGmiiTxReadout) bench.ahead) : Wired speed bench dat ctl
  | sending {order : List Bool} {frame : List GmiiTxWord} {taken : Nat}
      (hloaded : bench.tx.txFrameLoaded = true) (hdelay : bench.tx.txStartDelay = 0)
      (hstarted : bench.started = order ++ [bench.tx.txSelCtl])
      (hdat : order.count false = bench.datDone) (hctl : order.count true = bench.ctlDone)
      (hcurrent : bench.current = some (frame.map GmiiTxWord.beat))
      (hread : bench.ReadsAt dat ctl taken)
      (hshowing : GmiiShowing speed bench.tx.toGmiiTxReadout (frame.map GmiiTxWord.beat)
        (bench.tx.sent frame taken) (bench.images speed order) bench.ahead) :
      Wired speed bench dat ctl

section Steps

variable {dat : PacketQueue GmiiTxWord (2 ^ 14) ramStyle.staged}
variable {ctl : PacketQueue GmiiTxWord (2 ^ 7) RamStyle.distributed.staged}
variable {frame : List GmiiTxWord} {taken : Nat}

theorem Holds.reads (hholds : Holds speed bench dat ctl)
    (hloaded : bench.tx.txFrameLoaded = true) :
    ∃ frame taken, Reads speed bench dat ctl frame taken := by
  cases hsel : bench.tx.txSelCtl with
  | true =>
      obtain ⟨frame, taken, hframe, hat, hread, hport, -⟩ :=
        hholds.ctlServes.reads hholds.ctlStores.follows hsel hloaded
      have hmem := List.mem_of_getElem? hframe
      refine ⟨frame, taken, ?_, ctl.frames_ne frame hmem, hholds.ctlStores.logs.marked frame hmem,
        hholds.ctlLong frame hmem, hat, ?_, ?_⟩
      · rw [current, hsel, if_pos rfl, hholds.ctlStores.logs.getElem? hframe]
      · rw [ReadsAt, hsel, if_pos rfl]
        exact hread
      · rw [GmiiCdcTx.txRdEmpty, GmiiCdcTx.txRdData, hsel, if_pos rfl, if_pos rfl]
        exact hport
  | false =>
      obtain ⟨frame, taken, hframe, hat, hread, hport, -⟩ :=
        hholds.datServes.reads hholds.datStores.follows (by rw [hsel]; rfl) hloaded
      have hmem := List.mem_of_getElem? hframe
      refine ⟨frame, taken, ?_, dat.frames_ne frame hmem, hholds.datStores.logs.marked frame hmem,
        hholds.datLong frame hmem, hat, ?_, ?_⟩
      · rw [current, hsel, if_neg Bool.false_ne_true, hholds.datStores.logs.getElem? hframe]
      · rw [ReadsAt, hsel, if_neg Bool.false_ne_true]
        exact hread
      · rw [GmiiCdcTx.txRdEmpty, GmiiCdcTx.txRdData, hsel, if_neg Bool.false_ne_true,
          if_neg Bool.false_ne_true]
        exact hport

/-- How far the frame has been read is told by what has been consumed. -/
theorem ReadsAt.unique {other : Nat} (hread : bench.ReadsAt dat ctl taken)
    (hother : bench.ReadsAt dat ctl other) : taken = other := by
  rw [ReadsAt] at hread hother
  split at hread
  · rw [if_pos ‹_›] at hother
    have hpopped := hread.popped.symm.trans hother.popped
    omega
  · rw [if_neg ‹_›] at hother
    have hpopped := hread.popped.symm.trans hother.popped
    omega

/-- The frames of both streams that have been read. -/
theorem done_mediaEdge (hdone : bench.tx.done = false) (caught : GmiiTxCatch) :
    (bench.mediaEdge caught).datDone = bench.datDone ∧
      (bench.mediaEdge caught).ctlDone = bench.ctlDone := by
  change bench.datDone + (bench.tx.done && _).toNat = _ ∧
    bench.ctlDone + (bench.tx.done && _).toNat = _
  rw [hdone]
  exact ⟨rfl, rfl⟩

theorem started_mediaEdge (hstarts : bench.tx.starts = false) (caught : GmiiTxCatch) :
    (bench.mediaEdge caught).started = bench.started := by
  change (if bench.tx.starts = true then _ else _) = _
  rw [hstarts, if_neg Bool.false_ne_true]

theorem starts_of_not_loaded (hloaded : bench.tx.txFrameLoaded = false) :
    bench.tx.starts = false := by
  rw [GmiiTxReadout.starts, hloaded]
  rfl

theorem starts_of_ne (hdelay : bench.tx.txStartDelay ≠ 1) : bench.tx.starts = false := by
  rw [GmiiTxReadout.starts, beq_eq_false_iff_ne.mpr hdelay]
  exact Bool.and_false _

theorem images_concat {order : List Bool} {chosen : Bool} {beats : List (BitVec 8 × Bool)}
    (hbeats : (if chosen then bench.ctl.stored.whole[order.count true]?
      else bench.dat.stored.whole[order.count false]?) = some beats) :
    bench.images speed (order ++ [chosen]) =
      bench.images speed order ++ [heldFor (byteCycles speed) beats] := by
  rw [images, images, merge_concat, hbeats, List.map_append]
  rfl

theorem ahead_mediaEdge (bench : GmiiTxBench ramStyle) (caught : GmiiTxCatch) :
    (bench.mediaEdge caught).ahead =
      bench.ahead.observe (bench.mediaEdge caught).tx.gmiiOut := rfl

theorem gmiiOut_of_quiet {tx : GmiiTxReadout} (hquiet : tx.gmiiTxEnOut = false) :
    tx.gmiiOut = none := by
  rw [GmiiTxReadout.gmiiOut, hquiet, if_neg Bool.false_ne_true]

/-- An edge of `media_clk` while no frame is loaded. -/
theorem Wired.pick (hholds : Holds speed bench dat ctl)
    (hdat : bench.started.count false = bench.datDone)
    (hctl : bench.started.count true = bench.ctlDone)
    (hpaused : Paused speed (bench.images speed bench.started)
      (owed speed bench.tx.toGmiiTxReadout) bench.ahead)
    (hloaded : bench.tx.txFrameLoaded = false) (caught : GmiiTxCatch)
    (dat' : PacketQueue GmiiTxWord (2 ^ 14) ramStyle.staged)
    (ctl' : PacketQueue GmiiTxWord (2 ^ 7) RamStyle.distributed.staged) :
    Wired speed (bench.mediaEdge caught) dat' ctl' := by
  obtain ⟨hdatDone, hctlDone⟩ := done_mediaEdge (GmiiTxReadout.done_of_not_loaded hloaded) caught
  have hstarted := started_mediaEdge (starts_of_not_loaded hloaded) caught
  have hquiet : (bench.mediaEdge caught).tx.gmiiTxEnOut = false :=
    (hholds.resting.pick hloaded).2
  have howed : owed speed bench.tx.toGmiiTxReadout = (txGap speed).toNat + 1 := by
    rw [owed, hloaded, if_neg Bool.false_ne_true]
  refine .waiting (fun hnext => ?_) (by rw [hstarted, hdatDone, hdat])
    (by rw [hstarted, hctlDone, hctl]) ?_
  · rcases pick_mediaEdge hloaded caught with ⟨-, -, -, hdelay⟩ | ⟨-, hnot, -⟩
    · intro hzero
      have hlong := two_le_txGap bench.tx.cfgSpeedS2
      have hnone : txGap bench.tx.cfgSpeedS2 = 0 := hdelay.symm.trans hzero
      rw [hnone] at hlong
      exact absurd hlong (by decide)
    · exact absurd (hnot.symm.trans hnext) (by decide)
  · have himages : (bench.mediaEdge caught).images speed (bench.mediaEdge caught).started =
        bench.images speed bench.started := by
      rw [hstarted]
      rfl
    rw [himages, ahead_mediaEdge, gmiiOut_of_quiet hquiet]
    rcases pick_mediaEdge hloaded caught with ⟨hpick, hnext, -, hdelay⟩ | ⟨-, hnot, -⟩
    · have hspeed := (hholds.speed_of_pick hpick).2
      have howed' : owed speed (bench.mediaEdge caught).tx.toGmiiTxReadout =
          (txGap speed).toNat := by
        rw [owed, if_pos hnext, ← hspeed]
        exact congrArg BitVec.toNat hdelay
      rw [howed']
      rw [howed] at hpaused
      exact hpaused.pass
    · have howed' : owed speed (bench.mediaEdge caught).tx.toGmiiTxReadout =
          (txGap speed).toNat + 1 := by
        rw [owed]
        exact if_neg fun hnext => Bool.false_ne_true (hnot.symm.trans hnext)
      rw [howed']
      exact hpaused.again

theorem Holds.readsAt_mediaEdge (hholds : Holds speed bench dat ctl)
    (hloaded : bench.tx.txFrameLoaded = true) (hdone : bench.tx.done = false)
    (hread : bench.ReadsAt dat ctl taken) (caught : GmiiTxCatch) :
    (bench.mediaEdge caught).ReadsAt
      (dat.rdEdge bench.tx.txdRdEn caught.datSkew caught.datLate)
      (ctl.rdEdge bench.tx.ctlRdEn caught.ctlSkew caught.ctlLate)
      (taken + bench.tx.txRdEn.toNat) := by
  obtain ⟨hdatDone, hctlDone⟩ := done_mediaEdge hdone caught
  have hkept : (bench.mediaEdge caught).tx.txSelCtl = bench.tx.txSelCtl :=
    GmiiTxReadout.edge_txSelCtl hloaded
  rw [ReadsAt, hkept, hdatDone, hctlDone, GmiiCdcTx.txdRdEn, GmiiCdcTx.ctlRdEn]
  cases hsel : bench.tx.txSelCtl with
  | true =>
      obtain ⟨frame, other, -, -, hother, -, hnext⟩ :=
        hholds.ctlServes.reads hholds.ctlStores.follows hsel hloaded
      have hsame : bench.ReadsAt dat ctl other := by
        rw [ReadsAt, hsel, if_pos rfl]
        exact hother
      rw [hread.unique hsame, if_pos rfl, Bool.and_true]
      exact hnext caught.ctlSkew caught.ctlLate
  | false =>
      obtain ⟨frame, other, -, -, hother, -, hnext⟩ :=
        hholds.datServes.reads hholds.datStores.follows (by rw [hsel]; rfl) hloaded
      have hsame : bench.ReadsAt dat ctl other := by
        rw [ReadsAt, hsel, if_neg Bool.false_ne_true]
        exact hother
      rw [hread.unique hsame, if_neg Bool.false_ne_true, Bool.not_false, Bool.and_true]
      exact hnext caught.datSkew caught.datLate

theorem current_mediaEdge (hloaded : bench.tx.txFrameLoaded = true)
    (hdone : bench.tx.done = false) (caught : GmiiTxCatch) :
    (bench.mediaEdge caught).current = bench.current := by
  obtain ⟨hdatDone, hctlDone⟩ := done_mediaEdge hdone caught
  have hkept : (bench.mediaEdge caught).tx.txSelCtl = bench.tx.txSelCtl :=
    GmiiTxReadout.edge_txSelCtl hloaded
  rw [current, current, hkept, hdatDone, hctlDone]
  rfl

/-- In the start gap nothing is sent. -/
theorem Holds.gap_quiet (hholds : Holds speed bench dat ctl)
    (hloaded : bench.tx.txFrameLoaded = true) (hdelay : bench.tx.txStartDelay ≠ 0)
    (caught : GmiiTxCatch) : (bench.mediaEdge caught).tx.gmiiTxEnOut = false := by
  obtain ⟨frame, taken, hreads⟩ := hholds.reads hloaded
  cases hback : bench.tx.givesWay bench.tx.ctl.packet.pending bench.tx.txHoldS2 with
  | true =>
      have hnext : (bench.mediaEdge caught).tx.toGmiiTxReadout =
          { bench.tx.tick bench.tx.cfgSpeedS2 with txFrameLoaded := false } :=
        GmiiTxReadout.edge_back hloaded hback
      rw [hnext]
      exact (hreads.place.back hback).2.2.2.1
  | false =>
      have hnext : (bench.mediaEdge caught).tx.toGmiiTxReadout =
          bench.tx.gapEdge bench.tx.cfgSpeedS2 bench.tx.txRdEmpty :=
        GmiiTxReadout.edge_gap hloaded hback hdelay
      rw [hnext, GmiiTxReadout.gapEdge]
      split <;> rfl

/-- An edge of `media_clk` in the start gap of a frame. -/
theorem Wired.gap (hholds : Holds speed bench dat ctl)
    (hloaded : bench.tx.txFrameLoaded = true) (hdelay : bench.tx.txStartDelay ≠ 0)
    (hdat : bench.started.count false = bench.datDone)
    (hctl : bench.started.count true = bench.ctlDone)
    (hpaused : Paused speed (bench.images speed bench.started)
      (owed speed bench.tx.toGmiiTxReadout) bench.ahead) (caught : GmiiTxCatch) :
    Wired speed (bench.mediaEdge caught)
      (dat.rdEdge bench.tx.txdRdEn caught.datSkew caught.datLate)
      (ctl.rdEdge bench.tx.ctlRdEn caught.ctlSkew caught.ctlLate) := by
  obtain ⟨frame, taken, hreads⟩ := hholds.reads hloaded
  have hdone : bench.tx.done = false := GmiiTxReadout.done_of_delay hdelay
  obtain ⟨hdatDone, hctlDone⟩ := done_mediaEdge hdone caught
  have hpred := GmiiTxReadout.txStartDelay_pred hdelay
  have hquiet := hholds.gap_quiet hloaded hdelay caught
  have howed : owed speed bench.tx.toGmiiTxReadout = bench.tx.txStartDelay.toNat := by
    rw [owed, hloaded, if_pos rfl]
  cases hback : bench.tx.givesWay bench.tx.ctl.packet.pending bench.tx.txHoldS2 with
  | true =>
      have hnext : (bench.mediaEdge caught).tx.toGmiiTxReadout =
          { bench.tx.tick bench.tx.cfgSpeedS2 with txFrameLoaded := false } :=
        GmiiTxReadout.edge_back hloaded hback
      have hlate : bench.tx.txStartDelay ≠ 1 := fun hone => by
        rw [GmiiTxReadout.givesWay, hone] at hback
        cases hback
      have hstarted := started_mediaEdge (starts_of_ne hlate) caught
      refine .waiting (fun hbusy => ?_) (by rw [hstarted, hdatDone, hdat])
        (by rw [hstarted, hctlDone, hctl]) ?_
      · rw [hnext] at hbusy
        cases hbusy
      · rw [hnext, hstarted, ahead_mediaEdge, gmiiOut_of_quiet hquiet]
        exact hpaused.again
  | false =>
      have hnext : (bench.mediaEdge caught).tx.toGmiiTxReadout =
          bench.tx.gapEdge bench.tx.cfgSpeedS2 bench.tx.txRdEmpty :=
        GmiiTxReadout.edge_gap hloaded hback hdelay
      have hbusy : (bench.mediaEdge caught).tx.txFrameLoaded = true := by
        rw [hnext, GmiiTxReadout.gapEdge]
        split <;> exact hloaded
      have hless : (bench.mediaEdge caught).tx.txStartDelay = bench.tx.txStartDelay - 1 := by
        rw [hnext, GmiiTxReadout.gapEdge]
        split <;> rfl
      rw [howed, ← hpred] at hpaused
      have hpass := hpaused.pass
      rw [← gmiiOut_of_quiet hquiet, ← ahead_mediaEdge] at hpass
      by_cases hlast : bench.tx.txStartDelay = 1
      · have hstarted : (bench.mediaEdge caught).started =
            bench.started ++ [bench.tx.txSelCtl] := by
          refine if_pos ?_
          rw [GmiiTxReadout.starts, hloaded, hlast]
          rfl
        have hkept : (bench.mediaEdge caught).tx.txSelCtl = bench.tx.txSelCtl :=
          GmiiTxReadout.edge_txSelCtl hloaded
        have hnone : taken = 0 ∧ bench.tx.txRdEn = false := by
          cases hreads.place with
          | gap _ _ hrdEn _ hnone => exact ⟨hnone, hrdEn⟩
          | bytes hzero => exact absurd hzero hdelay
          | last hzero => exact absurd hzero hdelay
        have hread := hholds.readsAt_mediaEdge hloaded hdone hreads.read caught
        rw [hnone.1, hnone.2] at hread
        have hport := hreads.port (by rw [hnone.1]; exact List.length_pos_iff.mpr hreads.ne) (by
          rw [hlast]
          exact lt_of_lt_of_le (by decide) (two_le_txGap speed))
        have hcnt : (bench.mediaEdge caught).tx.paceCnt = 0 := by
          have hcond : (bench.tx.txStartDelay == 1 && !bench.tx.txRdEmpty) = true := by
            rw [hlast, hport.1]
            rfl
          rw [hnext, GmiiTxReadout.gapEdge, if_pos hcond]
        have hend : (bench.mediaEdge caught).tx.txFrameEnd = false := by
          have hbefore : bench.tx.txFrameEnd = false := by
            cases hreads.place with
            | gap _ hend => exact hend
            | bytes hzero => exact absurd hzero hdelay
            | last hzero => exact absurd hzero hdelay
          rw [hnext, GmiiTxReadout.gapEdge]
          split <;> exact hbefore
        rw [hlast] at hless hpass
        refine .sending hbusy hless ?_ (hdat.trans hdatDone.symm) (hctl.trans hctlDone.symm)
          ((current_mediaEdge hloaded hdone caught).trans hreads.current) hread ?_
        · rw [hstarted, hkept]
        · rw [GmiiTxReadout.sent, hend, if_neg Bool.false_ne_true]
          exact hpass.showing hcnt _
      · have hstarted := started_mediaEdge (starts_of_ne hlast) caught
        refine .waiting (fun _ hzero => ?_) (by rw [hstarted, hdatDone, hdat])
          (by rw [hstarted, hctlDone, hctl]) ?_
        · rw [hless] at hzero
          rw [hzero] at hpred
          exact hlast (BitVec.eq_of_toNat_eq hpred.symm)
        · rw [hstarted, owed, hbusy, if_pos rfl, hless]
          exact hpass

/-- An edge of `media_clk` at the bytes of a frame. -/
theorem Wired.bytes {order : List Bool} (hholds : Holds speed bench dat ctl)
    (hloaded : bench.tx.txFrameLoaded = true) (hdelay : bench.tx.txStartDelay = 0)
    (hstarted : bench.started = order ++ [bench.tx.txSelCtl])
    (hdat : order.count false = bench.datDone) (hctl : order.count true = bench.ctlDone)
    (hcurrent : bench.current = some (frame.map GmiiTxWord.beat))
    (hread : bench.ReadsAt dat ctl taken)
    (hshowing : GmiiShowing speed bench.tx.toGmiiTxReadout (frame.map GmiiTxWord.beat)
      (bench.tx.sent frame taken) (bench.images speed order) bench.ahead)
    (caught : GmiiTxCatch) :
    Wired speed (bench.mediaEdge caught)
      (dat.rdEdge bench.tx.txdRdEn caught.datSkew caught.datLate)
      (ctl.rdEdge bench.tx.ctlRdEn caught.ctlSkew caught.ctlLate) := by
  obtain ⟨-, hspeed⟩ := hholds.warm_of_loaded hloaded
  obtain ⟨shown, other, hreads⟩ := hholds.reads hloaded
  obtain rfl := hread.unique hreads.read
  have hmap := Option.some.inj (hcurrent.symm.trans hreads.current)
  have hlength : frame.length = shown.length := by
    rw [← List.length_map (f := GmiiTxWord.beat), hmap, List.length_map]
  have hsent : bench.tx.sent frame taken = bench.tx.sent shown taken := by
    rw [GmiiTxReadout.sent, GmiiTxReadout.sent, hlength]
  rw [hmap, hsent] at hshowing
  have hsame := started_mediaEdge (starts_of_ne (by rw [hdelay]; decide)) caught
  cases hdone : bench.tx.done with
  | true =>
      obtain ⟨hnext, -, hout⟩ := @GmiiTxReadout.edge_done bench.tx.toGmiiTxReadout
        bench.tx.cfgSpeedS2 bench.tx.txRdData bench.tx.txRdEmpty bench.tx.ctl.packet.pending
        bench.tx.dat.packet.pending bench.tx.txHoldS2 hdone
      have hbeats : (if bench.tx.txSelCtl then bench.ctl.stored.whole[order.count true]?
          else bench.dat.stored.whole[order.count false]?) =
          some (shown.map GmiiTxWord.beat) := by
        rw [hdat, hctl]
        exact hreads.current
      refine .waiting (fun hbusy => ?_) ?_ ?_ ?_
      · exact absurd (hnext.symm.trans hbusy) (by decide)
      · change _ = bench.datDone + (bench.tx.done && !bench.tx.txSelCtl).toNat
        rw [hsame, hstarted, List.count_append, hdat, hdone]
        cases bench.tx.txSelCtl <;> rfl
      · change _ = bench.ctlDone + (bench.tx.done && bench.tx.txSelCtl).toNat
        rw [hsame, hstarted, List.count_append, hctl, hdone]
        cases bench.tx.txSelCtl <;> rfl
      · have howed : owed speed (bench.mediaEdge caught).tx.toGmiiTxReadout =
            (txGap speed).toNat + 1 := by
          rw [owed]
          exact if_neg fun hbusy => Bool.false_ne_true (hnext.symm.trans hbusy)
        have hquiet : (bench.mediaEdge caught).tx.gmiiOut = none := hout
        rw [howed, ahead_mediaEdge, hquiet, hsame, hstarted]
        change Paused speed (bench.images speed _) _ _
        rw [images_concat hbeats]
        exact hshowing.edge_done hreads.ne hdone
  | false =>
      obtain ⟨hdatDone, hctlDone⟩ := done_mediaEdge hdone caught
      have hkept : (bench.mediaEdge caught).tx.txSelCtl = bench.tx.txSelCtl :=
        GmiiTxReadout.edge_txSelCtl hloaded
      have hport : taken < shown.length → bench.tx.txRdEmpty = false ∧
          shown[taken]? = some bench.tx.txRdData := fun hlt => hreads.port hlt (by
        rw [hdelay]
        exact lt_of_lt_of_le (by decide) (two_le_txGap speed))
      have hedge := @GmiiShowing.edge speed bench.tx.toGmiiTxReadout shown taken
        bench.tx.txRdData bench.tx.txRdEmpty bench.tx.ctl.packet.pending
        bench.tx.dat.packet.pending bench.tx.txHoldS2 _ _ hshowing hreads.place hloaded hdelay
        hreads.marked hreads.long hdone hport
      have hbusy := @GmiiTxReadout.At.edge bench.tx.toGmiiTxReadout speed bench.tx.txRdData
        bench.tx.txRdEmpty bench.tx.ctl.packet.pending bench.tx.dat.packet.pending
        bench.tx.txHoldS2 shown taken hreads.place hloaded hreads.ne hreads.marked hreads.long
        (GmiiTxReadout.givesWay_of_zero hdelay) hreads.port hdone
      have hnext : (bench.mediaEdge caught).tx.toGmiiTxReadout =
          bench.tx.edge speed bench.tx.txRdData bench.tx.txRdEmpty bench.tx.ctl.packet.pending
            bench.tx.dat.packet.pending bench.tx.txHoldS2 := by
        rw [← hspeed]
        rfl
      rw [← hnext] at hedge hbusy
      refine .sending hbusy.1 hedge.1 ?_ (hdat.trans hdatDone.symm) (hctl.trans hctlDone.symm)
        ((current_mediaEdge hloaded hdone caught).trans hreads.current)
        (hholds.readsAt_mediaEdge hloaded hdone hread caught) ?_
      · rw [hsame, hkept, hstarted]
      · rw [ahead_mediaEdge]
        exact hedge.2

theorem Wired.mediaEdge (hholds : Holds speed bench dat ctl) (hwired : Wired speed bench dat ctl)
    (caught : GmiiTxCatch) :
    Wired speed (bench.mediaEdge caught)
      (dat.rdEdge bench.tx.txdRdEn caught.datSkew caught.datLate)
      (ctl.rdEdge bench.tx.ctlRdEn caught.ctlSkew caught.ctlLate) := by
  cases hwired with
  | waiting hdelay hdat hctl hpaused =>
      cases hloaded : bench.tx.txFrameLoaded with
      | false => exact .pick hholds hdat hctl hpaused hloaded caught _ _
      | true => exact .gap hholds hloaded (hdelay hloaded) hdat hctl hpaused caught
  | sending hloaded hdelay hstarted hdat hctl hcurrent hread hshowing =>
      exact .bytes hholds hloaded hdelay hstarted hdat hctl hcurrent hread hshowing caught

theorem whole_edge {addrWidth : Nat} {style : RamStyle} (writer : GmiiTxWriter)
    (lane : GmiiTxLane addrWidth style) (busy : Bool) (i : GmiiTxIn) :
    writer.stored.whole <+: (writer.edge lane busy i).stored.whole := by
  rw [GmiiTxWriter.edge]
  split
  · rw [FrameLog.add]
    split
    · exact List.prefix_append _ _
    · exact List.prefix_rfl
  · exact List.prefix_rfl

theorem Holds.done_le (hholds : Holds speed bench dat ctl) :
    bench.datDone ≤ bench.dat.stored.whole.length ∧
      bench.ctlDone ≤ bench.ctl.stored.whole.length := by
  rw [← hholds.datStores.logs.length_eq, ← hholds.ctlStores.logs.length_eq]
  exact ⟨hholds.datServes.retired_le, hholds.ctlServes.retired_le⟩

theorem Wired.sysEdge {maxFrame : Nat} (hholds : Holds speed bench dat ctl)
    (hwired : Wired speed bench dat ctl) (datIn ctlIn : GmiiTxIn) (datSkew ctlSkew : Skew)
    (datOffer ctlOffer datLast ctlLast : Bool) (datWord ctlWord : GmiiTxWord) :
    Wired speed (bench.sysEdge maxFrame datIn ctlIn datSkew ctlSkew)
      (dat.wrEdge datOffer datWord datLast datSkew)
      (ctl.wrEdge ctlOffer ctlWord ctlLast ctlSkew) := by
  obtain ⟨hdatLe, hctlLe⟩ := hholds.done_le
  obtain ⟨more, hmore⟩ :=
    whole_edge bench.dat bench.tx.dat (bench.tx.txBusy maxFrame) datIn
  obtain ⟨later, hlater⟩ := whole_edge bench.ctl bench.tx.ctl bench.tx.txCtlBusy ctlIn
  have himages : ∀ order : List Bool, order.count false = bench.datDone →
      order.count true = bench.ctlDone →
      (bench.sysEdge maxFrame datIn ctlIn datSkew ctlSkew).images speed order =
        bench.images speed order := by
    intro order hdat hctl
    change (merge order (bench.dat.edge _ _ _).stored.whole
      (bench.ctl.edge _ _ _).stored.whole).map _ = _
    rw [← hmore, ← hlater, merge_append (hdat.trans_le hdatLe) (hctl.trans_le hctlLe), images]
  cases hwired with
  | waiting hdelay hdat hctl hpaused =>
      refine .waiting hdelay hdat hctl ?_
      rw [← himages bench.started hdat hctl] at hpaused
      exact hpaused
  | @sending order frame taken hloaded hdelay hstarted hdat hctl hcurrent hread hshowing =>
      rw [← himages order hdat hctl] at hshowing
      refine .sending hloaded hdelay hstarted hdat hctl ?_ ?_ hshowing
      · change (if bench.tx.txSelCtl then (bench.ctl.edge _ _ _).stored.whole[bench.ctlDone]?
          else (bench.dat.edge _ _ _).stored.whole[bench.datDone]?) = _
        rw [current] at hcurrent
        rw [← hmore, ← hlater]
        split at hcurrent
        · rw [if_pos ‹_›]
          exact (List.getElem?_append_left (List.getElem?_eq_some_iff.mp hcurrent).1).trans hcurrent
        · rw [if_neg ‹_›]
          exact (List.getElem?_append_left (List.getElem?_eq_some_iff.mp hcurrent).1).trans hcurrent
      · rw [ReadsAt] at hread
        change if bench.tx.txSelCtl then (PacketQueue.ReadTo _ bench.ctlDone taken)
          else (PacketQueue.ReadTo _ bench.datDone taken)
        split at hread
        · rw [if_pos ‹_›]
          exact hread.wrEdge _ _ _ _
        · rw [if_neg ‹_›]
          exact hread.wrEdge _ _ _ _

end Steps

end GmiiTxBench

end EmacZero
