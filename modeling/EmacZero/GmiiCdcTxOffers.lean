/-
The writers of the transmit half of `gmii_cdc`: if each starts a frame only after its busy
line was low and keeps to the longest frame, the FIFOs never refuse a word, so the stored
frames are those that were offered.
-/
import EmacZero.GmiiCdcTxHolds

namespace EmacZero

section Writer

variable {addrWidth retired limit longest : Nat} {style : RamStyle}
variable {lane : GmiiTxLane addrWidth style} {writer : GmiiTxWriter}
variable {queue : PacketQueue GmiiTxWord (2 ^ addrWidth) style.staged}

/-- The words in the FIFO, as far as the write side knows. -/
def wordsHeld {α : Type} {depth : Nat} {staged : Bool} (queue : CrossingQueue α depth staged) :
    Nat :=
  queue.words.length - queue.taken.second

/-- The byte that waits for its EOF bit. -/
def GmiiTxLane.waiting (lane : GmiiTxLane addrWidth style) : List (BitVec 8 × Bool) :=
  if lane.enD1 then [(lane.dataD1, lane.erD1)] else []

/-- How a writer may go on: it starts a frame only once the busy line is or was low in an
idle cycle, and ends it in time. -/
def Honours (speed : BitVec 2) (longest : Nat) (writer : GmiiTxWriter) (busy : Bool)
    (i : GmiiTxIn) : Prop :=
  (i.en = true → writer.sent.opened = [] → writer.clear = true ∨ busy = false) ∧
    (i.en = true → writer.sent.opened.length < longest) ∧
    (i.en = false → is1g speed = false → writer.sent.opened.length ≠ 1)

instance (speed : BitVec 2) (longest : Nat) (writer : GmiiTxWriter) (busy : Bool)
    (i : GmiiTxIn) : Decidable (Honours speed longest writer busy i) :=
  inferInstanceAs (Decidable ((_ → _ → _) ∧ (_ → _) ∧ (_ → _ → _)))

/-- Every word that was offered is in the FIFO or waits for its EOF bit, and there is room
for the rest of the frame. -/
structure GmiiTxKeeps (limit longest : Nat) (lane : GmiiTxLane addrWidth style)
    (writer : GmiiTxWriter) (held : Nat) : Prop where
  whole : writer.stored.whole = writer.sent.closed
  part : writer.stored.part ++ lane.waiting = writer.sent.opened
  idle : lane.enD1 = false → writer.stored.part = []
  clear : writer.clear = true → lane.enD1 = false ∧ held ≤ limit + 1
  room : lane.enD1 = true → held ≤ limit + writer.sent.opened.length
  short : writer.sent.opened.length ≤ longest

theorem kept_reset (limit longest : Nat) (mem : BitVec addrWidth → GmiiTxWord)
    (headQ : GmiiTxWord) :
    GmiiTxKeeps limit longest (.reset mem headQ : GmiiTxLane addrWidth style) .start 0 where
  whole := rfl
  part := rfl
  idle := fun _ => rfl
  clear := fun hnone => absurd hnone Bool.false_ne_true
  room := fun hnone => absurd hnone Bool.false_ne_true
  short := Nat.zero_le _

theorem wordsHeld_rdEdge {α : Type} {depth : Nat} {staged : Bool}
    (queue : CrossingQueue α depth staged) (ready : Bool) (skew : Skew) :
    wordsHeld (queue.rdEdge ready skew) = wordsHeld queue := by
  rw [wordsHeld, wordsHeld, CrossingQueue.rdEdge_words, CrossingQueue.rdEdge_taken]
  cases queue.takes ready <;> rfl

theorem wordsHeld_wrEdge {α : Type} {depth : Nat} {staged : Bool}
    (queue : CrossingQueue α depth staged) (offer : Bool) (word : α) (skew : Skew) :
    wordsHeld (queue.wrEdge offer word skew) ≤ wordsHeld queue + offer.toNat := by
  have hlate := queue.taken.second_le_clock skew
  rw [wordsHeld, wordsHeld, CrossingQueue.wrEdge_words, CrossingQueue.wrEdge_taken]
  split
  · rename_i haccept
    rw [List.length_append, List.length_singleton, haccept.1, Bool.toNat_true]
    omega
  · omega

theorem GmiiTxKeeps.accepts (haddr : 1 ≤ addrWidth) (hfits : limit + longest < 2 ^ addrWidth)
    {log : FrameLog (BitVec 8 × Bool)} (hstores : GmiiTxStores lane queue log retired)
    (hkept : GmiiTxKeeps limit longest lane writer (wordsHeld queue.queue)) :
    lane.wrAccept = lane.enD1 := by
  rw [GmiiTxLane.wrAccept]
  cases hen : lane.enD1 with
  | false => rfl
  | true =>
      have hroom := hkept.room hen
      have hshort := hkept.short
      have hfull : ¬ queue.queue.Full := fun hfull => by
        have hlength : queue.queue.words.length = queue.queue.taken.second + 2 ^ addrWidth := hfull
        rw [wordsHeld] at hroom
        omega
      rw [PacketFifo.wrFull, hstores.follows.fifo.wrFull_eq haddr, decide_eq_false hfull]
      rfl

/-- An edge of `sys_clk`. -/
theorem GmiiTxKeeps.sysEdge {speed : BitVec 2} {busy : Bool} {i : GmiiTxIn} {held : Nat}
    (hkept : GmiiTxKeeps limit longest lane writer held) (haccept : lane.wrAccept = lane.enD1)
    (hbusy : busy = false → held ≤ limit) (hhonours : Honours speed longest writer busy i)
    {later : Nat} (hlater : later ≤ held + lane.enD1.toNat) (skew : Skew) :
    GmiiTxKeeps limit longest (lane.sysEdge i skew) (writer.edge lane busy i) later := by
  obtain ⟨hstart, hlong, -⟩ := hhonours
  have hpart := hkept.part
  cases hen : lane.enD1 with
  | false =>
      have hopened : writer.sent.opened = [] := by
        rw [← hpart, hkept.idle hen, GmiiTxLane.waiting, hen, if_neg Bool.false_ne_true]
        rfl
      have hstored : (writer.edge lane busy i).stored = writer.stored := by
        rw [GmiiTxWriter.edge, haccept, hen, if_neg Bool.false_ne_true]
      rw [hen, Bool.toNat_false, Nat.add_zero] at hlater
      cases hin : i.en with
      | false =>
          have hbeat : i.beat = none := by
            rw [GmiiTxIn.beat, hin, if_neg Bool.false_ne_true]
          have hclosed : (writer.edge lane busy i).sent.closed = writer.sent.closed := by
            rw [GmiiTxWriter.edge, hbeat, Envelopes.observe_none_closed,
              Envelopes.all_of_idle hopened]
          have hnone : (writer.edge lane busy i).sent.opened = [] := by
            rw [GmiiTxWriter.edge, hbeat, Envelopes.observe_none_opened]
          refine ⟨?_, ?_, fun _ => ?_, fun hclear => ⟨hin, ?_⟩, fun hbusy' => ?_, ?_⟩
          · rw [hstored, hclosed, hkept.whole]
          · rw [hstored, hnone, hkept.idle hen, GmiiTxLane.waiting]
            exact congrArg _ (if_neg (by rw [GmiiTxLane.sysEdge, hin]; exact Bool.false_ne_true))
          · rw [hstored, hkept.idle hen]
          · have hcases : (!i.en && (writer.clear || !busy)) = true := hclear
            rw [hin, Bool.not_false, Bool.true_and, Bool.or_eq_true, Bool.not_eq_true'] at hcases
            rcases hcases with hbefore | hnow
            · exact hlater.trans (hkept.clear hbefore).2
            · exact hlater.trans ((hbusy hnow).trans (Nat.le_succ limit))
          · exact absurd (hin.symm.trans hbusy') Bool.false_ne_true
          · rw [hnone]
            exact Nat.zero_le _
      | true =>
          have hbeat : i.beat = some (i.txd, i.er) := by
            rw [GmiiTxIn.beat, hin, if_pos rfl]
          have hone : (writer.edge lane busy i).sent.opened = [(i.txd, i.er)] := by
            rw [GmiiTxWriter.edge, hbeat, Envelopes.observe_some_opened, hopened]
            rfl
          refine ⟨?_, ?_, fun hidle => ?_, fun hclear => ?_, fun _ => ?_, ?_⟩
          · rw [hstored, GmiiTxWriter.edge, hbeat, Envelopes.observe_some_closed, hkept.whole]
          · rw [hstored, hone, hkept.idle hen, GmiiTxLane.waiting]
            exact congrArg _ (if_pos (by rw [GmiiTxLane.sysEdge, hin]))
          · exact absurd (hin.symm.trans hidle) (by decide)
          · have hcases : (!i.en && (writer.clear || !busy)) = true := hclear
            rw [hin] at hcases
            cases hcases
          · rw [hone, List.length_singleton]
            rcases hstart hin hopened with hbefore | hnow
            · exact hlater.trans (hkept.clear hbefore).2
            · exact hlater.trans ((hbusy hnow).trans (Nat.le_succ limit))
          · rw [hone, List.length_singleton]
            have hlimit := hlong hin
            omega
  | true =>
      have hwaiting : lane.waiting = [(lane.dataD1, lane.erD1)] := by
        rw [GmiiTxLane.waiting, hen, if_pos rfl]
      rw [hwaiting] at hpart
      have hnotClear : writer.clear = false := by
        by_contra hclear
        exact absurd ((hkept.clear ((Bool.not_eq_false _).mp hclear)).1.symm.trans hen) (by decide)
      have hroom := hkept.room hen
      rw [hen, Bool.toNat_true] at hlater
      cases hin : i.en with
      | false =>
          have hbeat : i.beat = none := by
            rw [GmiiTxIn.beat, hin, if_neg Bool.false_ne_true]
          have heof : (lane.wrData i).eof = true := by
            rw [GmiiTxLane.wrData, GmiiTxLane.enFall, hen, hin]
            rfl
          have hstored : (writer.edge lane busy i).stored =
              ⟨writer.stored.whole ++ [writer.sent.opened], []⟩ := by
            rw [GmiiTxWriter.edge, haccept, hen, if_pos rfl, heof, FrameLog.add, if_pos rfl,
              ← hpart]
            rfl
          have hopened : writer.sent.opened ≠ [] := by
            rw [← hpart]
            exact List.append_ne_nil_of_right_ne_nil _ (List.cons_ne_nil _ _)
          have hnone : (writer.edge lane busy i).sent.opened = [] := by
            rw [GmiiTxWriter.edge, hbeat, Envelopes.observe_none_opened]
          refine ⟨?_, ?_, fun _ => ?_, fun hclear => ⟨hin, ?_⟩, fun hbusy' => ?_, ?_⟩
          · rw [hstored, GmiiTxWriter.edge, hbeat, Envelopes.observe_none_closed,
              Envelopes.all_of_busy hopened, hkept.whole]
          · rw [hstored, hnone, GmiiTxLane.waiting]
            exact if_neg (by rw [GmiiTxLane.sysEdge, hin]; exact Bool.false_ne_true)
          · rw [hstored]
          · have hcases : (!i.en && (writer.clear || !busy)) = true := hclear
            rw [hin, hnotClear, Bool.not_false, Bool.true_and, Bool.false_or,
              Bool.not_eq_true'] at hcases
            exact hlater.trans (Nat.succ_le_succ (hbusy hcases))
          · exact absurd (hin.symm.trans hbusy') Bool.false_ne_true
          · rw [hnone]
            exact Nat.zero_le _
      | true =>
          have hbeat : i.beat = some (i.txd, i.er) := by
            rw [GmiiTxIn.beat, hin, if_pos rfl]
          have heof : (lane.wrData i).eof = false := by
            rw [GmiiTxLane.wrData, GmiiTxLane.enFall, hin]
            exact Bool.and_false _
          have hstored : (writer.edge lane busy i).stored =
              ⟨writer.stored.whole, writer.sent.opened⟩ := by
            rw [GmiiTxWriter.edge, haccept, hen, if_pos rfl, heof, FrameLog.add,
              if_neg Bool.false_ne_true, ← hpart]
            rfl
          have hmore : (writer.edge lane busy i).sent.opened =
              writer.sent.opened ++ [(i.txd, i.er)] := by
            rw [GmiiTxWriter.edge, hbeat, Envelopes.observe_some_opened]
          refine ⟨?_, ?_, fun hidle => ?_, fun hclear => ?_, fun _ => ?_, ?_⟩
          · rw [hstored, GmiiTxWriter.edge, hbeat, Envelopes.observe_some_closed, hkept.whole]
          · rw [hstored, hmore, GmiiTxLane.waiting]
            exact congrArg _ (if_pos (by rw [GmiiTxLane.sysEdge, hin]))
          · exact absurd (hin.symm.trans hidle) (by decide)
          · have hcases : (!i.en && (writer.clear || !busy)) = true := hclear
            rw [hin] at hcases
            cases hcases
          · rw [hmore, List.length_append, List.length_singleton]
            omega
          · rw [hmore, List.length_append, List.length_singleton]
            exact hlong hin

/-- At 10 and 100 Mbit/s such a writer never ends a frame of a single word. -/
theorem GmiiTxKeeps.commitsLong {speed : BitVec 2} {busy : Bool} {i : GmiiTxIn} {held : Nat}
    (hkept : GmiiTxKeeps limit longest lane writer held)
    (hhonours : Honours speed longest writer busy i) :
    GmiiTxBench.CommitsLong speed lane writer i := by
  intro heof hslow hnone
  rw [GmiiTxLane.eofWr, GmiiTxLane.wrAccept, GmiiTxLane.wrData, GmiiTxLane.enFall,
    Bool.and_eq_true, Bool.and_eq_true, Bool.and_eq_true, Bool.not_eq_true'] at heof
  have hone : writer.sent.opened.length = 1 := by
    rw [← hkept.part, hnone, GmiiTxLane.waiting, heof.1.1, if_pos rfl]
    rfl
  exact hhonours.2.2 ((Bool.not_eq_true' _).mp (by simpa using heof.2.2)) hslow hone

end Writer

end EmacZero
