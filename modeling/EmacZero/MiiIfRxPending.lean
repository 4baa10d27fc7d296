/-
The pending test of the `mii_if` receive path.  Its 4-bit frame counters agree
with unlimited ones as long as fewer than sixteen committed frames wait in the
FIFO at any time.
-/
import EmacZero.MiiIfRxFeed

namespace EmacZero

universe u

variable {Q : Type u} {ports : FifoPorts RxWord Q} {depth lag : Nat}

namespace MiiRxBench

/-- An EOF word is accepted only while fewer than fifteen wait in the FIFO. -/
def CommitsFew (ports : FifoPorts RxWord Q) (bench : MiiRxBench Q) :
    MiiRxEdge → Prop
  | .mii _ _ => bench.rx.rxWrAccept ports = true →
      bench.rx.rxWrData.eof = true → eofs bench.stored < 15
  | .clk _ _ => True

instance (bench : MiiRxBench Q) (edge : MiiRxEdge) :
    Decidable (bench.CommitsFew ports edge) :=
  match edge with
  | .mii _ _ => inferInstanceAs (Decidable (_ → _ → _))
  | .clk _ _ => isTrue trivial

section Few

variable {laws : BoundedFifo ports depth lag} {bench : MiiRxBench Q}
variable {shown : Nat → Nat}

theorem Tracks.stored_mii (htracks : Tracks laws bench shown) (pins : MiiRxIn)
    (skew : Skew) :
    (bench.step ports (.mii pins skew)).stored =
      if bench.rx.rxWrAccept ports then bench.stored ++ [bench.rx.rxWrData]
      else bench.stored := by
  simp only [stored, step]
  split
  · rw [List.drop_append_of_le_length htracks.popped_le]
  · rfl

theorem Tracks.few_mii (htracks : Tracks laws bench shown)
    (hfew : eofs bench.stored ≤ 15) (pins : MiiRxIn) (skew : Skew)
    (hcommit : bench.CommitsFew ports (.mii pins skew)) :
    eofs (bench.step ports (.mii pins skew)).stored ≤ 15 := by
  rw [htracks.stored_mii]
  cases haccept : bench.rx.rxWrAccept ports with
  | false => simpa using hfew
  | true =>
      cases heof : bench.rx.rxWrData.eof with
      | false => simpa [heof] using hfew
      | true =>
          have hlt := hcommit haccept heof
          simp [heof]
          omega

theorem few_clk (hfew : eofs bench.stored ≤ 15) (skew : Skew) (late : Bool) :
    eofs (bench.step ports (.clk skew late)).stored ≤ 15 := by
  have hless : (bench.step ports (.clk skew late)).stored.Sublist
      bench.stored :=
    List.drop_sublist_drop_left _ (Nat.le_add_right _ _)
  exact hless.countP_le.trans hfew

/-- The frames that the reader's copy of the counter covers and that have not
been retired are fewer than the counter's turn. -/
theorem Tracks.seen3_lt (htracks : Tracks laws bench shown)
    (hfew : eofs bench.stored ≤ 15) :
    bench.seen.seen3 < bench.retired + 2 ^ 4 := by
  have hall := htracks.committed
  have hsplit := retired_add_stored bench
  have hseen := bench.seen.seen3_le_now
  omega

end Few

/-- A frame is retired no earlier than its count has come through: the words
of the FIFO and the count pass their flip-flops side by side. -/
structure Ordered (laws : BoundedFifo ports depth lag) (bench : MiiRxBench Q)
    (shown : Nat → Nat) : Prop where
  tracks : Tracks laws bench shown
  first : eofs (bench.accepted.take (shown 2)) ≤ bench.seen.committed.before
  visible : eofs (bench.accepted.take (shown 0)) ≤ bench.seen.seen1
  taken : eofs (bench.accepted.take
    (bench.popped + bench.rx.rxRdEn.toNat)) ≤ bench.seen.seen2
  retired : bench.retired ≤ bench.seen.seen3

section Order

variable {laws : BoundedFifo ports depth lag} {bench : MiiRxBench Q}
variable {shown : Nat → Nat}

theorem ordered_start (laws : BoundedFifo ports depth lag) {fifo : Q}
    (hfifo : laws.Views fifo .empty) (mem : BitVec 12 → RxByte)
    (dout : RxByte) : Ordered laws (start fifo mem dout) (fun _ => 0) where
  tracks := tracks_start laws hfifo mem dout
  first := le_rfl
  visible := le_rfl
  taken := le_rfl
  retired := le_rfl

/-- Words written later lie behind the ones the reader's clock has seen. -/
theorem eofs_take_mii (pins : MiiRxIn) (skew : Skew) {index : Nat}
    (hindex : index ≤ bench.accepted.length) :
    eofs ((bench.step ports (.mii pins skew)).accepted.take index) =
      eofs (bench.accepted.take index) := by
  simp only [step]
  split
  · rw [List.take_append_of_le_length hindex]
  · rfl

theorem Ordered.mii (hord : Ordered laws bench shown) (pins : MiiRxIn)
    (skew : Skew) :
    ∃ shown', (∀ edges, shown edges ≤ shown' edges) ∧
      Ordered laws (bench.step ports (.mii pins skew)) shown' := by
  have htracks := hord.tracks
  obtain ⟨shown', hshown, hunseen, hnext⟩ := htracks.mii pins skew
  have hfirst := hunseen 2 le_rfl
  have hvisible := hunseen 0 (Nat.zero_le 2)
  have hle := laws.shown_le htracks.fifo
  have hpopped : bench.popped + bench.rx.rxRdEn.toNat ≤
      bench.accepted.length := by
    cases hrdEn : bench.rx.rxRdEn with
    | false => exact htracks.popped_le
    | true => exact (htracks.pop hrdEn).1.trans_le (hle 0)
  have hseen : (bench.step ports (.mii pins skew)).seen =
      if bench.rx.rxWrAccept ports && bench.rx.rxWrData.eof then
        bench.seen.advance else bench.seen := rfl
  have hbefore : bench.seen.committed.before ≤
      (bench.step ports (.mii pins skew)).seen.committed.before := by
    rw [hseen]
    split
    · exact bench.seen.committed_grows
    · exact le_rfl
  have hseen1 : (bench.step ports (.mii pins skew)).seen.seen1 =
      bench.seen.seen1 := by
    rw [hseen]
    split <;> rfl
  have hseen2 : (bench.step ports (.mii pins skew)).seen.seen2 =
      bench.seen.seen2 := by
    rw [hseen]
    split <;> rfl
  have hseen3 : (bench.step ports (.mii pins skew)).seen.seen3 =
      bench.seen.seen3 := by
    rw [hseen]
    split <;> rfl
  refine ⟨shown', hshown, hnext, ?_, ?_, ?_, ?_⟩
  · refine (eofs_take_le hfirst _).trans ?_
    rw [eofs_take_mii pins skew (hle 2)]
    exact hord.first.trans hbefore
  · refine (eofs_take_le hvisible _).trans ?_
    rw [eofs_take_mii pins skew (hle 0), hseen1]
    exact hord.visible
  · rw [hseen2]
    exact (eofs_take_mii pins skew hpopped).trans_le hord.taken
  · rw [hseen3]
    exact (eofs_take_mii pins skew htracks.popped_le).trans_le
      hord.retired

theorem Ordered.clk (hord : Ordered laws bench shown) (skew : Skew)
    (late : Bool) :
    ∃ shown', (∀ edges, shown (edges + 1) ≤ shown' edges) ∧
      Ordered laws (bench.step ports (.clk skew late)) shown' := by
  have htracks := hord.tracks
  have hcommitted := htracks.committed
  obtain ⟨shown', hshown, hunseen, hnext⟩ := htracks.clk skew late
  have hstep : (bench.step ports (.clk skew late)).popped =
      bench.popped + bench.rx.rxRdEn.toNat := by
    simp only [step, htracks.pops_eq]
  refine ⟨shown', hshown, hnext, ?_, ?_, ?_, ?_⟩
  · refine (List.take_sublist _ _).countP_le.trans ?_
    exact hcommitted.ge
  · refine (eofs_take_le hunseen _).trans (hord.first.trans ?_)
    exact Launched.before_le_sample bench.seen.committed_grows late
  · rw [hstep]
    change eofs (bench.accepted.take (bench.popped + bench.rx.rxRdEn.toNat +
      (bench.rx.replayStep ports).rxRdEn.toNat)) ≤ bench.seen.seen1
    cases htakes : bench.takes ports with
    | true =>
        -- the word taken is one the FIFO shows
        obtain ⟨-, hfree, hlt⟩ := htracks.takes_iff.mp htakes
        rw [(replayStep_of_takes htakes).1, hfree]
        exact (eofs_take_le hlt _).trans hord.visible
    | false =>
        rw [(replayStep_of_not_takes htakes).1]
        exact hord.taken.trans bench.seen.seen2_le
  · rw [MiiRxBench.retired, hstep]
    exact hord.taken

theorem exists_ordered_step (bench : MiiRxBench Q) (edge : MiiRxEdge)
    (hord : ∃ shown, Ordered laws bench shown) :
    ∃ shown, Ordered laws (bench.step ports edge) shown := by
  obtain ⟨shown, hord⟩ := hord
  cases edge with
  | mii pins skew =>
      obtain ⟨shown', -, hnext⟩ := hord.mii pins skew
      exact ⟨shown', hnext⟩
  | clk skew late =>
      obtain ⟨shown', -, hnext⟩ := hord.clk skew late
      exact ⟨shown', hnext⟩

theorem ordered_run (laws : BoundedFifo ports depth lag) {fifo : Q}
    (hfifo : laws.Views fifo .empty) (mem : BitVec 12 → RxByte)
    (dout : RxByte) (edges : List MiiRxEdge) :
    ∃ shown, Ordered laws
      (runFrom (step ports) (start fifo mem dout) edges) shown :=
  invariant_runFrom exists_ordered_step
    ⟨_, ordered_start laws hfifo mem dout⟩ edges

theorem ordered_step (bench : MiiRxBench Q) (edge : MiiRxEdge)
    (hfew : bench.CommitsFew ports edge)
    (hord : (∃ shown, Ordered laws bench shown) ∧ eofs bench.stored ≤ 15) :
    (∃ shown, Ordered laws (bench.step ports edge) shown) ∧
      eofs (bench.step ports edge).stored ≤ 15 := by
  refine ⟨exists_ordered_step bench edge hord.1, ?_⟩
  obtain ⟨⟨shown, hord⟩, hbound⟩ := hord
  cases edge with
  | mii pins skew => exact hord.tracks.few_mii hbound pins skew hfew
  | clk skew late => exact few_clk hbound skew late

/-- With fewer than fifteen EOF words in the FIFO at each commit, the pending
test is right in every state: it holds exactly if the reader's copy of the
frame counter covers a frame that has not been retired. -/
theorem pending_run (laws : BoundedFifo ports depth lag) {fifo : Q}
    (hfifo : laws.Views fifo .empty) (mem : BitVec 12 → RxByte)
    (dout : RxByte) (edges : List MiiRxEdge)
    (hfew : Along (step ports) (CommitsFew ports) (start fifo mem dout)
      edges) :
    let bench := runFrom (step ports) (start fifo mem dout) edges
    bench.rx.rxFramePendingSys = true ↔
      bench.retired < bench.seen.seen3 := by
  intro bench
  obtain ⟨⟨shown, hord⟩, hbound⟩ := invariant_along ordered_step
    ⟨⟨_, ordered_start laws hfifo mem dout⟩, Nat.zero_le 15⟩ hfew
  exact hord.tracks.count.pending_iff hord.retired
    (hord.tracks.seen3_lt hbound)

end Order

/-- An envelope of one byte. -/
def oneByte : List MiiRxEdge :=
  [.mii ⟨true, false, 0⟩ ⟨false, false⟩, .mii ⟨true, false, 0⟩ ⟨false, false⟩,
    .mii ⟨false, false, 0⟩ ⟨false, false⟩]

/-- So many envelopes of one byte come in before `clk` runs. -/
def burst (frames : Nat) : List MiiRxEdge :=
  (List.replicate frames oneByte).flatten ++
    List.replicate 2 (.mii ⟨false, false, 0⟩ ⟨false, false⟩) ++
    List.replicate 4 (.clk ⟨false, false⟩ false)

theorem portable_ordered (edges : List MiiRxEdge) :
    ∃ shown, Ordered (AsyncFifo.bounded (by decide)) (portable edges) shown :=
  ordered_run _ (AsyncFifo.views_reset (by decide) _ _) _ _ edges

theorem pending_run_burst :
    (portable (burst 15)).rx.rxFramePendingSys = true ↔
      (portable (burst 15)).retired < (portable (burst 15)).seen.seen3 :=
  pending_run (AsyncFifo.bounded (by decide))
    (AsyncFifo.views_reset (by decide) _ _) _ _ (burst 15) (by decide +kernel)

/-- Sixteen committed frames look like none. -/
theorem sixteen_frames_alias :
    (portable (burst 16)).seen.seen3 = 16 ∧
      (portable (burst 16)).retired = 0 ∧
      (portable (burst 16)).rx.rxFramePendingSys = false := by
  decide +kernel

end MiiRxBench

end EmacZero
