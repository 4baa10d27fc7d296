/-
A total kept in software of a counter that is read, added to the total and then
cleared: what the counter takes between its read and its clear is lost, nothing else.
-/
import Mathlib.Algebra.Ring.Int.Defs
import Mathlib.Data.Nat.Cast.Basic

namespace EmacZero

universe u

/-- The events so far, those of them that are lost, what has been added up, the counter,
and whether it has been read and is not cleared yet. -/
structure FoldedCounter (M : Type u) where
  events : Nat
  lost : Nat
  acc : M
  count : Nat
  opened : Bool

namespace FoldedCounter

variable {M : Type u} [AddCommGroupWithOne M] {counter next : FoldedCounter M}
  {take clear : Bool} {arrived : Nat}

/-- The events that the total has. -/
def kept (counter : FoldedCounter M) : Nat := counter.events - counter.lost

/-- Every event is in the total, in the counter or lost. -/
structure Balanced (counter : FoldedCounter M) : Prop where
  lost_le : counter.lost ≤ counter.events
  closed : counter.opened = false →
    counter.acc + counter.count + counter.lost = (counter.events : M)
  opened : counter.opened = true → counter.acc + counter.lost = (counter.events : M)

/-- A cycle: the counter is read and added if `take`, cleared if `clear`, and some events
arrive. They come after the read, and not into a counter that is being cleared. -/
structure Cycles (counter next : FoldedCounter M) (take clear : Bool) (arrived : Nat) :
    Prop where
  takes : take = true → counter.opened = false ∧ clear = false
  clears : clear = true → counter.opened = true
  events : next.events = counter.events + arrived
  lost : next.lost = counter.lost + if counter.opened || take then arrived else 0
  acc : next.acc = if take then counter.acc + counter.count else counter.acc
  opened : next.opened = if clear then false else counter.opened || take
  cleared : clear = true → next.count = 0
  counted : (counter.opened || take) = false → next.count = counter.count + arrived

/-- A counter between folds. -/
theorem Balanced.total (hbalanced : counter.Balanced) (hclosed : counter.opened = false) :
    counter.acc + counter.count = (counter.kept : M) := by
  rw [kept, Nat.cast_sub hbalanced.lost_le, ← hbalanced.closed hclosed, add_sub_cancel_right]

theorem Balanced.cycles (hbalanced : counter.Balanced)
    (hcycles : Cycles counter next take clear arrived) : next.Balanced := by
  have hlost : next.lost ≤ next.events := by
    rw [hcycles.lost, hcycles.events]
    refine Nat.add_le_add hbalanced.lost_le ?_
    split
    · exact Nat.le_refl _
    · exact Nat.zero_le _
  cases htake : take with
  | true =>
      obtain ⟨hopened, hclear⟩ := hcycles.takes htake
      have hnext : next.opened = true := by rw [hcycles.opened, hclear, htake]; simp
      refine ⟨hlost, fun hclosed => ?_, fun _ => ?_⟩
      · rw [hnext] at hclosed
        exact absurd hclosed.symm Bool.false_ne_true
      · rw [hcycles.acc, hcycles.lost, hcycles.events, htake, Bool.or_true, if_pos rfl, if_pos rfl,
          Nat.cast_add, Nat.cast_add, ← hbalanced.closed hopened, add_assoc, add_assoc, add_assoc]
  | false =>
      have hacc : next.acc = counter.acc := by rw [hcycles.acc, htake, if_neg Bool.false_ne_true]
      cases hopened : counter.opened with
      | true =>
          have hsum : next.acc + next.lost = (next.events : M) := by
            rw [hacc, hcycles.lost, hcycles.events, hopened, Bool.true_or, if_pos rfl,
              Nat.cast_add, Nat.cast_add, ← hbalanced.opened hopened, add_assoc]
          refine ⟨hlost, fun hclosed => ?_, fun _ => hsum⟩
          have hclear : clear = true := by
            rw [hcycles.opened, hopened, htake] at hclosed
            cases hclear : clear with
            | true => rfl
            | false => rw [hclear] at hclosed; exact absurd hclosed (by decide)
          rw [hcycles.cleared hclear, Nat.cast_zero, add_zero]
          exact hsum
      | false =>
          have hnone : (counter.opened || take) = false := by rw [hopened, htake]; rfl
          have hnext : next.opened = false := by rw [hcycles.opened, hnone, ite_self]
          refine ⟨hlost, fun _ => ?_, fun hopen => ?_⟩
          · rw [hacc, hcycles.counted hnone, hcycles.lost, hnone, if_neg Bool.false_ne_true,
              add_zero, hcycles.events, Nat.cast_add, Nat.cast_add, ← hbalanced.closed hopened,
              ← add_assoc, add_right_comm]
          · rw [hnext] at hopen
            exact absurd hopen Bool.false_ne_true

/-- The total never takes an event back. -/
theorem kept_le (hcycles : Cycles counter next take clear arrived) :
    counter.kept ≤ next.kept := by
  have hlost : next.lost ≤ counter.lost + arrived := by
    rw [hcycles.lost]
    refine Nat.add_le_add_left ?_ _
    split
    · exact Nat.le_refl _
    · exact Nat.zero_le _
  have hevents := hcycles.events
  rw [kept, kept]
  omega

end FoldedCounter

end EmacZero
