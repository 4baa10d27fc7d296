/-
Frames handed over a word at a time: the log that an observer of a stream keeps,
the same log with every frame cut at a limit, and two logs merged in the order
in which an arbiter took from them.
-/
import Mathlib.Data.List.Basic
import Mathlib.Order.Nat

namespace EmacZero

universe u

variable {α : Type u}

/-- The frames that have come whole, and what has come of the next one. -/
structure FrameLog (α : Type u) where
  whole : List (List α)
  part : List α
deriving Repr, DecidableEq

namespace FrameLog

def empty : FrameLog α := ⟨[], []⟩

/-- One more word, the last of its frame or not. -/
def add (log : FrameLog α) (word : α) (last : Bool) : FrameLog α :=
  if last then ⟨log.whole ++ [log.part ++ [word]], []⟩
  else ⟨log.whole, log.part ++ [word]⟩

/-- Every frame ends at `limit` words at the latest, and the rest of it is
lost. -/
def cut (limit : Nat) (log : FrameLog α) : FrameLog α :=
  let whole := log.whole.map (List.take limit)
  if limit ≤ log.part.length then ⟨whole ++ [log.part.take limit], []⟩
  else ⟨whole, log.part⟩

section Add

variable {limit : Nat} {log : FrameLog α}

theorem cut_part (hpart : log.part.length < limit) :
    (log.cut limit).part = log.part := by
  rw [cut, if_neg (Nat.not_le_of_lt hpart)]

/-- The rest of a frame that has been cut. -/
theorem cut_add_rest (hlimit : 0 < limit) (hlong : limit ≤ log.part.length)
    (word : α) (last : Bool) : (log.add word last).cut limit = log.cut limit := by
  have htake : (log.part ++ [word]).take limit = log.part.take limit :=
    List.take_append_of_le_length hlong
  have hlonger : limit ≤ (log.part ++ [word]).length := by
    rw [List.length_append]
    exact Nat.le_trans hlong (Nat.le_add_right _ _)
  cases last with
  | true =>
      have hnone : ¬ limit ≤ ([] : List α).length := Nat.not_le_of_lt hlimit
      simp only [add, cut, if_true, hnone, if_false, hlong, List.map_append,
        List.map_singleton, htake]
  | false =>
      simp only [add, cut, Bool.false_eq_true, if_false, hlonger, hlong, if_true, htake]

/-- A word before the limit; the one that reaches it ends the frame. -/
theorem cut_add (hlimit : 0 < limit) (hpart : log.part.length < limit) (word : α)
    (last : Bool) :
    (log.add word last).cut limit =
      (log.cut limit).add word (last || log.part.length + 1 == limit) := by
  have hshort : ¬ limit ≤ log.part.length := Nat.not_le_of_lt hpart
  have hlength : (log.part ++ [word]).length = log.part.length + 1 := by simp
  have htake : (log.part ++ [word]).take limit = log.part ++ [word] :=
    List.take_of_length_le (hlength.trans_le hpart)
  have hnone : ¬ limit ≤ ([] : List α).length := Nat.not_le_of_lt hlimit
  cases last with
  | true =>
      simp only [add, cut, if_true, hnone, if_false, hshort, Bool.true_or,
        List.map_append, List.map_singleton, htake]
  | false =>
      by_cases hreached : log.part.length + 1 = limit
      · have hlong : limit ≤ (log.part ++ [word]).length :=
          hlength.trans hreached |>.ge
        simp only [add, cut, Bool.false_eq_true, if_false, hlong, hshort, if_true,
          hreached, beq_self_eq_true, Bool.or_true, htake]
      · have hmore : ¬ limit ≤ (log.part ++ [word]).length := by
          rw [hlength]
          omega
        simp only [add, cut, Bool.false_eq_true, if_false, hmore, hshort,
          Bool.false_or, beq_iff_eq, hreached]

theorem cut_empty (hlimit : 0 < limit) : (empty : FrameLog α).cut limit = empty := by
  have hnone : ¬ limit ≤ ([] : List α).length := Nat.not_le_of_lt hlimit
  simp only [empty, cut, hnone, if_false, List.map_nil]

theorem length_cut_le (log : FrameLog α) :
    ∀ frame ∈ (log.cut limit).whole, frame.length ≤ limit := by
  intro frame hframe
  simp only [cut] at hframe
  split at hframe
  · rcases List.mem_append.mp hframe with hold | hnew
    · obtain ⟨source, -, rfl⟩ := List.mem_map.mp hold
      exact List.length_take_le _ _
    · rw [List.mem_singleton.mp hnew]
      exact List.length_take_le _ _
  · obtain ⟨source, -, rfl⟩ := List.mem_map.mp hframe
    exact List.length_take_le _ _

end Add

end FrameLog

/-- Two lists merged in the given order; `true` takes from the second. -/
def merge : List Bool → List α → List α → List α
  | [], _, _ => []
  | true :: order, first, second =>
      second.take 1 ++ merge order first (second.drop 1)
  | false :: order, first, second =>
      first.take 1 ++ merge order (first.drop 1) second

section Merge

variable {order : List Bool} {first second : List α}

theorem merge_concat (order : List Bool) (chosen : Bool) (first second : List α) :
    merge (order ++ [chosen]) first second =
      merge order first second ++
        (if chosen then second[order.count true]? else first[order.count false]?).toList := by
  induction order generalizing first second with
  | nil => cases chosen <;> simp [merge, List.take_one, List.head?_eq_getElem?]
  | cons head order ih =>
      cases head <;> simp [merge, ih]

/-- What comes later is not merged yet. -/
theorem merge_append (hfirst : order.count false ≤ first.length)
    (hsecond : order.count true ≤ second.length) (more later : List α) :
    merge order (first ++ more) (second ++ later) = merge order first second := by
  induction order generalizing first second with
  | nil => rfl
  | cons head order ih =>
      cases head with
      | true =>
          rw [List.count_cons_self] at hsecond
          have hne : 1 ≤ second.length := Nat.le_trans (Nat.le_add_left 1 _) hsecond
          rw [merge, merge, List.take_append_of_le_length hne,
            List.drop_append_of_le_length hne, ih (by simpa using hfirst)]
          rw [List.length_drop]
          omega
      | false =>
          rw [List.count_cons_self] at hfirst
          have hne : 1 ≤ first.length := Nat.le_trans (Nat.le_add_left 1 _) hfirst
          rw [merge, merge, List.take_append_of_le_length hne,
            List.drop_append_of_le_length hne, ih _ (by simpa using hsecond)]
          rw [List.length_drop]
          omega

end Merge

end EmacZero
