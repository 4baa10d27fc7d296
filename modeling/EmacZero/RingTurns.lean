/-
A ring of slots taken in turn: which slots come up in a number of turns, from some turn
on.
-/
import Mathlib.Data.List.Nodup
import Mathlib.Data.Nat.ModEq

namespace EmacZero

universe u

/-- The slots of a ring of `size` slots in `count` turns, the first of them the turn
`start`. -/
def ringTurns (size start count : Nat) : List Nat :=
  (List.range count).map fun turn => (start + turn) % size

section Turns

variable {size start count : Nat}

theorem ringTurns_concat :
    ringTurns size start (count + 1) =
      ringTurns size start count ++ [(start + count) % size] := by
  rw [ringTurns, List.range_succ, List.map_append]
  rfl

theorem ringTurns_succ :
    ringTurns size start (count + 1) = start % size :: ringTurns size (start + 1) count := by
  rw [ringTurns, List.range_succ_eq_map, List.map_cons, List.map_map, ringTurns]
  congr 1
  apply List.map_congr_left
  intro turn _
  rw [Function.comp_apply, Nat.add_right_comm, Nat.add_assoc]

/-- Only the slot of the first turn matters. -/
theorem ringTurns_mod : ringTurns size (start % size) count = ringTurns size start count := by
  apply List.map_congr_left
  intro turn _
  rw [Nat.mod_add_mod]

theorem lt_of_mem_ringTurns (hsize : 0 < size) {slot : Nat}
    (hmem : slot ∈ ringTurns size start count) : slot < size := by
  obtain ⟨turn, -, rfl⟩ := List.mem_map.mp hmem
  exact Nat.mod_lt _ hsize

/-- No slot comes up twice in one round. -/
theorem nodup_ringTurns (hcount : count ≤ size) : (ringTurns size start count).Nodup := by
  refine List.Nodup.map_on ?_ List.nodup_range
  intro first hfirst second hsecond hsame
  rw [List.mem_range] at hfirst hsecond
  have hmod : first % size = second % size := Nat.ModEq.add_left_cancel' start hsame
  rwa [Nat.mod_eq_of_lt (by omega), Nat.mod_eq_of_lt (by omega)] at hmod

end Turns

/-- What a list of slots holds when one of them is given something else. -/
theorem map_update_perm {α : Type u} (content : Nat → α) {slots : List Nat} {slot : Nat}
    (value : α) (hmem : slot ∈ slots) (hnodup : slots.Nodup) :
    ∃ rest, (slots.map content).Perm (content slot :: rest) ∧
      (slots.map (Function.update content slot value)).Perm (value :: rest) := by
  have hsplit := List.perm_cons_erase hmem
  refine ⟨(slots.erase slot).map content, hsplit.map content, ?_⟩
  have hrest : (slots.erase slot).map (Function.update content slot value) =
      (slots.erase slot).map content := by
    apply List.map_congr_left
    intro other hother
    exact Function.update_of_ne (ne_of_mem_of_not_mem hother
      (hnodup.not_mem_erase)) _ _
  have hmap := hsplit.map (Function.update content slot value)
  rwa [List.map_cons, Function.update_self, hrest] at hmap

end EmacZero
