/-
Beats that are each held for several cycles, and an observer that looks at them once in a
period and takes one part of a beat at each look.  When a beat is held for as many periods
as it has parts, every part is taken once, in order, whatever the phase of the observer.
-/
import EmacZero.Envelopes

namespace EmacZero

universe u v

section Parts

variable {β : Type u} {γ : Type v} {cycles turns turn count index : Nat}
variable {part : β → Nat → γ} {beats : List β} {beat : β}

/-- Beats one part after the other. -/
def inParts (turns : Nat) (part : β → Nat → γ) (beats : List β) : List γ :=
  beats.flatMap fun beat => (List.range turns).map (part beat)

/-- What an interface shows of beats that are each held for so many cycles. -/
def heldFor (cycles : Nat) (beats : List β) : List β := beats.flatMap (List.replicate cycles)

theorem length_inParts (turns : Nat) (part : β → Nat → γ) (beats : List β) :
    (inParts turns part beats).length = beats.length * turns := by
  induction beats with
  | nil => exact (Nat.zero_mul turns).symm
  | cons head rest ih =>
      rw [inParts, List.flatMap_cons, List.length_append, List.length_map, List.length_range]
      change turns + (inParts turns part rest).length = _
      rw [ih, List.length_cons, Nat.succ_mul, Nat.add_comm]

theorem getElem?_inParts (hturn : turn < turns) (hbeat : beats[count]? = some beat) :
    (inParts turns part beats)[count * turns + turn]? = some (part beat turn) := by
  induction beats generalizing count with
  | nil => cases hbeat
  | cons head rest ih =>
      have hlength : ((List.range turns).map (part head)).length = turns := by
        rw [List.length_map, List.length_range]
      rw [inParts, List.flatMap_cons]
      cases count with
      | zero =>
          obtain rfl : head = beat := Option.some.inj hbeat
          rw [Nat.zero_mul, Nat.zero_add,
            List.getElem?_append_left (Nat.lt_of_lt_of_eq hturn hlength.symm), List.getElem?_map,
            List.getElem?_range hturn]
          rfl
      | succ count =>
          rw [List.getElem?_append_right (by rw [hlength]; lia), hlength,
            show (count + 1) * turns + turn - turns = count * turns + turn by lia]
          exact ih hbeat

/-- To hold a beat is to take the same part of it each time. -/
theorem heldFor_eq (cycles : Nat) (beats : List β) :
    heldFor cycles beats = inParts cycles (fun beat _ => beat) beats := by
  refine congrArg (fun block => beats.flatMap block) (funext fun beat => ?_)
  rw [List.map_const', List.length_range]

theorem heldFor_one (beats : List β) : heldFor 1 beats = beats := by
  induction beats with
  | nil => rfl
  | cons beat rest ih =>
      rw [heldFor, List.flatMap_cons]
      exact congrArg (beat :: ·) ih

theorem length_heldFor (cycles : Nat) (beats : List β) :
    (heldFor cycles beats).length = beats.length * cycles := by
  rw [heldFor_eq, length_inParts]

theorem getElem?_heldFor (hindex : index < cycles) (hbeat : beats[count]? = some beat) :
    (heldFor cycles beats)[count * cycles + index]? = some beat := by
  rw [heldFor_eq]
  exact getElem?_inParts hindex hbeat

/-- One more cycle of a beat. -/
theorem take_heldFor (hindex : index < cycles) (hbeat : beats[count]? = some beat) :
    (heldFor cycles beats).take (count * cycles + index + 1) =
      (heldFor cycles beats).take (count * cycles + index) ++ [beat] := by
  rw [List.take_add_one, getElem?_heldFor hindex hbeat]
  rfl

theorem heldFor_injective (hcycles : 0 < cycles) :
    Function.Injective (heldFor cycles : List β → List β) := by
  intro left right hsame
  have hlength : left.length = right.length := by
    have hlengths := congrArg List.length hsame
    rw [length_heldFor, length_heldFor] at hlengths
    exact Nat.eq_of_mul_eq_mul_right hcycles hlengths
  refine List.ext_getElem hlength fun count hleft hright => ?_
  have hshown := getElem?_heldFor hcycles (List.getElem?_eq_getElem hleft)
  rw [hsame, getElem?_heldFor hcycles (List.getElem?_eq_getElem hright)] at hshown
  exact (Option.some.inj hshown).symm

/-- What is shown in a cycle is the beat whose turn it is. -/
theorem getElem?_of_heldFor (hindex : index < cycles)
    (hshown : (heldFor cycles beats)[count * cycles + index]? = some beat) :
    beats[count]? = some beat := by
  have hlt : count * cycles + index < beats.length * cycles := by
    rw [← length_heldFor]
    exact (List.getElem?_eq_some_iff.mp hshown).1
  have hcount : count < beats.length := by
    by_contra hle
    exact absurd (Nat.mul_le_mul_right cycles (Nat.le_of_not_lt hle)) (by lia)
  rw [← hshown, getElem?_heldFor hindex (List.getElem?_eq_getElem hcount)]
  exact List.getElem?_eq_getElem hcount

end Parts

end EmacZero
