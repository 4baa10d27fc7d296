/-
Frames on a byte or nibble interface: preamble, start-of-frame delimiter, and the
bytes behind it, however the receiver pairs nibbles before it has found the delimiter.
-/
import Mathlib.Data.BitVec
import Mathlib.Data.List.Basic

namespace EmacZero

/-- The bytes after the SFD: bytes 0x55, then 0xD5, then the frame. -/
def frameOf : List (BitVec 8) → Option (List (BitVec 8))
  | [] => none
  | byte :: rest =>
      if byte = 0x55 then frameOf rest else if byte = 0xD5 then some rest else none

/-- Nibbles in twos, low nibble first; one left over is dropped. -/
def pairNibbles : List (BitVec 4) → List (BitVec 8)
  | low :: high :: rest => (high ++ low) :: pairNibbles rest
  | _ => []

/-- The bytes behind nibbles 5 and one D. -/
def afterPreamble : List (BitVec 4) → Option (List (BitVec 8))
  | [] => none
  | nibble :: rest =>
      if nibble = 0x5 then afterPreamble rest
      else if nibble = 0xD then some (pairNibbles rest) else none

/-- The frame of an envelope of nibbles: one or more nibbles 5, one D, and the bytes
behind it. -/
def nibbleFrame : List (BitVec 4) → Option (List (BitVec 8))
  | [] => none
  | nibble :: rest => if nibble = 0x5 then afterPreamble rest else none

theorem afterPreamble_eq_some_iff {nibbles : List (BitVec 4)} {body : List (BitVec 8)} :
    afterPreamble nibbles = some body ↔ ∃ count rest,
      nibbles = List.replicate count 0x5 ++ 0xD :: rest ∧ body = pairNibbles rest := by
  induction nibbles with
  | nil => simp [afterPreamble]
  | cons nibble nibbles ih =>
      rw [afterPreamble]
      split
      · rename_i hfive
        rw [ih, hfive]
        constructor
        · rintro ⟨count, rest, rfl, hbody⟩
          exact ⟨count + 1, rest, rfl, hbody⟩
        · rintro ⟨count, rest, hnibbles, hbody⟩
          cases count with
          | zero => cases hnibbles
          | succ count => exact ⟨count, rest, (List.cons.inj hnibbles).2, hbody⟩
      · rename_i hfive
        split
        · rename_i hsfd
          rw [hsfd, Option.some.injEq]
          constructor
          · rintro rfl
            exact ⟨0, nibbles, rfl, rfl⟩
          · rintro ⟨count, rest, hnibbles, hbody⟩
            cases count with
            | zero => rw [hbody, (List.cons.inj hnibbles).2]
            | succ count => cases (List.cons.inj hnibbles).1
        · rename_i hsfd
          constructor
          · intro hnone
            cases hnone
          · rintro ⟨count, rest, hnibbles, -⟩
            cases count with
            | zero => exact absurd (List.cons.inj hnibbles).1 hsfd
            | succ count => exact absurd (List.cons.inj hnibbles).1 hfive

/-- There is at least one nibble before the SFD nibble, and all of them are 5. -/
theorem nibbleFrame_eq_some_iff {nibbles : List (BitVec 4)} {body : List (BitVec 8)} :
    nibbleFrame nibbles = some body ↔ ∃ count rest,
      nibbles = List.replicate (count + 1) 0x5 ++ 0xD :: rest ∧ body = pairNibbles rest := by
  cases nibbles with
  | nil => simp [nibbleFrame, List.replicate_succ]
  | cons nibble nibbles =>
      rw [nibbleFrame]
      split
      · rename_i hfive
        rw [afterPreamble_eq_some_iff, hfive]
        simp [List.replicate_succ]
      · rename_i hfive
        constructor
        · intro hnone
          cases hnone
        · rintro ⟨count, rest, hnibbles, -⟩
          exact absurd (List.cons.inj hnibbles).1 hfive

theorem append_eq_preamble {low high : BitVec 4} :
    high ++ low = (0x55 : BitVec 8) ↔ high = 0x5 ∧ low = 0x5 := by
  revert low high
  decide

theorem append_eq_sfd {low high : BitVec 4} :
    high ++ low = (0xD5 : BitVec 8) ↔ high = 0xD ∧ low = 0x5 := by
  revert low high
  decide

theorem frameOf_preamble {bytes : List (BitVec 8)} (hpre : ∀ byte ∈ bytes, byte = 0x55)
    (rest : List (BitVec 8)) : frameOf (bytes ++ rest) = frameOf rest := by
  induction bytes with
  | nil => rfl
  | cons byte bytes ih =>
      rw [List.cons_append, frameOf, if_pos (hpre byte List.mem_cons_self)]
      exact ih fun other hother => hpre other (List.mem_cons_of_mem byte hother)

theorem frameOf_append_some {bytes body : List (BitVec 8)} (hbody : frameOf bytes = some body)
    (more : List (BitVec 8)) : frameOf (bytes ++ more) = some (body ++ more) := by
  induction bytes with
  | nil => cases hbody
  | cons byte rest ih =>
      rw [frameOf] at hbody
      rw [List.cons_append, frameOf]
      split at hbody
      · rename_i hfive
        rw [if_pos hfive]
        exact ih hbody
      · rename_i hfive
        split at hbody
        · rename_i hsfd
          rw [if_neg hfive, if_pos hsfd, ← Option.some.inj hbody]
        · cases hbody

/-- Once a byte is neither preamble nor SFD there is no frame. -/
theorem frameOf_append_none {bytes : List (BitVec 8)} (hnone : frameOf bytes = none)
    (hbad : ∃ byte ∈ bytes, byte ≠ 0x55) (more : List (BitVec 8)) :
    frameOf (bytes ++ more) = none := by
  induction bytes with
  | nil => simp at hbad
  | cons byte rest ih =>
      rw [frameOf] at hnone
      rw [List.cons_append, frameOf]
      split at hnone
      · rename_i hfive
        rw [if_pos hfive]
        obtain ⟨bad, hmem, hne⟩ := hbad
        rcases List.mem_cons.mp hmem with rfl | hmem
        · exact absurd hfive hne
        · exact ih hnone ⟨bad, hmem, hne⟩
      · rename_i hfive
        split at hnone
        · cases hnone
        · rename_i hsfd
          rw [if_neg hfive, if_neg hsfd]

theorem frameOf_of_preamble {bytes : List (BitVec 8)} (hpre : ∀ byte ∈ bytes, byte = 0x55) :
    frameOf bytes = none := by
  have hend := frameOf_preamble hpre []
  rw [List.append_nil] at hend
  exact hend

/-- A byte that is neither ends the search, whatever follows. -/
theorem frameOf_astray {byte : BitVec 8} (hfive : byte ≠ 0x55) (hsfd : byte ≠ 0xD5)
    (rest : List (BitVec 8)) : frameOf (byte :: rest) = none := by
  rw [frameOf, if_neg hfive, if_neg hsfd]

theorem length_pairNibbles : ∀ nibbles : List (BitVec 4),
    2 * (pairNibbles nibbles).length ≤ nibbles.length
  | [] => Nat.le_refl 0
  | [_] => Nat.zero_le 1
  | _ :: _ :: rest => by
      have hrest := length_pairNibbles rest
      rw [pairNibbles, List.length_cons, List.length_cons, List.length_cons]
      omega

theorem length_frameOf {bytes body : List (BitVec 8)} (hbody : frameOf bytes = some body) :
    body.length + 1 ≤ bytes.length := by
  induction bytes with
  | nil => cases hbody
  | cons byte rest ih =>
      rw [frameOf] at hbody
      rw [List.length_cons]
      split at hbody
      · exact Nat.le_succ_of_le (ih hbody)
      · split at hbody
        · rw [Option.some.inj hbody]
        · cases hbody

theorem length_afterPreamble {nibbles : List (BitVec 4)} {body : List (BitVec 8)}
    (hbody : afterPreamble nibbles = some body) : 2 * body.length + 1 ≤ nibbles.length := by
  induction nibbles with
  | nil => cases hbody
  | cons nibble rest ih =>
      rw [afterPreamble] at hbody
      rw [List.length_cons]
      split at hbody
      · exact Nat.le_succ_of_le (ih hbody)
      · split at hbody
        · rw [← Option.some.inj hbody]
          exact Nat.succ_le_succ (length_pairNibbles rest)
        · cases hbody

theorem length_nibbleFrame {nibbles : List (BitVec 4)} {body : List (BitVec 8)}
    (hbody : nibbleFrame nibbles = some body) : 2 * (body.length + 1) ≤ nibbles.length := by
  cases nibbles with
  | nil => cases hbody
  | cons nibble rest =>
      rw [nibbleFrame] at hbody
      rw [List.length_cons]
      split at hbody
      · have hrest := length_afterPreamble hbody
        omega
      · cases hbody

end EmacZero
