/-
One's-complement sums: numbers folded into a word by adding the carries back in,
and the big-endian word sum of a byte string.
-/
import Mathlib.Data.BitVec
import Mathlib.Data.Nat.ModEq

namespace EmacZero

variable {w : Nat}

/-- A number folded into `w` bits: its residue modulo `2 ^ w - 1`, where only 0
itself is 0. -/
def onesFold (w n : Nat) : Nat := if n = 0 then 0 else (n - 1) % (2 ^ w - 1) + 1

/-- One fold: the carries added back in at the bottom. -/
def foldCarry (w n : Nat) : Nat := n % 2 ^ w + n / 2 ^ w

@[simp] theorem onesFold_zero (w : Nat) : onesFold w 0 = 0 := rfl

theorem onesFold_pos {n : Nat} (hpos : 0 < n) : 0 < onesFold w n := by
  rw [onesFold, if_neg hpos.ne']
  exact Nat.succ_pos _

theorem onesFold_eq_zero {n : Nat} : onesFold w n = 0 ↔ n = 0 := by
  constructor
  · intro hzero
    by_contra hne
    have hpos := @onesFold_pos w n (Nat.pos_of_ne_zero hne)
    omega
  · rintro rfl
    rfl

theorem onesFold_le (hw : 1 ≤ w) (n : Nat) : onesFold w n ≤ 2 ^ w - 1 := by
  have hpow : 2 ^ 1 ≤ 2 ^ w := Nat.pow_le_pow_right (by decide) hw
  unfold onesFold
  split
  · exact Nat.zero_le _
  · have hlt := Nat.mod_lt (n - 1) (show 0 < 2 ^ w - 1 by omega)
    omega

theorem onesFold_of_le {n : Nat} (hle : n ≤ 2 ^ w - 1) : onesFold w n = n := by
  unfold onesFold
  split
  · omega
  · rw [Nat.mod_eq_of_lt (by omega)]
    omega

theorem onesFold_modEq (n : Nat) : onesFold w n ≡ n [MOD 2 ^ w - 1] := by
  unfold onesFold
  split
  · rename_i hzero
    rw [hzero]
  · rename_i hpos
    have hmod := (Nat.mod_modEq (n - 1) (2 ^ w - 1)).add_right 1
    rwa [Nat.sub_add_cancel (Nat.pos_of_ne_zero hpos)] at hmod

/-- The fold depends on the residue and on being 0 only. -/
theorem onesFold_congr {n m : Nat} (hmod : n ≡ m [MOD 2 ^ w - 1])
    (hzero : n = 0 ↔ m = 0) : onesFold w n = onesFold w m := by
  by_cases hn : n = 0
  · rw [hn, hzero.mp hn]
  · have hm : m ≠ 0 := fun hm => hn (hzero.mpr hm)
    have hshift : n - 1 ≡ m - 1 [MOD 2 ^ w - 1] := by
      apply Nat.ModEq.add_right_cancel' 1
      rwa [Nat.sub_add_cancel (Nat.pos_of_ne_zero hn),
        Nat.sub_add_cancel (Nat.pos_of_ne_zero hm)]
    rw [onesFold, onesFold, if_neg hn, if_neg hm, hshift]

theorem onesFold_add (n m : Nat) :
    onesFold w (onesFold w n + m) = onesFold w (n + m) := by
  apply onesFold_congr
  · exact (onesFold_modEq n).add_right m
  · have hn := @onesFold_eq_zero w n
    omega

theorem foldCarry_modEq (hw : 1 ≤ w) (n : Nat) : foldCarry w n ≡ n [MOD 2 ^ w - 1] := by
  have hpow : 2 ^ 1 ≤ 2 ^ w := Nat.pow_le_pow_right (by decide) hw
  have hone : 1 ≡ 2 ^ w [MOD 2 ^ w - 1] := by
    rw [Nat.modEq_iff_dvd' (by omega)]
  have hhigh := ((hone.mul_right (n / 2 ^ w)).add_left (n % 2 ^ w))
  rw [one_mul, Nat.mod_add_div] at hhigh
  exact hhigh

theorem onesFold_foldCarry (hw : 1 ≤ w) (n : Nat) :
    onesFold w (foldCarry w n) = onesFold w n := by
  apply onesFold_congr (foldCarry_modEq hw n)
  have hsplit := Nat.mod_add_div n (2 ^ w)
  have hpos : 0 < 2 ^ w := Nat.two_pow_pos w
  unfold foldCarry
  constructor
  · intro hzero
    obtain ⟨hlow, hhigh⟩ := Nat.add_eq_zero_iff.mp hzero
    rw [hlow, hhigh] at hsplit
    omega
  · rintro rfl
    simp

/-- Two folds of a number of twice the width leave no carry. -/
theorem foldCarry_twice (hw : 1 ≤ w) {n : Nat} (hlt : n < 2 ^ (2 * w)) :
    foldCarry w (foldCarry w n) = onesFold w n := by
  have hpos : 0 < 2 ^ w := Nat.two_pow_pos w
  have hpow : 2 ^ 1 ≤ 2 ^ w := Nat.pow_le_pow_right (by decide) hw
  have hlow := Nat.mod_lt n hpos
  have hhigh : n / 2 ^ w < 2 ^ w := by
    rw [Nat.div_lt_iff_lt_mul hpos, ← Nat.pow_add, ← Nat.two_mul]
    exact hlt
  have hle : foldCarry w (foldCarry w n) ≤ 2 ^ w - 1 := by
    by_cases hcarry : foldCarry w n < 2 ^ w
    · rw [foldCarry, Nat.mod_eq_of_lt hcarry, Nat.div_eq_of_lt hcarry]
      omega
    · have hsum : foldCarry w n < 2 ^ w + 2 ^ w := by
        unfold foldCarry
        omega
      have hone : foldCarry w n / 2 ^ w = 1 := by
        rw [Nat.div_eq_iff hpos]
        omega
      have hsplit := Nat.mod_add_div (foldCarry w n) (2 ^ w)
      rw [hone] at hsplit
      rw [foldCarry, hone]
      unfold foldCarry at hsplit hcarry ⊢
      omega
  rw [← onesFold_foldCarry hw, ← onesFold_foldCarry hw, onesFold_of_le hle]

/-- A sum with the complement of its fold added folds to all ones. -/
theorem onesFold_add_complement (hw : 1 ≤ w) (n : Nat) :
    onesFold w (n + (2 ^ w - 1 - onesFold w n)) = 2 ^ w - 1 := by
  have hpow : 2 ^ 1 ≤ 2 ^ w := Nat.pow_le_pow_right (by decide) hw
  have hle := onesFold_le hw n
  rw [← onesFold_add, Nat.add_sub_cancel' hle]
  exact onesFold_of_le (Nat.le_refl _)

/-- Adding all ones to a sum that is not 0 changes nothing. -/
theorem onesFold_add_ones {n : Nat} (hpos : 0 < n) :
    onesFold w (n + (2 ^ w - 1)) = onesFold w n := by
  apply onesFold_congr
  · exact Nat.add_modEq_right
  · omega

/-! Word sums. -/

/-- The sum of a byte string's big-endian 16-bit words, a last odd byte padded
with a zero. -/
def wordSum : List (BitVec 8) → Nat
  | [] => 0
  | [high] => 256 * high.toNat
  | high :: low :: rest => 256 * high.toNat + low.toNat + wordSum rest

/-- What a byte at this offset adds. -/
def byteWeight (offset : Nat) (data : BitVec 8) : Nat :=
  if offset % 2 = 0 then 256 * data.toNat else data.toNat

theorem wordSum_concat (bytes : List (BitVec 8)) (data : BitVec 8) :
    wordSum (bytes ++ [data]) = wordSum bytes + byteWeight bytes.length data := by
  induction bytes using wordSum.induct with
  | case1 => simp [wordSum, byteWeight]
  | case2 high => simp [wordSum, byteWeight]
  | case3 high low rest ih =>
      have hparity : byteWeight (rest.length + 1 + 1) data = byteWeight rest.length data := by
        simp [byteWeight, Nat.add_assoc]
      simp only [List.cons_append, wordSum, ih, List.length_cons, hparity]
      omega

theorem byteWeight_le (offset : Nat) (data : BitVec 8) : byteWeight offset data ≤ 65280 := by
  have hlt := data.isLt
  unfold byteWeight
  split <;> omega

theorem wordSum_le (bytes : List (BitVec 8)) :
    wordSum bytes ≤ 65535 * ((bytes.length + 1) / 2) := by
  induction bytes using wordSum.induct with
  | case1 => simp [wordSum]
  | case2 high =>
      have hlt := high.isLt
      simp only [wordSum, List.length_singleton]
      omega
  | case3 high low rest ih =>
      have hhigh := high.isLt
      have hlow := low.isLt
      simp only [wordSum, List.length_cons]
      omega

end EmacZero
