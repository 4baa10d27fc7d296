/-
Binary-reflected Gray codes on bit vectors: the encoder, the two usual
decoders, and the pointer comparison that recognizes a full ring buffer from
the Gray codes of its two pointers.
-/
import Mathlib.Data.BitVec
import Mathlib.Data.Nat.Find

namespace EmacZero

variable {n : Nat}

/-- The Gray code of a binary value. -/
def grayEncode (x : BitVec n) : BitVec n := x ^^^ (x >>> 1)

theorem grayEncode_xor (x y : BitVec n) :
    grayEncode (x ^^^ y) = grayEncode x ^^^ grayEncode y := by
  rw [grayEncode, BitVec.ushiftRight_xor_distrib, grayEncode, grayEncode]
  ac_rfl

/-- Shifting right is a fixed point only at zero. -/
theorem eq_zero_of_eq_shiftRight {x : BitVec n} (h : x = x >>> 1) : x = 0 := by
  have hnat : x.toNat = x.toNat / 2 := by
    conv_lhs => rw [h]
    simp [Nat.shiftRight_eq_div_pow]
  have hzero : x.toNat = 0 := by omega
  exact BitVec.eq_of_toNat_eq (by simpa using hzero)

theorem grayEncode_injective {x y : BitVec n}
    (h : grayEncode x = grayEncode y) : x = y := by
  have hxor : grayEncode (x ^^^ y) = 0 := by
    rw [grayEncode_xor, h, BitVec.xor_self]
    rfl
  have hzero : x ^^^ y = 0 := by
    apply eq_zero_of_eq_shiftRight
    exact BitVec.xor_eq_zero_iff.mp hxor
  exact BitVec.xor_eq_zero_iff.mp hzero

@[simp] theorem grayEncode_inj {x y : BitVec n} :
    grayEncode x = grayEncode y ↔ x = y :=
  ⟨grayEncode_injective, fun h => h ▸ rfl⟩

theorem getLsbD_grayEncode (x : BitVec n) (i : Nat) :
    (grayEncode x).getLsbD i = (x.getLsbD i ^^ x.getLsbD (i + 1)) := by
  rw [grayEncode, BitVec.getLsbD_xor, BitVec.getLsbD_ushiftRight, Nat.add_comm 1]

/-- An increment inverts the bits below which all are set. -/
theorem getLsbD_xor_succ (x : BitVec n) (i : Nat) :
    (x ^^^ (x + 1)).getLsbD i = decide (i < n ∧ ∀ low < i, x.getLsbD low = true) := by
  by_cases hi : i < n
  · have hone : (1 : BitVec n) = 1#n := rfl
    rw [BitVec.getLsbD_xor, BitVec.getLsbD_add hi, ← Bool.xor_assoc, Bool.xor_self,
      Bool.false_xor, hone]
    cases i with
    | zero => simp [hi]
    | succ i =>
        rw [BitVec.carry_succ_one i x (Nat.zero_lt_of_lt hi)]
        have hlow : (1#n).getLsbD (i + 1) = false := by simp
        simp only [hi, hlow, true_and, Nat.lt_succ_iff, Bool.false_xor]
  · rw [BitVec.getLsbD_of_ge _ _ (Nat.le_of_not_lt hi)]
    simp [hi]

/-- The Gray codes of a value and its successor differ in one bit: the highest that the
increment inverts. -/
theorem grayEncode_succ (hn : 0 < n) (x : BitVec n) :
    ∃ i < n, ∀ bit, (grayEncode x).getLsbD bit ≠ (grayEncode (x + 1)).getLsbD bit ↔ bit = i := by
  let run := fun i => ∀ low < i, x.getLsbD low = true
  have hrun : ∀ i, ∀ j ≤ i, run i → run j := fun i j hle hall low hlow =>
    hall low (hlow.trans_le hle)
  let top := Nat.findGreatest run (n - 1)
  have htop : top ≤ n - 1 := Nat.findGreatest_le _
  have hreached : run top :=
    Nat.findGreatest_spec (Nat.zero_le _) fun low hlow => absurd hlow (Nat.not_lt_zero low)
  have habove : ∀ i < n, run i → i ≤ top := fun i hi hall =>
    Nat.le_findGreatest (Nat.le_sub_one_of_lt hi) hall
  refine ⟨top, by omega, fun bit => ?_⟩
  rw [← Bool.xor_iff_ne, ← BitVec.getLsbD_xor, ← grayEncode_xor, getLsbD_grayEncode,
    getLsbD_xor_succ, getLsbD_xor_succ]
  rcases Nat.lt_trichotomy bit top with hlt | rfl | hgt
  · have hself : bit < n ∧ run bit := ⟨by omega, hrun _ _ hlt.le hreached⟩
    have hnext : bit + 1 < n ∧ run (bit + 1) := ⟨by omega, hrun _ _ hlt hreached⟩
    rw [decide_eq_true hself, decide_eq_true hnext]
    simp [hlt.ne]
  · have hself : top < n ∧ run top := ⟨by omega, hreached⟩
    have hnext : ¬ (top + 1 < n ∧ run (top + 1)) := fun ⟨hlt, hall⟩ =>
      absurd (habove _ hlt hall) (Nat.not_succ_le_self top)
    rw [decide_eq_true hself, decide_eq_false hnext]
    simp
  · have hself : ¬ (bit < n ∧ run bit) := fun ⟨hlt, hall⟩ =>
      absurd (habove _ hlt hall) (Nat.not_le_of_lt hgt)
    have hnext : ¬ (bit + 1 < n ∧ run (bit + 1)) := fun ⟨hlt, hall⟩ =>
      absurd (habove _ hlt hall) (Nat.not_le_of_lt (hgt.trans (Nat.lt_succ_self bit)))
    rw [decide_eq_false hself, decide_eq_false hnext]
    simp [hgt.ne']

/-- Fold the shifts `1 .. count` of a Gray code into it. -/
def grayFold (gray : BitVec n) (count : Nat) : BitVec n :=
  (List.range count).foldl (fun b i => b ^^^ (gray >>> (i + 1))) gray

/-- Each further shift cancels the term the previous one left over. -/
theorem grayFold_grayEncode (x : BitVec n) (count : Nat) :
    grayFold (grayEncode x) count = x ^^^ (x >>> (count + 1)) := by
  induction count with
  | zero => rfl
  | succ count ih =>
      have hstep : grayFold (grayEncode x) (count + 1) =
          grayFold (grayEncode x) count ^^^ (grayEncode x >>> (count + 1)) := by
        simp [grayFold, List.range_succ]
      have hshift : grayEncode x >>> (count + 1) =
          x >>> (count + 1) ^^^ x >>> (count + 1 + 1) := by
        rw [grayEncode, BitVec.ushiftRight_xor_distrib, ← BitVec.shiftRight_add,
          Nat.add_comm 1]
      rw [hstep, ih, hshift, BitVec.xor_assoc, ← BitVec.xor_assoc (x >>> (count + 1)),
        BitVec.xor_self, BitVec.zero_xor]

/-- Folding in every shift undoes the encoder. -/
theorem grayFold_decode (x : BitVec (n + 1)) :
    grayFold (grayEncode x) n = x := by
  have hshift : x >>> (n + 1) = 0 := by
    ext i hi
    simp
  rw [grayFold_grayEncode, hshift]
  exact BitVec.xor_zero

/-- Bit `n - 1 - k` of the decoded value, from the top bit downwards. -/
def grayBit (gray : BitVec n) : Nat → Bool
  | 0 => gray.getMsbD 0
  | k + 1 => grayBit gray k ^^ gray.getMsbD (k + 1)

theorem getMsbD_grayEncode_succ (x : BitVec n) (k : Nat) (hk : k + 1 < n) :
    (grayEncode x).getMsbD (k + 1) = (x.getMsbD (k + 1) ^^ x.getMsbD k) := by
  simp [grayEncode, BitVec.getMsbD_xor, BitVec.getMsbD_ushiftRight, hk]

theorem grayBit_grayEncode (x : BitVec n) (k : Nat) (hk : k < n) :
    grayBit (grayEncode x) k = x.getMsbD k := by
  induction k with
  | zero => simp [grayBit, grayEncode, BitVec.getMsbD_xor]
  | succ k ih =>
      rw [grayBit, ih (by omega), getMsbD_grayEncode_succ x k hk]
      cases x.getMsbD k <;> simp

/-- The decoder that goes through the bits from the top downwards. -/
def grayDecode (gray : BitVec n) : BitVec n :=
  (BitVec.iunfoldr (fun i (_ : Unit) => ((), grayBit gray (n - 1 - i))) ()).2

theorem getLsbD_grayDecode (gray : BitVec n) {i : Nat} (hi : i < n) :
    (grayDecode gray).getLsbD i = grayBit gray (n - 1 - i) :=
  BitVec.iunfoldr_getLsbD (fun _ => ()) ⟨i, hi⟩ (fun _ => rfl)

theorem grayDecode_grayEncode (x : BitVec n) :
    grayDecode (grayEncode x) = x := by
  apply BitVec.eq_of_getLsbD_eq
  intro i hi
  have hindex : n - 1 - (n - 1 - i) = i := by omega
  rw [getLsbD_grayDecode _ hi, grayBit_grayEncode x _ (by omega)]
  simp only [BitVec.getMsbD_eq_getLsbD, hindex, Bool.and_eq_right_iff_imp,
    decide_eq_true_eq]
  omega

/-- The top bit of a pointer: half a turn around the ring. -/
def halfTurn (n : Nat) : BitVec (n + 1) := BitVec.twoPow (n + 1) n

/-- Adding half a turn flips the top bit: its carry leaves the pointer. -/
theorem add_halfTurn_eq_xor (x : BitVec (n + 1)) :
    x + halfTurn n = x ^^^ halfTurn n := by
  apply BitVec.eq_of_getLsbD_eq
  intro i hi
  have hcarry : BitVec.carry i x (halfTurn n) false = false := by
    have hlow : (halfTurn n).toNat % 2 ^ i = 0 := by
      rw [halfTurn, BitVec.toNat_twoPow_of_lt (by omega)]
      exact Nat.mod_eq_zero_of_dvd (Nat.pow_dvd_pow 2 (by omega))
    have hlt : x.toNat % 2 ^ i < 2 ^ i := Nat.mod_lt _ (Nat.two_pow_pos i)
    simpa [BitVec.carry, hlow] using hlt
  rw [BitVec.getLsbD_add hi, hcarry, Bool.xor_false, BitVec.getLsbD_xor]

/-- Invert the two top bits. -/
def invertTopTwo (gray : BitVec (n + 1)) : BitVec (n + 1) :=
  (~~~(gray.extractLsb' (n - 1) 2) ++ gray.extractLsb' 0 (n - 1)).setWidth (n + 1)

theorem invertTopTwo_eq_xor (hn : 1 ≤ n) (gray : BitVec (n + 1)) :
    invertTopTwo gray = gray ^^^ grayEncode (halfTurn n) := by
  apply BitVec.eq_of_getLsbD_eq
  intro i hi
  simp only [invertTopTwo, grayEncode, halfTurn, BitVec.getLsbD_setWidth,
    BitVec.getLsbD_append, BitVec.getLsbD_extractLsb', BitVec.getLsbD_not,
    BitVec.getLsbD_xor, BitVec.getLsbD_ushiftRight, BitVec.getLsbD_twoPow]
  by_cases hlow : i < n - 1
  · have hself : n ≠ i := by omega
    have hnext : n ≠ 1 + i := by omega
    simp [hi, hlow, hself, hnext]
  · have hback : n - 1 + (i - (n - 1)) = i := by omega
    have hwidth : i - (n - 1) < 2 := by omega
    have hflip : (decide (n = i) ^^ decide (n = 1 + i)) = true := by
      have htop : n = i ∨ n = 1 + i := by omega
      rcases htop with htop | htop <;> simp [htop]
    have hself : decide (n < n + 1) = true := by simp
    simp only [hi, hlow, hback, hwidth, hself, hflip, decide_true, decide_false,
      Bool.true_and, if_false, Bool.xor_true]

/-- The ring holds half a turn of words exactly when the Gray code of one
pointer is the other's with the two top bits inverted. -/
theorem grayEncode_eq_invertTopTwo_iff (hn : 1 ≤ n) (x y : BitVec (n + 1)) :
    grayEncode x = invertTopTwo (grayEncode y) ↔ x = y + halfTurn n := by
  rw [invertTopTwo_eq_xor hn, ← grayEncode_xor, grayEncode_inj,
    add_halfTurn_eq_xor]

/-- Counts less than one turn of the counter apart are told apart by it. -/
theorem ofNat_eq_ofNat_iff {width low high : Nat} (hle : low ≤ high)
    (hlt : high < low + 2 ^ width) :
    BitVec.ofNat width low = BitVec.ofNat width high ↔ low = high := by
  constructor
  · intro heq
    have hmod : low % 2 ^ width = high % 2 ^ width := by
      simpa using congrArg BitVec.toNat heq
    obtain ⟨gap, rfl⟩ := Nat.exists_eq_add_of_le hle
    have hgap : gap % 2 ^ width = 0 := by
      simpa using Nat.sub_mod_eq_zero_of_mod_eq hmod.symm
    rw [Nat.mod_eq_of_lt (by omega)] at hgap
    omega
  · exact fun heq => heq ▸ rfl

/-- Their difference is then the number of counts between them. -/
theorem toNat_ofNat_sub_ofNat {width low high : Nat} (hle : low ≤ high)
    (hlt : high < low + 2 ^ width) :
    (BitVec.ofNat width high - BitVec.ofNat width low).toNat = high - low := by
  obtain ⟨gap, rfl⟩ := Nat.exists_eq_add_of_le hle
  have hgap : gap < 2 ^ width := by omega
  rw [Nat.add_comm low, BitVec.ofNat_add, BitVec.add_sub_cancel,
    BitVec.toNat_ofNat, Nat.mod_eq_of_lt hgap, Nat.add_sub_cancel]

theorem ofNat_add_halfTurn (width count : Nat) :
    BitVec.ofNat (width + 1) count + halfTurn width =
      BitVec.ofNat (width + 1) (count + 2 ^ width) := by
  apply BitVec.eq_of_toNat_eq
  simp [halfTurn]

end EmacZero
