/-
A cyclic redundancy check computed bit by bit, least significant bit first, over
any polynomial.  Feeding a message and then the complement of its check leaves a
constant residue, and nothing else that is appended does.
-/
import Mathlib.Data.BitVec
import Mathlib.Logic.Function.Iterate

namespace EmacZero

variable {w : Nat} (poly : BitVec w)

/-- One bit of the division. -/
def crcBit (crc : BitVec w) : BitVec w :=
  if crc.getLsbD 0 then (crc >>> 1) ^^^ poly else crc >>> 1

def crcBits (count : Nat) (crc : BitVec w) : BitVec w := (crcBit poly)^[count] crc

def crcByte (crc : BitVec w) (data : BitVec 8) : BitVec w :=
  crcBits poly 8 (crc ^^^ data.setWidth w)

def crcFeed (crc : BitVec w) (message : List (BitVec 8)) : BitVec w :=
  message.foldl (crcByte poly) crc

/-- The bytes of a message as one number, the first one least significant. -/
def littleEndian (w : Nat) : List (BitVec 8) → BitVec w
  | [] => 0
  | data :: rest => data.setWidth w ^^^ (littleEndian w rest <<< 8)

/-- The low bytes of a number, the least significant one first. -/
def lowBytes : Nat → BitVec w → List (BitVec 8)
  | 0, _ => []
  | count + 1, value => value.setWidth 8 :: lowBytes count (value >>> 8)

@[simp] theorem crcFeed_nil (crc : BitVec w) : crcFeed poly crc [] = crc := rfl

@[simp] theorem crcFeed_cons (crc : BitVec w) (data : BitVec 8)
    (rest : List (BitVec 8)) :
    crcFeed poly crc (data :: rest) = crcFeed poly (crcByte poly crc data) rest :=
  rfl

theorem crcFeed_append (crc : BitVec w) (first second : List (BitVec 8)) :
    crcFeed poly crc (first ++ second) =
      crcFeed poly (crcFeed poly crc first) second :=
  List.foldl_append

theorem crcBits_add (first second : Nat) (crc : BitVec w) :
    crcBits poly (first + second) crc = crcBits poly first (crcBits poly second crc) :=
  Function.iterate_add_apply ..

theorem crcBit_xor (first second : BitVec w) :
    crcBit poly (first ^^^ second) = crcBit poly first ^^^ crcBit poly second := by
  apply BitVec.eq_of_getLsbD_eq
  intro index _
  simp only [crcBit, BitVec.getLsbD_xor]
  cases first.getLsbD 0 <;> cases second.getLsbD 0 <;>
    simp only [Bool.xor_false, Bool.xor_true, Bool.not_true, Bool.not_false,
      if_true, if_false, reduceCtorEq, BitVec.getLsbD_xor,
      BitVec.getLsbD_ushiftRight] <;>
    cases first.getLsbD (1 + index) <;> cases second.getLsbD (1 + index) <;>
    cases poly.getLsbD index <;> rfl

theorem crcBits_xor (count : Nat) (first second : BitVec w) :
    crcBits poly count (first ^^^ second) =
      crcBits poly count first ^^^ crcBits poly count second := by
  induction count with
  | zero => rfl
  | succ count ih =>
      simp only [crcBits, Function.iterate_succ_apply'] at ih ⊢
      rw [ih, crcBit_xor]

variable {poly}

/-- A division step loses nothing: the bit shifted out shows at the top. -/
theorem crcBit_eq_zero (htop : poly.getLsbD (w - 1) = true) {crc : BitVec w}
    (hzero : crcBit poly crc = 0) : crc = 0 := by
  have hlow : crc.getLsbD 0 = false := by
    cases hlow : crc.getLsbD 0 with
    | false => rfl
    | true =>
        have hbit := congrArg (fun value => value.getLsbD (w - 1)) hzero
        have hpast : crc.getLsbD (1 + (w - 1)) = false :=
          BitVec.getLsbD_of_ge _ _ (by omega)
        simp [crcBit, hlow, htop, hpast] at hbit
  simp only [crcBit, hlow] at hzero
  apply BitVec.eq_of_getLsbD_eq
  intro index _
  cases index with
  | zero => simpa using hlow
  | succ index =>
      have hbit := congrArg (fun value => value.getLsbD index) hzero
      simpa [Nat.add_comm] using hbit

theorem crcBits_injective (htop : poly.getLsbD (w - 1) = true) (count : Nat) :
    Function.Injective (crcBits poly count) := by
  apply Function.Injective.iterate
  intro first second heq
  have hzero : crcBit poly (first ^^^ second) = 0 := by
    rw [crcBit_xor, heq, BitVec.xor_self]
    rfl
  exact BitVec.xor_eq_zero_iff.mp (crcBit_eq_zero htop hzero)

/-- Bits that are zero shift out without changing anything. -/
theorem crcBits_of_low_zero {count : Nat} {crc : BitVec w}
    (hlow : ∀ index < count, crc.getLsbD index = false) :
    crcBits poly count crc = crc >>> count := by
  induction count with
  | zero => simp [crcBits]
  | succ count ih =>
      have hcount := ih fun index hindex => hlow index (Nat.lt_succ_of_lt hindex)
      have hbit : (crc >>> count).getLsbD 0 = false := by
        simpa using hlow count (Nat.lt_succ_self count)
      rw [crcBits, Function.iterate_succ_apply', ← crcBits, hcount, crcBit, hbit,
        if_neg (by simp), BitVec.shiftRight_add]

theorem littleEndian_high_zero (message : List (BitVec 8)) {index : Nat}
    (hindex : 8 * message.length ≤ index) :
    (littleEndian w message).getLsbD index = false := by
  induction message generalizing index with
  | nil => simp [littleEndian]
  | cons data rest ih =>
      simp only [List.length_cons] at hindex
      have hrest := @ih (index - 8) (by omega)
      have hdata : data.getLsbD index = false := BitVec.getLsbD_of_ge _ _ (by omega)
      simp [littleEndian, hrest, hdata]

theorem littleEndian_shift_back {rest : List (BitVec 8)}
    (hfits : 8 * (rest.length + 1) ≤ w) :
    (littleEndian w rest <<< 8) >>> 8 = littleEndian w rest := by
  apply BitVec.eq_of_getLsbD_eq
  intro index _
  by_cases hlow : index < 8 * rest.length
  · have hinside : 8 + index < w := by omega
    have hpast : ¬ 8 + index < 8 := by omega
    simp [hinside, hpast, BitVec.getLsbD_eq_getElem (show index < w by omega)]
  · have hzero := @littleEndian_high_zero w rest index (by omega)
    simp [hzero]

/-- Bytes may be fed one by one or as one number. -/
theorem crcFeed_eq_littleEndian {message : List (BitVec 8)}
    (hfits : 8 * message.length ≤ w) (crc : BitVec w) :
    crcFeed poly crc message =
      crcBits poly (8 * message.length) (crc ^^^ littleEndian w message) := by
  induction message generalizing crc with
  | nil => simp [crcBits, littleEndian]
  | cons data rest ih =>
      have hrest : 8 * rest.length ≤ w := by
        simp only [List.length_cons] at hfits
        omega
      have hlow : crcBits poly 8 (littleEndian w rest <<< 8) =
          littleEndian w rest := by
        rw [crcBits_of_low_zero, littleEndian_shift_back (by simpa using hfits)]
        intro index hindex
        simp [hindex]
      rw [crcFeed_cons, ih hrest, crcByte, ← hlow, ← crcBits_xor, ← crcBits_add,
        BitVec.xor_assoc]
      rfl

theorem length_lowBytes (count : Nat) (value : BitVec w) :
    (lowBytes count value).length = count := by
  induction count generalizing value with
  | zero => rfl
  | succ count ih => simp [lowBytes, ih]

theorem lowBytes_littleEndian {message : List (BitVec 8)}
    (hfits : 8 * message.length ≤ w) :
    lowBytes message.length (littleEndian w message) = message := by
  induction message with
  | nil => rfl
  | cons data rest ih =>
      simp only [List.length_cons] at hfits
      have hdata : (littleEndian w (data :: rest)).setWidth 8 = data := by
        apply BitVec.eq_of_getLsbD_eq
        intro index hindex
        simp [littleEndian, hindex, show index < w by omega]
      have hshift : littleEndian w (data :: rest) >>> 8 = littleEndian w rest := by
        rw [littleEndian, BitVec.ushiftRight_xor_distrib, littleEndian_shift_back hfits]
        apply BitVec.eq_of_getLsbD_eq
        intro index _
        simp
      rw [List.length_cons, lowBytes, hdata, hshift, ih (by omega)]

theorem littleEndian_lowBytes {count : Nat} {value : BitVec w}
    (hvalue : ∀ index, 8 * count ≤ index → value.getLsbD index = false) :
    littleEndian w (lowBytes count value) = value := by
  induction count generalizing value with
  | zero =>
      apply BitVec.eq_of_getLsbD_eq
      intro index _
      simp [lowBytes, littleEndian, hvalue index]
  | succ count ih =>
      have hrest := @ih (value >>> 8) (by
        intro index hindex
        rw [BitVec.getLsbD_ushiftRight]
        exact hvalue _ (by omega))
      rw [lowBytes, littleEndian, hrest]
      apply BitVec.eq_of_getLsbD_eq
      intro index hindex
      by_cases hlow : index < 8
      · simp [hlow, hindex]
      · simp [hlow, hindex, show 8 + (index - 8) = index by omega]

/-- The residue: a message whose check is appended, complemented, leaves the
same value whatever the message, and no other check of that length does. -/
theorem crcFeed_residue_iff (htop : poly.getLsbD (w - 1) = true)
    {check : List (BitVec 8)} (hlength : 8 * check.length = w) (crc : BitVec w) :
    crcFeed poly crc check = crcBits poly w (BitVec.allOnes w) ↔
      check = lowBytes check.length (~~~crc) := by
  rw [crcFeed_eq_littleEndian hlength.le, hlength,
    (crcBits_injective htop w).eq_iff]
  have hcomplement : crc ^^^ littleEndian w check = BitVec.allOnes w ↔
      littleEndian w check = ~~~crc := by
    constructor
    · intro hsum
      rw [← BitVec.xor_allOnes, ← hsum, ← BitVec.xor_assoc, BitVec.xor_self,
        BitVec.zero_xor]
    · intro hcheck
      rw [hcheck, ← BitVec.xor_allOnes, ← BitVec.xor_assoc, BitVec.xor_self,
        BitVec.zero_xor]
  rw [hcomplement]
  constructor
  · intro hcheck
    rw [← hcheck, lowBytes_littleEndian hlength.le]
  · intro hcheck
    rw [hcheck, littleEndian_lowBytes]
    intro index hindex
    exact BitVec.getLsbD_of_ge _ _ (by omega)

end EmacZero
