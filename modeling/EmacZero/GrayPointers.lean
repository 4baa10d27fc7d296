/-
The pointer arithmetic of the clock crossings, for every width: the converters that
`async_fifo`, `mii_tx_saf` and `gmii_cdc` write as loops, and the test for a full FIFO.
-/
import EmacZero.AsyncFifoRefinement
import EmacZero.FrameCount

namespace EmacZero

variable {n addrWidth : Nat}

/-- Assign one bit of a vector. -/
def assignBit (bits : BitVec n) (i : Nat) (value : Bool) : BitVec n :=
  if value then bits ||| BitVec.twoPow n i else bits &&& ~~~BitVec.twoPow n i

/-- `gray_to_bin` and `ctl_gray_to_bin`, of `mii_tx_saf` and of `gmii_cdc`: the top bit, and
the others from there downwards. -/
def grayToBin (gray : BitVec n) : BitVec n :=
  (List.range (n - 1)).reverse.foldl
    (fun bin i => assignBit bin i (bin.getLsbD (i + 1) ^^ gray.getLsbD i))
    (assignBit 0 (n - 1) (gray.getLsbD (n - 1)))

theorem getLsbD_assignBit (bits : BitVec n) {i : Nat} (hi : i < n) (value : Bool) (bit : Nat) :
    (assignBit bits i value).getLsbD bit = if bit = i then value else bits.getLsbD bit := by
  by_cases hbit : bit = i
  · subst hbit
    cases value <;> simp [assignBit, hi]
  · have hother : i ≠ bit := Ne.symm hbit
    rw [if_neg hbit]
    cases value with
    | false =>
        rw [assignBit, if_neg Bool.false_ne_true, BitVec.getLsbD_and, BitVec.getLsbD_not,
          BitVec.getLsbD_twoPow, decide_eq_false hother, Bool.and_false, Bool.not_false,
          Bool.and_true]
        by_cases hin : bit < n
        · rw [decide_eq_true hin, Bool.and_true]
        · rw [BitVec.getLsbD_of_ge _ _ (Nat.le_of_not_lt hin), Bool.false_and]
    | true =>
        rw [assignBit, if_pos rfl, BitVec.getLsbD_or, BitVec.getLsbD_twoPow,
          decide_eq_false hother, Bool.and_false, Bool.or_false]

/-- The decoded bits, from each one to the next lower one. -/
theorem getLsbD_grayDecode_pred (gray : BitVec n) {i : Nat} (hi : i + 1 < n) :
    (grayDecode gray).getLsbD i = ((grayDecode gray).getLsbD (i + 1) ^^ gray.getLsbD i) := by
  have hnext : n - 1 - i = n - 1 - (i + 1) + 1 := by omega
  have hbit : n - 1 - (n - 1 - i) = i := by omega
  have hlt : n - 1 - i < n := by omega
  rw [getLsbD_grayDecode _ (Nat.lt_of_succ_lt hi), getLsbD_grayDecode _ hi, hnext, grayBit,
    ← hnext, BitVec.getMsbD_eq_getLsbD, hbit, decide_eq_true hlt, Bool.true_and]

/-- The loop goes on below the bits that it has assigned. -/
theorem getLsbD_grayLoop (gray : BitVec n) {left : Nat} (hleft : left < n) (bin : BitVec n)
    (hdone : ∀ bit < n, left ≤ bit → bin.getLsbD bit = (grayDecode gray).getLsbD bit) :
    ∀ bit < n, ((List.range left).reverse.foldl
      (fun bin i => assignBit bin i (bin.getLsbD (i + 1) ^^ gray.getLsbD i)) bin).getLsbD bit =
        (grayDecode gray).getLsbD bit := by
  induction left generalizing bin with
  | zero => exact fun bit hbit => hdone bit hbit (Nat.zero_le bit)
  | succ left ih =>
      rw [List.range_succ, List.reverse_append, List.reverse_singleton, List.singleton_append,
        List.foldl_cons]
      refine ih (Nat.lt_of_succ_lt hleft) _ fun bit hbit hle => ?_
      rw [getLsbD_assignBit _ (Nat.lt_of_succ_lt hleft)]
      split
      · rename_i heq
        rw [heq, hdone _ hleft (Nat.le_refl _), getLsbD_grayDecode_pred gray hleft]
      · exact hdone bit hbit (by omega)

/-- The loop is the decoder that the committed-frame counters use. -/
theorem grayToBin_eq_grayDecode (gray : BitVec n) : grayToBin gray = grayDecode gray := by
  apply BitVec.eq_of_getLsbD_eq
  intro bit hbit
  have htop : n - 1 < n := Nat.sub_one_lt (Nat.ne_zero_of_lt hbit)
  refine getLsbD_grayLoop gray htop _ (fun high hhigh hle => ?_) bit hbit
  have heq : high = n - 1 := by omega
  rw [heq, getLsbD_assignBit _ htop, if_pos rfl, getLsbD_grayDecode _ htop, Nat.sub_self, grayBit,
    BitVec.getMsbD_eq_getLsbD, Nat.sub_zero, decide_eq_true (Nat.zero_lt_of_lt hbit),
    Bool.true_and]

/-- Half a turn apart. -/
theorem eq_add_halfTurn_iff (x y : BitVec (addrWidth + 1)) :
    x = y + halfTurn addrWidth ↔ (x - y).toNat = 2 ^ addrWidth := by
  have hhalf : (halfTurn addrWidth).toNat = 2 ^ addrWidth :=
    BitVec.toNat_twoPow_of_lt (Nat.lt_succ_self addrWidth)
  rw [← hhalf, BitVec.toNat_inj, BitVec.sub_eq_iff_eq_add, BitVec.add_comm]

namespace AsyncFifo

universe u

variable {α : Type u} {ramStyle : RamStyle}

/-- The Gray pointers of `addrWidth + 1` bits: both converters undo the encoder, an increment
changes one bit, and the FIFO is full exactly if its pointers are half a turn apart. -/
theorem grayPointers (haddr : 1 ≤ addrWidth) :
    (∀ x : BitVec (addrWidth + 1), gray2bin (bin2gray x) = x ∧ grayToBin (bin2gray x) = x) ∧
      (∀ x : BitVec (addrWidth + 1), ∃! i, i < addrWidth + 1 ∧
        (bin2gray x).getLsbD i ≠ (bin2gray (x + 1)).getLsbD i) ∧
      ∀ (fifo : AsyncFifo α addrWidth ramStyle) (x y : BitVec (addrWidth + 1)),
        fifo.wrPtrGray.now = bin2gray x → fifo.rdPtrGraySync2 = bin2gray y →
          (fifo.wrFull = true ↔ (x - y).toNat = 2 ^ addrWidth) := by
  refine ⟨fun x => ⟨gray2bin_bin2gray x, ?_⟩, fun x => ?_, fun fifo x y hwr hrd => ?_⟩
  · rw [grayToBin_eq_grayDecode]
    exact grayDecode_grayEncode x
  · obtain ⟨i, hi, hdiffers⟩ := grayEncode_succ (Nat.succ_pos addrWidth) x
    exact ⟨i, ⟨hi, (hdiffers i).mpr rfl⟩, fun bit hbit => (hdiffers bit).mp hbit.2⟩
  · rw [wrFull, beq_iff_eq, hwr, hrd, ← eq_add_halfTurn_iff]
    exact grayEncode_eq_invertTopTwo_iff haddr x y

/-- Pointers of two bits: 2 and 0 are half a turn apart. -/
theorem grayPointers_two :
    let empty : AsyncFifo Nat 1 .distributed := reset (fun _ => 0) 0
    let fifo : AsyncFifo Nat 1 .distributed := { empty with wrPtrGray := .rest (bin2gray 2) }
    grayToBin (bin2gray (3 : BitVec 2)) = 3 ∧ fifo.wrFull = true := by
  intro empty fifo
  obtain ⟨hdecode, -, hfull⟩ := @grayPointers 1 Nat .distributed (by decide)
  exact ⟨(hdecode 3).2, (hfull fifo 2 0 rfl rfl).mpr (by decide)⟩

end AsyncFifo

end EmacZero
