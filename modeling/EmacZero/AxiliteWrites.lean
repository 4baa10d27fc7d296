/-
The read/write registers of `axilite_regs`: after any writes each holds what the
writes to it, merged byte by byte, have left.
-/
import Mathlib.Data.BitVec
import EmacZero.AxiliteRegs

namespace EmacZero

/-- A write as it reaches the registers. -/
structure CsrWrite (addrWidth : Nat) where
  addr : BitVec addrWidth
  data : BitVec 32
  strb : BitVec 4
deriving Repr, DecidableEq

/-- The bits of a register that a write stores; none for a register without storage. -/
def Csr.writable (params : AxiliteParams) : Csr → BitVec 32
  | .ctrl => 0x000003FF
  | .macLo => 0xFFFFFFFF
  | .macHi => 0x0000FFFF
  | .ipAddr => 0xFFFFFFFF
  | .mdioCmd => 0x000077FF
  | .mdioWdata => 0x0000FFFF
  | .irqEn => 0x00000007
  | .scratch => 0xFFFFFFFF
  | .mcastLo => if params.mcastHashFilter then 0xFFFFFFFF else 0
  | .mcastHi => if params.mcastHashFilter then 0xFFFFFFFF else 0
  | .pauseCtrl => 0x00000002
  | .pauseQuanta => 0x0000FFFF
  | _ => 0

/-- What writes leave of a value, each merged into it by byte lanes if it names the
register. -/
def merged {addrWidth : Nat} (csr : Csr) (value : BitVec 32)
    (writes : List (CsrWrite addrWidth)) : BitVec 32 :=
  writes.foldl (fun old write =>
    if csrOf write.addr = some csr then strbMerge old write.data write.strb else old) value

/-- One byte lane. -/
theorem getLsbD_lane (on : Bool) (oldVal newVal : BitVec 32) (low : Nat) {bit : Nat}
    (hlow : low ≤ bit) (hhigh : bit < low + 8) :
    (if on then newVal.extractLsb' low 8 else oldVal.extractLsb' low 8).getLsbD (bit - low) =
      if on then newVal.getLsbD bit else oldVal.getLsbD bit := by
  have hin : bit - low < 8 := by omega
  have hat : low + (bit - low) = bit := by omega
  cases on with
  | false => simp only [Bool.false_eq_true, if_false, BitVec.getLsbD_extractLsb', hin, hat,
      decide_true, Bool.true_and]
  | true => simp only [if_true, BitVec.getLsbD_extractLsb', hin, hat, decide_true,
      Bool.true_and]

theorem getLsbD_strbMerge (oldVal newVal : BitVec 32) (strb : BitVec 4) {bit : Nat}
    (hbit : bit < 32) :
    (strbMerge oldVal newVal strb).getLsbD bit =
      if strb.getLsbD (bit / 8) then newVal.getLsbD bit else oldVal.getLsbD bit := by
  rw [strbMerge, BitVec.getLsbD_append, BitVec.getLsbD_append, BitVec.getLsbD_append]
  rcases Nat.lt_or_ge bit 8 with hzero | hzero
  · rw [if_pos hzero, show bit / 8 = 0 by omega]
    exact getLsbD_lane _ oldVal newVal 0 (Nat.zero_le bit) hzero
  · rw [if_neg (by omega)]
    rcases Nat.lt_or_ge bit 16 with hone | hone
    · rw [if_pos (by omega), show bit / 8 = 1 by omega]
      exact getLsbD_lane _ oldVal newVal 8 hzero hone
    · rw [if_neg (by omega), Nat.sub_sub]
      rcases Nat.lt_or_ge bit 24 with htwo | htwo
      · rw [if_pos (by omega), show bit / 8 = 2 by omega]
        exact getLsbD_lane _ oldVal newVal 16 hone htwo
      · rw [if_neg (by omega), Nat.sub_sub, show bit / 8 = 3 by omega]
        exact getLsbD_lane _ oldVal newVal 24 htwo (by omega)

/-- Bits that are not stored do not matter to the bits that are. -/
theorem strbMerge_and (oldVal newVal : BitVec 32) (strb : BitVec 4) (mask : BitVec 32) :
    strbMerge (oldVal &&& mask) newVal strb &&& mask =
      strbMerge oldVal newVal strb &&& mask := by
  apply BitVec.eq_of_getLsbD_eq
  intro bit hbit
  rw [BitVec.getLsbD_and, BitVec.getLsbD_and, getLsbD_strbMerge _ _ _ hbit,
    getLsbD_strbMerge _ _ _ hbit, BitVec.getLsbD_and]
  cases strb.getLsbD (bit / 8) with
  | true => rfl
  | false =>
      simp only [Bool.false_eq_true, if_false]
      rw [Bool.and_assoc, Bool.and_self]

theorem merged_concat {addrWidth : Nat} (csr : Csr) (value : BitVec 32)
    (writes : List (CsrWrite addrWidth)) (write : CsrWrite addrWidth) :
    merged csr value (writes ++ [write]) =
      if csrOf write.addr = some csr then
        strbMerge (merged csr value writes) write.data write.strb
      else merged csr value writes := by
  rw [merged, List.foldl_append]
  rfl

/-- A field of some low bits. -/
theorem setWidth_low (value : BitVec 32) (width : Nat) :
    (value.setWidth width).setWidth 32 = value &&& BitVec.ofNat 32 (2 ^ width - 1) := by
  apply BitVec.eq_of_getLsbD_eq
  intro bit hbit
  rw [BitVec.getLsbD_setWidth, BitVec.getLsbD_setWidth, BitVec.getLsbD_and,
    BitVec.getLsbD_ofNat, Nat.testBit_two_pow_sub_one, decide_eq_true hbit, Bool.true_and,
    Bool.true_and, Bool.and_comm]

namespace CsrFile

variable {params : AxiliteParams} {file : CsrFile} {data : BitVec 32} {strb : BitVec 4}
  {mdioBusy : Bool}

theorem getLsbD_pauseCtrl (status : CsrStatus) {bit : Nat} (hbit : bit < 32) :
    (file.read params status .pauseCtrl).getLsbD bit =
      (file.pauseRxEn && decide (1 = bit)) := by
  change ((BitVec.ofBool file.pauseRxEn ++ (0 : BitVec 1)).setWidth 32).getLsbD bit = _
  rw [BitVec.getLsbD_setWidth, BitVec.getLsbD_append, decide_eq_true hbit, Bool.true_and,
    BitVec.getLsbD_ofBool]
  rcases bit with _ | bit
  · simp
  · rw [if_neg (by omega), Nat.add_sub_cancel, Bool.and_comm]
    simp

theorem pauseCtrl_write (status : CsrStatus) :
    (file.write params .pauseCtrl data strb mdioBusy).read params status .pauseCtrl =
      strbMerge (file.read params status .pauseCtrl) data strb &&& 2 := by
  apply BitVec.eq_of_getLsbD_eq
  intro bit hbit
  rw [getLsbD_pauseCtrl status hbit, BitVec.getLsbD_and, getLsbD_strbMerge _ _ _ hbit,
    getLsbD_pauseCtrl status hbit]
  have hmask : (2 : BitVec 32).getLsbD bit = decide (1 = bit) := by
    rw [show (2 : BitVec 32) = BitVec.ofNat 32 (2 ^ 1) from rfl, BitVec.getLsbD_ofNat,
      decide_eq_true hbit, Bool.true_and, Nat.testBit_two_pow]
  rw [hmask]
  rcases Nat.decEq 1 bit with hother | rfl
  · rw [decide_eq_false hother, Bool.and_false, Bool.and_false]
  · change _ = ((if strb.getLsbD 0 then _ else _) && _)
    rw [decide_eq_true rfl, Bool.and_true, Bool.and_true, Bool.and_true, CsrFile.write]
    cases strb.getLsbD 0 <;> rfl

theorem pauseQuanta_write (status : CsrStatus) :
    (file.write params .pauseQuanta data strb mdioBusy).read params status .pauseQuanta =
      strbMerge (file.read params status .pauseQuanta) data strb &&& 0xFFFF := by
  change BitVec.setWidth 32 (_ ++ _ : BitVec 16) =
    strbMerge (file.pauseQuanta.setWidth 32) _ _ &&& _
  apply BitVec.eq_of_getLsbD_eq
  intro bit hbit
  rw [BitVec.getLsbD_setWidth, BitVec.getLsbD_append, BitVec.getLsbD_and,
    getLsbD_strbMerge _ _ _ hbit, BitVec.getLsbD_setWidth, decide_eq_true hbit,
    show (0xFFFF : BitVec 32) = BitVec.ofNat 32 (2 ^ 16 - 1) from rfl, BitVec.getLsbD_ofNat,
    Nat.testBit_two_pow_sub_one, decide_eq_true hbit, Bool.true_and, Bool.true_and,
    Bool.true_and]
  rcases Nat.lt_or_ge bit 8 with hzero | hzero
  · rw [if_pos hzero, decide_eq_true (by omega), Bool.and_true, show bit / 8 = 0 by omega]
    cases strb.getLsbD 0 <;> simp [hzero]
  · rw [if_neg (by omega)]
    rcases Nat.lt_or_ge bit 16 with hone | hone
    · rw [decide_eq_true hone, Bool.and_true, show bit / 8 = 1 by omega]
      cases strb.getLsbD 1 <;>
        simp [show bit - 8 < 8 by omega, show 8 + (bit - 8) = bit by omega]
    · rw [decide_eq_false (by omega), Bool.and_false]
      apply BitVec.getLsbD_of_ge
      omega

/-- A write stores its data, byte lane by byte lane, in the bits that the register has. -/
theorem read_write_same {csr : Csr} (hcsr : csr.writable params ≠ 0) (status : CsrStatus) :
    (file.write params csr data strb mdioBusy).read params status csr =
      strbMerge (file.read params status csr) data strb &&& csr.writable params := by
  cases csr with
  | ctrl => exact setWidth_low _ 10
  | macLo => exact (BitVec.and_allOnes).symm
  | macHi => exact setWidth_low _ 16
  | ipAddr => exact (BitVec.and_allOnes).symm
  | mdioCmd =>
      change ((BitVec.setWidth 15 _) &&& 0x77FF#15).setWidth 32 = _
      rw [BitVec.setWidth_and, setWidth_low, BitVec.and_assoc]
      rfl
  | mdioWdata => exact setWidth_low _ 16
  | irqEn => exact setWidth_low _ 3
  | scratch => exact (BitVec.and_allOnes).symm
  | mcastLo =>
      cases hfilter : params.mcastHashFilter with
      | false => simp [Csr.writable, hfilter] at hcsr
      | true =>
          simp only [CsrFile.write, CsrFile.read, Csr.writable, hfilter, if_true]
          exact (BitVec.and_allOnes).symm
  | mcastHi =>
      cases hfilter : params.mcastHashFilter with
      | false => simp [Csr.writable, hfilter] at hcsr
      | true =>
          simp only [CsrFile.write, CsrFile.read, Csr.writable, hfilter, if_true]
          exact (BitVec.and_allOnes).symm
  | pauseCtrl => exact pauseCtrl_write status
  | pauseQuanta => exact pauseQuanta_write status
  | _ => exact absurd rfl hcsr

/-- It leaves the other registers alone. -/
theorem read_write_other {csr other : Csr} (hne : csr ≠ other)
    (hother : other.writable params ≠ 0) (status : CsrStatus) :
    (file.write params csr data strb mdioBusy).read params status other =
      file.read params status other := by
  cases other <;> first
    | exact absurd rfl hother
    | (cases csr <;> first
        | rfl
        | exact absurd rfl hne
        | (simp only [CsrFile.write]; split <;> rfl))

end CsrFile

end EmacZero
