/-
The answers of `csum_calc`'s registers in the cycle after a header or a datagram
has ended: well formed or not, covered or not, and the sums, none of which
overflows.
-/
import EmacZero.CsumCalcWhole

namespace EmacZero

namespace CsumCalc

variable {zero : Bool} {s : CsumCalc} {frame : List (BitVec 8)}

/-! Folds. -/

theorem toNat_fold {k : Nat} (hk : k ≤ 16) (sum : BitVec (16 + k)) :
    ((sum.extractLsb' 0 16).setWidth 17 + (sum.extractLsb' 16 k).setWidth 17).toNat =
      foldCarry 16 sum.toNat := by
  have hsum := sum.isLt
  have hpow : 2 ^ (16 + k) = 2 ^ 16 * 2 ^ k := Nat.pow_add 2 16 k
  have hmono : 2 ^ k ≤ 2 ^ 16 := Nat.pow_le_pow_right (by decide) hk
  have hhigh : sum.toNat / 2 ^ 16 < 2 ^ k := by
    rw [Nat.div_lt_iff_lt_mul (by decide), Nat.mul_comm, ← hpow]
    exact hsum
  have hlow : sum.toNat % 2 ^ 16 < 2 ^ 16 := Nat.mod_lt _ (by decide)
  simp only [BitVec.toNat_add, BitVec.toNat_setWidth, BitVec.extractLsb'_toNat,
    Nat.shiftRight_eq_div_pow, Nat.pow_zero, Nat.div_one, foldCarry]
  rw [Nat.mod_eq_of_lt hhigh]
  omega

/-- The carry out of the second fold does not carry again. -/
theorem toNat_foldAgain {sum : BitVec 17} {n : Nat} (hsum : sum.toNat = foldCarry 16 n)
    (hlt : n < 2 ^ 32) :
    (sum.extractLsb' 0 16 + (sum.extractLsb' 16 1).setWidth 16).toNat = onesFold 16 n := by
  have hfold := @foldCarry_twice 16 (by decide) n hlt
  have hle := @onesFold_le 16 (by decide) n
  rw [← hsum, foldCarry] at hfold
  rw [← hfold] at hle ⊢
  simp only [BitVec.toNat_add, BitVec.toNat_setWidth, BitVec.extractLsb'_toNat,
    Nat.shiftRight_eq_div_pow, Nat.pow_zero, Nat.div_one]
  have hbound := sum.isLt
  have hcarry : sum.toNat / 2 ^ 16 ≤ 1 := by omega
  rw [Nat.mod_eq_of_lt (show sum.toNat / 2 ^ 16 < 2 ^ 1 by omega),
    Nat.mod_eq_of_lt (show sum.toNat / 2 ^ 16 < 2 ^ 16 by omega), Nat.mod_eq_of_lt]
  omega

theorem HeaderRegs.struct4_eq (hheader : s.HeaderRegs frame) (hether : s.EtherRegs frame)
    (hopen : l3Offset frame < frame.length) :
    s.struct4 = (isIp4 frame && decide (20 ≤ ihlBytes frame) &&
      decide (ihlBytes frame ≤ totalLength frame)) := by
  rw [struct4, hether.fam4_eq hopen]
  cases hip4 : isIp4 frame with
  | false => rfl
  | true =>
      have hmax := ihlBytes_le frame
      have hlen := hheader.ipLen
      rw [isIp6_of_isIp4 hip4] at hlen
      have htotal : s.ipLen.toNat = totalLength frame := by
        rw [hlen]
        rfl
      rw [BitVec.ule_eq_decide, BitVec.ule_eq_decide, BitVec.toNat_setWidth,
        hheader.hdrLen hip4, htotal, Nat.mod_eq_of_lt (by omega)]
      rfl

section Ended

variable (hparsed : s.Parsed zero frame) (hends : datagramEnds frame = true)
  (hfits : frame.length ≤ 16383)
include hparsed hends hfits

theorem regs_of_ends :
    l3Offset frame < frame.length ∧ (isIp4 frame = true ∨ isIp6 frame = true) ∧
      lengthsAt frame < frame.length ∧ datagramEnd frame = frame.length ∧
      s.IpRegs zero frame ∧ s.lenOk = true := by
  simp only [datagramEnds, Bool.and_eq_true, Bool.or_eq_true, decide_eq_true_eq] at hends
  obtain ⟨⟨hip, hin⟩, hend⟩ := hends
  have hopen : l3Offset frame < frame.length := by
    unfold lengthsAt at hin
    split at hin <;> omega
  have hregs := hparsed.ip hopen hip
  refine ⟨hopen, hip, hin, hend, hregs, ?_⟩
  rw [hregs.bounds.lenOk, decide_eq_true hin.le, hend, decide_eq_true hfits]
  rfl

theorem structOk_eq : s.structOk = wellFormed frame := by
  obtain ⟨hopen, hip, hin, hend, hregs, hok⟩ := regs_of_ends hparsed hends hfits
  have hstruct := hregs.header.struct4_eq hparsed.ether hopen
  rw [structOk, hok, hstruct, hparsed.ether.fam6_eq hopen, wellFormed, Bool.true_and,
    Bool.or_comm]

theorem laid_of_ends (hformed : wellFormed frame = true) : Laid frame := by
  obtain ⟨_, _, _, hend, _, _⟩ := regs_of_ends hparsed hends hfits
  exact laid_of_wellFormed hformed (by omega)

theorem l4Regs_of_ends (hformed : wellFormed frame = true) :
    l4Offset frame ≤ frame.length ∧ s.L4Regs zero frame := by
  obtain ⟨_, _, _, hend, hregs, _⟩ := regs_of_ends hparsed hends hfits
  obtain ⟨_, hl4⟩ := protocolAt_le_datagramEnd hformed
  have hlate : l4Offset frame ≤ frame.length := by omega
  exact ⟨hlate, hregs.l4 (laid_of_ends hparsed hends hfits hformed) hlate⟩

theorem isUdp_eq : s.isUdp = (protocol frame == 17) := by
  obtain ⟨_, _, _, _, hregs, _⟩ := regs_of_ends hparsed hends hfits
  rw [isUdp, hregs.header.proto]

theorem l4ProtoOk_eq : s.l4ProtoOk = protocolCovered frame := by
  obtain ⟨hopen, _, _, _, hregs, _⟩ := regs_of_ends hparsed hends hfits
  rw [l4ProtoOk, hregs.header.proto, hparsed.ether.fam4_eq hopen,
    hparsed.ether.fam6_eq hopen, protocolCovered]
  by_cases htcp : protocol frame = 6
  · simp [htcp]
  · by_cases hudp : protocol frame = 17
    · simp [hudp]
    · by_cases hicmp : protocol frame = 1
      · simp [hicmp]
      · by_cases hicmp6 : protocol frame = 58
        · simp [hicmp6]
        · rw [beq_false_of_ne htcp, beq_false_of_ne hudp, beq_false_of_ne hicmp,
            beq_false_of_ne hicmp6]
          rfl

theorem l4Able_eq : s.l4Able = l4Covered frame := by
  obtain ⟨hopen, hip, hin, hend, hregs, _⟩ := regs_of_ends hparsed hends hfits
  rw [l4Able, structOk_eq hparsed hends hfits, l4ProtoOk_eq hparsed hends hfits,
    isUdp_eq hparsed hends hfits, hparsed.ether.fam4_eq hopen, l4Covered]
  cases hformed : wellFormed frame with
  | false => rfl
  | true =>
      obtain ⟨hlate, hl4⟩ := l4Regs_of_ends hparsed hends hfits hformed
      have hlen := hregs.bounds.l4Len hin.le (header_of_wellFormed hformed)
      have hoffset := csumOffset_le (protocol frame)
      have hskip : (isIp4 frame && (s.frag || s.optSkip)) =
          (isIp4 frame && (fragmented frame || optionsSkip 0 (ip4Options frame))) := by
        cases hip4 : isIp4 frame with
        | false => rfl
        | true =>
            have hwalk := Walked.optSkip_eq (hregs.options hip4)
            rw [hregs.header.frag hip4, ← hwalk]
      have hroom : (s.l4Off.setWidth 16 + 2).ule s.l4Len =
          decide (csumOffset (protocol frame) + 2 ≤ l4Length frame) := by
        have hsum : (s.l4Off.setWidth 16 + 2).toNat = csumOffset (protocol frame) + 2 := by
          rw [BitVec.toNat_add, BitVec.toNat_setWidth, l4Off_toNat, hregs.header.proto]
          simp only [BitVec.reduceToNat]
          omega
        rw [BitVec.ule_eq_decide, hsum, hlen]
      rw [hskip, hroom]
      by_cases hfits' : csumOffset (protocol frame) + 2 ≤ l4Length frame
      · by_cases hudp : protocol frame = 17
        · have hwhole : datagramWhole frame = true :=
            datagramWhole_iff.mpr ⟨hformed, hend.le⟩
          have hbytes := udpLength_whole hwhole hudp hfits'
          have hudpLen := hl4.udpLen hudp (by omega)
          have hudpOk : s.udpOk = (decide (8 ≤ udpLength frame) &&
              decide (udpLength frame ≤ l4Length frame)) := by
            rw [udpOk, BitVec.ule_eq_decide, BitVec.ule_eq_decide, hudpLen, hlen]
            rfl
          rw [hudpOk]
          rfl
        · rw [bne_iff_ne.mpr hudp, beq_false_of_ne hudp]
          rfl
      · simp [hfits']

/-- The bytes covered end where the register says. -/
theorem coverEnd_of_covered (hcovered : l4Covered frame = true) :
    coverEnd frame = l4Offset frame + coveredLength frame ∧
      s.phLen.toNat = coveredLength frame := by
  obtain ⟨hopen, hip, hin, hend, hregs, _⟩ := regs_of_ends hparsed hends hfits
  simp only [l4Covered, Bool.and_eq_true, decide_eq_true_eq] at hcovered
  obtain ⟨⟨⟨⟨hformed, _⟩, _⟩, hroom⟩, hudpOk⟩ := hcovered
  have hheader := header_of_wellFormed hformed
  have hwhole : datagramWhole frame = true := datagramWhole_iff.mpr ⟨hformed, hend.le⟩
  obtain ⟨hlate, hl4⟩ := l4Regs_of_ends hparsed hends hfits hformed
  rw [coverEnd, phLen, isUdp_eq hparsed hends hfits, coveredLength]
  by_cases hudp : protocol frame = 17
  · have hbytes := udpLength_whole hwhole hudp hroom
    simp only [hudp, bne_self_eq_false, Bool.false_or, Bool.and_eq_true,
      decide_eq_true_eq] at hudpOk
    rw [if_pos ⟨hudp, by omega, hudpOk.1, hudpOk.2⟩, if_pos hudp, if_pos (by simp [hudp])]
    exact ⟨rfl, hl4.udpLen hudp (by omega)⟩
  · rw [if_neg fun hbounded => hudp hbounded.1, if_neg hudp,
      if_neg (by rw [beq_false_of_ne hudp]; decide)]
    exact ⟨(l4Offset_add_l4Length hheader).symm, hregs.bounds.l4Len hin.le hheader⟩

/-- What the first L4 pipeline register takes in. -/
theorem total_eq (hcovered : l4Covered frame = true) :
    (s.l4Acc + if s.usePh then
        s.phAcc.setWidth 32 + s.proto.setWidth 32 + s.phLen.setWidth 32 else 0).toNat =
      l4Sum zero frame := by
  obtain ⟨hopen, hip, hin, hend, hregs, _⟩ := regs_of_ends hparsed hends hfits
  obtain ⟨hcover, hlen⟩ := coverEnd_of_covered hparsed hends hfits hcovered
  have hformed : wellFormed frame = true := by
    simp only [l4Covered, Bool.and_eq_true] at hcovered
    exact hcovered.1.1.1.1
  obtain ⟨hlate, hl4⟩ := l4Regs_of_ends hparsed hends hfits hformed
  have hacc := hl4.l4Acc
  rw [hcover] at hacc
  have hsum := wordSum_slice_le (zeroed zero (csumPos frame) frame) (l4Offset frame)
    (coverEnd frame)
  have hcoverEnd := coverEnd_le (header_of_wellFormed hformed)
  have hspan : (coverEnd frame - l4Offset frame + 1) / 2 ≤ 8192 := by omega
  have hmul := Nat.mul_le_mul_left 65535 hspan
  rw [hcover] at hsum hmul
  have haddress := addressSum_le frame
  have hproto := s.proto.isLt
  have hphLen := s.phLen.isLt
  have hphAcc := hregs.sums.phAcc
  have husePh : s.usePh = (isIp6 frame || protocol frame != 1) := by
    rw [usePh, hparsed.ether.fam6_eq hopen, hregs.header.proto]
  have hpseudo : pseudoSum frame =
      if isIp6 frame || protocol frame != 1 then
        addressSum frame + (protocol frame).toNat + coveredLength frame else 0 := by
    rw [pseudoSum, addressSum, addressStart, addressStop]
    cases isIp6 frame with
    | true => rfl
    | false =>
        by_cases hicmp : protocol frame = 1
        · simp [hicmp]
        · rw [if_neg hicmp, bne_iff_ne.mpr hicmp]
          rfl
  rw [l4Sum, hpseudo, husePh, ← hacc, ← hlen, ← hregs.header.proto]
  split
  · simp only [BitVec.toNat_add, BitVec.toNat_setWidth]
    omega
  · simp

end Ended

/-- The fold of a header that has just ended. -/
theorem ipF1_eq (hparsed : s.Parsed zero frame) (hends : headerEnds frame = true)
    (hihl : 20 ≤ ihlBytes frame) : s.ipF1.toNat = foldCarry 16 (headerSum zero frame) := by
  simp only [headerEnds, Bool.and_eq_true, decide_eq_true_eq] at hends
  obtain ⟨hip4, hend⟩ := hends
  have hopen : l3Offset frame < frame.length := by
    rw [l4Offset, headerLength, isIp6_of_isIp4 hip4] at hend
    simp only [Bool.false_eq_true, if_false] at hend
    omega
  have hacc := (hparsed.ip hopen (Or.inl hip4)).sums.ipAcc hip4 hihl
  rw [ipF1, ← hacc]
  exact @toNat_fold 8 (by decide) s.ipAcc

end CsumCalc

end EmacZero
