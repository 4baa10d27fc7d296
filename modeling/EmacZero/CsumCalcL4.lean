/-
The L4 side of `csum_calc`: the UDP length, the sum of the bytes that the L4
checksum covers, and the checksum field, for the bytes that a frame has had so far.
-/
import EmacZero.CsumCalcSums

namespace EmacZero

/-- The header is not too short, and once the lengths are in the datagram covers it
and ends in the parser's range. -/
structure Laid (frame : List (BitVec 8)) : Prop where
  ihl : isIp4 frame = true → 20 ≤ ihlBytes frame
  header : lengthsAt frame ≤ frame.length → headerLength frame ≤ datagramLength frame
  room : lengthsAt frame ≤ frame.length → datagramEnd frame ≤ 16383

/-- UDP, with a Length field that is here and in range. -/
def udpBounded (frame : List (BitVec 8)) : Prop :=
  protocol frame = 17 ∧ l4Offset frame + 6 ≤ frame.length ∧ 8 ≤ udpLength frame ∧
    udpLength frame ≤ l4Length frame

instance (frame : List (BitVec 8)) : Decidable (udpBounded frame) :=
  inferInstanceAs (Decidable (_ ∧ _))

/-- Where the bytes that the L4 checksum covers end, as far as is known. -/
def coverEnd (frame : List (BitVec 8)) : Nat :=
  if udpBounded frame then l4Offset frame + udpLength frame else datagramEnd frame

section Grown

variable {frame : List (BitVec 8)} {data : BitVec 8}

theorem Laid.of_concat (hlong : l3Offset frame < frame.length)
    (hlaid : Laid (frame ++ [data])) : Laid frame := by
  have hlength : (frame ++ [data]).length = frame.length + 1 := by simp
  obtain ⟨hihl, hheader, hroom⟩ := hlaid
  rw [isIp4_grown hlong, ihlBytes_grown hlong] at hihl
  rw [lengthsAt_grown hlong, hlength] at hheader hroom
  rw [headerLength_grown hlong] at hheader
  constructor
  · exact hihl
  · intro hin
    rw [← datagramLength_grown (show lengthsAt frame ≤ frame.length + 1 by omega) data]
    exact hheader (by omega)
  · intro hin
    rw [← datagramEnd_grown (show lengthsAt frame ≤ frame.length + 1 by omega) data]
    exact hroom (by omega)

/-- The L4 header comes after all that the parser needs to know. -/
theorem protocolAt_le_l4Offset (hihl : isIp4 frame = true → 20 ≤ ihlBytes frame)
    (hip : isIp4 frame = true ∨ isIp6 frame = true) :
    protocolAt frame ≤ l4Offset frame := by
  rw [protocolAt, l4Offset, headerLength]
  cases hip6 : isIp6 frame with
  | true => simp
  | false =>
      have hip4 : isIp4 frame = true := hip.resolve_right (by simp [hip6])
      have hmin := hihl hip4
      simp
      omega

theorem l4Offset_even (frame : List (BitVec 8)) : l4Offset frame % 2 = 0 := by
  have heven := l3Offset_even frame
  rw [l4Offset, headerLength, ihlBytes]
  split <;> omega

theorem l4Offset_le (frame : List (BitVec 8)) : l4Offset frame ≤ 78 := by
  have hoff := l3Offset_le frame
  have hhdr := headerLength_le frame
  unfold l4Offset
  omega

theorem csumPos_le (frame : List (BitVec 8)) : csumPos frame ≤ 94 := by
  have hstart := l4Offset_le frame
  have hoffset := csumOffset_le (protocol frame)
  unfold csumPos
  omega

theorem l4Offset_add_l4Length (hle : headerLength frame ≤ datagramLength frame) :
    l4Offset frame + l4Length frame = datagramEnd frame := by
  unfold l4Offset l4Length datagramEnd
  omega

theorem coverEnd_le (hle : headerLength frame ≤ datagramLength frame) :
    coverEnd frame ≤ datagramEnd frame := by
  have hend := l4Offset_add_l4Length hle
  unfold coverEnd
  split
  · rename_i hbounded
    have := hbounded.2.2.2
    omega
  · exact Nat.le_refl _

theorem udpLength_grown (hlong : l4Offset frame + 6 ≤ frame.length)
    (hopen : l3Offset frame < frame.length) (data : BitVec 8) :
    udpLength (frame ++ [data]) = udpLength frame := by
  rw [udpLength, udpLength, l4Offset_grown hopen, wordAt_append (by omega)]

theorem coverEnd_short (hshort : frame.length < l4Offset frame + 6) :
    coverEnd frame = datagramEnd frame := by
  rw [coverEnd, if_neg]
  intro hbounded
  have := hbounded.2.1
  omega

/-- Only the byte that completes the UDP Length field moves the end. -/
theorem coverEnd_grown (hlong : protocolAt frame ≤ frame.length)
    (hother : frame.length ≠ l4Offset frame + 5) (data : BitVec 8) :
    coverEnd (frame ++ [data]) = coverEnd frame := by
  have hlengths := lengthsAt_le_protocolAt frame
  have hopen : l3Offset frame < frame.length := by
    unfold protocolAt at hlong
    split at hlong <;> omega
  have hend := datagramEnd_grown (show lengthsAt frame ≤ frame.length + 1 by omega) data
  rcases Nat.lt_or_ge frame.length (l4Offset frame + 5) with hlt | hge
  · have hshort : (frame ++ [data]).length < l4Offset (frame ++ [data]) + 6 := by
      rw [l4Offset_grown hopen, List.length_append, List.length_singleton]
      omega
    rw [coverEnd_short hshort, coverEnd_short (by omega), hend]
  · have hudp := udpLength_grown (show l4Offset frame + 6 ≤ frame.length by omega) hopen data
    have hl4 := l4Length_grown (show lengthsAt frame ≤ frame.length + 1 by omega) data
    have hproto := protocol_grown (show protocolAt frame ≤ frame.length + 1 by omega) data
    simp only [coverEnd, udpBounded, hudp, hl4, hproto, hend, l4Offset_grown hopen,
      List.length_append, List.length_singleton,
      show l4Offset frame + 6 ≤ frame.length by omega,
      show l4Offset frame + 6 ≤ frame.length + 1 by omega]

end Grown

namespace CsumCalc

variable {zero : Bool} {s : CsumCalc} {i : CsumIn} {frame : List (BitVec 8)}
  {data : BitVec 8}

theorem Feeds.beq_eq (hfeeds : Feeds zero i frame data) {bound : BitVec 14} {offset : Nat}
    (hbound : bound.toNat = offset) :
    (i.inIdx == bound) = decide (frame.length = offset) := by
  rw [Bool.eq_iff_iff, beq_iff_eq, decide_eq_true_iff, ← BitVec.toNat_inj, hfeeds.toNat,
    hbound]

/-- Up to the L4 header. -/
structure L4Early (s : CsumCalc) (frame : List (BitVec 8)) : Prop where
  udpLen : s.udpLen = 0
  l4Acc : s.l4Acc = 0
  l4Field : s.l4Field = 0
  l4End : lengthsAt frame ≤ frame.length → datagramEnd frame ≤ 16383 →
    s.l4End.toNat = datagramEnd frame

/-- In the L4 header and after it. -/
structure L4Regs (zero : Bool) (s : CsumCalc) (frame : List (BitVec 8)) : Prop where
  udpLenHi : protocol frame = 17 → frame.length = l4Offset frame + 5 →
    s.udpLenHi = byteAt frame (l4Offset frame + 4)
  udpLen : protocol frame = 17 → l4Offset frame + 6 ≤ frame.length →
    s.udpLen.toNat = udpLength frame
  l4End : s.l4End.toNat = coverEnd frame
  l4Acc : s.l4Acc.toNat = wordSum (slice (zeroed zero (csumPos frame) frame)
    (l4Offset frame) (coverEnd frame))
  l4Field : csumOffset (protocol frame) + 2 ≤ l4Length frame →
    s.l4Field = wordAt frame (csumPos frame)

theorem L4Regs.of_early (hearly : s.L4Early frame) (hlaid : Laid frame)
    (hip : isIp4 frame = true ∨ isIp6 frame = true)
    (hlength : frame.length = l4Offset frame) : s.L4Regs zero frame := by
  have hproto := protocolAt_le_l4Offset hlaid.ihl hip
  have hlengths := lengthsAt_le_protocolAt frame
  constructor
  · intro _ hlate
    omega
  · intro _ hlate
    omega
  · rw [coverEnd_short (by omega)]
    exact hearly.l4End (by omega) (hlaid.room (by omega))
  · rw [hearly.l4Acc, slice_empty (by simp; omega)]
    rfl
  · intro _
    have hpos : frame.length ≤ csumPos frame := by
      unfold csumPos
      omega
    rw [hearly.l4Field, wordAt, byteAt_of_le hpos, byteAt_of_le (by omega)]
    rfl

section Step

variable (hether : s.EtherRegs frame) (hbounds : s.BoundsRegs frame)
  (hheader : s.HeaderRegs frame) (hlong : l3Offset frame < frame.length)
  (hip : isIp4 frame = true ∨ isIp6 frame = true) (hfeeds : Feeds zero i frame data)
include hether hbounds hheader hlong hip hfeeds

theorem L4Early.step (hearly : s.L4Early frame)
    (hshort : frame.length < l4Offset frame) : (s.clkEdge i).L4Early (frame ++ [data]) := by
  have hin := inL3_eq_true hether hlong hip
  have hstart := l4Offset_le frame
  have hlate : s.lenOk = true → s.l4Start.toNat = l4Offset frame := by
    intro hok
    rw [hbounds.lenOk, Bool.and_eq_true, decide_eq_true_eq] at hok
    exact hbounds.l4Start hok.1
  have hudp : s.udpLenIn i = false := by
    cases hok : s.lenOk with
    | false => simp [udpLenIn, hok]
    | true =>
        have hfive : (s.l4Start + 5).toNat = l4Offset frame + 5 := by
          rw [BitVec.toNat_add, hlate hok]
          change (l4Offset frame + 5) % 2 ^ 14 = _
          omega
        rw [udpLenIn, hfeeds.beq_eq hfive, decide_eq_false (by omega), Bool.and_false]
  have hinL4 : s.inL4 i = false := by
    cases hok : s.lenOk with
    | false => simp [inL4, hok]
    | true =>
        have hbefore : s.l4Start.ule i.inIdx = false := by
          rw [BitVec.ule_eq_decide, hfeeds.toNat, hlate hok]
          exact decide_eq_false (by omega)
        rw [inL4, hbefore]
        simp
  constructor
  · change (s.nextBounds i).udpLen = 0
    simp [nextBounds, hfeeds.not_newFrame, hfeeds.valid, hin, hudp, hearly.udpLen]
  · change (s.nextSums i).l4Acc = 0
    simp [nextSums, hfeeds.not_newFrame, hfeeds.valid, hinL4, hearly.l4Acc]
  · change (s.nextSums i).l4Field = 0
    simp [nextSums, hfeeds.not_newFrame, hfeeds.valid, hinL4, hearly.l4Field]
  · intro hin' hroom
    rw [lengthsAt_grown hlong, List.length_append, List.length_singleton] at hin'
    rw [datagramEnd_grown hin'] at hroom ⊢
    have hnow := lengthsNow_eq hether hlong hip hfeeds
    change (s.nextBounds i).l4End.toNat = _
    simp only [nextBounds, hfeeds.not_newFrame, hfeeds.valid, hin, hudp, hnow,
      Bool.and_true, Bool.false_and, Bool.false_eq_true, if_false, if_true,
      decide_eq_true_eq]
    rcases Nat.eq_or_lt_of_le hin' with heq | hlt
    · rw [if_pos heq.symm, BitVec.toNat_setWidth, hheader.endOff_toNat hether hlong hip,
        Nat.mod_eq_of_lt (by omega)]
    · rw [if_neg hlt.ne']
      exact hearly.l4End (by omega) hroom

omit hheader in
/-- The parser's answers that the L4 header relies on. -/
theorem inL4_eq (hlaid : Laid frame) (hlate : l4Offset frame ≤ frame.length)
    (hend : s.l4End.toNat = coverEnd frame) :
    s.inL4 i = decide (frame.length < coverEnd frame) := by
  have hproto := protocolAt_le_l4Offset hlaid.ihl hip
  have hlengths := lengthsAt_le_protocolAt frame
  have hin' : lengthsAt frame ≤ frame.length := by omega
  have hok : s.lenOk = true := by
    simp [hbounds.lenOk, hin', hlaid.room hin']
  have hcover := coverEnd_le (hlaid.header hin')
  rw [inL4, inL3_eq_true hether hlong hip, hok, BitVec.ule_eq_decide,
    BitVec.ult_eq_decide, BitVec.ult_eq_decide, hbounds.l4Start hin', hfeeds.toNat, hend,
    hbounds.l3End hok, Bool.eq_iff_iff]
  simp
  omega

omit hether hlong in
theorem udpLenIn_eq (hlaid : Laid frame) (hlate : l4Offset frame ≤ frame.length) :
    s.udpLenIn i =
      (decide (protocol frame = 17) && decide (frame.length = l4Offset frame + 5)) := by
  have hproto := protocolAt_le_l4Offset hlaid.ihl hip
  have hlengths := lengthsAt_le_protocolAt frame
  have hin' : lengthsAt frame ≤ frame.length := by omega
  have hstart := l4Offset_le frame
  have hok : s.lenOk = true := by
    simp [hbounds.lenOk, hin', hlaid.room hin']
  have hfive : (s.l4Start + 5).toNat = l4Offset frame + 5 := by
    rw [BitVec.toNat_add, hbounds.l4Start hin']
    change (l4Offset frame + 5) % 2 ^ 14 = _
    omega
  rw [udpLenIn, isUdp, hok, hheader.proto, hfeeds.beq_eq hfive, Bool.and_true]
  rfl

omit hheader in
theorem L4Regs.step_acc (hl4 : s.L4Regs zero frame) (hlaid : Laid frame)
    (hlate : l4Offset frame ≤ frame.length) :
    (s.clkEdge i).l4Acc.toNat =
      wordSum (slice (zeroed zero (csumPos frame) (frame ++ [data])) (l4Offset frame)
        (coverEnd frame)) := by
  have hproto := protocolAt_le_l4Offset hlaid.ihl hip
  have hinL4 := inL4_eq hether hbounds hlong hip hfeeds hlaid hlate hl4.l4End
  have hlengths := lengthsAt_le_protocolAt frame
  have hroom := hlaid.room (by omega)
  have hcover := coverEnd_le (hlaid.header (by omega))
  have hmax := csumPos_le frame
  have hsum := wordSum_slice_le (zeroed zero (csumPos frame) (frame ++ [data]))
    (l4Offset frame) (coverEnd frame)
  have hspan : (coverEnd frame - l4Offset frame + 1) / 2 ≤ 8192 := by omega
  have hmul := Nat.mul_le_mul_left 65535 hspan
  have hpos := hbounds.l4CsumPos (by omega)
  have hnext : (s.l4CsumPos + 1).toNat = csumPos frame + 1 := by
    rw [BitVec.toNat_add, hpos]
    change (csumPos frame + 1) % 2 ^ 14 = _
    omega
  have hisL4f : s.isL4f i =
      (frame.length == csumPos frame || frame.length == csumPos frame + 1) := by
    rw [isL4f, hfeeds.beq_eq hpos, hfeeds.beq_eq hnext]
    rfl
  change (s.nextSums i).l4Acc.toNat = _
  simp only [nextSums, hfeeds.not_newFrame, hfeeds.valid, Bool.false_eq_true, if_false,
    if_true, hfeeds.zeroFields, hinL4, hisL4f]
  rw [wordSum_zeroed_concat _ _ _ _ (l4Offset_even frame), ← hl4.l4Acc] at hsum ⊢
  simp only [hlate, true_and, Bool.and_eq_true, decide_eq_true_eq,
    Bool.not_eq_true'] at hsum ⊢
  split
  · rename_i hadds
    rw [if_pos hadds] at hsum
    exact acc_add hfeeds (by decide) (by omega)
  · rfl

omit hheader in
theorem L4Regs.step_field (hl4 : s.L4Regs zero frame) (hlaid : Laid frame)
    (hlate : l4Offset frame ≤ frame.length)
    (hfits : csumOffset (protocol frame) + 2 ≤ l4Length frame) :
    (s.clkEdge i).l4Field = wordAt (frame ++ [data]) (csumPos frame) := by
  have hproto := protocolAt_le_l4Offset hlaid.ihl hip
  have hinL4 := inL4_eq hether hbounds hlong hip hfeeds hlaid hlate hl4.l4End
  have hlengths := lengthsAt_le_protocolAt frame
  have hmax := csumPos_le frame
  have hpos := hbounds.l4CsumPos (by omega)
  have hnext : (s.l4CsumPos + 1).toNat = csumPos frame + 1 := by
    rw [BitVec.toNat_add, hpos]
    change (csumPos frame + 1) % 2 ^ 14 = _
    omega
  have hcovers : csumPos frame + 2 ≤ coverEnd frame := by
    have hend := l4Offset_add_l4Length (hlaid.header (by omega))
    unfold coverEnd
    split
    · rename_i hbounded
      have hmin := hbounded.2.2.1
      have hudp : csumOffset (protocol frame) = 6 := by
        rw [hbounded.1]
        rfl
      unfold csumPos
      omega
    · unfold csumPos
      omega
  change (s.nextSums i).l4Field = _
  simp only [nextSums, hfeeds.not_newFrame, hfeeds.valid, Bool.false_eq_true, if_false,
    if_true, hinL4, hfeeds.beq_eq hpos, hfeeds.beq_eq hnext, hfeeds.inData]
  rw [hl4.l4Field hfits, wordAt_concat]
  by_cases hhigh : frame.length = csumPos frame
  · simp only [hhigh, show csumPos frame < coverEnd frame by omega, decide_true,
      Bool.true_and, if_true, show ¬csumPos frame = csumPos frame + 1 by omega,
      decide_false, Bool.false_eq_true, if_false]
    rw [fieldHi, wordAt, BitVec.extractLsb'_append_eq_right]
  · by_cases hlow : frame.length = csumPos frame + 1
    · simp only [hlow, show csumPos frame + 1 < coverEnd frame by omega, decide_true,
        Bool.true_and, if_true, show ¬csumPos frame + 1 = csumPos frame by omega, if_false]
      rw [fieldLo, wordAt, BitVec.extractLsb'_append_eq_left]
    · simp [hhigh, hlow]

omit hether hbounds hheader hip in
theorem L4Regs.udpLenNow_toNat (hl4 : s.L4Regs zero frame)
    (hproto : protocol frame = 17) (hnow : frame.length = l4Offset frame + 5) :
    (s.udpLenNow i).toNat = udpLength (frame ++ [data]) := by
  rw [udpLenNow, hl4.udpLenHi hproto hnow, hfeeds.inData, udpLength, l4Offset_grown hlong,
    wordAt_concat, if_neg (by omega), if_pos hnow]

/-- The byte that completes the UDP Length field. -/
theorem L4Regs.step_end (hl4 : s.L4Regs zero frame) (hlaid : Laid frame)
    (hlate : l4Offset frame ≤ frame.length) :
    (s.clkEdge i).l4End.toNat = coverEnd (frame ++ [data]) := by
  have hprotocolAt := protocolAt_le_l4Offset hlaid.ihl hip
  have hlengths := lengthsAt_le_protocolAt frame
  have hin := inL3_eq_true hether hlong hip
  have hudp := udpLenIn_eq hbounds hheader hip hfeeds hlaid hlate
  have hnow : s.lengthsNow i = false := by
    rw [lengthsNow_eq hether hlong hip hfeeds]
    exact decide_eq_false (by omega)
  change (s.nextBounds i).l4End.toNat = _
  simp only [nextBounds, hfeeds.not_newFrame, hfeeds.valid, hin, hudp, hnow,
    Bool.and_true, Bool.false_eq_true, if_false, if_true]
  by_cases hlast : frame.length = l4Offset frame + 5
  · have hproto := protocol_grown (show protocolAt frame ≤ frame.length + 1 by omega) data
    have hl4Len := l4Length_grown (show lengthsAt frame ≤ frame.length + 1 by omega) data
    have hend := datagramEnd_grown (show lengthsAt frame ≤ frame.length + 1 by omega) data
    have hshort := coverEnd_short (show frame.length < l4Offset frame + 6 by omega)
    have hheader' := hlaid.header (by omega)
    have hroom := hlaid.room (by omega)
    have htotal := l4Offset_add_l4Length hheader'
    rw [hlast, decide_eq_true rfl, Bool.and_true]
    rw [coverEnd, hend, l4Offset_grown hlong]
    by_cases hbounded : udpBounded (frame ++ [data])
    · rw [if_pos hbounded]
      obtain ⟨hudpProto, hbyte, hmin, hmax⟩ := hbounded
      rw [hproto] at hudpProto
      rw [hl4Len] at hmax
      have hlen := hl4.udpLenNow_toNat hlong hfeeds hudpProto hlast
      rw [if_pos, BitVec.toNat_add, BitVec.toNat_setWidth, hlen,
        hbounds.l4Start (by omega),
        Nat.mod_eq_of_lt (show udpLength (frame ++ [data]) < 2 ^ 14 by omega),
        Nat.mod_eq_of_lt (by omega)]
      rw [hudpProto, BitVec.ule_eq_decide, BitVec.ule_eq_decide, hlen,
        hbounds.l4Len (by omega) hheader']
      simpa using ⟨hmin, hmax⟩
    · rw [if_neg hbounded, if_neg, hl4.l4End, hshort]
      intro hset
      apply hbounded
      simp only [Bool.and_eq_true, decide_eq_true_eq] at hset
      obtain ⟨⟨hudpProto, hmin⟩, hmax⟩ := hset
      have hlen := hl4.udpLenNow_toNat hlong hfeeds hudpProto hlast
      rw [BitVec.ule_eq_decide, decide_eq_true_eq, hlen] at hmin hmax
      rw [hbounds.l4Len (by omega) hheader'] at hmax
      refine ⟨hproto.trans hudpProto, ?_, hmin, ?_⟩
      · rw [l4Offset_grown hlong, List.length_append, List.length_singleton]
        omega
      · rw [hl4Len]
        exact hmax
  · rw [decide_eq_false hlast, Bool.and_false, Bool.false_and, Bool.false_and,
      if_neg (by decide), hl4.l4End, coverEnd_grown (by omega) hlast]

theorem L4Regs.step (hl4 : s.L4Regs zero frame) (hlaid : Laid frame)
    (hlate : l4Offset frame ≤ frame.length) :
    (s.clkEdge i).L4Regs zero (frame ++ [data]) := by
  have hprotocolAt := protocolAt_le_l4Offset hlaid.ihl hip
  have hlengths := lengthsAt_le_protocolAt frame
  have hin := inL3_eq_true hether hlong hip
  have hudp := udpLenIn_eq hbounds hheader hip hfeeds hlaid hlate
  have hproto := protocol_grown (show protocolAt frame ≤ frame.length + 1 by omega) data
  have hoff := l4Offset_grown hlong data
  have hl4Len := l4Length_grown (show lengthsAt frame ≤ frame.length + 1 by omega) data
  have hpos := csumPos_grown (show protocolAt frame ≤ frame.length + 1 by omega) data
  have hstart := l4Offset_le frame
  have hlength : (frame ++ [data]).length = frame.length + 1 := by simp
  constructor
  · intro hisUdp hbyte
    rw [hproto] at hisUdp
    rw [hoff, hlength] at hbyte
    have hfour : (s.l4Start + 4).toNat = l4Offset frame + 4 := by
      rw [BitVec.toNat_add, hbounds.l4Start (by omega)]
      change (l4Offset frame + 4) % 2 ^ 14 = _
      omega
    have hok : s.lenOk = true := by
      simp [hbounds.lenOk, show lengthsAt frame ≤ frame.length by omega,
        hlaid.room (by omega)]
    change (s.nextBounds i).udpLenHi = _
    simp only [nextBounds, hfeeds.not_newFrame, hfeeds.valid, hin, Bool.and_true,
      Bool.false_eq_true, if_false, if_true, isUdp, hheader.proto, hisUdp,
      beq_self_eq_true, hok, hfeeds.beq_eq hfour, Bool.true_and, hfeeds.inData]
    rw [hoff, byteAt_concat, decide_eq_true (by omega), if_pos rfl, if_pos (by omega)]
  · intro hisUdp hbyte
    rw [hproto] at hisUdp
    rw [hoff, hlength] at hbyte
    change (s.nextBounds i).udpLen.toNat = _
    simp only [nextBounds, hfeeds.not_newFrame, hfeeds.valid, hin, Bool.and_true,
      Bool.false_eq_true, if_false, if_true, hudp, hisUdp, decide_true, Bool.true_and,
      decide_eq_true_eq]
    rcases Nat.eq_or_lt_of_le hbyte with hlast | hmore
    · rw [if_pos (by omega)]
      exact hl4.udpLenNow_toNat hlong hfeeds hisUdp (by omega)
    · rw [if_neg (by omega), hl4.udpLen hisUdp (by omega),
        udpLength_grown (by omega) hlong]
  · exact hl4.step_end hether hbounds hheader hlong hip hfeeds hlaid hlate
  · rw [hl4.step_acc hether hbounds hlong hip hfeeds hlaid hlate, hpos, hoff]
    by_cases hlast : frame.length = l4Offset frame + 5
    · have hcover : l4Offset frame + 6 ≤ coverEnd (frame ++ [data]) ∧
          l4Offset frame + 6 ≤ coverEnd frame ∨
          coverEnd (frame ++ [data]) = coverEnd frame := by
        have hend := datagramEnd_grown (show lengthsAt frame ≤ frame.length + 1 by omega) data
        have htotal := l4Offset_add_l4Length (hlaid.header (by omega))
        rw [coverEnd_short (show frame.length < l4Offset frame + 6 by omega), coverEnd]
        split
        · rename_i hbounded
          have hmin := hbounded.2.2.1
          have hmax := hbounded.2.2.2
          rw [hl4Len] at hmax
          rw [hoff]
          omega
        · exact Or.inr hend
      rcases hcover with ⟨hnew, hold⟩ | hsame
      · rw [slice_of_le (by simp; omega), slice_of_le (by simp; omega)]
      · rw [hsame]
    · rw [coverEnd_grown (by omega) hlast]
  · intro hfits
    rw [hproto, hl4Len] at hfits
    rw [hl4.step_field hether hbounds hlong hip hfeeds hlaid hlate hfits, hpos]

end Step

end CsumCalc

end EmacZero
