/-
Where `csum_calc` takes the datagram, its L4 part and its checksum fields to be,
for the bytes that a frame has had so far.
-/
import EmacZero.CsumCalcHeader

namespace EmacZero

section Grown

variable {frame : List (BitVec 8)}

theorem lengthsAt_grown (hlong : l3Offset frame < frame.length) (data : BitVec 8) :
    lengthsAt (frame ++ [data]) = lengthsAt frame := by
  rw [lengthsAt, lengthsAt, l3Offset_grown hlong, isIp6_grown hlong]

theorem protocolAt_grown (hlong : l3Offset frame < frame.length) (data : BitVec 8) :
    protocolAt (frame ++ [data]) = protocolAt frame := by
  rw [protocolAt, protocolAt, l3Offset_grown hlong, isIp6_grown hlong]

theorem l4Length_grown (hlong : lengthsAt frame ≤ frame.length + 1) (data : BitVec 8) :
    l4Length (frame ++ [data]) = l4Length frame := by
  have hopen : l3Offset frame < frame.length := by
    unfold lengthsAt at hlong
    split at hlong <;> omega
  rw [l4Length, l4Length, datagramLength_grown hlong, headerLength_grown hopen]

theorem lengthsAt_le_protocolAt (frame : List (BitVec 8)) :
    lengthsAt frame < protocolAt frame := by
  unfold lengthsAt protocolAt
  split <;> omega

theorem csumPos_grown (hlong : protocolAt frame ≤ frame.length + 1) (data : BitVec 8) :
    csumPos (frame ++ [data]) = csumPos frame := by
  have hopen : l3Offset frame < frame.length := by
    unfold protocolAt at hlong
    split at hlong <;> omega
  rw [csumPos, csumPos, l4Offset_grown hopen, protocol_grown hlong]

theorem ihlBytes_le (frame : List (BitVec 8)) : ihlBytes frame ≤ 60 := by
  have hlt := ((byteAt frame (l3Offset frame)).extractLsb' 0 4).isLt
  unfold ihlBytes
  omega

theorem headerLength_le (frame : List (BitVec 8)) : headerLength frame ≤ 60 := by
  have hle := ihlBytes_le frame
  unfold headerLength
  split <;> omega

theorem csumOffset_le (proto : BitVec 8) : csumOffset proto ≤ 16 := by
  unfold csumOffset
  split
  · decide
  · split
    · decide
    · split
      · decide
      · split <;> decide

end Grown

namespace CsumCalc

variable {zero : Bool} {s : CsumCalc} {i : CsumIn} {frame : List (BitVec 8)}
  {data : BitVec 8}

theorem l4Off_toNat (s : CsumCalc) : s.l4Off.toNat = csumOffset s.proto := by
  unfold l4Off csumOffset
  simp only [beq_iff_eq]
  repeat' split
  all_goals rfl

theorem HeaderRegs.hdrLen_toNat (hheader : s.HeaderRegs frame)
    (hip4 : isIp4 frame = true) : s.hdrLen.toNat = headerLength frame := by
  rw [hheader.hdrLen hip4, headerLength, isIp6_of_isIp4 hip4]
  rfl

theorem inL3_eq_true (hether : s.EtherRegs frame) (hlong : l3Offset frame < frame.length)
    (hip : isIp4 frame = true ∨ isIp6 frame = true) : s.inL3 = true := by
  rw [hether.inL3_open hlong, Bool.or_eq_true]
  exact hip

namespace HeaderRegs

variable (hheader : s.HeaderRegs frame) (hether : s.EtherRegs frame)
  (hlong : l3Offset frame < frame.length)
  (hip : isIp4 frame = true ∨ isIp6 frame = true)
include hheader hether hlong hip

theorem endOff_toNat : s.endOff.toNat = datagramEnd frame := by
  have hmax := l3Offset_le frame
  have hword := (wordAt frame (l3Offset frame + if isIp6 frame then 4 else 2)).isLt
  have hoff : s.l3Off.toNat = l3Offset frame := by
    rw [hether.off hlong.le, BitVec.toNat_ofNat, Nat.mod_eq_of_lt (by omega)]
  have hlen := hheader.ipLen
  rw [endOff, hether.fam4_eq hlong, datagramEnd, datagramLength]
  cases hip4 : isIp4 frame with
  | true =>
      have hip6 := isIp6_of_isIp4 hip4
      rw [hip6] at hlen hword ⊢
      simp only [if_true, Bool.false_eq_true, if_false, BitVec.toNat_add,
        BitVec.toNat_setWidth, hoff, hlen, totalLength] at hword ⊢
      omega
  | false =>
      have hip6 : isIp6 frame = true := hip.resolve_left (by simp [hip4])
      rw [hip6] at hlen hword ⊢
      simp only [if_true, Bool.false_eq_true, if_false, BitVec.toNat_add,
        BitVec.toNat_setWidth, hoff, hlen, payloadLength] at hword ⊢
      simp only [BitVec.reduceToNat]
      omega

theorem l4s_toNat : s.l4s.toNat = l4Offset frame := by
  have hmax := l3Offset_le frame
  have hoff : s.l3Off.toNat = l3Offset frame := by
    rw [hether.off hlong.le, BitVec.toNat_ofNat, Nat.mod_eq_of_lt (by omega)]
  rw [l4s, hether.fam4_eq hlong, l4Offset]
  cases hip4 : isIp4 frame with
  | true =>
      have hhdr := hheader.hdrLen_toNat hip4
      have hle := headerLength_le frame
      simp only [if_true, BitVec.toNat_add, BitVec.toNat_setWidth, hoff, hhdr]
      omega
  | false =>
      have hip6 : isIp6 frame = true := hip.resolve_left (by simp [hip4])
      simp only [Bool.false_eq_true, if_false, BitVec.toNat_add, BitVec.toNat_setWidth,
        hoff, headerLength, hip6, if_true, BitVec.reduceToNat]
      omega

theorem l4Len_toNat (hle : headerLength frame ≤ datagramLength frame) :
    (if s.fam4 then s.ipLen - s.hdrLen.setWidth 16 else s.ipLen).toNat =
      l4Length frame := by
  have hlen := hheader.ipLen
  rw [hether.fam4_eq hlong, l4Length]
  cases hip4 : isIp4 frame with
  | true =>
      have hip6 := isIp6_of_isIp4 hip4
      have hhdr := hheader.hdrLen_toNat hip4
      have hmax := headerLength_le frame
      have htotal : s.ipLen.toNat = datagramLength frame := by
        rw [hlen, datagramLength, hip6]
        rfl
      have hwidth : (s.hdrLen.setWidth 16).toNat = headerLength frame := by
        rw [BitVec.toNat_setWidth, hhdr, Nat.mod_eq_of_lt (by omega)]
      rw [if_pos rfl, BitVec.toNat_sub_of_le, htotal, hwidth]
      rw [BitVec.le_def, htotal, hwidth]
      exact hle
  | false =>
      have hip6 : isIp6 frame = true := hip.resolve_left (by simp [hip4])
      rw [if_neg (by decide), hlen, headerLength, datagramLength, hip6]
      simp [payloadLength]

end HeaderRegs

/-- What the registers know of where things end. -/
structure BoundsRegs (s : CsumCalc) (frame : List (BitVec 8)) : Prop where
  lenOk : s.lenOk =
    (decide (lengthsAt frame ≤ frame.length) && decide (datagramEnd frame ≤ 16383))
  l3End : s.lenOk = true → s.l3End.toNat = datagramEnd frame
  l4Start : lengthsAt frame ≤ frame.length → s.l4Start.toNat = l4Offset frame
  l4Len : lengthsAt frame ≤ frame.length →
    headerLength frame ≤ datagramLength frame → s.l4Len.toNat = l4Length frame
  ipCsumPos : lengthsAt frame ≤ frame.length →
    s.ipCsumPos.toNat = l3Offset frame + 10
  l4CsumPos : protocolAt frame ≤ frame.length → s.l4CsumPos.toNat = csumPos frame

/-- Before the lengths are in there is nothing to know. -/
theorem BoundsRegs.of_short (hshort : frame.length < lengthsAt frame)
    (hlenOk : s.lenOk = false) : s.BoundsRegs frame where
  lenOk := by simp [hlenOk, hshort]
  l3End hok := by simp [hlenOk] at hok
  l4Start hlong := absurd hshort (Nat.not_lt.mpr hlong)
  l4Len hlong := absurd hshort (Nat.not_lt.mpr hlong)
  ipCsumPos hlong := absurd hshort (Nat.not_lt.mpr hlong)
  l4CsumPos hlong := absurd (hshort.trans (lengthsAt_le_protocolAt frame))
    (Nat.not_lt.mpr hlong)

section Step

variable (hether : s.EtherRegs frame) (hlong : l3Offset frame < frame.length)
  (hip : isIp4 frame = true ∨ isIp6 frame = true) (hfeeds : Feeds zero i frame data)
include hether hlong hip hfeeds

theorem lengthsNow_eq :
    s.lengthsNow i = decide (frame.length + 1 = lengthsAt frame) := by
  have hfour := hether.r_beq hfeeds hlong.le (show 4 < 2 ^ 14 by decide)
  have hsix := hether.r_beq hfeeds hlong.le (show 6 < 2 ^ 14 by decide)
  simp only [lengthsNow, BitVec.ofNat_eq_ofNat, hether.fam4_eq hlong,
    hether.fam6_eq hlong, hfour, hsix, lengthsAt]
  cases hip4 : isIp4 frame with
  | true => simp [isIp6_of_isIp4 hip4]
  | false => simp [hip.resolve_left (by simp [hip4])]

theorem protocolNow_eq :
    ((s.fam4 && s.r i == 10) || (s.fam6 && s.r i == 7)) =
      decide (frame.length + 1 = protocolAt frame) := by
  have hten := hether.r_beq hfeeds hlong.le (show 10 < 2 ^ 14 by decide)
  have hseven := hether.r_beq hfeeds hlong.le (show 7 < 2 ^ 14 by decide)
  simp only [BitVec.ofNat_eq_ofNat, hether.fam4_eq hlong, hether.fam6_eq hlong, hten,
    hseven, protocolAt]
  cases hip4 : isIp4 frame with
  | true => simp [isIp6_of_isIp4 hip4]
  | false => simp [hip.resolve_left (by simp [hip4])]

end Step

theorem BoundsRegs.step (hbounds : s.BoundsRegs frame) (hheader : s.HeaderRegs frame)
    (hether : s.EtherRegs frame) (hlong : l3Offset frame < frame.length)
    (hip : isIp4 frame = true ∨ isIp6 frame = true) (hfeeds : Feeds zero i frame data) :
    (s.clkEdge i).BoundsRegs (frame ++ [data]) := by
  have hedge : (s.clkEdge i).toCsumBounds = s.nextBounds i := rfl
  have hin := inL3_eq_true hether hlong hip
  have hnow := lengthsNow_eq hether hlong hip hfeeds
  have hproto := protocolNow_eq hether hlong hip hfeeds
  have hlength : (frame ++ [data]).length = frame.length + 1 := by simp
  have hoff := l3Offset_le frame
  have hhdr := headerLength_le frame
  simp only [nextBounds, hfeeds.not_newFrame, hfeeds.valid, hin, Bool.and_true, if_true,
    Bool.false_eq_true, if_false, hnow, hproto, decide_eq_true_eq] at hedge
  have hok : (s.clkEdge i).lenOk =
      (decide (lengthsAt (frame ++ [data]) ≤ (frame ++ [data]).length) &&
        decide (datagramEnd (frame ++ [data]) ≤ 16383)) := by
    rw [congrArg CsumBounds.lenOk hedge]
    dsimp only
    rw [lengthsAt_grown hlong, hlength]
    rcases Nat.lt_trichotomy (frame.length + 1) (lengthsAt frame) with hlt | heq | hgt
    · simp [hlt.ne, hbounds.lenOk, Nat.not_le.mpr hlt,
        show ¬lengthsAt frame ≤ frame.length by omega]
    · have hend := hheader.endOff_toNat hether hlong hip
      rw [if_pos heq, datagramEnd_grown heq.ge, BitVec.ule_eq_decide, hend]
      simp [heq]
    · rw [if_neg (by omega), hbounds.lenOk, datagramEnd_grown (by omega)]
      simp [show lengthsAt frame ≤ frame.length by omega,
        show lengthsAt frame ≤ frame.length + 1 by omega]
  constructor
  · exact hok
  · intro hlenOk
    rw [hok, Bool.and_eq_true, decide_eq_true_eq, decide_eq_true_eq, hlength,
      lengthsAt_grown hlong] at hlenOk
    obtain ⟨hin', hroom⟩ := hlenOk
    rw [datagramEnd_grown hin'] at hroom ⊢
    rw [congrArg CsumBounds.l3End hedge]
    dsimp only
    rcases Nat.eq_or_lt_of_le hin' with heq | hlt
    · have hend := hheader.endOff_toNat hether hlong hip
      rw [if_pos heq.symm, BitVec.toNat_setWidth, hend, Nat.mod_eq_of_lt (by omega)]
    · rw [if_neg hlt.ne']
      apply hbounds.l3End
      simp [hbounds.lenOk, hroom, show lengthsAt frame ≤ frame.length by omega]
  · intro hin'
    rw [hlength, lengthsAt_grown hlong] at hin'
    rw [congrArg CsumBounds.l4Start hedge]
    dsimp only
    rw [l4Offset_grown hlong]
    rcases Nat.eq_or_lt_of_le hin' with heq | hlt
    · have hstart := hheader.l4s_toNat hether hlong hip
      have hmax : l4Offset frame ≤ 78 := by
        unfold l4Offset
        omega
      rw [if_pos heq.symm, BitVec.toNat_setWidth, hstart, Nat.mod_eq_of_lt (by omega)]
    · rw [if_neg hlt.ne']
      exact hbounds.l4Start (by omega)
  · intro hin' hle
    rw [hlength, lengthsAt_grown hlong] at hin'
    rw [headerLength_grown hlong, datagramLength_grown hin'] at hle
    rw [congrArg CsumBounds.l4Len hedge]
    dsimp only
    rw [l4Length_grown hin']
    rcases Nat.eq_or_lt_of_le hin' with heq | hlt
    · rw [if_pos heq.symm]
      exact hheader.l4Len_toNat hether hlong hip hle
    · rw [if_neg hlt.ne']
      exact hbounds.l4Len (by omega) hle
  · intro hin'
    rw [hlength, lengthsAt_grown hlong] at hin'
    rw [congrArg CsumBounds.ipCsumPos hedge]
    dsimp only
    rw [l3Offset_grown hlong]
    rcases Nat.eq_or_lt_of_le hin' with heq | hlt
    · rw [if_pos heq.symm, hether.off hlong.le, BitVec.toNat_add, BitVec.toNat_setWidth,
        BitVec.toNat_ofNat, Nat.mod_eq_of_lt (show l3Offset frame < 2 ^ 5 by omega)]
      simp only [BitVec.reduceToNat]
      omega
    · rw [if_neg hlt.ne']
      exact hbounds.ipCsumPos (by omega)
  · intro hin'
    rw [hlength, protocolAt_grown hlong] at hin'
    rw [congrArg CsumBounds.l4CsumPos hedge]
    dsimp only
    rw [csumPos_grown hin']
    rcases Nat.eq_or_lt_of_le hin' with heq | hlt
    · have hstart := hbounds.l4Start (by have := lengthsAt_le_protocolAt frame; omega)
      have hmax : l4Offset frame ≤ 78 := by
        unfold l4Offset
        omega
      have hoffset := csumOffset_le s.proto
      rw [if_pos heq.symm, BitVec.toNat_add, BitVec.toNat_setWidth, hstart, l4Off_toNat,
        csumPos, ← hheader.proto]
      omega
    · rw [if_neg hlt.ne']
      exact hbounds.l4CsumPos (by omega)

end CsumCalc

end EmacZero
