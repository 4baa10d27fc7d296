/-
The parser of `csum_calc` in the IP header: lengths, protocol and where things
end, for the bytes that a frame has had so far.
-/
import EmacZero.CsumCalcEther

namespace EmacZero

/-! The header's fields as the frame grows. -/

section Grown

variable {frame : List (BitVec 8)}

theorem isIp6_of_isIp4 (hip4 : isIp4 frame = true) : isIp6 frame = false := by
  simp only [isIp4, isIp6, Bool.and_eq_true, beq_iff_eq] at hip4 ⊢
  rw [hip4.1]
  rfl

variable (hlong : l3Offset frame < frame.length) (data : BitVec 8)
include hlong

theorem l3Offset_grown : l3Offset (frame ++ [data]) = l3Offset frame := by
  have hmin := le_l3Offset frame
  exact l3Offset_concat (by omega) data

theorem isIp4_grown : isIp4 (frame ++ [data]) = isIp4 frame := by
  rw [isIp4, isIp4, etherType_concat hlong.le, ipVersion_concat hlong]

theorem isIp6_grown : isIp6 (frame ++ [data]) = isIp6 frame := by
  rw [isIp6, isIp6, etherType_concat hlong.le, ipVersion_concat hlong]

theorem ihlBytes_grown : ihlBytes (frame ++ [data]) = ihlBytes frame := by
  rw [ihlBytes, ihlBytes, l3Offset_grown hlong, byteAt_append hlong]

theorem headerLength_grown : headerLength (frame ++ [data]) = headerLength frame := by
  rw [headerLength, headerLength, isIp6_grown hlong, ihlBytes_grown hlong]

theorem l4Offset_grown : l4Offset (frame ++ [data]) = l4Offset frame := by
  rw [l4Offset, l4Offset, l3Offset_grown hlong, headerLength_grown hlong]

end Grown

/-- The lengths are in and one byte more: where things end is known. -/
def lengthsAt (frame : List (BitVec 8)) : Nat :=
  l3Offset frame + if isIp6 frame then 7 else 5

/-- The protocol is in and one byte more. -/
def protocolAt (frame : List (BitVec 8)) : Nat :=
  l3Offset frame + if isIp6 frame then 8 else 11

theorem datagramLength_grown {frame : List (BitVec 8)}
    (hlong : lengthsAt frame ≤ frame.length + 1) (data : BitVec 8) :
    datagramLength (frame ++ [data]) = datagramLength frame := by
  unfold lengthsAt at hlong
  have hopen : l3Offset frame < frame.length := by split at hlong <;> omega
  rw [datagramLength, datagramLength, isIp6_grown hopen]
  cases hip6 : isIp6 frame with
  | true =>
      simp only [hip6, if_true] at hlong ⊢
      rw [payloadLength, payloadLength, l3Offset_grown hopen, wordAt_append (by omega)]
  | false =>
      simp only [hip6, Bool.false_eq_true, if_false] at hlong ⊢
      rw [totalLength, totalLength, l3Offset_grown hopen, wordAt_append (by omega)]

theorem datagramEnd_grown {frame : List (BitVec 8)}
    (hlong : lengthsAt frame ≤ frame.length + 1) (data : BitVec 8) :
    datagramEnd (frame ++ [data]) = datagramEnd frame := by
  have hopen : l3Offset frame < frame.length := by
    unfold lengthsAt at hlong
    split at hlong <;> omega
  rw [datagramEnd, datagramEnd, datagramLength_grown hlong, l3Offset_grown hopen]

theorem protocol_grown {frame : List (BitVec 8)}
    (hlong : protocolAt frame ≤ frame.length + 1) (data : BitVec 8) :
    protocol (frame ++ [data]) = protocol frame := by
  unfold protocolAt at hlong
  have hopen : l3Offset frame < frame.length := by split at hlong <;> omega
  rw [protocol, protocol, isIp6_grown hopen, l3Offset_grown hopen, byteAt_append]
  split at hlong <;> simp_all <;> omega

/-- How a word of the frame grows. -/
theorem wordAt_concat (frame : List (BitVec 8)) (data : BitVec 8) (offset : Nat) :
    wordAt (frame ++ [data]) offset =
      if frame.length = offset then data ++ byteAt frame (offset + 1)
      else if frame.length = offset + 1 then byteAt frame offset ++ data
      else wordAt frame offset := by
  rw [wordAt, byteAt_concat, byteAt_concat, wordAt]
  by_cases hhigh : frame.length = offset
  · rw [if_pos hhigh.symm, if_neg (by omega), if_pos hhigh]
  · rw [if_neg (Ne.symm hhigh), if_neg hhigh]
    by_cases hlow : frame.length = offset + 1
    · rw [if_pos hlow.symm, if_pos hlow]
    · rw [if_neg (Ne.symm hlow), if_neg hlow]

namespace CsumCalc

variable {zero : Bool} {s : CsumCalc} {i : CsumIn} {frame : List (BitVec 8)}
  {data : BitVec 8}

theorem ipLenHi_append (high low data : BitVec 8) :
    ipLenHi (high ++ low) data = data ++ low := by
  rw [ipLenHi, BitVec.extractLsb'_append_eq_right]

theorem ipLenLo_append (high low data : BitVec 8) :
    ipLenLo (high ++ low) data = high ++ data := by
  rw [ipLenLo, BitVec.extractLsb'_append_eq_left]

namespace EtherRegs

variable (hether : s.EtherRegs frame) (hlong : l3Offset frame < frame.length)
include hether hlong

theorem fam4_eq : s.fam4 = isIp4 frame := by
  rw [hether.fam4, maybeIp_of_lt hlong, isIp4]

theorem fam6_eq : s.fam6 = isIp6 frame := by
  rw [hether.fam6, maybeIp_of_lt hlong, isIp6]

theorem inL3_open : s.inL3 = (isIp4 frame || isIp6 frame) := by
  rw [hether.inL3_eq, hether.fam4_eq hlong, hether.fam6_eq hlong]

end EtherRegs

/-- The registers behind the EtherType, before the IP header's first byte. -/
structure Fresh (s : CsumCalc) : Prop where
  header : s.toCsumHeader = { hdrLen := 20, ipLen := 0, frag := false, proto := 0 }
  lenOk : s.lenOk = false
  udpLen : s.udpLen = 0
  options : s.toCsumOptions =
    { optPos := 20, optLenNx := false, optEnd := false, optSkip := false }
  sums : s.toCsumSums = { ipAcc := 0, phAcc := 0, l4Acc := 0, l4Field := 0 }

/-- Outside the IP header the registers behind the EtherType do not change. -/
theorem outside_clkEdge (hfirst : newFrame i = false) (hout : s.inL3 = false) :
    (s.clkEdge i).toCsumHeader = s.toCsumHeader ∧
      (s.clkEdge i).toCsumBounds = s.toCsumBounds ∧
      (s.clkEdge i).toCsumOptions = s.toCsumOptions ∧
      (s.clkEdge i).toCsumSums = s.toCsumSums := by
  refine ⟨?_, ?_, ?_, ?_⟩
  · change s.nextHeader i = _
    simp [nextHeader, hfirst, hout]
  · change s.nextBounds i = _
    simp [nextBounds, hfirst, hout]
  · change s.nextOptions i = _
    simp [nextOptions, hfirst, hout]
  · change s.nextSums i = _
    simp [nextSums, hfirst, inIp4h, inPh, inL4, hout]

theorem Fresh.step (hfresh : s.Fresh) (hfirst : newFrame i = false)
    (hout : s.inL3 = false) : (s.clkEdge i).Fresh := by
  obtain ⟨hheader, hbounds, hoptions, hsums⟩ := outside_clkEdge hfirst hout
  constructor
  · rw [hheader, hfresh.header]
  · rw [congrArg CsumBounds.lenOk hbounds, hfresh.lenOk]
  · rw [congrArg CsumBounds.udpLen hbounds, hfresh.udpLen]
  · rw [hoptions, hfresh.options]
  · rw [hsums, hfresh.sums]

/-- A frame's byte 0 leaves the registers fresh. -/
theorem fresh_of_newFrame (hfirst : newFrame i = true) : (s.clkEdge i).Fresh := by
  constructor
  · change s.nextHeader i = _
    simp [nextHeader, hfirst]
  · change (s.nextBounds i).lenOk = _
    simp [nextBounds, hfirst]
  · change (s.nextBounds i).udpLen = _
    simp [nextBounds, hfirst]
  · change s.nextOptions i = _
    simp [nextOptions, hfirst]
  · change s.nextSums i = _
    simp [nextSums, hfirst]

/-- At the IP header's first byte the EtherType says which header it is. -/
theorem EtherRegs.opening (hether : s.EtherRegs frame)
    (hlength : frame.length = l3Offset frame)
    (hip : isIp4 (frame ++ [data]) = true ∨ isIp6 (frame ++ [data]) = true) :
    s.fam4 = isIp4 (frame ++ [data]) ∧ s.fam6 = isIp6 (frame ++ [data]) := by
  rw [hether.fam4, hether.fam6]
  unfold maybeIp
  unfold isIp4 isIp6 at hip ⊢
  rw [etherType_concat hlength.ge] at hip ⊢
  simp only [hlength.le, decide_true, Bool.true_or, Bool.and_true]
  simp only [Bool.and_eq_true, beq_iff_eq] at hip
  rcases hip with ⟨htype, hversion⟩ | ⟨htype, hversion⟩
  · rw [htype, hversion]
    exact ⟨rfl, rfl⟩
  · rw [htype, hversion]
    exact ⟨rfl, rfl⟩

/-- What the header registers know once the header's first byte is in. -/
structure HeaderRegs (s : CsumCalc) (frame : List (BitVec 8)) : Prop where
  hdrLen : isIp4 frame = true → s.hdrLen.toNat = ihlBytes frame
  ipLen : s.ipLen = wordAt frame (l3Offset frame + if isIp6 frame then 4 else 2)
  frag : isIp4 frame = true → s.frag = fragmented frame
  proto : s.proto = protocol frame

theorem HeaderRegs.first (hfresh : s.Fresh) (hether : s.EtherRegs frame)
    (hlength : frame.length = l3Offset frame)
    (hip : isIp4 (frame ++ [data]) = true ∨ isIp6 (frame ++ [data]) = true)
    (hfeeds : Feeds zero i frame data) : (s.clkEdge i).HeaderRegs (frame ++ [data]) := by
  have hedge : (s.clkEdge i).toCsumHeader = s.nextHeader i := rfl
  obtain ⟨hfam4, hfam6⟩ := hether.opening hlength hip
  have hmin := le_l3Offset frame
  have hoff := l3Offset_concat (show 14 ≤ frame.length by omega) data
  have hin : s.inL3 = true := by
    rw [hether.inL3_eq, hfam4, hfam6, Bool.or_eq_true]
    exact hip
  have hr : s.r i = 0 := by
    rw [← BitVec.toNat_inj, hether.r_toNat hfeeds hlength.ge, hlength, Nat.sub_self]
    rfl
  have hmissing : ∀ offset, 0 < offset →
      byteAt (frame ++ [data]) (l3Offset frame + offset) = 0 :=
    fun offset hpos => byteAt_of_le (by simp; omega)
  have hlen : s.ipLen = 0 := congrArg CsumHeader.ipLen hfresh.header
  have hfrag : s.frag = false := congrArg CsumHeader.frag hfresh.header
  have hproto : s.proto = 0 := congrArg CsumHeader.proto hfresh.header
  simp only [nextHeader, hfeeds.not_newFrame, hfeeds.valid, hin, Bool.and_true, if_true,
    Bool.false_eq_true, if_false, hfeeds.inData, hr, hfam4, hlen, hfrag, hproto] at hedge
  constructor
  · intro hip4
    rw [congrArg CsumHeader.hdrLen hedge, ihlBytes, hoff, byteAt_concat, if_pos hlength.symm]
    have hword : ∀ ihl : BitVec 4, (ihl ++ (0 : BitVec 2)).toNat = 4 * ihl.toNat := by
      decide
    simp only [hip4, Bool.and_true, beq_self_eq_true, if_true]
    exact hword _
  · rw [congrArg CsumHeader.ipLen hedge, hoff]
    cases isIp4 (frame ++ [data]) <;> cases isIp6 (frame ++ [data]) <;>
      simp [wordAt, hmissing, Nat.add_assoc]
  · intro hip4
    rw [congrArg CsumHeader.frag hedge, fragmented, hoff]
    simp [hip4, hmissing]
  · rw [congrArg CsumHeader.proto hedge, protocol, hoff]
    cases isIp4 (frame ++ [data]) <;> cases isIp6 (frame ++ [data]) <;>
      simp [hmissing]

theorem HeaderRegs.step (hheader : s.HeaderRegs frame) (hether : s.EtherRegs frame)
    (hlong : l3Offset frame < frame.length)
    (hip : isIp4 frame = true ∨ isIp6 frame = true) (hfeeds : Feeds zero i frame data) :
    (s.clkEdge i).HeaderRegs (frame ++ [data]) := by
  have hedge : (s.clkEdge i).toCsumHeader = s.nextHeader i := rfl
  have hin : s.inL3 = true := by
    rw [hether.inL3_open hlong, Bool.or_eq_true]
    exact hip
  have hr : ∀ offset, offset < 2 ^ 14 →
      (s.r i == BitVec.ofNat 14 offset) = decide (frame.length = l3Offset frame + offset) :=
    fun offset => hether.r_beq hfeeds hlong.le
  simp only [nextHeader, hfeeds.not_newFrame, hfeeds.valid, hin, Bool.and_true, if_true,
    Bool.false_eq_true, if_false, hfeeds.inData, hether.fam4_eq hlong] at hedge
  constructor
  · intro hip4
    rw [isIp4_grown hlong] at hip4
    rw [congrArg CsumHeader.hdrLen hedge, ihlBytes_grown hlong, ← hheader.hdrLen hip4]
    have hzero := hr 0 (by decide)
    simp only [BitVec.ofNat_eq_ofNat, hzero]
    rw [decide_eq_false (by omega)]
    rfl
  · rw [congrArg CsumHeader.ipLen hedge, isIp6_grown hlong, l3Offset_grown hlong,
      wordAt_concat]
    cases hip4 : isIp4 frame with
    | true =>
        have hip6 := isIp6_of_isIp4 hip4
        have hlen := hheader.ipLen
        rw [hip6] at hlen ⊢
        have htwo := hr 2 (by decide)
        have hthree := hr 3 (by decide)
        simp only [BitVec.ofNat_eq_ofNat, if_true, htwo, hthree, decide_eq_true_eq,
          Bool.false_eq_true, if_false, hlen] at hlen ⊢
        rw [wordAt, ipLenHi_append, ipLenLo_append]
    | false =>
        have hip6 : isIp6 frame = true := hip.resolve_left (by simp [hip4])
        have hlen := hheader.ipLen
        rw [hip6] at hlen ⊢
        have hfour := hr 4 (by decide)
        have hfive := hr 5 (by decide)
        simp only [BitVec.ofNat_eq_ofNat, if_true, hfour, hfive, decide_eq_true_eq,
          Bool.false_eq_true, if_false, hlen] at hlen ⊢
        rw [wordAt, ipLenHi_append, ipLenLo_append]
  · intro hip4
    rw [isIp4_grown hlong] at hip4
    have hsix := hr 6 (by decide)
    have hseven := hr 7 (by decide)
    rw [congrArg CsumHeader.frag hedge]
    simp only [BitVec.ofNat_eq_ofNat, hip4, Bool.true_and, hsix, hseven,
      hheader.frag hip4, fragmented, l3Offset_grown hlong, byteAt_concat]
    by_cases hsixth : frame.length = l3Offset frame + 6
    · have hafter : byteAt frame (l3Offset frame + 7) = 0 := byteAt_of_le (by omega)
      simp [hsixth, hafter]
    · by_cases hseventh : frame.length = l3Offset frame + 7
      · have hbefore : byteAt frame (l3Offset frame + 7) = 0 := byteAt_of_le (by omega)
        simp [hseventh, hbefore]
        cases hdata : data != 0 <;> simp_all
      · simp [hsixth, hseventh, Ne.symm hsixth, Ne.symm hseventh]
  · rw [congrArg CsumHeader.proto hedge, protocol, isIp6_grown hlong, l3Offset_grown hlong,
      byteAt_concat, hheader.proto, protocol]
    cases hip4 : isIp4 frame with
    | true =>
        have hnine := hr 9 (by decide)
        simp only [BitVec.ofNat_eq_ofNat, if_true, hnine, isIp6_of_isIp4 hip4,
          decide_eq_true_eq, Bool.false_eq_true, if_false, @eq_comm Nat frame.length]
    | false =>
        have hip6 : isIp6 frame = true := hip.resolve_left (by simp [hip4])
        have hsix := hr 6 (by decide)
        simp only [BitVec.ofNat_eq_ofNat, hip6, if_true, hsix, decide_eq_true_eq,
          Bool.false_eq_true, if_false, @eq_comm Nat frame.length]

end CsumCalc

end EmacZero
