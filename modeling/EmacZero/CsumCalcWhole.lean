/-
What is known of a datagram once the frame has the whole of it: bytes after its end
change nothing.  The registers of `csum_calc` answer for it in the cycle after its
last byte.
-/
import EmacZero.CsumCalcParsed

namespace EmacZero

/-- The datagram ends with the frame's last byte. -/
def datagramEnds (frame : List (BitVec 8)) : Bool :=
  (isIp4 frame || isIp6 frame) && decide (lengthsAt frame < frame.length) &&
    decide (datagramEnd frame = frame.length)

/-- The IPv4 header ends with the frame's last byte. -/
def headerEnds (frame : List (BitVec 8)) : Bool :=
  isIp4 frame && decide (l4Offset frame = frame.length)

/-- The datagram has ended. -/
def datagramEnded (frame : List (BitVec 8)) : Bool :=
  (isIp4 frame || isIp6 frame) && decide (lengthsAt frame < datagramEnd frame) &&
    decide (datagramEnd frame ≤ frame.length)

section Whole

variable {frame : List (BitVec 8)} {data : BitVec 8}

theorem ip_of_wellFormed (hformed : wellFormed frame = true) :
    isIp4 frame = true ∨ isIp6 frame = true := by
  simp only [wellFormed, Bool.or_eq_true, Bool.and_eq_true] at hformed
  rcases hformed with hip6 | ⟨⟨hip4, _⟩, _⟩
  · exact Or.inr hip6
  · exact Or.inl hip4

theorem ihl_of_wellFormed (hformed : wellFormed frame = true) (hip4 : isIp4 frame = true) :
    20 ≤ ihlBytes frame := by
  simp only [wellFormed, isIp6_of_isIp4 hip4, hip4, Bool.false_or, Bool.true_and,
    Bool.and_eq_true, decide_eq_true_eq] at hformed
  exact hformed.1

theorem header_of_wellFormed (hformed : wellFormed frame = true) :
    headerLength frame ≤ datagramLength frame := by
  simp only [wellFormed, Bool.or_eq_true, Bool.and_eq_true, decide_eq_true_eq] at hformed
  rw [headerLength, datagramLength]
  rcases hformed with hip6 | ⟨⟨hip4, _⟩, hle⟩
  · rw [hip6]
    simp
  · rw [isIp6_of_isIp4 hip4]
    exact hle

theorem protocolAt_le_datagramEnd (hformed : wellFormed frame = true) :
    protocolAt frame ≤ l4Offset frame ∧ l4Offset frame ≤ datagramEnd frame := by
  have hend := l4Offset_add_l4Length (header_of_wellFormed hformed)
  refine ⟨?_, by omega⟩
  exact protocolAt_le_l4Offset (ihl_of_wellFormed hformed) (ip_of_wellFormed hformed)

theorem open_of_protocolAt (hlong : protocolAt frame ≤ frame.length) :
    l3Offset frame < frame.length := by
  unfold protocolAt at hlong
  split at hlong <;> omega

theorem wellFormed_grown (hlong : lengthsAt frame ≤ frame.length + 1)
    (hopen : l3Offset frame < frame.length) (data : BitVec 8) :
    wellFormed (frame ++ [data]) = wellFormed frame := by
  rw [wellFormed, wellFormed, isIp4_grown hopen, isIp6_grown hopen, ihlBytes_grown hopen]
  cases hip6 : isIp6 frame with
  | true => rfl
  | false =>
      have htotal := datagramLength_grown hlong data
      rw [datagramLength, datagramLength, isIp6_grown hopen, hip6] at htotal
      simp only [Bool.false_eq_true, if_false] at htotal
      rw [htotal]

theorem laid_of_wellFormed (hformed : wellFormed frame = true)
    (hroom : datagramEnd frame ≤ 16383) : Laid frame where
  ihl := ihl_of_wellFormed hformed
  header _ := header_of_wellFormed hformed
  room _ := hroom

theorem datagramWhole_iff :
    datagramWhole frame = true ↔
      wellFormed frame = true ∧ datagramEnd frame ≤ frame.length := by
  rw [datagramWhole, Bool.and_eq_true, decide_eq_true_eq]

theorem headerWhole_iff :
    headerWhole frame = true ↔
      isIp4 frame = true ∧ wellFormed frame = true ∧ l4Offset frame ≤ frame.length := by
  rw [headerWhole, Bool.and_eq_true, Bool.and_eq_true, decide_eq_true_eq, and_assoc]

theorem protocolAt_of_whole (hwhole : datagramWhole frame = true) :
    protocolAt frame ≤ frame.length := by
  obtain ⟨hformed, hend⟩ := datagramWhole_iff.mp hwhole
  obtain ⟨hproto, hl4⟩ := protocolAt_le_datagramEnd hformed
  omega

/-- Only the datagram's last byte makes it whole. -/
theorem datagramWhole_concat (hends : datagramEnds (frame ++ [data]) = false) :
    datagramWhole (frame ++ [data]) = datagramWhole frame := by
  have hgrown : (frame ++ [data]).length = frame.length + 1 := by simp
  rw [Bool.eq_iff_iff, datagramWhole_iff, datagramWhole_iff]
  constructor
  · rintro ⟨hformed, hend⟩
    have hip := ip_of_wellFormed hformed
    obtain ⟨hproto, hl4⟩ := protocolAt_le_datagramEnd hformed
    have hlengths := lengthsAt_le_protocolAt (frame ++ [data])
    have hne : datagramEnd (frame ++ [data]) ≠ (frame ++ [data]).length := by
      intro heq
      rw [datagramEnds, Bool.or_eq_true .. |>.mpr hip, decide_eq_true heq,
        decide_eq_true (by omega)] at hends
      exact absurd hends (by decide)
    have hopen : l3Offset frame < frame.length := by
      have hmin := le_l3Offset (frame ++ [data])
      have hover : l3Offset (frame ++ [data]) + 8 ≤ protocolAt (frame ++ [data]) := by
        unfold protocolAt
        split <;> omega
      rw [l3Offset_concat (by omega)] at hover
      omega
    rw [lengthsAt_grown hopen] at hlengths
    have hin : lengthsAt frame ≤ frame.length + 1 := by omega
    rw [wellFormed_grown hin hopen] at hformed
    rw [datagramEnd_grown hin] at hend hne
    exact ⟨hformed, by omega⟩
  · rintro ⟨hformed, hend⟩
    obtain ⟨hproto, hl4⟩ := protocolAt_le_datagramEnd hformed
    have hlengths := lengthsAt_le_protocolAt frame
    have hopen := open_of_protocolAt (show protocolAt frame ≤ frame.length by omega)
    rw [wellFormed_grown (by omega) hopen, datagramEnd_grown (by omega), hgrown]
    exact ⟨hformed, by omega⟩

theorem headerWhole_concat (hends : headerEnds (frame ++ [data]) = false) :
    headerWhole (frame ++ [data]) = headerWhole frame := by
  have hgrown : (frame ++ [data]).length = frame.length + 1 := by simp
  rw [Bool.eq_iff_iff, headerWhole_iff, headerWhole_iff]
  constructor
  · rintro ⟨hip4, hformed, hin⟩
    obtain ⟨hproto, hl4⟩ := protocolAt_le_datagramEnd hformed
    have hlengths := lengthsAt_le_protocolAt (frame ++ [data])
    have hne : l4Offset (frame ++ [data]) ≠ (frame ++ [data]).length := by
      intro heq
      rw [headerEnds, hip4, decide_eq_true heq] at hends
      exact absurd hends (by decide)
    have hopen : l3Offset frame < frame.length := by
      have hmin := le_l3Offset (frame ++ [data])
      have hover : l3Offset (frame ++ [data]) + 8 ≤ protocolAt (frame ++ [data]) := by
        unfold protocolAt
        split <;> omega
      rw [l3Offset_concat (by omega)] at hover
      omega
    rw [lengthsAt_grown hopen, protocolAt_grown hopen] at hlengths
    rw [protocolAt_grown hopen] at hproto
    rw [isIp4_grown hopen] at hip4
    rw [wellFormed_grown (by omega) hopen] at hformed
    rw [l4Offset_grown hopen] at hin hne
    exact ⟨hip4, hformed, by omega⟩
  · rintro ⟨hip4, hformed, hin⟩
    obtain ⟨hproto, hl4⟩ := protocolAt_le_datagramEnd hformed
    have hlengths := lengthsAt_le_protocolAt frame
    have hopen := open_of_protocolAt (show protocolAt frame ≤ frame.length by omega)
    rw [isIp4_grown hopen, wellFormed_grown (by omega) hopen, l4Offset_grown hopen, hgrown]
    exact ⟨hip4, hformed, by omega⟩

theorem csumOffset_udp (hproto : protocol frame = 17) : csumOffset (protocol frame) = 6 := by
  rw [hproto]
  rfl

/-- Where the whole datagram is there, so is a UDP Length field that has room. -/
theorem udpLength_whole (hwhole : datagramWhole frame = true) (hproto : protocol frame = 17)
    (hfits : csumOffset (protocol frame) + 2 ≤ l4Length frame) :
    l4Offset frame + 8 ≤ frame.length := by
  obtain ⟨hformed, hend⟩ := datagramWhole_iff.mp hwhole
  have htotal := l4Offset_add_l4Length (header_of_wellFormed hformed)
  have hsix := csumOffset_udp hproto
  omega

section Settled

variable (hwhole : datagramWhole frame = true)
include hwhole

theorem open_of_whole : l3Offset frame < frame.length :=
  open_of_protocolAt (protocolAt_of_whole hwhole)

theorem lengthsAt_of_whole : lengthsAt frame < frame.length :=
  (lengthsAt_le_protocolAt frame).trans_le (protocolAt_of_whole hwhole)

theorem protocol_settled (data : BitVec 8) : protocol (frame ++ [data]) = protocol frame := by
  have hlong := protocolAt_of_whole hwhole
  exact protocol_grown (by omega) data

theorem l4Length_settled (data : BitVec 8) : l4Length (frame ++ [data]) = l4Length frame := by
  have hlong := lengthsAt_of_whole hwhole
  exact l4Length_grown (by omega) data

theorem l4Covered_settled (data : BitVec 8) :
    l4Covered (frame ++ [data]) = l4Covered frame := by
  have hopen := open_of_whole hwhole
  have hin := lengthsAt_of_whole hwhole
  have hproto := protocol_settled hwhole data
  have hl4 := l4Length_settled hwhole data
  obtain ⟨hformed, hend⟩ := datagramWhole_iff.mp hwhole
  have hcovers := protocolAt_le_datagramEnd hformed
  have hfragmented : isIp4 frame = true →
      fragmented (frame ++ [data]) = fragmented frame := by
    intro hip4
    have hlong := protocolAt_of_whole hwhole
    rw [protocolAt, isIp6_of_isIp4 hip4] at hlong
    simp only [Bool.false_eq_true, if_false] at hlong
    rw [fragmented, fragmented, l3Offset_grown hopen, byteAt_append (by omega),
      byteAt_append (by omega)]
  have hoptions : ip4Options (frame ++ [data]) = ip4Options frame := by
    rw [ip4Options, ip4Options, l3Offset_grown hopen, l4Offset_grown hopen,
      slice_append (by omega)]
  have hprotocol : protocolCovered (frame ++ [data]) = protocolCovered frame := by
    rw [protocolCovered, protocolCovered, hproto, isIp4_grown hopen, isIp6_grown hopen]
  have hskip : (isIp4 (frame ++ [data]) && (fragmented (frame ++ [data]) ||
      optionsSkip 0 (ip4Options (frame ++ [data])))) =
      (isIp4 frame && (fragmented frame || optionsSkip 0 (ip4Options frame))) := by
    rw [isIp4_grown hopen, hoptions]
    cases hip4 : isIp4 frame with
    | true => rw [hfragmented hip4]
    | false => rfl
  rw [l4Covered, l4Covered, wellFormed_grown (by omega) hopen, hprotocol, hskip, hproto, hl4]
  by_cases hfits : csumOffset (protocol frame) + 2 ≤ l4Length frame
  · by_cases hudp : protocol frame = 17
    · have hroom := udpLength_whole hwhole hudp hfits
      rw [udpLength_grown (by omega) hopen]
    · rw [bne_iff_ne.mpr hudp]
      rfl
  · simp [hfits]

/-- Bytes behind the datagram are in none of its sums. -/
theorem l4Sum_settled (hcovered : l4Covered frame = true) (zero : Bool) (data : BitVec 8) :
    l4Sum zero (frame ++ [data]) = l4Sum zero frame := by
  have hopen := open_of_whole hwhole
  have hproto := protocol_settled hwhole data
  have hl4 := l4Length_settled hwhole data
  have hoff := l4Offset_grown hopen data
  obtain ⟨hformed, hend⟩ := datagramWhole_iff.mp hwhole
  have hcovers := protocolAt_le_datagramEnd hformed
  have htotal := l4Offset_add_l4Length (header_of_wellFormed hformed)
  simp only [l4Covered, Bool.and_eq_true, decide_eq_true_eq] at hcovered
  obtain ⟨⟨_, hfits⟩, hudpOk⟩ := hcovered
  have hlength : coveredLength (frame ++ [data]) = coveredLength frame ∧
      coveredLength frame ≤ l4Length frame := by
    rw [coveredLength, coveredLength, hproto, hl4]
    by_cases hudp : protocol frame = 17
    · have hroom := udpLength_whole hwhole hudp hfits
      have hbounds : udpLength frame ≤ l4Length frame := by
        simp only [hudp, bne_self_eq_false, Bool.false_or, Bool.and_eq_true,
          decide_eq_true_eq] at hudpOk
        exact hudpOk.2
      rw [if_pos hudp, if_pos hudp, udpLength_grown (by omega) hopen]
      exact ⟨rfl, hbounds⟩
    · rw [if_neg hudp, if_neg hudp]
      exact ⟨rfl, Nat.le_refl _⟩
  have hpos : csumPos (frame ++ [data]) = csumPos frame := by
    rw [csumPos, csumPos, hoff, hproto]
  have hpseudo : pseudoSum (frame ++ [data]) = pseudoSum frame := by
    have hhdr := protocolAt_of_whole hwhole
    have hihl := ihl_of_wellFormed hformed
    simp only [pseudoSum, isIp6_grown hopen, hproto, l3Offset_grown hopen, hlength.1]
    cases hip6 : isIp6 frame with
    | true =>
        have hforty : l3Offset frame + 40 ≤ frame.length := by
          rw [l4Offset, headerLength, hip6] at hcovers
          simp only [if_true] at hcovers
          omega
        rw [slice_append hforty]
        rfl
    | false =>
        have hip4 : isIp4 frame = true :=
          (ip_of_wellFormed hformed).resolve_right (by simp [hip6])
        have htwenty : l3Offset frame + 20 ≤ frame.length := by
          have hmin := hihl hip4
          rw [l4Offset, headerLength, hip6] at hcovers
          simp only [Bool.false_eq_true, if_false] at hcovers
          omega
        rw [slice_append htwenty]
        rfl
  obtain ⟨after, hafter⟩ := zeroed_append zero (csumPos frame) frame [data]
  rw [l4Sum, l4Sum, hpos, hoff, hlength.1, hpseudo, hafter,
    slice_append (by rw [length_zeroed]; omega)]

end Settled

/-- What one more byte keeps, any number of them do. -/
theorem grown_append {α : Type} {known : List (BitVec 8) → Prop}
    {value : List (BitVec 8) → α}
    (hkeeps : ∀ {frame : List (BitVec 8)}, known frame → ∀ data, known (frame ++ [data]))
    (hconcat : ∀ {frame : List (BitVec 8)}, known frame →
      ∀ data, value (frame ++ [data]) = value frame)
    (hknown : known frame) (rest : List (BitVec 8)) :
    value (frame ++ rest) = value frame := by
  induction rest generalizing frame with
  | nil => rw [List.append_nil]
  | cons data rest ih =>
      rw [← List.singleton_append, ← List.append_assoc, ih (hkeeps hknown data),
        hconcat hknown]

theorem open_concat (hopen : l3Offset frame < frame.length) (data : BitVec 8) :
    l3Offset (frame ++ [data]) < (frame ++ [data]).length := by
  rw [l3Offset_grown hopen, List.length_append]
  omega

/-- The IP header's layout is known from its first byte on. -/
theorem layout_append (hopen : l3Offset frame < frame.length) (rest : List (BitVec 8)) :
    l3Offset (frame ++ rest) = l3Offset frame ∧ l4Offset (frame ++ rest) = l4Offset frame ∧
      isIp4 (frame ++ rest) = isIp4 frame ∧ isIp6 (frame ++ rest) = isIp6 frame :=
  ⟨grown_append open_concat l3Offset_grown hopen rest,
    grown_append open_concat l4Offset_grown hopen rest,
    grown_append open_concat isIp4_grown hopen rest,
    grown_append open_concat isIp6_grown hopen rest⟩

theorem datagramEnd_settled (hwhole : datagramWhole frame = true) (data : BitVec 8) :
    datagramEnd (frame ++ [data]) = datagramEnd frame := by
  have hlong := lengthsAt_of_whole hwhole
  exact datagramEnd_grown (by omega) data

theorem datagramWhole_settled (hwhole : datagramWhole frame = true) (data : BitVec 8) :
    datagramWhole (frame ++ [data]) = datagramWhole frame := by
  have hopen := open_of_whole hwhole
  have hlong := lengthsAt_of_whole hwhole
  have hend := datagramEnd_settled hwhole data
  obtain ⟨hformed, hin⟩ := datagramWhole_iff.mp hwhole
  rw [hwhole, datagramWhole_iff, wellFormed_grown (by omega) hopen, hend]
  exact ⟨hformed, by simp; omega⟩

/-- What one byte behind the datagram leaves alone, any number of them do. -/
theorem settled_append {α : Type} {value : List (BitVec 8) → α}
    (hconcat : ∀ {frame : List (BitVec 8)}, datagramWhole frame = true →
      ∀ data, value (frame ++ [data]) = value frame)
    (hwhole : datagramWhole frame = true) (rest : List (BitVec 8)) :
    value (frame ++ rest) = value frame :=
  @grown_append frame α (fun frame => datagramWhole frame = true) value
    (fun hwhole data => (datagramWhole_settled hwhole data).trans hwhole) hconcat hwhole rest

theorem datagramWhole_append (hwhole : datagramWhole frame = true)
    (rest : List (BitVec 8)) : datagramWhole (frame ++ rest) = true :=
  (settled_append datagramWhole_settled hwhole rest).trans hwhole

theorem csumPos_append (hwhole : datagramWhole frame = true) (rest : List (BitVec 8)) :
    csumPos (frame ++ rest) = csumPos frame := by
  refine settled_append ?_ hwhole rest
  intro frame hwhole data
  have hlong := protocolAt_of_whole hwhole
  exact csumPos_grown (by omega) data

theorem csumPos_lt (hwhole : datagramWhole frame = true) (hcovered : l4Covered frame = true) :
    csumPos frame + 1 < frame.length := by
  obtain ⟨hformed, hend⟩ := datagramWhole_iff.mp hwhole
  have htotal := l4Offset_add_l4Length (header_of_wellFormed hformed)
  simp only [l4Covered, Bool.and_eq_true, decide_eq_true_eq] at hcovered
  have hroom := hcovered.1.2
  unfold csumPos
  omega

/-- The checksum field and the sum of a covered datagram, with more bytes behind it. -/
theorem covered_append (hwhole : datagramWhole frame = true)
    (hcovered : l4Covered frame = true) (zero : Bool) (rest : List (BitVec 8)) :
    l4Sum zero (frame ++ rest) = l4Sum zero frame ∧
      wordAt (frame ++ rest) (csumPos (frame ++ rest)) = wordAt frame (csumPos frame) := by
  constructor
  · exact @grown_append frame Nat
      (fun frame => datagramWhole frame = true ∧ l4Covered frame = true) (l4Sum zero)
      (fun hknown data => ⟨(datagramWhole_settled hknown.1 data).trans hknown.1,
        (l4Covered_settled hknown.1 data).trans hknown.2⟩)
      (fun hknown data => l4Sum_settled hknown.1 hknown.2 zero data) ⟨hwhole, hcovered⟩ rest
  · rw [csumPos_append hwhole, wordAt_append (csumPos_lt hwhole hcovered)]

theorem headerWhole_settled (hwhole : headerWhole frame = true) (data : BitVec 8) :
    headerWhole (frame ++ [data]) = headerWhole frame := by
  obtain ⟨hip4, hformed, hin⟩ := headerWhole_iff.mp hwhole
  obtain ⟨hproto, _⟩ := protocolAt_le_datagramEnd hformed
  have hlengths := lengthsAt_le_protocolAt frame
  have hopen := open_of_protocolAt (show protocolAt frame ≤ frame.length by omega)
  rw [hwhole, headerWhole_iff, isIp4_grown hopen, wellFormed_grown (by omega) hopen,
    l4Offset_grown hopen]
  exact ⟨hip4, hformed, by simp; omega⟩

theorem headerSum_settled (hwhole : headerWhole frame = true) (zero : Bool)
    (data : BitVec 8) : headerSum zero (frame ++ [data]) = headerSum zero frame := by
  obtain ⟨hip4, hformed, hin⟩ := headerWhole_iff.mp hwhole
  obtain ⟨hproto, _⟩ := protocolAt_le_datagramEnd hformed
  have hopen := open_of_protocolAt (show protocolAt frame ≤ frame.length by omega)
  obtain ⟨after, hafter⟩ := zeroed_append zero (l3Offset frame + 10) frame [data]
  rw [headerSum, headerSum, l3Offset_grown hopen, l4Offset_grown hopen, hafter,
    slice_append (by rw [length_zeroed]; exact hin)]

end Whole

end EmacZero
