/-
A frame of which only checksum fields change keeps its layout, and the sums of its
fields with these as zero.
-/
import EmacZero.TxCsumInsert

namespace EmacZero

/-- The checksum fields: of the IPv4 header, and of L4 where it is covered. -/
def InField (frame : List (BitVec 8)) (offset : Nat) : Prop :=
  (isIp4 frame = true ∧ (offset = l3Offset frame + 10 ∨ offset = l3Offset frame + 11)) ∨
    (l4Covered frame = true ∧ (offset = csumPos frame ∨ offset = csumPos frame + 1))

/-- The frames differ in the checksum fields only. -/
structure FieldsOnly (frame other : List (BitVec 8)) : Prop where
  length : other.length = frame.length
  same : ∀ offset, ¬InField frame offset → byteAt other offset = byteAt frame offset

/-- What the layout of a datagram is. -/
structure SameLayout (frame other : List (BitVec 8)) : Prop where
  length : other.length = frame.length
  l3 : l3Offset other = l3Offset frame
  ip4 : isIp4 other = isIp4 frame
  ip6 : isIp6 other = isIp6 frame
  l4 : l4Offset other = l4Offset frame
  stop : datagramEnd other = datagramEnd frame
  whole : datagramWhole other = datagramWhole frame
  proto : protocol other = protocol frame
  covered : l4Covered other = l4Covered frame
  coveredLength : coveredLength other = coveredLength frame
  pseudo : pseudoSum other = pseudoSum frame

section Fields

variable {frame other : List (BitVec 8)}

/-- The L4 checksum field is in the L4 header, but not in its first two bytes, nor where
UDP has its length. -/
theorem csumOffset_of_covered (hcovered : l4Covered frame = true) :
    csumOffset (protocol frame) = 16 ∨ csumOffset (protocol frame) = 6 ∨
      csumOffset (protocol frame) = 2 := by
  simp only [l4Covered, protocolCovered, Bool.and_eq_true, Bool.or_eq_true, beq_iff_eq]
    at hcovered
  obtain ⟨⟨⟨⟨-, hproto⟩, -⟩, -⟩, -⟩ := hcovered
  rcases hproto with ((htcp | hudp) | ⟨hicmp, -⟩) | ⟨hicmp6, -⟩
  · rw [htcp]
    decide
  · rw [hudp]
    decide
  · rw [hicmp]
    decide
  · rw [hicmp6]
    decide

/-- The header is as long as it says. -/
theorem l4Offset_of_formed (hformed : wellFormed frame = true) :
    l3Offset frame + 20 ≤ l4Offset frame ∧
      (isIp6 frame = true → l4Offset frame = l3Offset frame + 40) := by
  rw [l4Offset, headerLength]
  cases hip6 : isIp6 frame with
  | true => simp
  | false =>
      have hip4 := (ip_of_wellFormed hformed).resolve_right (by simp [hip6])
      have hihl := ihl_of_wellFormed hformed hip4
      simp only [Bool.false_eq_true, if_false, false_implies, and_true]
      omega

/-- Nothing before offset 10 of the IP header is a checksum field. -/
theorem not_inField_early (hformed : wellFormed frame = true) {offset : Nat}
    (hearly : offset < l3Offset frame + 10) : ¬InField frame offset := by
  obtain ⟨hmin, -⟩ := l4Offset_of_formed hformed
  rintro (⟨-, hfield⟩ | ⟨-, hfield⟩)
  · omega
  · unfold csumPos at hfield
    omega

/-- Nor is anything else in the IP header. -/
theorem not_inField_header {offset : Nat} (hlate : l3Offset frame + 12 ≤ offset)
    (hearly : offset < l4Offset frame) : ¬InField frame offset := by
  rintro (⟨-, hfield⟩ | ⟨-, hfield⟩)
  · omega
  · unfold csumPos at hfield
    omega

theorem not_inField_ip6 (hip6 : isIp6 frame = true) {offset : Nat}
    (hearly : offset < l4Offset frame) : ¬InField frame offset := by
  rintro (⟨hip4, -⟩ | ⟨-, hfield⟩)
  · rw [isIp6_of_isIp4 hip4] at hip6
    cases hip6
  · unfold csumPos at hfield
    omega

theorem not_inField_udpLength (hformed : wellFormed frame = true) {offset : Nat}
    (hoffset : offset = l4Offset frame + 4 ∨ offset = l4Offset frame + 5) :
    ¬InField frame offset := by
  obtain ⟨hmin, -⟩ := l4Offset_of_formed hformed
  rintro (⟨-, hfield⟩ | ⟨hcovered, hfield⟩)
  · omega
  · have hplace := csumOffset_of_covered hcovered
    unfold csumPos at hfield
    omega

theorem take_two_eq_slice (frame : List (BitVec 8)) (start : Nat) :
    (frame.drop start).take 2 = slice frame start (start + 2) := by
  rw [slice, List.drop_take, Nat.add_sub_cancel_left]

/-- Nothing else of the layout depends on the checksum fields. -/
theorem FieldsOnly.layout (hfields : FieldsOnly frame other)
    (hformed : wellFormed frame = true) : SameLayout frame other := by
  obtain ⟨hlength, hsame⟩ := hfields
  have hmin := le_l3Offset frame
  obtain ⟨hheader, hsixHeader⟩ := l4Offset_of_formed hformed
  have hearly (offset : Nat) (hlt : offset < l3Offset frame + 10) :
      byteAt other offset = byteAt frame offset :=
    hsame offset (not_inField_early hformed hlt)
  have hvlan : vlanTagged other = vlanTagged frame := by
    rw [vlanTagged, vlanTagged, take_two_eq_slice, take_two_eq_slice,
      slice_congr hlength fun offset _ hlt => hearly offset (by omega)]
  have hl3 : l3Offset other = l3Offset frame := by rw [l3Offset, l3Offset, hvlan]
  have hether : etherType other = etherType frame := by
    rw [etherType, etherType, hl3, take_two_eq_slice, take_two_eq_slice,
      slice_congr hlength fun offset _ hlt => hearly offset (by omega)]
  have hfirst : byteAt other (l3Offset frame) = byteAt frame (l3Offset frame) :=
    hearly _ (by omega)
  have hip4 : isIp4 other = isIp4 frame := by
    rw [isIp4, isIp4, hether, ipVersion, ipVersion, hl3, hfirst]
  have hip6 : isIp6 other = isIp6 frame := by
    rw [isIp6, isIp6, hether, ipVersion, ipVersion, hl3, hfirst]
  have hihl : ihlBytes other = ihlBytes frame := by rw [ihlBytes, ihlBytes, hl3, hfirst]
  have htotal : totalLength other = totalLength frame := by
    rw [totalLength, totalLength, hl3, wordAt, wordAt, hearly _ (by omega),
      hearly _ (by omega)]
  have hpayload : payloadLength other = payloadLength frame := by
    rw [payloadLength, payloadLength, hl3, wordAt, wordAt, hearly _ (by omega),
      hearly _ (by omega)]
  have hheaderLength : headerLength other = headerLength frame := by
    rw [headerLength, headerLength, hip6, hihl]
  have hdatagram : datagramLength other = datagramLength frame := by
    rw [datagramLength, datagramLength, hip6, hpayload, htotal]
  have hl4 : l4Offset other = l4Offset frame := by
    rw [l4Offset, l4Offset, hl3, hheaderLength]
  have hstop : datagramEnd other = datagramEnd frame := by
    rw [datagramEnd, datagramEnd, hl3, hdatagram]
  have hl4Length : l4Length other = l4Length frame := by
    rw [l4Length, l4Length, hdatagram, hheaderLength]
  have hformed' : wellFormed other = wellFormed frame := by
    rw [wellFormed, wellFormed, hip6, hip4, hihl, htotal]
  have hproto : protocol other = protocol frame := by
    have hplace : l3Offset frame + (if isIp6 frame then 6 else 9) < l3Offset frame + 10 := by
      split <;> omega
    rw [protocol, protocol, hl3, hip6, hearly _ hplace]
  have hudp : udpLength other = udpLength frame := by
    rw [udpLength, udpLength, hl4, wordAt, wordAt,
      hsame _ (not_inField_udpLength hformed (Or.inl rfl)),
      hsame _ (not_inField_udpLength hformed (Or.inr rfl))]
  have hcoveredLength : EmacZero.coveredLength other = EmacZero.coveredLength frame := by
    rw [EmacZero.coveredLength, EmacZero.coveredLength, hproto, hudp, hl4Length]
  have hfragmented : fragmented other = fragmented frame := by
    rw [fragmented, fragmented, hl3, hearly _ (by omega), hearly _ (by omega)]
  have hoptions : ip4Options other = ip4Options frame := by
    rw [ip4Options, ip4Options, hl3, hl4]
    exact slice_congr hlength fun offset hge hlt =>
      hsame offset (not_inField_header (by omega) hlt)
  have hcovers : protocolCovered other = protocolCovered frame := by
    rw [protocolCovered, protocolCovered, hproto, hip4, hip6]
  have hpseudo : pseudoSum other = pseudoSum frame := by
    rw [pseudoSum, pseudoSum, hip6, hproto, hcoveredLength, hl3]
    cases hsix : isIp6 frame with
    | true =>
        rw [if_pos rfl, if_pos rfl, slice_congr hlength fun offset _ hlt =>
          hsame offset (not_inField_ip6 hsix (by rw [hsixHeader hsix]; exact hlt))]
    | false =>
        rw [if_neg Bool.false_ne_true, if_neg Bool.false_ne_true,
          @slice_congr frame other (l3Offset frame + 12) (l3Offset frame + 20) hlength
            fun offset hge hlt => hsame offset (not_inField_header hge (by omega))]
  exact {
    length := hlength
    l3 := hl3
    ip4 := hip4
    ip6 := hip6
    l4 := hl4
    stop := hstop
    whole := by rw [datagramWhole, datagramWhole, hformed', hstop, hlength]
    proto := hproto
    covered := by
      rw [l4Covered, l4Covered, hformed', hcovers, hip4, hfragmented, hoptions, hproto, hudp,
        hl4Length]
    coveredLength := hcoveredLength
    pseudo := hpseudo }

theorem SameLayout.csumPos (hlayout : SameLayout frame other) :
    csumPos other = EmacZero.csumPos frame := by
  rw [EmacZero.csumPos, EmacZero.csumPos, hlayout.l4, hlayout.proto]

/-- The L4 checksum field is inside the bytes that the checksum covers. -/
theorem csumPos_covered (hcovered : l4Covered frame = true) :
    csumPos frame + 2 ≤ l4Offset frame + coveredLength frame := by
  have hudp := @csumOffset_udp frame
  simp only [l4Covered, Bool.and_eq_true, decide_eq_true_eq, Bool.or_eq_true, bne_iff_ne]
    at hcovered
  obtain ⟨⟨-, hroom⟩, hlength⟩ := hcovered
  rw [csumPos, coveredLength]
  split
  · rename_i hisUdp
    rw [hudp hisUdp]
    have hrange := (hlength.resolve_left (by simp [hisUdp])).1
    omega
  · omega

/-- The header's sum, with what its checksum field holds. -/
theorem headerSum_field (hfields : FieldsOnly frame other)
    (hwhole : datagramWhole frame = true) :
    headerSum false other = headerSum true frame + (wordAt other (l3Offset frame + 10)).toNat := by
  obtain ⟨hformed, hend⟩ := datagramWhole_iff.mp hwhole
  obtain ⟨hheader, -⟩ := l4Offset_of_formed hformed
  have hbound := (protocolAt_le_datagramEnd hformed).2
  have hlayout := hfields.layout hformed
  rw [headerSum, headerSum, zeroed_false, hlayout.l3, hlayout.l4]
  apply wordSum_field hfields.length (by omega) (by omega) (by omega)
  · rw [Nat.add_sub_cancel_left]
  · intro offset hge hlt hhigh hlow
    apply hfields.same
    rintro (⟨-, hfield⟩ | ⟨-, hfield⟩)
    · omega
    · unfold EmacZero.csumPos at hfield
      omega

/-- The L4 sum, with what its checksum field holds. -/
theorem l4Sum_field (hfields : FieldsOnly frame other) (hwhole : datagramWhole frame = true)
    (hcovered : l4Covered frame = true) :
    l4Sum false other = l4Sum true frame + (wordAt other (csumPos frame)).toNat := by
  obtain ⟨hformed, hend⟩ := datagramWhole_iff.mp hwhole
  obtain ⟨hheader, -⟩ := l4Offset_of_formed hformed
  have hlayout := hfields.layout hformed
  have hpos := csumPos_lt hwhole hcovered
  have hplace := csumOffset_of_covered hcovered
  have hle : l4Offset frame ≤ csumPos frame := Nat.le_add_right _ _
  have heven : (csumPos frame - l4Offset frame) % 2 = 0 := by
    rw [csumPos, Nat.add_sub_cancel_left]
    omega
  rw [l4Sum, l4Sum, zeroed_false, hlayout.l4, hlayout.coveredLength, hlayout.pseudo,
    wordSum_field hfields.length hle (csumPos_covered hcovered) hpos heven]
  · omega
  · intro offset hge hlt hhigh hlow
    apply hfields.same
    rintro (⟨-, hfield⟩ | ⟨-, hfield⟩) <;> omega

/-! What is inserted. -/

theorem complement_toNat (sum : Nat) : (complement sum).toNat = 65535 - onesFold 16 sum := by
  rw [complement, BitVec.toNat_ofNat, Nat.mod_eq_of_lt (by omega)]

/-- With its checksum a sum folds to all ones. -/
theorem onesFold_complement (sum : Nat) :
    onesFold 16 (sum + (complement sum).toNat) = 65535 := by
  rw [complement_toNat]
  exact onesFold_add_complement (by decide) sum

theorem onesFold_l4Checksum (frame : List (BitVec 8)) :
    onesFold 16 (l4Sum true frame + (l4Checksum frame).toNat) = 65535 := by
  rw [l4Checksum]
  split
  · rename_i hzero
    have hvalue := complement_toNat (l4Sum true frame)
    rw [hzero.2] at hvalue
    have hall : onesFold 16 (l4Sum true frame) = 65535 := by
      have hle := @onesFold_le 16 (by decide) (l4Sum true frame)
      have hnone : 0 = 65535 - onesFold 16 (l4Sum true frame) := hvalue
      omega
    have hpos : 0 < l4Sum true frame := by
      apply Nat.pos_of_ne_zero
      intro hnil
      rw [hnil, onesFold_zero] at hall
      cases hall
    exact (@onesFold_add_ones 16 _ hpos).trans hall
  · exact onesFold_complement _

/-- With the datagram the IPv4 header is whole. -/
theorem headerWhole_of_whole (hwhole : datagramWhole frame = true) :
    headerWhole frame = isIp4 frame := by
  obtain ⟨hformed, hend⟩ := datagramWhole_iff.mp hwhole
  have hbound := (protocolAt_le_datagramEnd hformed).2
  rw [headerWhole, hformed, decide_eq_true (by omega), Bool.and_true, Bool.and_true]

/-- Bytes behind the datagram are not in the header's sum. -/
theorem headerSum_append (hwhole : datagramWhole frame = true) (hip4 : isIp4 frame = true)
    (zero : Bool) (rest : List (BitVec 8)) :
    headerSum zero (frame ++ rest) = headerSum zero frame :=
  @grown_append frame Nat (fun frame => headerWhole frame = true) (headerSum zero)
    (fun hheader data => (headerWhole_settled hheader data).trans hheader)
    (fun hheader data => headerSum_settled hheader zero data)
    ((headerWhole_of_whole hwhole).trans hip4) rest

/-- The two fields are in the frame, and apart from each other. -/
theorem fields_of_whole (hwhole : datagramWhole frame = true) :
    l3Offset frame + 11 < frame.length ∧
      (l4Covered frame = true → csumPos frame + 1 < frame.length ∧
        l3Offset frame + 20 ≤ csumPos frame) := by
  obtain ⟨hformed, hend⟩ := datagramWhole_iff.mp hwhole
  obtain ⟨hheader, -⟩ := l4Offset_of_formed hformed
  have hbound := (protocolAt_le_datagramEnd hformed).2
  refine ⟨by omega, fun hcovered => ⟨csumPos_lt hwhole hcovered, ?_⟩⟩
  unfold csumPos
  omega

@[simp] theorem length_ipInserted (frame : List (BitVec 8)) :
    (ipInserted frame).length = frame.length := by
  unfold ipInserted
  split <;> simp

theorem byteAt_ipInserted (hwhole : datagramWhole frame = true) (offset : Nat) :
    byteAt (ipInserted frame) offset =
      if isIp4 frame ∧ offset = l3Offset frame + 10 then (ipChecksum frame).extractLsb' 8 8
      else if isIp4 frame ∧ offset = l3Offset frame + 11 then
        (ipChecksum frame).extractLsb' 0 8
      else byteAt frame offset := by
  rw [ipInserted]
  cases hip4 : isIp4 frame with
  | true =>
      rw [if_pos rfl, byteAt_putWord _ _ (fields_of_whole hwhole).1]
      simp
  | false => simp

/-- The bytes of a frame with its checksums. -/
theorem byteAt_inserted (hwhole : datagramWhole frame = true) (offset : Nat) :
    byteAt (inserted frame) offset =
      if isIp4 frame ∧ offset = l3Offset frame + 10 then (ipChecksum frame).extractLsb' 8 8
      else if isIp4 frame ∧ offset = l3Offset frame + 11 then
        (ipChecksum frame).extractLsb' 0 8
      else if l4Covered frame ∧ offset = csumPos frame then (l4Checksum frame).extractLsb' 8 8
      else if l4Covered frame ∧ offset = csumPos frame + 1 then
        (l4Checksum frame).extractLsb' 0 8
      else byteAt frame offset := by
  rw [inserted, if_pos hwhole]
  cases hcovered : l4Covered frame with
  | false => simp [byteAt_ipInserted hwhole]
  | true =>
      obtain ⟨hin, hapart⟩ := (fields_of_whole hwhole).2 hcovered
      rw [if_pos rfl, byteAt_putWord _ _ (by simpa using hin), byteAt_ipInserted hwhole]
      by_cases hhigh : offset = csumPos frame
      · rw [if_pos hhigh, if_neg (by omega), if_neg (by omega), if_pos ⟨rfl, hhigh⟩]
      · by_cases hlow : offset = csumPos frame + 1
        · rw [if_neg hhigh, if_pos hlow, if_neg (by omega), if_neg (by omega),
            if_neg (by omega), if_pos ⟨rfl, hlow⟩]
        · simp [hhigh, hlow]

@[simp] theorem length_inserted (frame : List (BitVec 8)) :
    (inserted frame).length = frame.length := by
  unfold inserted
  split
  · split <;> simp
  · rfl

theorem inserted_of_not_whole (hwhole : datagramWhole frame = false) :
    inserted frame = frame := by
  rw [inserted, hwhole, if_neg Bool.false_ne_true]

/-- Only the checksum fields change. -/
theorem fieldsOnly_inserted (hwhole : datagramWhole frame = true) :
    FieldsOnly frame (inserted frame) where
  length := length_inserted frame
  same offset hout := by
    rw [byteAt_inserted hwhole]
    unfold InField at hout
    rw [if_neg (fun hip => hout (Or.inl ⟨hip.1, Or.inl hip.2⟩)),
      if_neg (fun hip => hout (Or.inl ⟨hip.1, Or.inr hip.2⟩)),
      if_neg (fun hl4 => hout (Or.inr ⟨hl4.1, Or.inl hl4.2⟩)),
      if_neg (fun hl4 => hout (Or.inr ⟨hl4.1, Or.inr hl4.2⟩))]

theorem wordAt_ip_inserted (hwhole : datagramWhole frame = true) (hip4 : isIp4 frame = true) :
    wordAt (inserted frame) (l3Offset frame + 10) = ipChecksum frame := by
  rw [wordAt, byteAt_inserted hwhole, byteAt_inserted hwhole, if_pos ⟨hip4, rfl⟩,
    if_neg (by omega), if_pos ⟨hip4, rfl⟩]
  exact append_extract _

theorem wordAt_l4_inserted (hwhole : datagramWhole frame = true)
    (hcovered : l4Covered frame = true) :
    wordAt (inserted frame) (csumPos frame) = l4Checksum frame := by
  have hapart := ((fields_of_whole hwhole).2 hcovered).2
  rw [wordAt, byteAt_inserted hwhole, byteAt_inserted hwhole, if_neg (by omega),
    if_neg (by omega), if_pos ⟨hcovered, rfl⟩, if_neg (by omega), if_neg (by omega),
    if_neg (by omega), if_pos ⟨hcovered, rfl⟩]
  exact append_extract _

/-- The inserted header checksum verifies. -/
theorem headerSum_inserted (hwhole : datagramWhole frame = true) (hip4 : isIp4 frame = true) :
    onesFold 16 (headerSum false (inserted frame)) = 65535 := by
  rw [headerSum_field (fieldsOnly_inserted hwhole) hwhole, wordAt_ip_inserted hwhole hip4]
  exact onesFold_complement _

/-- The inserted L4 checksum verifies. -/
theorem l4Sum_inserted (hwhole : datagramWhole frame = true) (hcovered : l4Covered frame = true) :
    onesFold 16 (l4Sum false (inserted frame)) = 65535 := by
  rw [l4Sum_field (fieldsOnly_inserted hwhole) hwhole hcovered,
    wordAt_l4_inserted hwhole hcovered]
  exact onesFold_l4Checksum frame

end Fields

end EmacZero
