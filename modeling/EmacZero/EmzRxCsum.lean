/-
The Linux driver's receive checksum marking: what it takes a frame's checksum for
right on, and that the hardware has checked it.
-/
import EmacZero.EthMacRxCsum

namespace EmacZero

/-- What `emz_csum_parse` finds: the L4 header's offset, the protocol and the length of
the IP payload. -/
structure EmzParse where
  l4 : Nat
  proto : BitVec 8
  l4Len : Nat
deriving Repr, DecidableEq

/-- MF or the fragment offset, `IP_MF | IP_OFFSET` of `frag_off`. -/
def ipIsFragment (buf : List (BitVec 8)) (ip : Nat) : Bool :=
  (wordAt buf (ip + 6) &&& 0x3FFF) != 0

/-- The end of `emz_csum_parse`: the datagram is inside the frame, and TCP's or UDP's
header inside the datagram. -/
def emzL4Parse (buf : List (BitVec 8)) (l4 stop : Nat) (proto : BitVec 8) :
    Option EmzParse :=
  if stop < l4 ∨ buf.length < stop then none
  else if proto = 6 then
    if 20 ≤ stop - l4 then some ⟨l4, proto, stop - l4⟩ else none
  else if proto = 17 ∧ 8 ≤ stop - l4 then
    if 8 ≤ (wordAt buf (l4 + 4)).toNat ∧ (wordAt buf (l4 + 4)).toNat ≤ stop - l4 then
      some ⟨l4, proto, stop - l4⟩
    else none
  else none

/-- `emz_csum_parse` of a frame, `none` where it returns 0. -/
def emzCsumParse (buf : List (BitVec 8)) : Option EmzParse :=
  if buf.length < 18 then none
  else
    let tagged := wordAt buf 12 == 0x8100 || wordAt buf 12 == 0x88A8
    let l3 := if tagged then 18 else 14
    let type := if tagged then wordAt buf 16 else wordAt buf 12
    if type = 0x0800 then
      if buf.length < l3 + 20 ∨ (byteAt buf l3).extractLsb' 4 4 ≠ 4 ∨
          (byteAt buf l3).extractLsb' 0 4 ≠ 5 ∨ ipIsFragment buf l3 then none
      else
        emzL4Parse buf (l3 + 20) (l3 + (wordAt buf (l3 + 2)).toNat) (byteAt buf (l3 + 9))
    else if type = 0x86DD then
      if buf.length < l3 + 40 ∨ (byteAt buf l3).extractLsb' 4 4 ≠ 6 then none
      else
        emzL4Parse buf (l3 + 40) (l3 + 40 + (wordAt buf (l3 + 4)).toNat)
          (byteAt buf (l3 + 6))
    else none

/-- `emz_rx_csum_ok`: whether a frame is marked, and `rx_mark_skip` after it. -/
def emzRxCsumOk (rxCsumMark : Bool) (rxMarkSkip : Nat) (buf : List (BitVec 8)) :
    Bool × Nat :=
  if !rxCsumMark then (false, rxMarkSkip)
  else if rxMarkSkip ≠ 0 then (false, rxMarkSkip - 1)
  else
    match emzCsumParse buf with
    | none => (false, rxMarkSkip)
    | some found =>
        (found.proto == 6 || wordAt buf (found.l4 + 6) != 0, rxMarkSkip)

/-! The driver's parse against the datagram. -/

section Parse

variable {buf : List (BitVec 8)}

theorem word_pair {first second : BitVec 8} {offset : Nat}
    (hlong : offset + 2 ≤ buf.length) :
    (wordAt buf offset == (first ++ second : BitVec 16)) =
      ((buf.drop offset).take 2 == [first, second]) := by
  have htake : (buf.drop offset).take 2 = [byteAt buf offset, byteAt buf (offset + 1)] := by
    rw [List.drop_eq_getElem_cons (by omega), List.drop_eq_getElem_cons (by omega), byteAt,
      byteAt, List.getD_eq_getElem _ _ (by omega), List.getD_eq_getElem _ _ (by omega)]
    rfl
  rw [wordAt, append_beq, htake]

theorem tagged_eq (hlong : 18 ≤ buf.length) :
    (wordAt buf 12 == 0x8100 || wordAt buf 12 == 0x88A8) = vlanTagged buf := by
  have hctag := @word_pair buf 0x81 0x00 12 (by omega)
  have hstag := @word_pair buf 0x88 0xA8 12 (by omega)
  rw [vlanTagged, ← hctag, ← hstag]
  rfl

theorem fragmented_eq : ipIsFragment buf (l3Offset buf) = fragmented buf := by
  have hhigh : ∀ high : BitVec 8,
      (high.getLsbD 5 || high.extractLsb' 0 5 != 0) = decide (high.toNat % 64 ≠ 0) := by
    decide
  have hmask : ∀ high low : BitVec 8, ((high ++ low : BitVec 16) &&& 0x3FFF) ≠ 0 ↔
      high.toNat % 64 ≠ 0 ∨ low ≠ 0 := by
    intro high low
    have hlow := low.isLt
    have hnonzero : ∀ {w : Nat} (value : BitVec w), value ≠ 0 ↔ value.toNat ≠ 0 := by
      intro w value
      rw [ne_eq, ne_eq, ← BitVec.toNat_inj]
      simp
    rw [hnonzero, hnonzero, BitVec.toNat_and, BitVec.toNat_append]
    change (high.toNat <<< 8 ||| low.toNat) &&& (2 ^ 14 - 1) ≠ 0 ↔ _
    rw [Nat.and_two_pow_sub_one_eq_mod, ← Nat.shiftLeft_add_eq_or_of_lt hlow,
      Nat.shiftLeft_eq]
    omega
  rw [ipIsFragment, fragmented, wordAt, hhigh, Bool.eq_iff_iff, bne_iff_ne, hmask,
    Bool.or_eq_true, decide_eq_true_eq, bne_iff_ne]

/-- What the driver's parse says of a datagram. -/
structure Marks (buf : List (BitVec 8)) (found : EmzParse) : Prop where
  whole : datagramWhole buf = true
  covered : l4Covered buf = true
  l4 : l4Offset buf = found.l4
  proto : protocol buf = found.proto
  tcpOrUdp : found.proto = 6 ∨ found.proto = 17

/-- The end of the parse, for a header that the engine understands. -/
theorem marks_of_l4 {l4 stop : Nat} {found : EmzParse}
    (hparse : emzL4Parse buf l4 stop (protocol buf) = some found)
    (hl4 : l4Offset buf = l4) (hstop : datagramEnd buf = stop)
    (hip : isIp4 buf = true ∨ isIp6 buf = true)
    (hplain : isIp4 buf = true → ihlBytes buf = 20 ∧ fragmented buf = false) :
    Marks buf found := by
  unfold emzL4Parse at hparse
  split at hparse
  · simp at hparse
  · rename_i hinside
    have hlengths : headerLength buf ≤ datagramLength buf ∧
        l4Length buf = stop - l4 := by
      unfold l4Offset at hl4
      unfold datagramEnd at hstop
      unfold l4Length
      omega
    have hformed : wellFormed buf = true := by
      unfold wellFormed
      rcases hip with hip4 | hip6
      · have hle := hlengths.1
        rw [headerLength, datagramLength, isIp6_of_isIp4 hip4] at hle
        simp only [Bool.false_eq_true, if_false] at hle
        rw [(hplain hip4).1] at hle
        simp [hip4, hle, (hplain hip4).1]
      · simp [hip6]
    have hwhole : datagramWhole buf = true :=
      datagramWhole_iff.mpr ⟨hformed, by omega⟩
    have hskip : (isIp4 buf && (fragmented buf || optionsSkip 0 (ip4Options buf))) =
        false := by
      cases hip4 : isIp4 buf with
      | false => rfl
      | true =>
          obtain ⟨hihl, hfragmented⟩ := hplain hip4
          have hempty : ip4Options buf = [] := by
            rw [← List.length_eq_zero_iff, ip4Options, length_slice, l4Offset, headerLength,
              isIp6_of_isIp4 hip4]
            simp only [Bool.false_eq_true, if_false]
            omega
          rw [hfragmented, hempty]
          rfl
    have hudp : (wordAt buf (l4 + 4)).toNat = udpLength buf := by
      rw [udpLength, hl4]
    split at hparse
    · rename_i htcp
      split at hparse
      · rename_i hroom
        have hsix : csumOffset (protocol buf) = 16 := by
          rw [htcp]
          decide
        obtain rfl := Option.some.inj hparse
        refine ⟨hwhole, ?_, hl4, rfl, Or.inl htcp⟩
        have hend : csumOffset (protocol buf) + 2 ≤ l4Length buf := by
          rw [hsix, hlengths.2]
          exact le_trans (by decide) hroom
        have hcovers : protocolCovered buf = true := by
          simp [protocolCovered, htcp]
        have hother : (protocol buf != 17) = true := by
          rw [htcp]
          decide
        rw [l4Covered, hformed, hskip, hcovers, hother]
        simp [hend]
      · simp at hparse
    · split at hparse
      · rename_i hisUdp
        obtain ⟨hisUdp, hroom⟩ := hisUdp
        split at hparse
        · rename_i hrange
          rw [hudp] at hrange
          have hoffset := csumOffset_udp hisUdp
          obtain rfl := Option.some.inj hparse
          refine ⟨hwhole, ?_, hl4, rfl, Or.inr hisUdp⟩
          have hend : csumOffset (protocol buf) + 2 ≤ l4Length buf := by
            rw [hoffset, hlengths.2]
            exact hroom
          have hcovers : protocolCovered buf = true := by
            simp [protocolCovered, hisUdp]
          rw [l4Covered, hformed, hskip, hcovers]
          rw [hlengths.2] at hend ⊢
          simp [hend, hrange]
        · simp at hparse
      · simp at hparse

/-- The driver takes the headers where the engine does, up to the L4 header. -/
theorem l4Parse_of_parse {found : EmzParse} (hparse : emzCsumParse buf = some found) :
    emzL4Parse buf (l4Offset buf) (datagramEnd buf) (protocol buf) = some found ∧
      (isIp4 buf = true ∨ isIp6 buf = true) ∧
      (isIp4 buf = true → ihlBytes buf = 20 ∧ fragmented buf = false) := by
  unfold emzCsumParse at hparse
  split at hparse
  · simp at hparse
  · rename_i hlong
    rw [tagged_eq (by omega)] at hparse
    have hl3 : (if vlanTagged buf = true then 18 else 14) = l3Offset buf := rfl
    have htype : ∀ first second : BitVec 8,
        ((if vlanTagged buf = true then wordAt buf 16 else wordAt buf 12) =
          (first ++ second : BitVec 16)) ↔ etherType buf = [first, second] := by
      intro first second
      have hsixteen := @word_pair buf first second 16 (by omega)
      have htwelve := @word_pair buf first second 12 (by omega)
      rw [etherType, l3Offset]
      cases vlanTagged buf with
      | true => simpa using Bool.eq_iff_iff.mp hsixteen
      | false => simpa using Bool.eq_iff_iff.mp htwelve
    simp only [hl3] at hparse
    generalize (if vlanTagged buf = true then wordAt buf 16 else wordAt buf 12) = type
      at hparse htype
    split at hparse
    · rename_i hip
      have hether := (htype 0x08 0x00).mp hip
      split at hparse
      · simp at hparse
      · rename_i hheader
        simp only [not_or, not_lt, Bool.not_eq_true, ne_eq, Decidable.not_not] at hheader
        obtain ⟨hin, hversion, hihl, hfragment⟩ := hheader
        have hip4 : isIp4 buf = true := by
          rw [isIp4, ipVersion, hether, hversion]
          rfl
        have hip6 := isIp6_of_isIp4 hip4
        have hihlBytes : ihlBytes buf = 20 := by
          rw [ihlBytes, hihl]
          rfl
        rw [show byteAt buf (l3Offset buf + 9) = protocol buf by
          rw [protocol, hip6]; rfl] at hparse
        have hl4 : l4Offset buf = l3Offset buf + 20 := by
          rw [l4Offset, headerLength, hip6, hihlBytes]
          rfl
        have hstop : datagramEnd buf = l3Offset buf + (wordAt buf (l3Offset buf + 2)).toNat := by
          rw [datagramEnd, datagramLength, hip6]
          rfl
        rw [hl4, hstop]
        refine ⟨hparse, Or.inl hip4, fun _ => ?_⟩
        rw [← fragmented_eq]
        exact ⟨hihlBytes, hfragment⟩
    · split at hparse
      · rename_i hip
        have hether := (htype 0x86 0xDD).mp hip
        split at hparse
        · simp at hparse
        · rename_i hheader
          simp only [not_or, not_lt, ne_eq, Decidable.not_not] at hheader
          obtain ⟨hin, hversion⟩ := hheader
          have hip6 : isIp6 buf = true := by
            rw [isIp6, ipVersion, hether, hversion]
            rfl
          have hip4 : isIp4 buf ≠ true := by
            intro hip4
            rw [isIp6_of_isIp4 hip4] at hip6
            exact absurd hip6 Bool.false_ne_true
          rw [show byteAt buf (l3Offset buf + 6) = protocol buf by
            rw [protocol, hip6]; rfl] at hparse
          have hl4 : l4Offset buf = l3Offset buf + 40 := by
            rw [l4Offset, headerLength, hip6]
            rfl
          have hstop : datagramEnd buf =
              l3Offset buf + 40 + (wordAt buf (l3Offset buf + 4)).toNat := by
            rw [datagramEnd, datagramLength, hip6, if_pos rfl, payloadLength, Nat.add_assoc]
          rw [hl4, hstop]
          exact ⟨hparse, Or.inr hip6, fun hset => absurd hset hip4⟩
      · simp at hparse

/-- Whatever the driver finds is whole and covered, and it finds it where the engine
does. -/
theorem marks_of_parse {found : EmzParse} (hparse : emzCsumParse buf = some found) :
    Marks buf found := by
  obtain ⟨hl4, hip, hplain⟩ := l4Parse_of_parse hparse
  exact marks_of_l4 hl4 rfl rfl hip hplain

/-- What the driver takes for the L4 length is the datagram's. -/
theorem l4Len_of_parse {found : EmzParse} (hparse : emzCsumParse buf = some found) :
    found.l4Len = l4Length buf := by
  have hl4 := (l4Parse_of_parse hparse).1
  have hfound : found = ⟨l4Offset buf, protocol buf, datagramEnd buf - l4Offset buf⟩ := by
    unfold emzL4Parse at hl4
    split_ifs at hl4
    · exact (Option.some.inj hl4).symm
    · exact (Option.some.inj hl4).symm
  rw [hfound, l4Length, datagramEnd, l4Offset, Nat.add_sub_add_left]

end Parse

/-! The hardware on a frame that the driver would mark. -/

/-- The engine has called the datagram of a frame of this many bytes right in form, found
its L4 header where the driver did, and the receiver counts the datagram as whole. -/
structure Vouched (engine : CsumCalc) (length : Nat) (found : EmzParse) : Prop where
  done : engine.done = true
  l4Ok : engine.l4Ok = true
  hdrEnd : engine.hdrEnd.toNat = found.l4
  whole : ∀ {params : EthMacRxParams} {rx : EthMacRx params}, rx.csum = engine →
    rx.byteCnt.toNat = length → rx.whole = true

theorem CsumBench.vouched_along {buf fcs : List (BitVec 8)} {found : EmzParse}
    (hparse : emzCsumParse buf = some found) (hfcs : fcs.length = 4) (zero : Bool)
    {events : List CsumEvent} (hlegal : Along step (Legal 2) (start zero) events)
    (hframe : (runFrom step (start zero) events).frame = buf ++ fcs) :
    Vouched (runFrom step (start zero) events).engine (buf ++ fcs).length found := by
  obtain ⟨hflow, hresults, -⟩ := known_along (by decide) zero hlegal
  generalize runFrom step (start zero) events = bench at hflow hresults hframe ⊢
  have hmarks := marks_of_parse hparse
  have hprefix := (hflow.trails3.isPrefix.trans hflow.trails2.isPrefix).trans
    hflow.trails1.isPrefix
  have hshort1 := length_le_of_trails hflow.trails1
  have hshort2 := length_le_of_trails hflow.trails2
  have hshort3 := length_le_of_trails hflow.trails3
  rw [hframe] at hprefix hshort1
  rw [List.length_append, hfcs] at hshort1
  -- the last stage is at most three bytes behind, and so has seen the datagram
  obtain ⟨rest, hrest⟩ := List.prefix_of_prefix_length_le (List.prefix_append buf fcs) hprefix
    (by omega)
  have hwhole := datagramWhole_append hmarks.whole rest
  have hcovered := settled_append l4Covered_settled hmarks.whole rest
  have hend := settled_append datagramEnd_settled hmarks.whole rest
  have hl4 := (layout_append (open_of_whole hmarks.whole) rest).2.1
  rw [hrest] at hwhole hcovered hend hl4
  obtain ⟨hl3End, hhdrEnd, -⟩ := whole_live hflow hwhole
  have hended := ended_of_whole hwhole
  constructor
  · rw [hresults.done (Or.inr hended), hwhole]
  · rw [hresults.l4Ok (Or.inr hended), hwhole, hcovered, hmarks.covered]
    rfl
  · rw [hhdrEnd, hl4, hmarks.l4]
  · intro params rx hcsum hbyteCnt
    have hin := (datagramWhole_iff.mp hmarks.whole).2
    rw [EthMacRx.whole_eq hbyteCnt, hcsum, hl3End, hend, List.length_append, hfcs,
      decide_eq_true (by omega)]

/-- A frame is marked after a parse, and with a UDP checksum only where that is sent. -/
theorem parse_of_marked {rxCsumMark : Bool} {rxMarkSkip : Nat} {buf : List (BitVec 8)}
    (hmark : (emzRxCsumOk rxCsumMark rxMarkSkip buf).1 = true) :
    ∃ found, emzCsumParse buf = some found ∧
      (found.proto = 6 ∨ wordAt buf (found.l4 + 6) ≠ 0) := by
  unfold emzRxCsumOk at hmark
  split at hmark
  · simp at hmark
  · split at hmark
    · simp at hmark
    · cases hfound : emzCsumParse buf with
      | none => simp [hfound] at hmark
      | some found =>
          refine ⟨found, rfl, ?_⟩
          simpa [hfound] using hmark

theorem map_data_axisFrame (data : List (BitVec 8)) (err : Bool) :
    (axisFrame data err).map (·.data) = data := by
  apply List.ext_getElem
  · simp [axisFrame]
  · intro index hleft hright
    simp [axisFrame]

namespace MacRxBench

variable {params : EthMacRxParams}

theorem marked_run (haddr : 2 ≤ params.axisFifoAddrWidth)
    (hoffload : params.rxCsumOffload = true)
    (mem : BitVec params.axisFifoAddrWidth → MacWord) (doutR : MacWord)
    (cycles : List EthMacRxIn) {envelope : RxEnvelope}
    (hclosed : envelope ∈ (runFrom step (start mem doutR) cycles).closed)
    (hcheckOn : checkOn envelope.beats = true)
    (hflags : ∀ word ∈ envelopeWords params envelope, word.err = false)
    {buf : List (BitVec 8)} (hbuf : buf = (envelopeWords params envelope).map (·.data))
    (hlength : buf.length ≤ 1536) {rxCsumMark : Bool} {rxMarkSkip : Nat}
    (hmark : (emzRxCsumOk rxCsumMark rxMarkSkip buf).1 = true) :
    (protocol buf = 6 ∨ protocol buf = 17) ∧
      onesFold 16 (EmacZero.l4Sum false buf) = 65535 := by
  obtain ⟨found, hparse, hfield⟩ := parse_of_marked hmark
  have hmarks := marks_of_parse hparse
  have hchecked := checked_run haddr mem doutR cycles
  obtain ⟨frame, hframe, hstarted⟩ : ∃ frame, payload envelope.beats = some frame ∧
      started params frame = true := by
    by_contra hnone
    push Not at hnone
    have hempty : envelopeWords params envelope = [] := by
      unfold envelopeWords
      cases hframe : payload envelope.beats with
      | none => rfl
      | some frame => simp [hnone frame hframe]
    rw [hbuf, hempty] at hparse
    simp [emzCsumParse] at hparse
  have herr : frameErr params envelope frame = false := by
    have hlast := hflags (closing params envelope frame)
    simp only [envelopeWords, hframe, hstarted, if_true, List.mem_append, List.mem_singleton,
      or_true, true_implies] at hlast
    exact hlast
  simp only [frameErr, Bool.or_eq_false_iff] at herr
  obtain ⟨⟨⟨⟨⟨_, _⟩, hmissed⟩, _⟩, _⟩, hcsumBad⟩ := herr
  rw [envelopeWords_of_started hframe hstarted hmissed, map_data_axisFrame] at hbuf
  have hsplit : bytes frame = buf ++ (bytes frame).drop (frame.length - 4) := by
    rw [hbuf, List.take_append_drop]
  have hfits : checkedBytes frame = buf ++ (bytes frame).drop (frame.length - 4) := by
    rw [checkedBytes, ← hsplit, List.take_of_length_le]
    rw [hbuf, List.length_take, length_bytes] at hlength
    rw [length_bytes]
    omega
  obtain ⟨hwhole, hcovered⟩ := And.intro hmarks.whole hmarks.covered
  have hlast : ((bytes frame).drop (frame.length - 4)).length = 4 := by
    have hlong := (datagramWhole_iff.mp hwhole).2
    have hpos : 0 < buf.length := Nat.zero_lt_of_lt (open_of_whole hwhole)
    rw [hbuf, List.length_take, length_bytes] at hpos
    rw [List.length_drop, length_bytes]
    omega
  generalize (bytes frame).drop (frame.length - 4) = fcs at hfits hlast
  have hnow := datagramWhole_append hwhole fcs
  have hcover := settled_append l4Covered_settled hwhole fcs
  have hproto := settled_append protocol_settled hwhole fcs
  have hend := settled_append datagramEnd_settled hwhole fcs
  obtain ⟨hsum, hword⟩ := covered_append hwhole hcovered false fcs
  have hafter : datagramEnd buf + 4 ≤ (buf ++ fcs).length := by
    rw [List.length_append, hlast]
    exact Nat.add_le_add_right (datagramWhole_iff.mp hwhole).2 4
  have hjudged := hchecked.judged envelope hclosed frame hframe
  rw [hfits, hend] at hjudged
  have hverdict := hjudged (ended_of_whole hnow) hafter
  rw [hcsumBad, hoffload, hcheckOn, l4Verdict, hnow, hcover, hproto, hend, hword, hsum,
    hcovered, decide_eq_true hafter] at hverdict
  have hsent : (protocol buf == 17 && wordAt buf (csumPos buf) == 0) = false := by
    rcases hfield with htcp | hnonzero
    · rw [hmarks.proto, htcp]
      rfl
    · cases hudp : protocol buf == 17 with
      | false => rfl
      | true =>
          rw [csumPos, csumOffset_udp (beq_iff_eq.mp hudp), hmarks.l4,
            beq_false_of_ne hnonzero]
          rfl
  rw [hmarks.proto]
  refine ⟨hmarks.tcpOrUdp, ?_⟩
  rw [hsent] at hverdict
  simp only [Bool.not_false, Bool.and_true, Bool.true_and, Bool.false_eq,
    Bool.or_eq_false_iff, bne_eq_false_iff_eq] at hverdict
  exact hverdict.2

/-- What the driver's parse takes, the engine takes; and so a marked frame's checksum is
right. -/
theorem marking_run (haddr : 2 ≤ params.axisFifoAddrWidth)
    (hoffload : params.rxCsumOffload = true)
    (mem : BitVec params.axisFifoAddrWidth → MacWord) (doutR : MacWord)
    (cycles : List EthMacRxIn) :
    (∀ buf fcs found, emzCsumParse buf = some found → fcs.length = 4 →
      ∀ zero events,
        Along CsumBench.step (CsumBench.Legal 2) (CsumBench.start zero) events →
        (runFrom CsumBench.step (CsumBench.start zero) events).frame = buf ++ fcs →
        Vouched (runFrom CsumBench.step (CsumBench.start zero) events).engine
          (buf ++ fcs).length found) ∧
      ∀ envelope ∈ (runFrom step (start mem doutR) cycles).closed,
        checkOn envelope.beats = true →
        (∀ word ∈ envelopeWords params envelope, word.err = false) →
        ∀ buf rxCsumMark rxMarkSkip, buf = (envelopeWords params envelope).map (·.data) →
          buf.length ≤ 1536 → (emzRxCsumOk rxCsumMark rxMarkSkip buf).1 = true →
          (protocol buf = 6 ∨ protocol buf = 17) ∧
            onesFold 16 (EmacZero.l4Sum false buf) = 65535 := by
  constructor
  · intro buf fcs found hparse hfcs zero events hlegal hframe
    exact CsumBench.vouched_along hparse hfcs zero hlegal hframe
  · intro envelope hclosed hcheckOn hflags buf rxCsumMark rxMarkSkip hbuf hlength hmark
    exact marked_run haddr hoffload mem doutR cycles hclosed hcheckOn hflags hbuf hlength
      hmark

/-- A UDP datagram of four bytes, broadcast and padded. -/
def paddedDatagram : List (BitVec 8) :=
  List.replicate 6 0xFF ++ [0x02, 0, 0, 0, 0, 0x01, 0x08, 0x00] ++
    [0x45, 0, 0, 32, 0, 0, 0, 0, 64, 17, 0x66, 0xCB, 10, 0, 0, 1, 10, 0, 0, 2] ++
    [0, 7, 0, 7, 0, 12, 0xE7, 0xBF, 1, 2, 3, 4] ++ List.replicate 14 0xA5

theorem marking_run_padded :
    let params : EthMacRxParams := ⟨false, 7, 1518, 9018, true, by decide, by decide⟩
    let wire := paddedDatagram ++ fcsOf paddedDatagram
    let bench : MacRxBench params :=
      runFrom step (start (fun _ => plainWord 0) (plainWord 0))
        ((0x55 :: 0xD5 :: wire).map (fun data => { wirePins true data with rxCsumEn := true }) ++
          [quietPins true, quietPins true])
    Vouched (runFrom CsumBench.step (CsumBench.start false)
        (.first 0xFF :: wire.tail.map .next)).engine 64 ⟨34, 17, 12⟩ ∧
      ∃ envelope ∈ bench.closed,
        (emzRxCsumOk true 0 ((envelopeWords params envelope).map (·.data))).1 = true ∧
          onesFold 16 (EmacZero.l4Sum false
            ((envelopeWords params envelope).map (·.data))) = 65535 := by
  intro params wire bench
  obtain ⟨hvouched, hmarked⟩ := @marking_run params (by decide) rfl
    (fun _ => plainWord 0) (plainWord 0)
    ((0x55 :: 0xD5 :: wire).map (fun data => { wirePins true data with rxCsumEn := true }) ++
      [quietPins true, quietPins true])
  have hone : ∃ envelope ∈ bench.closed, checkOn envelope.beats = true ∧
      (∀ word ∈ envelopeWords params envelope, word.err = false) ∧
      (envelopeWords params envelope).length ≤ 1536 ∧
      (emzRxCsumOk true 0 ((envelopeWords params envelope).map (·.data))).1 = true := by
    decide +kernel
  obtain ⟨envelope, hclosed, hcheckOn, hflags, hlength, hmark⟩ := hone
  constructor
  · exact hvouched paddedDatagram (fcsOf paddedDatagram) _ (by decide +kernel) (by decide)
      false _ (by decide +kernel) (by decide +kernel)
  · exact ⟨envelope, hclosed, hmark, (hmarked envelope hclosed hcheckOn hflags _ true 0 rfl
      (by simpa using hlength) hmark).2⟩

end MacRxBench

end EmacZero
