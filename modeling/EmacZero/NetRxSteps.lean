/-
What one beat does to the parser of `net_rx`.
-/
import EmacZero.NetRxParse

namespace EmacZero

open NetFrame NetBeats NetMessage

namespace NetRx

variable {rx : NetRx} {i : NetRxIn}

/-- The parser behind a beat that does not end the frame, before the verdict. -/
def afterBeat (rx : NetRx) (i : NetRxIn) : NetRx := rx.parse i (rx.count i rx.release)

theorem release_of_not_fin (hfin : rx.fin = false) :
    rx.release = { rx with
      arpValid := false
      arpLast := false
      icmpValid := false
      icmpLast := false
      icmpErr := false
      udpValid := false
      udpLast := false
      udpErr := false } := by
  rw [release, hfin]
  rfl

theorem release_keeps (rx : NetRx) :
    rx.release.state = rx.state ∧ rx.release.byteCnt = rx.byteCnt ∧
      rx.release.hdrChk = rx.hdrChk ∧ rx.release.ipHdrBytes = rx.ipHdrBytes ∧
      rx.release.terrSeen = rx.terrSeen ∧ rx.release.fin = false := by
  rw [release]
  split
  · split
    · split <;> exact ⟨rfl, rfl, rfl, rfl, rfl, rfl⟩
    · exact ⟨rfl, rfl, rfl, rfl, rfl, rfl⟩
  · rename_i hfin
    exact ⟨rfl, rfl, rfl, rfl, rfl, Bool.eq_false_iff.mpr hfin⟩

/-- The parser's states do not touch what concerns the frame as a whole. -/
theorem parse_keeps (rx : NetRx) (i : NetRxIn) (next : NetRx) :
    (rx.parse i next).terrSeen = next.terrSeen ∧ (rx.parse i next).fin = next.fin := by
  cases hstate : rx.state with
  | ethDst | ethSrc | arpPayload | udpHdr | drop =>
      rw [parse, hstate]
      exact ⟨rfl, rfl⟩
  | ethType =>
      rw [parse, hstate]
      dsimp only
      split <;> exact ⟨rfl, rfl⟩
  | ipHdr =>
      rw [parse, hstate]
      simp only [headerEnd, headerByte]
      split_ifs <;> exact ⟨rfl, rfl⟩
  | icmpData | udpData =>
      rw [parse, hstate]
      simp only [hold]
      split_ifs <;> exact ⟨rfl, rfl⟩

/-- Outside a payload only the byte held from the frame before comes out. -/
theorem outs_afterBeat (hquiet : rx.inPayload = false) :
    (rx.afterBeat i).outs = rx.release.outs := by
  rw [afterBeat, count, hquiet, Bool.false_and, if_neg Bool.false_ne_true]
  cases hstate : rx.state with
  | ethDst | ethSrc | arpPayload | drop =>
      rw [parse, hstate]
      rfl
  | ethType =>
      rw [parse, hstate]
      dsimp only
      split <;> rfl
  | ipHdr =>
      rw [parse, hstate]
      simp only [headerEnd, headerByte]
      split_ifs <;> rfl
  | icmpData | udpHdr | udpData =>
      rw [inPayload, hstate] at hquiet
      exact absurd hquiet (by decide)

theorem afterBeat_keeps (rx : NetRx) (i : NetRxIn) :
    (rx.afterBeat i).terrSeen = (rx.terrSeen || i.terror) ∧ (rx.afterBeat i).fin = false := by
  obtain ⟨-, -, -, -, hterr, hfin⟩ := release_keeps rx
  obtain ⟨hseen, hends⟩ := parse_keeps rx i (rx.count i rx.release)
  rw [afterBeat, hseen, hends, count]
  split <;> exact ⟨by rw [← hterr], hfin⟩

theorem toNat_count_add_one {count : BitVec 14} (hlt : count.toNat < 16383) :
    (count + 1).toNat = count.toNat + 1 := by
  change (count.toNat + 1) % 2 ^ 14 = _
  exact Nat.mod_eq_of_lt (by omega)

end NetRx

open NetRx

variable {rx : NetRx} {beats : List NetRxIn} {shown : List NetRxOut} {i : NetRxIn}

theorem length_concat (beats : List NetRxIn) (i : NetRxIn) :
    (beats ++ [i]).length = beats.length + 1 := List.length_append

/-- A beat outside a payload leaves no verdict due. -/
theorem judged_of_quiet {next : NetRx} (hquiet : next.inPayload = false)
    (hchk : next.hdrChk = false) (beats : List NetRxIn) : Judged next beats := by
  rw [Judged, hquiet]
  exact hchk

theorem parsed_ethDst (hlength : beats.length < 6) (hstate : rx.state = .ethDst)
    (hcount : rx.byteCnt.toNat = beats.length) :
    Parses (rx.afterBeat i) (beats ++ [i]) [] := by
  have hafter : (rx.afterBeat i).byteCnt = (if rx.byteCnt = 5 then 0 else rx.byteCnt + 1) ∧
      (rx.afterBeat i).state = (if rx.byteCnt = 5 then .ethSrc else .ethDst) := by
    simp [afterBeat, count, inPayload, parse, hstate]
  obtain ⟨hcnt, hnext⟩ := hafter
  have hlonger := length_concat beats i
  by_cases hlast : rx.byteCnt = 5
  · rw [if_pos hlast] at hcnt hnext
    rw [hlast] at hcount
    have hfive : 5 = beats.length := hcount
    exact .ethSrc (by omega) hnext (by rw [hcnt, hlonger, ← hfive]; rfl) rfl
  · rw [if_neg hlast] at hcnt hnext
    have hfive : rx.byteCnt.toNat ≠ 5 := fun heq => hlast (BitVec.eq_of_toNat_eq heq)
    exact .ethDst (by omega) hnext
      (by rw [hcnt, hlonger, toNat_count_add_one (by omega), hcount]) rfl

theorem parsed_ethSrc (hlength : beats.length < 12)
    (hstate : rx.state = .ethSrc) (hcount : rx.byteCnt.toNat + 6 = beats.length) :
    Parses (rx.afterBeat i) (beats ++ [i]) [] := by
  have hafter : (rx.afterBeat i).byteCnt = (if rx.byteCnt = 5 then 0 else rx.byteCnt + 1) ∧
      (rx.afterBeat i).state = (if rx.byteCnt = 5 then .ethType else .ethSrc) := by
    simp [afterBeat, count, inPayload, parse, hstate]
  obtain ⟨hcnt, hnext⟩ := hafter
  have hlonger := length_concat beats i
  by_cases hlast : rx.byteCnt = 5
  · rw [if_pos hlast] at hcnt hnext
    rw [hlast] at hcount
    have hfive : 5 + 6 = beats.length := hcount
    refine .ethType (by omega) hnext (by rw [hcnt, hlonger, ← hfive]; rfl) ?_ rfl
    intro hlt
    rw [length_bytes] at hlt
    omega
  · rw [if_neg hlast] at hcnt hnext
    have hfive : rx.byteCnt.toNat ≠ 5 := fun heq => hlast (BitVec.eq_of_toNat_eq heq)
    refine .ethSrc (by omega) hnext ?_ rfl
    rw [hcnt, hlonger, toNat_count_add_one (by omega)]
    omega

theorem parsed_ethType (hlength : beats.length < 14)
    (hstate : rx.state = .ethType) (hcount : rx.byteCnt.toNat + 12 = beats.length)
    (htype : Taken (bytes beats) 12 (rx.ethertype.extractLsb' 8 8)) :
    Parses (rx.afterBeat i) (beats ++ [i]) [] := by
  have hlonger := length_concat beats i
  have hbytes := length_bytes beats
  by_cases hfirst : rx.byteCnt = 0
  · have hafter : (rx.afterBeat i).byteCnt = 1 ∧ (rx.afterBeat i).state = .ethType ∧
        (rx.afterBeat i).ethertype = i.tdata ++ rx.ethertype.extractLsb' 0 8 := by
      simp [afterBeat, count, inPayload, parse, hstate, hfirst, (release_keeps rx).1]
    obtain ⟨hcnt, hnext, heth⟩ := hafter
    rw [hfirst] at hcount
    have hzero : 0 + 12 = beats.length := hcount
    refine .ethType (by omega) hnext (by rw [hcnt, hlonger, ← hzero]; rfl) ?_ rfl
    intro _
    rw [heth, BitVec.extractLsb'_append_eq_left, bytes_concat, byteAt_concat,
      if_pos (by omega)]
  · have hafter : (rx.afterBeat i).byteCnt = 0 ∧
        (rx.afterBeat i).state =
          (if rx.ethertype.extractLsb' 8 8 ++ i.tdata = (0x0806 : BitVec 16) then .arpPayload
            else if rx.ethertype.extractLsb' 8 8 ++ i.tdata = (0x0800 : BitVec 16) then .ipHdr
            else .drop) ∧
        (rx.afterBeat i).hdrSum = 0 ∧ (rx.afterBeat i).plSum = 0 ∧
        (rx.afterBeat i).plOdd = false ∧ (rx.afterBeat i).holdV = false := by
      simp only [afterBeat, parse, hstate, if_neg hfirst]
      simp
    obtain ⟨hcnt, hnext, hsum, hpl, hodd, hhold⟩ := hafter
    have hne : rx.byteCnt.toNat ≠ 0 := fun heq => hfirst (BitVec.eq_of_toNat_eq heq)
    have hword : rx.ethertype.extractLsb' 8 8 ++ i.tdata =
        wordAt (bytes (beats ++ [i])) 12 := by
      rw [wordAt, bytes_concat, byteAt_concat, byteAt_concat, if_neg (by omega),
        if_pos (by omega), htype (by omega)]
    rw [hword] at hnext
    by_cases hip : wordAt (bytes (beats ++ [i])) 12 = 0x0800
    · rw [hip, if_neg (by decide), if_pos rfl] at hnext
      have hlength' : (bytes (beats ++ [i])).length = 14 := by
        rw [length_bytes, hlonger]
        omega
      have hcome : ∀ {place : Nat} {field : BitVec 8}, 14 ≤ place →
          Taken (bytes (beats ++ [i])) place field := by
        intro place field hplace hlt
        omega
      refine .header ?_ rfl
      exact
        { state := hnext
          type := hip
          byteCnt := by rw [hcnt, hlength']; rfl
          begun := fun hlt => by omega
          hdrSum := by rw [hsum, List.drop_of_length_le hlength'.le]; rfl
          clear := ⟨hpl, hodd, hhold⟩
          totHi := hcome (by decide)
          totLo := hcome (by decide)
          proto := hcome (by decide)
          dst3 := hcome (by decide)
          dst2 := hcome (by decide)
          dst1 := hcome (by decide) }
    · have hstate' : (rx.afterBeat i).state = .drop ∨ (rx.afterBeat i).state = .arpPayload := by
        rw [hnext, if_neg hip]
        split
        · exact Or.inr rfl
        · exact Or.inl rfl
      exact .refused hstate' (refused_type (by omega) hip) rfl

/-- Outside the IPv4 header and the payload no verdict comes up. -/
theorem afterBeat_quiet (hheader : rx.state ≠ .ipHdr) (hquiet : rx.inPayload = false) :
    (rx.afterBeat i).inPayload = false ∧ (rx.afterBeat i).hdrChk = rx.hdrChk ∧
      (rx.afterBeat i).ipHdrBytes = rx.ipHdrBytes := by
  obtain ⟨hsame, -, hchk, hbytes, -⟩ := release_keeps rx
  rw [afterBeat, count, hquiet, Bool.false_and, if_neg Bool.false_ne_true]
  cases hstate : rx.state with
  | ethDst | ethSrc =>
      simp only [parse, hstate, inPayload]
      split <;> exact ⟨rfl, hchk, hbytes⟩
  | ethType =>
      simp only [parse, hstate]
      split
      · refine ⟨?_, hchk, hbytes⟩
        simp only [inPayload, hsame, hstate]
        rfl
      · refine ⟨?_, hchk, hbytes⟩
        simp only [inPayload]
        split
        · rfl
        · split <;> rfl
  | arpPayload | drop =>
      simp only [parse, hstate]
      refine ⟨?_, hchk, hbytes⟩
      simp only [inPayload, hsame, hstate]
      rfl
  | ipHdr => exact absurd hstate hheader
  | icmpData | udpHdr | udpData =>
      rw [inPayload, hstate] at hquiet
      exact absurd hquiet (by decide)

/-! The IPv4 header. -/

theorem toNat_wordOf : ∀ (low : Bool) (data : BitVec 8),
    (wordOf low data).toNat = if low then data.toNat else 256 * data.toNat := by
  decide

theorem toNat_shift_ihl : ∀ ihl : BitVec 4, (ihl.setWidth 14 <<< 2).toNat = 4 * ihl.toNat := by
  decide

/-- A running sum with one more byte. -/
theorem toNat_add_wordOf {sum : BitVec 32} {summed : List (BitVec 8)} {low : Bool}
    (hsum : sum.toNat = wordSum summed) (hlow : low = (summed.length % 2 == 1))
    (hlength : summed.length < 65536) (data : BitVec 8) :
    (sum + wordOf low data).toNat = wordSum (summed ++ [data]) := by
  have hle := wordSum_le summed
  have hweight := byteWeight_le summed.length data
  have hbyte : (wordOf low data).toNat = byteWeight summed.length data := by
    rw [toNat_wordOf, hlow, byteWeight]
    rcases Nat.mod_two_eq_zero_or_one summed.length with heven | hodd
    · rw [heven]
      rfl
    · rw [hodd]
      rfl
  rw [wordSum_concat, BitVec.toNat_add, hsum, hbyte]
  exact Nat.mod_eq_of_lt (by omega)

section Header

variable {bytes : List (BitVec 8)}

theorem hdrSum_step (hcount : rx.byteCnt.toNat + 14 = bytes.length)
    (hsum : rx.hdrSum.toNat = wordSum (bytes.drop 14)) :
    (rx.hdrSumNow i).toNat = wordSum ((bytes ++ [i.tdata]).drop 14) := by
  have hlt := rx.byteCnt.isLt
  have hlength : (bytes.drop 14).length = rx.byteCnt.toNat := by
    rw [List.length_drop]
    omega
  have hlow : rx.byteCnt.getLsbD 0 = ((bytes.drop 14).length % 2 == 1) := by
    rw [hlength, BitVec.getLsbD, Nat.testBit_zero]
    rfl
  rw [List.drop_append_of_le_length (by omega)]
  exact toNat_add_wordOf hsum hlow (by omega) i.tdata

/-! The bytes of an address. -/

theorem extract_first (first second third last : BitVec 8) :
    (first ++ second ++ third ++ last).extractLsb' 24 8 = first := by
  rw [BitVec.extractLsb'_append_eq_of_le (by decide),
    BitVec.extractLsb'_append_eq_of_le (by decide)]
  exact BitVec.extractLsb'_append_eq_left

theorem extract_second (first second third last : BitVec 8) :
    (first ++ second ++ third ++ last).extractLsb' 16 8 = second := by
  rw [BitVec.extractLsb'_append_eq_of_le (by decide),
    BitVec.extractLsb'_append_eq_of_le (by decide)]
  exact BitVec.extractLsb'_append_eq_right

theorem extract_third (first second third last : BitVec 8) :
    (first ++ second ++ third ++ last).extractLsb' 8 8 = third := by
  rw [BitVec.extractLsb'_append_eq_of_le (by decide)]
  exact BitVec.extractLsb'_append_eq_right

theorem extract_three (address : BitVec 32) :
    address.extractLsb' 8 24 =
      address.extractLsb' 24 8 ++ address.extractLsb' 16 8 ++ address.extractLsb' 8 8 := by
  have hfirst : address.extractLsb' 24 8 ++ address.extractLsb' 16 8 =
      address.extractLsb' 16 16 :=
    BitVec.extractLsb'_append_extractLsb'_eq_extractLsb' rfl
  have hall : address.extractLsb' 16 16 ++ address.extractLsb' 8 8 =
      address.extractLsb' 8 24 :=
    BitVec.extractLsb'_append_extractLsb'_eq_extractLsb' rfl
  rw [hfirst, hall]

/-- The header registers with one more byte. -/
theorem InHeader.byte (hin : InHeader rx bytes) {next : NetRx} (hstate : next.state = .ipHdr)
    (hcnt : next.byteCnt = rx.byteCnt + 1) (hsum : next.hdrSum = rx.hdrSumNow i)
    (htot : next.ipTotLen =
      fieldAt rx.byteCnt 2 i.tdata (rx.ipTotLen.extractLsb' 8 8) ++
        fieldAt rx.byteCnt 3 i.tdata (rx.ipTotLen.extractLsb' 0 8))
    (hproto : next.ipProtocol = fieldAt rx.byteCnt 9 i.tdata rx.ipProtocol)
    (hdst : next.dstIpBuf =
      fieldAt rx.byteCnt 16 i.tdata (rx.dstIpBuf.extractLsb' 24 8) ++
        fieldAt rx.byteCnt 17 i.tdata (rx.dstIpBuf.extractLsb' 16 8) ++
        fieldAt rx.byteCnt 18 i.tdata (rx.dstIpBuf.extractLsb' 8 8) ++
        fieldAt rx.byteCnt 19 i.tdata (rx.dstIpBuf.extractLsb' 0 8))
    (hclear : next.plSum = 0 ∧ next.plOdd = false ∧ next.holdV = false)
    (hbegun : versionOk (bytes ++ [i.tdata]) = true ∧
      next.ipHdrBytes.toNat = ihl (bytes ++ [i.tdata]) ∧
        bytes.length + 1 < hdrEnd (bytes ++ [i.tdata])) :
    InHeader next (bytes ++ [i.tdata]) where
  state := hstate
  type := by
    have hcount := hin.byteCnt
    rw [wordAt_append (by omega)]
    exact hin.type
  byteCnt := by
    have hcount := hin.byteCnt
    have hmax := hdrEnd_le (bytes ++ [i.tdata])
    rw [hcnt, toNat_count_add_one (by omega), List.length_append, ← hcount]
    rfl
  begun := by
    intro _
    rw [List.length_append]
    exact hbegun
  hdrSum := by rw [hsum]; exact hdrSum_step hin.byteCnt hin.hdrSum
  clear := hclear
  totHi := by
    rw [htot, BitVec.extractLsb'_append_eq_left]
    exact hin.totHi.step hin.byteCnt rfl
  totLo := by
    rw [htot, BitVec.extractLsb'_append_eq_right]
    exact hin.totLo.step hin.byteCnt rfl
  proto := by
    rw [hproto]
    exact hin.proto.step hin.byteCnt rfl
  dst3 := by
    rw [hdst, extract_first]
    exact hin.dst3.step hin.byteCnt rfl
  dst2 := by
    rw [hdst, extract_second]
    exact hin.dst2.step hin.byteCnt rfl
  dst1 := by
    rw [hdst, extract_third]
    exact hin.dst1.step hin.byteCnt rfl

end Header

/-- The parts of a header beat that its place does not change. -/
theorem base_header (hfin : rx.fin = false) (hstate : rx.state = .ipHdr) :
    (rx.count i rx.release).state = .ipHdr ∧ (rx.count i rx.release).plSum = rx.plSum ∧
      (rx.count i rx.release).plOdd = rx.plOdd ∧
      (rx.count i rx.release).holdV = rx.holdV ∧
      (rx.count i rx.release).hdrChk = rx.hdrChk ∧
      (rx.count i rx.release).ipHdrBytes = rx.ipHdrBytes := by
  simp [release_of_not_fin hfin, count, inPayload, hstate]

theorem afterBeat_header (hstate : rx.state = .ipHdr) :
    rx.afterBeat i = rx.headerEnd i (rx.headerByte i (rx.count i rx.release)) := by
  rw [afterBeat, parse, hstate]

theorem versionOk_first {bytes : List (BitVec 8)} (hlength : bytes.length = 14)
    (data : BitVec 8) :
    versionOk (bytes ++ [data]) = true ↔
      ¬(data.extractLsb' 4 4 ≠ 4 ∨ data.extractLsb' 0 4 < 5) := by
  have hdata : byteAt (bytes ++ [data]) 14 = data := by
    rw [byteAt_concat, if_pos hlength.symm]
  rw [versionOk, ihl, hdata, Bool.and_eq_true, beq_iff_eq, decide_eq_true_iff, not_or,
    not_not, BitVec.lt_def]
  change _ ∧ _ ↔ _ ∧ ¬_ < 5
  exact and_congr_right fun _ => by omega

/-- The first header byte. -/
theorem parsed_header_first (hfin : rx.fin = false) (hin : InHeader rx (bytes beats))
    (hfirst : beats.length = 14) (hbytes : rx.ipHdrBytes ≠ 1) (hchk : rx.hdrChk = false) :
    Parses (rx.afterBeat i) (beats ++ [i]) [] ∧
      (rx.afterBeat i).hdrChk = false ∧ (rx.afterBeat i).inPayload = false ∧
      (rx.afterBeat i).ipHdrBytes ≠ 1 := by
  have hlength : (bytes beats).length = 14 := (length_bytes beats).trans hfirst
  have hcnt : rx.byteCnt = 0 := by
    have hcount := hin.byteCnt
    apply BitVec.eq_of_toNat_eq
    change _ = 0
    omega
  have hgo : rx.byteCnt ≠ rx.ipHdrBytes - 1 := by
    rw [hcnt]
    bv_omega
  obtain ⟨hstate, hplSum, hplOdd, hholdV, hhdrChk, hhdr⟩ :=
    @base_header rx i hfin hin.state
  have hversion := versionOk_first hlength i.tdata
  have hafter : rx.afterBeat i = rx.headerByte i (rx.count i rx.release) := by
    rw [afterBeat_header hin.state, headerEnd, if_neg hgo]
  rw [hafter]
  by_cases hbad : i.tdata.extractLsb' 4 4 ≠ 4 ∨ i.tdata.extractLsb' 0 4 < 5
  · have hno : versionOk (bytes (beats ++ [i])) = false := by
      rw [bytes_concat]
      exact Bool.eq_false_iff.mpr fun hok => hversion.mp hok hbad
    have hlonger := length_concat beats i
    simp only [headerByte, if_pos hcnt, if_pos hbad]
    refine ⟨.refused (Or.inl rfl) (refused_version (by omega) hno) rfl, ?_, rfl, ?_⟩
    · exact hhdrChk.trans hchk
    · rwa [hhdr]
  · have hok : versionOk (bytes beats ++ [i.tdata]) = true := hversion.mpr hbad
    have hdata : byteAt (bytes beats ++ [i.tdata]) 14 = i.tdata := by
      rw [byteAt_concat, if_pos hlength.symm]
    have hihl : ((i.tdata.extractLsb' 0 4).setWidth 14 <<< 2).toNat =
        ihl (bytes beats ++ [i.tdata]) := by
      rw [toNat_shift_ihl, ihl, hdata]
    have hmin := le_hdrEnd hok
    simp only [headerByte, if_pos hcnt, if_neg hbad]
    refine ⟨.header ?_ rfl, hhdrChk.trans hchk, ?_, ?_⟩
    · rw [bytes_concat]
      refine hin.byte ?_ rfl rfl rfl rfl rfl ?_ ?_
      · exact hstate
      · exact ⟨hplSum.trans hin.clear.1, hplOdd.trans hin.clear.2.1,
          hholdV.trans hin.clear.2.2⟩
      · exact ⟨hok, hihl, by omega⟩
    · rw [inPayload]
      change ((rx.count i rx.release).state == _ || (rx.count i rx.release).state == _ ||
        (rx.count i rx.release).state == _) = false
      rw [hstate]
      rfl
    · intro hone
      have hone' : ((i.tdata.extractLsb' 0 4).setWidth 14 <<< 2).toNat = 1 :=
        congrArg BitVec.toNat hone
      rw [hihl] at hone'
      rw [hdrEnd] at hmin
      omega

/-- A header byte behind the first. -/
theorem InHeader.later (hin : InHeader rx (bytes beats)) (hbegun : 14 < beats.length) :
    rx.byteCnt ≠ 0 ∧
      (rx.byteCnt = rx.ipHdrBytes - 1 ↔ beats.length + 1 = hdrEnd (bytes beats)) := by
  have hlength := length_bytes beats
  have hcount := hin.byteCnt
  obtain ⟨hversion, hihl, hin'⟩ := hin.begun (by omega)
  have hmin := le_hdrEnd hversion
  rw [hdrEnd] at hmin ⊢
  constructor
  · intro hzero
    rw [hzero] at hcount
    change 0 + 14 = _ at hcount
    omega
  · have hlast : (rx.ipHdrBytes - 1).toNat = ihl (bytes beats) - 1 := by
      rw [← hihl]
      exact BitVec.toNat_sub_of_le (BitVec.le_def.mpr (by rw [hihl]; change 1 ≤ _; omega))
    rw [← BitVec.toNat_inj, hlast]
    omega

/-- A header byte that is neither the first nor the last. -/
theorem parsed_header_more (hfin : rx.fin = false) (hin : InHeader rx (bytes beats))
    (hbegun : 14 < beats.length) (hmore : beats.length + 1 ≠ hdrEnd (bytes beats)) :
    Parses (rx.afterBeat i) (beats ++ [i]) [] ∧
      (rx.afterBeat i).hdrChk = rx.hdrChk ∧ (rx.afterBeat i).inPayload = false ∧
      (rx.afterBeat i).ipHdrBytes = rx.ipHdrBytes := by
  have hlength := length_bytes beats
  obtain ⟨hcnt, hends⟩ := hin.later hbegun
  obtain ⟨hversion, hihl, hlt⟩ := hin.begun (by omega)
  obtain ⟨hstate, hplSum, hplOdd, hholdV, hhdrChk, hhdr⟩ :=
    @base_header rx i hfin hin.state
  have hgo : rx.byteCnt ≠ rx.ipHdrBytes - 1 := fun heq => hmore (hends.mp heq)
  simp only [afterBeat_header hin.state, headerEnd, if_neg hgo, headerByte, if_neg hcnt]
  refine ⟨.header ?_ rfl, hhdrChk, ?_, hhdr⟩
  · rw [bytes_concat]
    refine hin.byte ?_ rfl rfl rfl rfl rfl ?_ ?_
    · exact hstate
    · exact ⟨hplSum.trans hin.clear.1, hplOdd.trans hin.clear.2.1,
        hholdV.trans hin.clear.2.2⟩
    · rw [versionOk_append (by omega), ihl_append (by omega), hdrEnd_append (by omega)]
      exact ⟨hversion, (congrArg BitVec.toNat hhdr).trans hihl, by omega⟩
  · rw [inPayload]
    change ((rx.count i rx.release).state == _ || (rx.count i rx.release).state == _ ||
      (rx.count i rx.release).state == _) = false
    rw [hstate]
    rfl

/-- At the last header byte the parser compares `dstTaken`. -/
theorem dstIp_end (hin : InHeader rx (bytes beats)) (hbegun : 14 < beats.length)
    (hend : beats.length + 1 = hdrEnd (bytes beats)) :
    rx.dstIp i = dstTaken (beats ++ [i]) ∧ ourIp (beats ++ [i]) = i.ourIp := by
  have hlength := length_bytes beats
  obtain ⟨hversion, -, -⟩ := hin.begun (by omega)
  have hmin := le_hdrEnd hversion
  have hend' : hdrEnd (bytes (beats ++ [i])) - 1 = (bytes beats).length := by
    rw [bytes_concat, hdrEnd_append (by omega)]
    omega
  constructor
  · rw [dstTaken, hend', bytes_concat, byteAt_append (by omega), byteAt_append (by omega),
      byteAt_append (by omega), byteAt_concat, if_pos rfl, NetRx.dstIp, extract_three,
      hin.dst3 (by omega), hin.dst2 (by omega), hin.dst1 (by omega)]
  · rw [NetBeats.ourIp, hend', hlength, List.map_append, List.getD_append_right _ _ _ _
      (by rw [List.length_map]), List.length_map, Nat.sub_self]
    rfl

theorem toUs_eq_false_iff {ourIp dst : BitVec 32} :
    toUs ourIp dst = false ↔ dst ≠ ourIp ∧ dst ≠ 0xFFFFFFFF := by
  rw [toUs, Bool.or_eq_false_iff, beq_eq_false_iff_ne, beq_eq_false_iff_ne]

/-- The registers that the last header byte is judged with. -/
theorem header_fields (hin : InHeader rx (bytes beats)) (hbegun : 14 < beats.length)
    (hend : beats.length + 1 = hdrEnd (bytes beats)) (i : NetRxIn) :
    rx.ipTotLen.toNat = total (bytes (beats ++ [i])) ∧
      rx.ipProtocol = proto (bytes (beats ++ [i])) ∧
      (rx.ipHdrBytes.setWidth 16).toNat = ihl (bytes (beats ++ [i])) ∧
      versionOk (bytes (beats ++ [i])) = true ∧
      hdrEnd (bytes (beats ++ [i])) = beats.length + 1 := by
  have hlength := length_bytes beats
  obtain ⟨hversion, hihl, -⟩ := hin.begun (by omega)
  have hmin := le_hdrEnd hversion
  have hmax := hdrEnd_le (bytes beats)
  rw [bytes_concat, total_append (by omega), proto_append (by omega), ihl_append (by omega),
    versionOk_append (by omega), hdrEnd_append (by omega)]
  refine ⟨?_, hin.proto (by omega), ?_, hversion, hend.symm⟩
  · rw [total, wordAt, ← hin.totHi (by omega), ← hin.totLo (by omega), append_extract]
  · rw [BitVec.toNat_setWidth, hihl]
    rw [hdrEnd] at hmax
    exact Nat.mod_eq_of_lt (by omega)

theorem totLen_lt_iff {totLen hdrBytes : BitVec 16} (hmax : hdrBytes.toNat ≤ 60) :
    totLen < hdrBytes + 8 ↔ totLen.toNat < hdrBytes.toNat + 8 := by
  have hadd : (hdrBytes + 8).toNat = hdrBytes.toNat + 8 := by
    change (hdrBytes.toNat + 8) % 2 ^ 16 = _
    exact Nat.mod_eq_of_lt (by omega)
  rw [BitVec.lt_def, hadd]

/-- What the last header byte leaves, whatever its outcome. -/
structure HeaderOver (rx : NetRx) (i : NetRxIn) (next : NetRx) : Prop where
  byteCnt : next.byteCnt = 0
  rem : next.rem = rx.ipTotLen - rx.ipHdrBytes.setWidth 16
  hdrSum : next.hdrSum = rx.hdrSumNow i
  plSum : next.plSum = rx.plSum
  plOdd : next.plOdd = rx.plOdd
  holdV : next.holdV = rx.holdV
  ipHdrBytes : next.ipHdrBytes = rx.ipHdrBytes

/-- Refused by the last header byte. -/
def RefusedAt (next : NetRx) (beats : List NetRxIn) : Prop :=
  next.state = .drop ∧ next.hdrChk = false ∧
    (toUs (ourIp beats) (dstTaken beats) = false ∨ lengthOk (bytes beats) = false)

/-- On to the payload, with the verdict on the header due. -/
def TakenAt (next : NetRx) (beats : List NetRxIn) : Prop :=
  next.state = (if proto (bytes beats) = 1 then .icmpData else .udpHdr) ∧
    next.hdrChk = true ∧ toUs (ourIp beats) (dstTaken beats) = true ∧
      lengthOk (bytes beats) = true

/-- The last header byte. -/
theorem header_over (hfin : rx.fin = false) (hchk : rx.hdrChk = false)
    (hin : InHeader rx (bytes beats)) (hbegun : 14 < beats.length)
    (hend : beats.length + 1 = hdrEnd (bytes beats)) :
    HeaderOver rx i (rx.afterBeat i) ∧
      (RefusedAt (rx.afterBeat i) (beats ++ [i]) ∨
        TakenAt (rx.afterBeat i) (beats ++ [i])) := by
  obtain ⟨hcnt, hends⟩ := hin.later hbegun
  obtain ⟨hstate, hplSum, hplOdd, hholdV, hhdrChk, hhdr⟩ :=
    @base_header rx i hfin hin.state
  obtain ⟨htotal, hproto, hihl, hversion, hend'⟩ := header_fields hin hbegun hend i
  obtain ⟨hdst, hour⟩ := @dstIp_end rx beats i hin hbegun hend
  have hmax := hdrEnd_le (bytes (beats ++ [i]))
  have hshort := @totLen_lt_iff rx.ipTotLen (rx.ipHdrBytes.setWidth 16)
    (by rw [hihl]; rw [hdrEnd] at hmax; omega)
  rw [htotal, hihl] at hshort
  simp only [afterBeat_header hin.state, headerEnd, if_pos (hends.mpr hend), headerByte,
    if_neg hcnt]
  by_cases hforeign : rx.dstIp i ≠ i.ourIp ∧ rx.dstIp i ≠ 0xFFFFFFFF
  · rw [if_pos hforeign]
    rw [hdst, ← hour] at hforeign
    exact ⟨⟨rfl, rfl, rfl, hplSum, hplOdd, hholdV, hhdr⟩,
      Or.inl ⟨rfl, hhdrChk.trans hchk, Or.inl (toUs_eq_false_iff.mpr hforeign)⟩⟩
  rw [if_neg hforeign]
  have hours : toUs (ourIp (beats ++ [i])) (dstTaken (beats ++ [i])) = true := by
    rw [hdst, ← hour] at hforeign
    exact Bool.eq_true_of_not_eq_false fun hno => hforeign (toUs_eq_false_iff.mp hno)
  by_cases hlow : rx.ipTotLen < rx.ipHdrBytes.setWidth 16 + 8
  · rw [if_pos hlow]
    have hno : lengthOk (bytes (beats ++ [i])) = false := by
      rw [lengthOk, decide_eq_false (by have := hshort.mp hlow; omega)]
      rfl
    exact ⟨⟨rfl, rfl, rfl, hplSum, hplOdd, hholdV, hhdr⟩,
      Or.inl ⟨rfl, hhdrChk.trans hchk, Or.inr hno⟩⟩
  rw [if_neg hlow]
  have hroom : ihl (bytes (beats ++ [i])) + 8 ≤ total (bytes (beats ++ [i])) :=
    Nat.le_of_not_lt fun hlt => hlow (hshort.mpr hlt)
  have hlengthOk : lengthOk (bytes (beats ++ [i])) =
      (rx.ipProtocol == 1 || rx.ipProtocol == 17) := by
    rw [lengthOk, decide_eq_true hroom, Bool.true_and, hproto]
  by_cases hicmp : rx.ipProtocol = 1
  · rw [if_pos hicmp]
    refine ⟨⟨rfl, rfl, rfl, hplSum, hplOdd, hholdV, hhdr⟩,
      Or.inr ⟨?_, rfl, hours, ?_⟩⟩
    · rw [← hproto, if_pos hicmp]
    · rw [hlengthOk, hicmp]
      rfl
  rw [if_neg hicmp]
  by_cases hudp : rx.ipProtocol = 17
  · rw [if_pos hudp]
    refine ⟨⟨rfl, rfl, rfl, hplSum, hplOdd, hholdV, hhdr⟩,
      Or.inr ⟨?_, rfl, hours, ?_⟩⟩
    · rw [← hproto, if_neg hicmp]
    · rw [hlengthOk, hudp]
      rfl
  · rw [if_neg hudp]
    have hno : lengthOk (bytes (beats ++ [i])) = false := by
      rw [hlengthOk, beq_eq_false_iff_ne.mpr hicmp, beq_eq_false_iff_ne.mpr hudp]
      rfl
    exact ⟨⟨rfl, rfl, rfl, hplSum, hplOdd, hholdV, hhdr⟩,
      Or.inl ⟨rfl, hhdrChk.trans hchk, Or.inr hno⟩⟩

theorem inPayload_of_state {rx : NetRx} {icmp : Prop} [Decidable icmp]
    (hstate : rx.state = if icmp then .icmpData else .udpHdr) : rx.inPayload = true := by
  rw [inPayload, hstate]
  split <;> rfl

/-- The last header byte opens the payload, or the frame is refused. -/
theorem parsed_header_last (hfin : rx.fin = false) (hchk : rx.hdrChk = false)
    (hin : InHeader rx (bytes beats)) (hbegun : 14 < beats.length)
    (hend : beats.length + 1 = hdrEnd (bytes beats)) :
    Parses (rx.afterBeat i) (beats ++ [i]) [] ∧
      Judged (rx.afterBeat i) (beats ++ [i]) ∧
      (rx.afterBeat i).ipHdrBytes = rx.ipHdrBytes := by
  have hlength := length_bytes beats
  have hlonger := length_concat beats i
  have hlength' := length_bytes (beats ++ [i])
  obtain ⟨htotal, hproto, hihl, hversion, hend'⟩ := header_fields hin hbegun hend i
  obtain ⟨hover, ⟨hstate, hquiet, hno⟩ | ⟨hstate, hdue, hours, hlengthOk⟩⟩ :=
    @header_over rx beats i hfin hchk hin hbegun hend
  · have hrefused : Refused (beats ++ [i]) := by
      apply refused_header hversion (by omega)
      rcases hno with hno | hno
      · exact Or.inr (Or.inr hno)
      · exact Or.inl hno
    refine ⟨.refused (Or.inl hstate) hrefused rfl, judged_of_quiet ?_ hquiet _,
      hover.ipHdrBytes⟩
    rw [inPayload, hstate]
    rfl
  · have hbody : body (bytes (beats ++ [i])) = [] := slice_empty (by omega) _
    have hpayload : payload (bytes (beats ++ [i])) = [] := by
      rw [payload, hbody]
      split <;> rfl
    have hin' : InPayload (rx.afterBeat i) (beats ++ [i]) [] :=
      { accepted :=
          { type := by
              rw [bytes_concat, wordAt_append (by omega)]
              exact hin.type
            version := hversion
            whole := by omega
            length := hlengthOk
            dst := hours }
        state := by rw [hstate, if_pos (show (beats ++ [i]).length < _ by omega)]
        byteCnt := by
          intro _
          rw [hover.byteCnt, hend', hlonger]
          exact Nat.zero_add _
        rem := by
          rw [lengthOk, Bool.and_eq_true, decide_eq_true_iff] at hlengthOk
          rw [hover.rem, hbody, BitVec.toNat_sub_of_le, htotal, hihl]
          · rfl
          · rw [BitVec.le_def, htotal, hihl]
            omega
        plSum := by
          rw [hover.plSum, hin.clear.1, hbody]
          rfl
        plOdd := by
          rw [hover.plOdd, hin.clear.2.1, hbody]
          rfl
        holds :=
          { holdV := by
              rw [hover.holdV, hin.clear.2.2, hpayload]
              rfl
            holdD := by
              rw [hpayload]
              intro _ hmem
              rw [List.getLast?_nil] at hmem
              cases hmem
            shown := by
              rw [hpayload]
              rfl } }
    refine ⟨.payload hin', ?_, hover.ipHdrBytes⟩
    rw [Judged, if_pos (inPayload_of_state hstate)]
    refine Or.inl ⟨hdue, by omega, ?_⟩
    have hsum := @hdrSum_step rx i (bytes beats) hin.byteCnt hin.hdrSum
    rw [hover.hdrSum, hsum, bytes_concat, slice,
      List.take_of_length_le (by rw [← bytes_concat]; omega)]

end EmacZero
