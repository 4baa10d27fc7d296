/-
The parser of `csum_calc` up to the IP header: what its EtherType and VLAN
registers know of the bytes a frame has had so far.
-/
import EmacZero.CsumCalc
import EmacZero.IpDatagram

namespace EmacZero

/-! The EtherType as the frame grows. -/

theorem l3Offset_le (frame : List (BitVec 8)) : l3Offset frame ≤ 18 := by
  unfold l3Offset
  split <;> decide

theorem le_l3Offset (frame : List (BitVec 8)) : 14 ≤ l3Offset frame := by
  unfold l3Offset
  split <;> decide

theorem l3Offset_of_short {frame : List (BitVec 8)} (hshort : frame.length ≤ 13) :
    l3Offset frame = 14 := by
  rw [l3Offset, vlanTagged_short hshort]
  rfl

theorem l3Offset_concat {frame : List (BitVec 8)} (hlong : 14 ≤ frame.length)
    (data : BitVec 8) : l3Offset (frame ++ [data]) = l3Offset frame := by
  rw [l3Offset, l3Offset, vlanTagged_concat hlong]

theorem lt_l3Offset {frame : List (BitVec 8)} {data : BitVec 8}
    (hshort : frame.length + 1 ≤ l3Offset (frame ++ [data])) :
    frame.length < l3Offset frame := by
  have hmin := le_l3Offset frame
  by_cases hlong : 14 ≤ frame.length
  · rw [l3Offset_concat hlong] at hshort
    exact hshort
  · omega

theorem etherType_concat {frame : List (BitVec 8)} (hlong : l3Offset frame ≤ frame.length)
    (data : BitVec 8) : etherType (frame ++ [data]) = etherType frame := by
  have hmin := le_l3Offset frame
  rw [etherType, etherType, l3Offset_concat (by omega),
    List.drop_append_of_le_length (by omega),
    List.take_append_of_le_length (by simp; omega)]

theorem etherType_short {frame : List (BitVec 8)} (hshort : frame.length < l3Offset frame)
    (first second : BitVec 8) : (etherType frame == [first, second]) = false := by
  have hmin := le_l3Offset frame
  rw [beq_eq_false_iff_ne]
  intro heq
  have hlength := congrArg List.length heq
  simp [etherType] at hlength
  omega

/-- The second byte of the EtherType. -/
theorem etherType_complete {frame : List (BitVec 8)} {data : BitVec 8}
    (hlast : frame.length + 1 = l3Offset (frame ++ [data])) :
    etherType (frame ++ [data]) = [byteAt frame (frame.length - 1), data] := by
  have hmin := le_l3Offset (frame ++ [data])
  have hlt : frame.length - 1 < frame.length := by omega
  have hdrop : frame.drop (frame.length - 1) = [byteAt frame (frame.length - 1)] := by
    rw [List.drop_eq_getElem_cons hlt, List.drop_of_length_le (by omega), byteAt,
      List.getD_eq_getElem _ _ hlt]
  rw [etherType, ← hlast, show frame.length + 1 - 2 = frame.length - 1 by omega,
    List.drop_append_of_le_length (by omega), hdrop]
  rfl

theorem ipVersion_concat {frame : List (BitVec 8)} (hlong : l3Offset frame < frame.length)
    (data : BitVec 8) : ipVersion (frame ++ [data]) = ipVersion frame := by
  have hmin := le_l3Offset frame
  rw [ipVersion, ipVersion, l3Offset_concat (by omega), byteAt_append hlong]

/-- IP of this EtherType and version, as far as the frame goes. -/
def maybeIp (type : List (BitVec 8)) (version : BitVec 4) (frame : List (BitVec 8)) :
    Bool :=
  etherType frame == type &&
    (decide (frame.length ≤ l3Offset frame) || ipVersion frame == version)

theorem maybeIp_short {frame : List (BitVec 8)} (hshort : frame.length < l3Offset frame)
    (first second : BitVec 8) (version : BitVec 4) :
    maybeIp [first, second] version frame = false := by
  rw [maybeIp, etherType_short hshort, Bool.false_and]

theorem maybeIp_concat {frame : List (BitVec 8)} (hlong : l3Offset frame < frame.length)
    (type : List (BitVec 8)) (version : BitVec 4) (data : BitVec 8) :
    maybeIp type version (frame ++ [data]) = maybeIp type version frame := by
  have hmin := le_l3Offset frame
  rw [maybeIp, maybeIp, etherType_concat hlong.le, ipVersion_concat hlong,
    l3Offset_concat (by omega), List.length_append, List.length_singleton]
  simp [show ¬frame.length ≤ l3Offset frame by omega,
    show ¬frame.length + 1 ≤ l3Offset frame by omega]

theorem maybeIp_of_lt {frame : List (BitVec 8)} (hlong : l3Offset frame < frame.length)
    (type : List (BitVec 8)) (version : BitVec 4) :
    maybeIp type version frame = (etherType frame == type && ipVersion frame == version) := by
  simp [maybeIp, show ¬frame.length ≤ l3Offset frame by omega]

/-- The first byte of the IP header settles the version. -/
theorem maybeIp_first {frame : List (BitVec 8)} (hlength : frame.length = l3Offset frame)
    (type : List (BitVec 8)) (version : BitVec 4) (data : BitVec 8) :
    maybeIp type version (frame ++ [data]) =
      (maybeIp type version frame && data.extractLsb' 4 4 == version) := by
  have hmin := le_l3Offset frame
  have hoff := l3Offset_concat (show 14 ≤ frame.length by omega) data
  have hbyte : byteAt (frame ++ [data]) (l3Offset frame) = data := by
    rw [byteAt_concat, if_pos hlength.symm]
  rw [maybeIp_of_lt (by rw [hoff, List.length_append, List.length_singleton]; omega),
    etherType_concat hlength.ge, ipVersion, hoff, hbyte, maybeIp]
  simp [hlength]

namespace CsumCalc

/-- One more byte of a frame is on the inputs. -/
structure Feeds (zero : Bool) (i : CsumIn) (frame : List (BitVec 8))
    (data : BitVec 8) : Prop where
  valid : i.inValid = true
  zeroFields : i.zeroFields = zero
  inIdx : i.inIdx = BitVec.ofNat 14 frame.length
  inData : i.inData = data
  started : frame ≠ []
  fits : frame.length < 16383

variable {zero : Bool} {s : CsumCalc} {i : CsumIn} {frame : List (BitVec 8)}
  {data : BitVec 8}

namespace Feeds

variable (hfeeds : Feeds zero i frame data)
include hfeeds

theorem toNat : i.inIdx.toNat = frame.length := by
  have hfits := hfeeds.fits
  rw [hfeeds.inIdx, BitVec.toNat_ofNat, Nat.mod_eq_of_lt (by omega)]

theorem inIdx_beq {offset : Nat} (hlt : offset < 2 ^ 14) :
    (i.inIdx == BitVec.ofNat 14 offset) = decide (frame.length = offset) := by
  rw [Bool.eq_iff_iff, beq_iff_eq, decide_eq_true_iff, ← BitVec.toNat_inj, hfeeds.toNat,
    BitVec.toNat_ofNat, Nat.mod_eq_of_lt hlt]

theorem not_newFrame : newFrame i = false := by
  have hpos := List.length_pos_of_ne_nil hfeeds.started
  have hzero := hfeeds.inIdx_beq (show 0 < 2 ^ 14 by decide)
  rw [newFrame, hfeeds.valid, Bool.true_and]
  exact hzero.trans (decide_eq_false (by omega))

end Feeds

/-- What the EtherType registers know. -/
structure EtherRegs (s : CsumCalc) (frame : List (BitVec 8)) : Prop where
  vlan : s.vlan = vlanTagged frame
  known : s.l3Known = decide (l3Offset frame ≤ frame.length)
  off : l3Offset frame ≤ frame.length → s.l3Off = BitVec.ofNat 5 (l3Offset frame)
  etypeHi : frame.length = 13 ∨ (frame.length = 17 ∧ vlanTagged frame = true) →
    s.etypeHi = byteAt frame (frame.length - 1)
  fam4 : s.fam4 = maybeIp [0x08, 0x00] 4 frame
  fam6 : s.fam6 = maybeIp [0x86, 0xDD] 6 frame

namespace EtherRegs

variable (hether : s.EtherRegs frame)
include hether

theorem inL3_eq : s.inL3 = (s.fam4 || s.fam6) := by
  rw [inL3, hether.known]
  by_cases hlong : l3Offset frame ≤ frame.length
  · simp [hlong]
  · simp [hlong, hether.fam4, hether.fam6, maybeIp_short (Nat.lt_of_not_le hlong)]

variable (hfeeds : Feeds zero i frame data)
include hfeeds

/-- The offset within the IP header. -/
theorem r_toNat (hlong : l3Offset frame ≤ frame.length) :
    (s.r i).toNat = frame.length - l3Offset frame := by
  have hfits := hfeeds.fits
  have hmax := l3Offset_le frame
  have hoff : (s.l3Off.setWidth 14).toNat = l3Offset frame := by
    rw [hether.off hlong, BitVec.toNat_setWidth, BitVec.toNat_ofNat,
      Nat.mod_eq_of_lt (show l3Offset frame < 2 ^ 5 by omega),
      Nat.mod_eq_of_lt (by omega)]
  rw [r, BitVec.toNat_sub_of_le, hfeeds.toNat, hoff]
  rw [BitVec.le_def, hfeeds.toNat, hoff]
  exact hlong

theorem r_beq (hlong : l3Offset frame ≤ frame.length) {offset : Nat}
    (hlt : offset < 2 ^ 14) :
    (s.r i == BitVec.ofNat 14 offset) = decide (frame.length = l3Offset frame + offset) := by
  rw [Bool.eq_iff_iff, beq_iff_eq, decide_eq_true_iff, ← BitVec.toNat_inj,
    hether.r_toNat hfeeds hlong, BitVec.toNat_ofNat, Nat.mod_eq_of_lt hlt]
  omega

theorem etypeNow_eq :
    s.etypeNow i = decide (frame.length = 13 ∨
      (frame.length = 17 ∧ vlanTagged frame = true)) := by
  have hthirteen := hfeeds.inIdx_beq (show 13 < 2 ^ 14 by decide)
  have hseventeen := hfeeds.inIdx_beq (show 17 < 2 ^ 14 by decide)
  simp only [etypeNow, BitVec.ofNat_eq_ofNat, hthirteen, hseventeen, hether.known,
    hether.vlan]
  by_cases htag : vlanTagged frame = true
  · have hlong : ¬frame.length ≤ 13 := by
      intro hshort
      simp [vlanTagged_short hshort] at htag
    simp [htag, l3Offset]
    omega
  · simp [htag, l3Offset]
    omega

/-- The EtherType as the registers see it. -/
theorem etype_beq (hnow : s.etypeNow i = true) (first second : BitVec 8) :
    (s.etype i == (first ++ second : BitVec 16)) =
      ([byteAt frame (frame.length - 1), data] == [first, second]) := by
  rw [hether.etypeNow_eq hfeeds, decide_eq_true_iff] at hnow
  rw [etype, hether.etypeHi hnow, hfeeds.inData, append_beq]

theorem tagNow_eq :
    s.tagNow i = (decide (frame.length = 13) && vlanTagged (frame ++ [data])) := by
  rw [tagNow, hether.vlan]
  by_cases hlength : frame.length = 13
  · have hnow : s.etypeNow i = true := by
      rw [hether.etypeNow_eq hfeeds, decide_eq_true_iff]
      exact Or.inl hlength
    have htwelfth : frame[12]? = some (byteAt frame (frame.length - 1)) := by
      rw [hlength, byteAt, List.getD_eq_getElem _ _ (by omega),
        List.getElem?_eq_getElem (by omega)]
    have hctag := hether.etype_beq hfeeds hnow 0x81 0x00
    have hstag := hether.etype_beq hfeeds hnow 0x88 0xA8
    rw [vlanTagged_fourteenth hlength htwelfth, vlanTagged_short hlength.le, hnow]
    have hetype : s.etype i = byteAt frame (frame.length - 1) ++ data := by
      rw [etype, hether.etypeHi (Or.inl hlength), hfeeds.inData]
    simp [hlength, hetype]
  · rw [hether.etypeNow_eq hfeeds]
    cases htag : vlanTagged frame <;> simp [hlength]

/-- The EtherType of the IP header, or of something else, is complete. -/
theorem opens_eq :
    (s.etypeNow i && !s.tagNow i) =
      decide (frame.length + 1 = l3Offset (frame ++ [data])) := by
  rw [hether.tagNow_eq hfeeds, hether.etypeNow_eq hfeeds, Bool.eq_iff_iff]
  rcases Nat.lt_trichotomy frame.length 13 with hlt | heq | hgt
  · have hoff := l3Offset_of_short (show (frame ++ [data]).length ≤ 13 by simp; omega)
    simp [hoff]
    omega
  · cases htag : vlanTagged (frame ++ [data]) <;> simp [heq, htag, l3Offset]
  · have hoff := l3Offset_concat (show 14 ≤ frame.length from hgt) data
    rw [hoff]
    cases htag : vlanTagged frame <;> simp [htag, l3Offset] <;> omega

/-- A version's register, `fam4` or `fam6`. -/
theorem fam_step {fam : Bool} {first second : BitVec 8} {version : BitVec 4}
    (hfam : fam = maybeIp [first, second] version frame)
    (hinL3 : fam = true → s.inL3 = true) :
    (if s.inL3 && s.r i == 0 && fam && i.inData.extractLsb' 4 4 != version then false
      else if s.etypeNow i && !s.tagNow i then s.etype i == (first ++ second : BitVec 16)
      else fam) = maybeIp [first, second] version (frame ++ [data]) := by
  have hopens := hether.opens_eq hfeeds
  rw [hopens, hfeeds.inData]
  rcases Nat.lt_trichotomy (frame.length + 1) (l3Offset (frame ++ [data])) with
    hlt | heq | hgt
  · have hnone : fam = false := by
      rw [hfam, maybeIp_short (lt_l3Offset hlt.le)]
    rw [maybeIp_short (by simpa using hlt)]
    simp [hnone, hlt.ne]
  · have hnone : fam = false := by
      rw [hfam, maybeIp_short (lt_l3Offset heq.le)]
    have hnow : s.etypeNow i = true := by
      rw [decide_eq_true heq, Bool.and_eq_true] at hopens
      exact hopens.1
    rw [hether.etype_beq hfeeds hnow, maybeIp, etherType_complete heq]
    simp [hnone, heq]
  · have hmin := le_l3Offset (frame ++ [data])
    have hoff := l3Offset_concat (show 14 ≤ frame.length by omega) data
    rw [hoff] at hgt
    have hr := hether.r_beq hfeeds (show l3Offset frame ≤ frame.length by omega)
      (show 0 < 2 ^ 14 by decide)
    rw [hoff, decide_eq_false hgt.ne']
    rcases Nat.eq_or_lt_of_le (show l3Offset frame ≤ frame.length by omega) with hL | hL
    · rw [maybeIp_first hL.symm, ← hfam]
      simp only [BitVec.ofNat_eq_ofNat, hr, hL]
      cases hfamily : fam with
      | false => simp
      | true =>
          rw [hinL3 hfamily]
          cases hversion : data.extractLsb' 4 4 == version <;> simp_all
    · rw [maybeIp_concat hL, ← hfam]
      simp [hr, hL.ne']

end EtherRegs

theorem EtherRegs.step (hether : s.EtherRegs frame) (hfeeds : Feeds zero i frame data) :
    (s.clkEdge i).EtherRegs (frame ++ [data]) := by
  have hedge : (s.clkEdge i).toCsumEther = s.nextEther i := rfl
  have hinL3 := hether.inL3_eq
  have hopens := hether.opens_eq hfeeds
  have htag := hether.tagNow_eq hfeeds
  have hmin := le_l3Offset (frame ++ [data])
  have hlength : (frame ++ [data]).length = frame.length + 1 := by simp
  simp only [nextEther, hfeeds.not_newFrame, hfeeds.valid, if_true, Bool.false_eq_true,
    if_false] at hedge
  constructor
  · rw [congrArg CsumEther.vlan hedge]
    simp only [htag, hether.vlan]
    rcases Nat.lt_trichotomy frame.length 13 with hlt | heq | hgt
    · rw [vlanTagged_short (by omega), vlanTagged_short (by omega)]
      simp
    · rw [vlanTagged_short heq.le]
      simp [heq]
    · rw [vlanTagged_concat hgt]
      simp [hgt.ne']
  · rw [congrArg CsumEther.l3Known hedge]
    simp only [hopens, hether.known, hlength]
    rcases Nat.lt_trichotomy (frame.length + 1) (l3Offset (frame ++ [data])) with
      hlt | heq | hgt
    · have hshort := lt_l3Offset hlt.le
      simp [hlt.ne, Nat.not_le.mpr hlt, Nat.not_le.mpr hshort]
    · simp [heq]
    · have hoff := l3Offset_concat (show 14 ≤ frame.length by omega) data
      rw [hoff] at hgt ⊢
      simp [hgt.ne', show l3Offset frame ≤ frame.length by omega,
        show l3Offset frame ≤ frame.length + 1 by omega]
  · intro hlong
    rw [hlength] at hlong
    rw [congrArg CsumEther.l3Off hedge]
    simp only [hopens, hether.vlan]
    rcases Nat.eq_or_lt_of_le hlong with heq | hlt
    · rw [decide_eq_true heq.symm, if_pos rfl]
      by_cases hthirteen : frame.length = 13
      · rw [heq, vlanTagged_short hthirteen.le, hthirteen]
        rfl
      · have hold : 14 ≤ frame.length := by omega
        rw [l3Offset_concat hold, l3Offset]
        cases vlanTagged frame <;> rfl
    · have hold : 14 ≤ frame.length := by omega
      rw [l3Offset_concat hold] at hlt ⊢
      rw [decide_eq_false hlt.ne']
      simpa using hether.off (by omega)
  · intro hbyte
    have htwelve := hfeeds.inIdx_beq (show 12 < 2 ^ 14 by decide)
    have hsixteen := hfeeds.inIdx_beq (show 16 < 2 ^ 14 by decide)
    rw [hlength] at hbyte
    have hnow : byteAt (frame ++ [data]) ((frame ++ [data]).length - 1) = data := by
      rw [byteAt_concat, hlength, if_pos (by omega)]
    have hknown : s.l3Known = false := by
      rw [hether.known, decide_eq_false_iff_not]
      rcases hbyte with htwelfth | ⟨hsixteenth, htagged⟩
      · have := le_l3Offset frame
        omega
      · rw [vlanTagged_concat (by omega)] at htagged
        simp [l3Offset, htagged]
        omega
    rw [congrArg CsumEther.etypeHi hedge, hnow]
    simp only [BitVec.ofNat_eq_ofNat, htwelve, hsixteen, hknown, hether.vlan, hfeeds.inData]
    rcases hbyte with htwelfth | ⟨hsixteenth, htagged⟩
    · simp [show frame.length = 12 by omega]
    · rw [vlanTagged_concat (by omega)] at htagged
      simp [show frame.length = 16 by omega, htagged]
  · rw [congrArg CsumEther.fam4 hedge]
    exact hether.fam_step hfeeds hether.fam4 fun hfam => by rw [hinL3, hfam]; rfl
  · rw [congrArg CsumEther.fam6 hedge]
    exact hether.fam_step hfeeds hether.fam6 fun hfam => by rw [hinL3, hfam, Bool.or_true]

end CsumCalc

end EmacZero
