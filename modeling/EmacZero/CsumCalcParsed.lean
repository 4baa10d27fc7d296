/-
All that `csum_calc`'s parser knows of the bytes a frame has had so far, kept by
every byte and by every idle cycle.
-/
import EmacZero.CsumCalcL4
import EmacZero.CsumCalcOptions

namespace EmacZero

namespace CsumCalc

variable {zero : Bool} {s t : CsumCalc} {i : CsumIn} {frame : List (BitVec 8)}
  {data : BitVec 8}

/-- The registers behind the EtherType in an IP frame. -/
structure IpRegs (zero : Bool) (s : CsumCalc) (frame : List (BitVec 8)) : Prop where
  header : s.HeaderRegs frame
  bounds : s.BoundsRegs frame
  options : isIp4 frame = true → s.OptionRegs frame
  sums : s.HeaderSums zero frame
  early : frame.length ≤ l4Offset frame → s.L4Early frame
  l4 : Laid frame → l4Offset frame ≤ frame.length → s.L4Regs zero frame

structure Parsed (zero : Bool) (s : CsumCalc) (frame : List (BitVec 8)) : Prop where
  ether : s.EtherRegs frame
  fresh : frame.length ≤ l3Offset frame → s.Fresh
  ip : l3Offset frame < frame.length → (isIp4 frame = true ∨ isIp6 frame = true) →
    s.IpRegs zero frame

/-- The parser's registers are the same. -/
structure SameParse (s t : CsumCalc) : Prop where
  ether : t.toCsumEther = s.toCsumEther
  header : t.toCsumHeader = s.toCsumHeader
  bounds : t.toCsumBounds = s.toCsumBounds
  options : t.toCsumOptions = s.toCsumOptions
  sums : t.toCsumSums = s.toCsumSums

theorem Parsed.of_same (hsame : s.SameParse t) (hparsed : s.Parsed zero frame) :
    t.Parsed zero frame := by
  obtain ⟨ether, header, bounds, options, sums, pipes, result⟩ := s
  obtain ⟨ether', header', bounds', options', sums', pipes', result'⟩ := t
  obtain ⟨hether, hheader, hbounds, hoptions, hsums⟩ := hsame
  dsimp only at hether hheader hbounds hoptions hsums
  subst hether hheader hbounds hoptions hsums
  obtain ⟨hether, hfresh, hip⟩ := hparsed
  constructor
  · exact { hether with }
  · intro hshort
    exact { hfresh hshort with }
  · intro hlong hany
    obtain ⟨hheader, hbounds, hoptions, hsums, hearly, hl4⟩ := hip hlong hany
    constructor
    · exact { hheader with }
    · exact { hbounds with }
    · exact hoptions
    · exact { hsums with }
    · intro hshort
      exact { hearly hshort with }
    · intro hlaid hlate
      exact { hl4 hlaid hlate with }

/-- A cycle without a byte. -/
theorem idle_clkEdge (hidle : i.inValid = false) : s.SameParse (s.clkEdge i) := by
  have hfirst : newFrame i = false := by
    rw [newFrame, hidle, Bool.false_and]
  constructor
  · change s.nextEther i = _
    simp [nextEther, hfirst, hidle]
  · change s.nextHeader i = _
    simp [nextHeader, hfirst, hidle]
  · change s.nextBounds i = _
    simp [nextBounds, hfirst, hidle]
  · change s.nextOptions i = _
    simp [nextOptions, hfirst, hidle]
  · change s.nextSums i = _
    simp [nextSums, hfirst, hidle]

/-- Byte 0. -/
theorem Parsed.of_newFrame (hfirst : newFrame i = true) (data : BitVec 8) :
    (s.clkEdge i).Parsed zero [data] := by
  have hone : [data].length ≤ 13 := show 1 ≤ 13 by decide
  have hoff : l3Offset [data] = 14 := l3Offset_of_short hone
  have hshort : [data].length < l3Offset [data] := by
    rw [hoff]
    exact (show 1 < 14 by decide)
  have hedge : (s.clkEdge i).toCsumEther = s.nextEther i := rfl
  rw [nextEther, if_pos hfirst] at hedge
  constructor
  · constructor
    · rw [congrArg CsumEther.vlan hedge, vlanTagged_short hone]
    · rw [congrArg CsumEther.l3Known hedge, decide_eq_false (Nat.not_le.mpr hshort)]
    · intro hlong
      exact absurd hshort (Nat.not_lt.mpr hlong)
    · rintro (hthirteen | ⟨hseventeen, _⟩)
      · exact absurd hthirteen (show 1 ≠ 13 by decide)
      · exact absurd hseventeen (show 1 ≠ 17 by decide)
    · rw [congrArg CsumEther.fam4 hedge, maybeIp_short hshort]
    · rw [congrArg CsumEther.fam6 hedge, maybeIp_short hshort]
  · intro _
    exact fresh_of_newFrame hfirst
  · intro hlong
    exact absurd hlong (Nat.lt_asymm hshort)

/-- The IP header's first byte. -/
theorem IpRegs.first (hfresh : s.Fresh) (hether : s.EtherRegs frame)
    (hlength : frame.length = l3Offset frame)
    (hip : isIp4 (frame ++ [data]) = true ∨ isIp6 (frame ++ [data]) = true)
    (hfeeds : Feeds zero i frame data) : (s.clkEdge i).IpRegs zero (frame ++ [data]) := by
  have hmin := le_l3Offset frame
  have hoff := l3Offset_concat (show 14 ≤ frame.length by omega) data
  have hgrown : (frame ++ [data]).length = l3Offset frame + 1 := by simp [hlength]
  have hin : s.inL3 = true := by
    obtain ⟨hfam4, hfam6⟩ := hether.opening hlength hip
    rw [hether.inL3_eq, hfam4, hfam6, Bool.or_eq_true]
    exact hip
  have hr : s.r i = 0 := by
    rw [← BitVec.toNat_inj, hether.r_toNat hfeeds hlength.ge, hlength, Nat.sub_self]
    rfl
  have hshort : (frame ++ [data]).length < lengthsAt (frame ++ [data]) := by
    rw [hgrown, lengthsAt, hoff]
    split <;> omega
  have hnow : s.lengthsNow i = false := by
    rw [lengthsNow, hr]
    simp
  have hinL4 : s.inL4 i = false := by simp [inL4, hfresh.lenOk]
  have hudp : s.udpLenIn i = false := by simp [udpLenIn, hfresh.lenOk]
  have hl4Acc : s.l4Acc = 0 := congrArg CsumSums.l4Acc hfresh.sums
  have hl4Field : s.l4Field = 0 := congrArg CsumSums.l4Field hfresh.sums
  constructor
  · exact HeaderRegs.first hfresh hether hlength hip hfeeds
  · apply BoundsRegs.of_short hshort
    change (s.nextBounds i).lenOk = _
    simp [nextBounds, hfeeds.not_newFrame, hfeeds.valid, hin, hnow, hfresh.lenOk]
  · intro _
    apply OptionRegs.of_short _ (by rw [hgrown, hoff]; omega)
    change s.nextOptions i = _
    have hinOpt : s.inOpt i = false := by
      rw [inOpt, hr]
      simp
    simp [nextOptions, hfeeds.not_newFrame, hinOpt, hfresh.options]
  · exact HeaderSums.first hfresh hether hlength hip hfeeds
  · intro _
    constructor
    · change (s.nextBounds i).udpLen = 0
      simp [nextBounds, hfeeds.not_newFrame, hfeeds.valid, hin, hudp, hfresh.udpLen]
    · change (s.nextSums i).l4Acc = 0
      simp [nextSums, hfeeds.not_newFrame, hfeeds.valid, hinL4, hl4Acc]
    · change (s.nextSums i).l4Field = 0
      simp [nextSums, hfeeds.not_newFrame, hfeeds.valid, hinL4, hl4Field]
    · intro hlate
      exact absurd hshort (Nat.not_lt.mpr hlate)
  · intro hlaid hlate
    have hproto := protocolAt_le_l4Offset hlaid.ihl hip
    have hlengths := lengthsAt_le_protocolAt (frame ++ [data])
    omega

theorem IpRegs.step (hregs : s.IpRegs zero frame) (hether : s.EtherRegs frame)
    (hlong : l3Offset frame < frame.length)
    (hip : isIp4 frame = true ∨ isIp6 frame = true) (hfeeds : Feeds zero i frame data) :
    (s.clkEdge i).IpRegs zero (frame ++ [data]) := by
  obtain ⟨hheader, hbounds, hoptions, hsums, hearly, hl4⟩ := hregs
  have hoff := l4Offset_grown hlong data
  have hgrown : (frame ++ [data]).length = frame.length + 1 := by simp
  have hip' : isIp4 (frame ++ [data]) = true ∨ isIp6 (frame ++ [data]) = true := by
    rw [isIp4_grown hlong, isIp6_grown hlong]
    exact hip
  have hnext : frame.length < l4Offset frame → (s.clkEdge i).L4Early (frame ++ [data]) :=
    fun hshort =>
      (hearly hshort.le).step hether hbounds hheader hlong hip hfeeds hshort
  constructor
  · exact hheader.step hether hlong hip hfeeds
  · exact hbounds.step hheader hether hlong hip hfeeds
  · intro hip4
    rw [isIp4_grown hlong] at hip4
    exact (hoptions hip4).step hlong hip4 hheader hether hfeeds
  · exact hsums.step hheader hether hlong hip hfeeds
  · intro hshort
    exact hnext (by omega)
  · intro hlaid hlate
    rcases Nat.lt_or_ge frame.length (l4Offset frame) with hlt | hge
    · exact L4Regs.of_early (hnext hlt) hlaid hip' (by omega)
    · have hold := hlaid.of_concat hlong
      exact (hl4 hold hge).step hether hbounds hheader hlong hip hfeeds hold hge

theorem Parsed.step (hparsed : s.Parsed zero frame) (hfeeds : Feeds zero i frame data) :
    (s.clkEdge i).Parsed zero (frame ++ [data]) := by
  have hgrown : (frame ++ [data]).length = frame.length + 1 := by simp
  constructor
  · exact hparsed.ether.step hfeeds
  · intro hshort
    rw [hgrown] at hshort
    have hlt := lt_l3Offset hshort
    apply (hparsed.fresh hlt.le).step hfeeds.not_newFrame
    rw [inL3, hparsed.ether.known, decide_eq_false (Nat.not_le.mpr hlt), Bool.false_and]
  · intro hlong hip
    rw [hgrown] at hlong
    have hmin := le_l3Offset (frame ++ [data])
    have hoff := l3Offset_concat (show 14 ≤ frame.length by omega) data
    rw [hoff] at hlong
    rcases Nat.eq_or_lt_of_le (show l3Offset frame ≤ frame.length by omega) with heq | hlt
    · exact IpRegs.first (hparsed.fresh heq.ge) hparsed.ether heq.symm hip hfeeds
    · rw [isIp4_grown hlt, isIp6_grown hlt] at hip
      exact (hparsed.ip hlt hip).step hparsed.ether hlt hip hfeeds

end CsumCalc

end EmacZero
