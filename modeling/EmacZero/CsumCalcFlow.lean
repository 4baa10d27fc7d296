/-
The pipelines of `csum_calc` along a run: each stage holds what the bytes one cycle
further back had.
-/
import EmacZero.CsumCalcBench

namespace EmacZero

namespace CsumBench

variable {bench : CsumBench} {i : CsumIn} {frame : List (BitVec 8)} {gap : Nat}

/-- What the pipeline registers hold. -/
structure Flow (bench : CsumBench) : Prop where
  parsed : bench.frame ≠ [] → bench.engine.Parsed bench.zero bench.frame
  fits : bench.frame.length ≤ 16383
  trails1 : Trails bench.ago1 bench.frame
  trails2 : Trails bench.ago2 bench.ago1
  trails3 : Trails bench.ago3 bench.ago2
  rest1 : 1 ≤ bench.gap → bench.ago1 = bench.frame
  rest2 : 2 ≤ bench.gap → bench.ago2 = bench.ago1
  rest3 : 3 ≤ bench.gap → bench.ago3 = bench.ago2
  p1 : bench.engine.p1 = arrived datagramEnds bench.ago1 bench.frame
  p2 : bench.engine.p2 = arrived datagramEnds bench.ago2 bench.ago1
  p3 : bench.engine.p3 = arrived datagramEnds bench.ago3 bench.ago2
  h1 : bench.engine.h1 = arrived headerEnds bench.ago1 bench.frame
  h2 : bench.engine.h2 = arrived headerEnds bench.ago2 bench.ago1
  folded : bench.engine.h2 = true → 20 ≤ ihlBytes bench.ago1 →
    bench.engine.ipF1R.toNat = foldCarry 16 (headerSum bench.zero bench.ago1)
  judged2 : bench.engine.p2 = true →
    bench.engine.structOkR = wellFormed bench.ago1 ∧
      bench.engine.l4OkR = l4Covered bench.ago1
  total2 : bench.engine.p2 = true → l4Covered bench.ago1 = true →
    bench.engine.l4TotR.toNat = l4Sum bench.zero bench.ago1
  judged3 : bench.engine.p3 = true →
    bench.engine.structOkR = wellFormed bench.ago2 ∧
      bench.engine.l4OkR = l4Covered bench.ago2
  total3 : bench.engine.p3 = true → l4Covered bench.ago2 = true →
    bench.engine.l4F1R.toNat = foldCarry 16 (l4Sum bench.zero bench.ago2) ∧
      l4Sum bench.zero bench.ago2 < 2 ^ 32

/-- The results are those of the bytes so far back.  What a frame that started with
something in the pipelines says before its datagram has ended is left open. -/
structure Results (bench : CsumBench) : Prop where
  done : bench.clean = true ∨ datagramEnded bench.ago3 = true →
    bench.engine.done = datagramWhole bench.ago3
  l4Ok : bench.clean = true ∨ datagramEnded bench.ago3 = true →
    bench.engine.l4Ok = (datagramWhole bench.ago3 && l4Covered bench.ago3)
  l4Sum : datagramWhole bench.ago3 = true → l4Covered bench.ago3 = true →
    bench.engine.l4Sum.toNat = onesFold 16 (EmacZero.l4Sum bench.zero bench.ago3)
  l4Udp : datagramWhole bench.ago1 = true →
    bench.engine.l4Udp = (protocol bench.ago1 == 17)
  ip4 : bench.engine.ip4 = headerWhole bench.ago2
  ipSum : headerWhole bench.ago2 = true →
    bench.engine.ipSum.toNat = onesFold 16 (headerSum bench.zero bench.ago2)

theorem flow_start (zero : Bool) : (start zero).Flow where
  parsed hne := absurd rfl hne
  fits := Nat.zero_le _
  trails1 := Or.inl rfl
  trails2 := Or.inl rfl
  trails3 := Or.inl rfl
  rest1 _ := rfl
  rest2 _ := rfl
  rest3 _ := rfl
  p1 := rfl
  p2 := rfl
  p3 := rfl
  h1 := rfl
  h2 := rfl
  folded hset := absurd hset Bool.false_ne_true
  judged2 hset := absurd hset Bool.false_ne_true
  total2 hset := absurd hset Bool.false_ne_true
  judged3 hset := absurd hset Bool.false_ne_true
  total3 hset := absurd hset Bool.false_ne_true

theorem results_start (zero : Bool) : (start zero).Results where
  done _ := rfl
  l4Ok _ := rfl
  l4Sum hwhole := absurd hwhole (show ¬datagramWhole [] = true by decide)
  l4Udp hwhole := absurd hwhole (show ¬datagramWhole [] = true by decide)
  ip4 := rfl
  ipSum hwhole := absurd hwhole (show ¬headerWhole [] = true by decide)

section Advance

variable (hflow : bench.Flow) (hfirst : CsumCalc.newFrame i = false)
include hflow

theorem ends_of_p1 (hset : bench.engine.p1 = true) :
    datagramEnds bench.frame = true ∧ bench.engine.Parsed bench.zero bench.frame := by
  rw [hflow.p1, arrived_iff] at hset
  exact ⟨hset.2, hflow.parsed (ne_nil_of_datagramEnds hset.2)⟩

theorem p1_of_p2 (hset : bench.engine.p2 = true) : bench.engine.p1 = false := by
  rw [hflow.p2, arrived_iff] at hset
  rw [hflow.p1, hflow.trails1.not_again hset.2]

/-- The header's verdict one cycle after its last byte. -/
theorem Flow.struct4_behind (hends : headerEnds bench.ago1 = true) :
    bench.engine.struct4 = headerWhole bench.ago1 := by
  have hthere := hends
  simp only [headerEnds, Bool.and_eq_true, decide_eq_true_eq] at hthere
  obtain ⟨hip4, hend⟩ := hthere
  have hopen := open_of_isIp4 hip4
  have hmin := le_l3Offset bench.ago1
  have hheader : headerWhole bench.ago1 = (isIp4 bench.ago1 &&
      decide (20 ≤ ihlBytes bench.ago1) &&
      decide (ihlBytes bench.ago1 ≤ totalLength bench.ago1)) := by
    simp [headerWhole, wellFormed, hip4, isIp6_of_isIp4 hip4, hend]
  rcases hflow.trails1 with heq | ⟨data, heq⟩
  · have hparsed := hflow.parsed (by rw [heq]; exact ne_nil_of_headerEnds hends)
    rw [heq] at hparsed
    rw [(hparsed.ip hopen (Or.inl hip4)).header.struct4_eq hparsed.ether hopen, hheader]
  · have hparsed := hflow.parsed (by rw [heq]; simp)
    have hoff := l3Offset_grown hopen data
    have hip4' := (isIp4_grown hopen data).trans hip4
    have hopen' : l3Offset (bench.ago1 ++ [data]) < (bench.ago1 ++ [data]).length := by
      rw [hoff]
      simp
      omega
    rw [heq] at hparsed
    rw [(hparsed.ip hopen' (Or.inl hip4')).header.struct4_eq hparsed.ether hopen', hheader,
      isIp4_grown hopen, ihlBytes_grown hopen]
    by_cases hihl : 20 ≤ ihlBytes bench.ago1
    · have hlong : l3Offset bench.ago1 + 3 < bench.ago1.length := by
        rw [l4Offset, headerLength, isIp6_of_isIp4 hip4] at hend
        simp only [Bool.false_eq_true, if_false] at hend
        omega
      rw [totalLength, totalLength, hoff, wordAt_append (by omega)]
    · simp [hihl]

include hfirst

theorem Flow.advance (hparsed : frame ≠ [] →
      (bench.engine.clkEdge i).Parsed bench.zero frame)
    (hfits : frame.length ≤ 16383) (htrails : Trails bench.frame frame)
    (hgap : gap = 0 ∨ gap = bench.gap + 1 ∧ frame = bench.frame)
    (hlast : (i.inValid && bench.engine.last i) =
      arrived datagramEnds bench.frame frame)
    (hhdrLast : (i.inValid && bench.engine.hdrLast i) =
      arrived headerEnds bench.frame frame) :
    (bench.advance i frame gap).Flow := by
  have hedge : (bench.engine.clkEdge i).toCsumPipes = bench.engine.nextPipes i := rfl
  simp only [CsumCalc.nextPipes, hfirst, Bool.not_false, Bool.and_true, hlast,
    hhdrLast] at hedge
  constructor
  · exact hparsed
  · exact hfits
  · exact htrails
  · exact hflow.trails1
  · exact hflow.trails2
  · intro hone
    change 1 ≤ gap at hone
    rcases hgap with hzero | ⟨_, hsame⟩
    · omega
    · exact hsame.symm
  · intro htwo
    change 2 ≤ gap at htwo
    exact hflow.rest1 (by omega)
  · intro hthree
    change 3 ≤ gap at hthree
    exact hflow.rest2 (by omega)
  · exact congrArg CsumPipes.p1 hedge
  · exact (congrArg CsumPipes.p2 hedge).trans hflow.p1
  · exact (congrArg CsumPipes.p3 hedge).trans hflow.p2
  · exact congrArg CsumPipes.h1 hedge
  · exact (congrArg CsumPipes.h2 hedge).trans hflow.h1
  · intro hset hihl
    have hh1 : bench.engine.h1 = true := (congrArg CsumPipes.h2 hedge).symm.trans hset
    refine (congrArg BitVec.toNat (congrArg CsumPipes.ipF1R hedge)).trans ?_
    dsimp only
    rw [if_pos hh1]
    rw [hflow.h1, arrived_iff] at hh1
    exact CsumCalc.ipF1_eq (hflow.parsed (ne_nil_of_headerEnds hh1.2)) hh1.2 hihl
  · intro hset
    have hp1 : bench.engine.p1 = true := (congrArg CsumPipes.p2 hedge).symm.trans hset
    obtain ⟨hends, hknown⟩ := ends_of_p1 hflow hp1
    constructor
    · refine (congrArg CsumPipes.structOkR hedge).trans ?_
      dsimp only
      rw [if_pos hp1]
      exact CsumCalc.structOk_eq hknown hends hflow.fits
    · refine (congrArg CsumPipes.l4OkR hedge).trans ?_
      dsimp only
      rw [if_pos hp1]
      exact CsumCalc.l4Able_eq hknown hends hflow.fits
  · intro hset hcovered
    have hp1 : bench.engine.p1 = true := (congrArg CsumPipes.p2 hedge).symm.trans hset
    obtain ⟨hends, hknown⟩ := ends_of_p1 hflow hp1
    refine (congrArg BitVec.toNat (congrArg CsumPipes.l4TotR hedge)).trans ?_
    dsimp only
    rw [if_pos hp1]
    exact CsumCalc.total_eq hknown hends hflow.fits hcovered
  · intro hset
    have hp2 : bench.engine.p2 = true := (congrArg CsumPipes.p3 hedge).symm.trans hset
    have hp1 := p1_of_p2 hflow hp2
    obtain ⟨hstruct, hl4⟩ := hflow.judged2 hp2
    constructor
    · refine (congrArg CsumPipes.structOkR hedge).trans ?_
      dsimp only
      rw [if_neg (by simp [hp1])]
      exact hstruct
    · refine (congrArg CsumPipes.l4OkR hedge).trans ?_
      dsimp only
      rw [if_neg (by simp [hp1])]
      exact hl4
  · intro hset hcovered
    have hp2 : bench.engine.p2 = true := (congrArg CsumPipes.p3 hedge).symm.trans hset
    have htotal := hflow.total2 hp2 hcovered
    constructor
    · refine (congrArg BitVec.toNat (congrArg CsumPipes.l4F1R hedge)).trans ?_
      dsimp only [CsumBench.advance]
      rw [if_pos hp2, ← htotal]
      exact @CsumCalc.toNat_fold 16 (by decide) bench.engine.l4TotR
    · change EmacZero.l4Sum bench.zero bench.ago1 < 2 ^ 32
      rw [← htotal]
      exact bench.engine.l4TotR.isLt

theorem Results.advance (hresults : bench.Results) :
    (bench.advance i frame gap).Results := by
  have hedge : (bench.engine.clkEdge i).toCsumResult = bench.engine.nextResult i := rfl
  simp only [CsumCalc.nextResult, hfirst, Bool.false_eq_true, if_false] at hedge
  have hdone : bench.engine.p3 = false →
      bench.clean = true ∨ datagramEnded bench.ago2 = true →
      datagramWhole bench.ago2 = datagramWhole bench.ago3 ∧
        (bench.clean = true ∨ datagramEnded bench.ago3 = true) := by
    intro hquiet hknown
    rw [hflow.p3] at hquiet
    refine ⟨hflow.trails3.unchanged datagramWhole_concat hquiet, ?_⟩
    rcases hknown with hclean | hended
    · exact Or.inl hclean
    · right
      rcases hflow.trails3 with heq | ⟨data, heq⟩
      · rwa [← heq]
      · rw [heq] at hended
        apply datagramEnded_concat _ hended
        rw [heq] at hquiet
        simpa [arrived] using hquiet
  have hwhole3 : bench.engine.p3 = true →
      bench.engine.structOkR = datagramWhole bench.ago2 ∧
        bench.engine.l4OkR = l4Covered bench.ago2 := by
    intro hp3
    obtain ⟨hstruct, hl4⟩ := hflow.judged3 hp3
    rw [hflow.p3, arrived_iff] at hp3
    exact ⟨hstruct.trans (datagramWhole_of_ends hp3.2).symm, hl4⟩
  constructor
  · intro hknown
    refine (congrArg CsumResult.done hedge).trans ?_
    dsimp only [CsumBench.advance] at hknown ⊢
    cases hp3 : bench.engine.p3 with
    | true => exact (hwhole3 hp3).1
    | false =>
        obtain ⟨hsame, hknown'⟩ := hdone hp3 hknown
        rw [hsame]
        exact hresults.done hknown'
  · intro hknown
    refine (congrArg CsumResult.l4Ok hedge).trans ?_
    dsimp only [CsumBench.advance] at hknown ⊢
    cases hp3 : bench.engine.p3 with
    | true =>
        obtain ⟨hwhole, hl4⟩ := hwhole3 hp3
        rw [if_pos rfl, hwhole, hl4]
    | false =>
        obtain ⟨hsame, hknown'⟩ := hdone hp3 hknown
        rw [if_neg Bool.false_ne_true, hresults.l4Ok hknown', hsame]
        cases hwhole : datagramWhole bench.ago3 with
        | false => rfl
        | true =>
            rw [Bool.true_and, Bool.true_and]
            rcases hflow.trails3 with heq | ⟨data, heq⟩
            · rw [heq]
            · rw [heq, l4Covered_settled hwhole]
  · intro hwhole hcovered
    refine (congrArg BitVec.toNat (congrArg CsumResult.l4Sum hedge)).trans ?_
    dsimp only [CsumBench.advance] at hwhole hcovered ⊢
    cases hp3 : bench.engine.p3 with
    | true =>
        obtain ⟨hfold, hlt⟩ := hflow.total3 hp3 hcovered
        rw [if_pos rfl]
        exact CsumCalc.toNat_foldAgain hfold hlt
    | false =>
        rw [if_neg Bool.false_ne_true]
        have hquiet := hp3
        rw [hflow.p3] at hquiet
        rw [hflow.trails3.unchanged datagramWhole_concat hquiet] at hwhole
        rcases hflow.trails3 with heq | ⟨data, heq⟩
        · rw [heq] at hcovered ⊢
          exact hresults.l4Sum hwhole hcovered
        · rw [heq, l4Covered_settled hwhole] at hcovered
          rw [heq, l4Sum_settled hwhole hcovered]
          exact hresults.l4Sum hwhole hcovered
  · intro hwhole
    refine (congrArg CsumResult.l4Udp hedge).trans ?_
    dsimp only [CsumBench.advance] at hwhole ⊢
    cases hp1 : bench.engine.p1 with
    | true =>
        obtain ⟨hends, hknown⟩ := ends_of_p1 hflow hp1
        exact CsumCalc.isUdp_eq hknown hends hflow.fits
    | false =>
        rw [if_neg Bool.false_ne_true]
        have hquiet := hp1
        rw [hflow.p1] at hquiet
        rw [hflow.trails1.unchanged datagramWhole_concat hquiet] at hwhole
        rcases hflow.trails1 with heq | ⟨data, heq⟩
        · rw [heq]
          exact hresults.l4Udp hwhole
        · rw [heq, protocol_settled hwhole]
          exact hresults.l4Udp hwhole
  · refine (congrArg CsumResult.ip4 hedge).trans ?_
    dsimp only [CsumBench.advance]
    cases hh2 : bench.engine.h2 with
    | true =>
        rw [hflow.h2, arrived_iff] at hh2
        exact hflow.struct4_behind hh2.2
    | false =>
        rw [hflow.h2] at hh2
        rw [if_neg Bool.false_ne_true, hflow.trails2.unchanged headerWhole_concat hh2]
        exact hresults.ip4
  · intro hwhole
    refine (congrArg BitVec.toNat (congrArg CsumResult.ipSum hedge)).trans ?_
    dsimp only [CsumBench.advance] at hwhole ⊢
    cases hh2 : bench.engine.h2 with
    | true =>
        obtain ⟨hip4, hformed, _⟩ := headerWhole_iff.mp hwhole
        have hlt := headerSum_lt bench.zero bench.ago1
        rw [if_pos rfl]
        exact CsumCalc.toNat_foldAgain (hflow.folded hh2 (ihl_of_wellFormed hformed hip4))
          (by omega)
    | false =>
        rw [if_neg Bool.false_ne_true]
        rw [hflow.h2] at hh2
        rw [hflow.trails2.unchanged headerWhole_concat hh2] at hwhole
        rcases hflow.trails2 with heq | ⟨data, heq⟩
        · rw [heq]
          exact hresults.ipSum hwhole
        · rw [heq, headerSum_settled hwhole]
          exact hresults.ipSum hwhole

end Advance

/-- A frame may start once the pipelines' first two stages are empty. -/
theorem Flow.quiet (hflow : bench.Flow) (hgap : bench.frame = [] ∨ 2 ≤ bench.gap) :
    bench.engine.p1 = false ∧ bench.engine.p2 = false ∧ bench.engine.h1 = false ∧
      bench.engine.h2 = false := by
  have hsame : bench.ago1 = bench.frame ∧ bench.ago2 = bench.ago1 := by
    rcases hgap with hnil | htwo
    · have hago1 := hflow.trails1.eq_nil hnil
      have hago2 := hflow.trails2.eq_nil hago1
      rw [hnil, hago1, hago2]
      exact ⟨rfl, rfl⟩
    · exact ⟨hflow.rest1 (by omega), hflow.rest2 htwo⟩
  rw [hflow.p1, hflow.p2, hflow.h1, hflow.h2, hsame.2, hsame.1]
  simp [arrived]

theorem Flow.quiet3 (hflow : bench.Flow) (hgap : bench.frame = [] ∨ 3 ≤ bench.gap) :
    bench.engine.p3 = false := by
  have hsame : bench.ago3 = bench.ago2 := by
    rcases hgap with hnil | hthree
    · have hago2 := hflow.trails2.eq_nil (hflow.trails1.eq_nil hnil)
      rw [hago2, hflow.trails3.eq_nil hago2]
    · exact hflow.rest3 hthree
  rw [hflow.p3, hsame]
  simp [arrived]

section First

variable (hflow : bench.Flow) (hgap : bench.frame = [] ∨ 2 ≤ bench.gap) (data : BitVec 8)
include hflow hgap

theorem Flow.first : (bench.step (.first data)).Flow := by
  have hedge : (bench.step (.first data)).engine.toCsumPipes =
    bench.engine.nextPipes (bench.pins (.first data)) := rfl
  have hfirst : CsumCalc.newFrame (bench.pins (.first data)) = true := rfl
  obtain ⟨hp1, hp2, hh1, hh2⟩ := hflow.quiet hgap
  have hnone : arrived datagramEnds [] [data] = false ∧
      arrived headerEnds [] [data] = false := by
    have hshort : [data].length < 14 := show 1 < 14 by decide
    have hmin := le_l3Offset [data]
    constructor
    · rw [arrived, datagramEnds, decide_eq_false (show ¬lengthsAt [data] < _ by
        unfold lengthsAt
        omega)]
      simp
    · rw [arrived, headerEnds, decide_eq_false (show ¬l4Offset [data] = _ by
        unfold l4Offset
        omega)]
      simp
  simp only [CsumCalc.nextPipes, hfirst, Bool.not_true, Bool.and_false, Bool.false_and,
    hp1, hp2, hh1] at hedge
  have hunset : ∀ {value : Bool} {claim : Prop}, value = false → value = true → claim :=
    fun hfalse htrue => absurd (hfalse.symm.trans htrue) Bool.false_ne_true
  constructor
  · intro _
    exact CsumCalc.Parsed.of_newFrame hfirst data
  · exact show 1 ≤ 16383 by decide
  · exact Or.inr ⟨data, rfl⟩
  · exact Or.inl rfl
  · exact Or.inl rfl
  · intro hone
    exact absurd hone (show ¬1 ≤ 0 by decide)
  · intro _
    rfl
  · intro _
    rfl
  · exact (congrArg CsumPipes.p1 hedge).trans hnone.1.symm
  · exact congrArg CsumPipes.p2 hedge
  · exact congrArg CsumPipes.p3 hedge
  · exact (congrArg CsumPipes.h1 hedge).trans hnone.2.symm
  · exact congrArg CsumPipes.h2 hedge
  · exact hunset (congrArg CsumPipes.h2 hedge)
  · exact hunset (congrArg CsumPipes.p2 hedge)
  · exact hunset (congrArg CsumPipes.p2 hedge)
  · exact hunset (congrArg CsumPipes.p3 hedge)
  · exact hunset (congrArg CsumPipes.p3 hedge)

theorem Results.first : (bench.step (.first data)).Results := by
  have hedge : (bench.step (.first data)).engine.toCsumResult =
    bench.engine.nextResult (bench.pins (.first data)) := rfl
  have hfirst : CsumCalc.newFrame (bench.pins (.first data)) = true := rfl
  obtain ⟨hp1, hp2, hh1, hh2⟩ := hflow.quiet hgap
  have hempty : datagramWhole [] = false ∧ headerWhole [] = false := by decide
  have hclean : (bench.step (.first data)).clean = true ∨ datagramEnded [] = true →
      bench.engine.p3 = false := by
    rintro (hset | hended)
    · have hnot : (!bench.engine.p3) = true := hset
      simpa using hnot
    · exact absurd hended (by decide)
  simp only [CsumCalc.nextResult, hfirst, hp1, hh2, Bool.false_eq_true, if_false,
    if_true] at hedge
  constructor
  · intro hknown
    refine (congrArg CsumResult.done hedge).trans ?_
    dsimp only
    rw [hclean hknown]
    exact hempty.1.symm
  · intro hknown
    refine (congrArg CsumResult.l4Ok hedge).trans ?_
    dsimp only
    rw [hclean hknown]
    exact (congrArg (· && l4Covered []) hempty.1).symm
  · intro hwhole
    exact absurd (hempty.1.symm.trans hwhole) Bool.false_ne_true
  · intro hwhole
    exact absurd (hempty.1.symm.trans hwhole) Bool.false_ne_true
  · exact (congrArg CsumResult.ip4 hedge).trans hempty.2.symm
  · intro hwhole
    exact absurd (hempty.2.symm.trans hwhole) Bool.false_ne_true

end First

theorem feeds_next (hlegal : bench.frame ≠ [] ∧ bench.frame.length < 16383)
    (data : BitVec 8) :
    CsumCalc.Feeds bench.zero (bench.pins (.next data)) bench.frame data where
  valid := rfl
  zeroFields := rfl
  inIdx := rfl
  inData := rfl
  started := hlegal.1
  fits := hlegal.2

theorem step_known {spacing : Nat} (hspacing : 2 ≤ spacing) {event : CsumEvent}
    (hlegal : bench.Legal spacing event) (hflow : bench.Flow) (hresults : bench.Results) :
    (bench.step event).Flow ∧ (bench.step event).Results := by
  cases event with
  | idle inIdx inData =>
      have hidle : (bench.pins (.idle inIdx inData)).inValid = false := rfl
      have hfirst : CsumCalc.newFrame (bench.pins (.idle inIdx inData)) = false := rfl
      have hsame : ∀ ends, arrived ends bench.frame bench.frame = false := by
        intro ends
        simp [arrived]
      refine ⟨?_, hresults.advance hflow hfirst⟩
      apply hflow.advance hfirst
      · intro hne
        exact (hflow.parsed hne).of_same (CsumCalc.idle_clkEdge hidle)
      · exact hflow.fits
      · exact Or.inl rfl
      · exact Or.inr ⟨rfl, rfl⟩
      · rw [hidle, hsame, Bool.false_and]
      · rw [hidle, hsame, Bool.false_and]
  | next data =>
      have hfeeds := feeds_next hlegal data
      have hknown := hflow.parsed hlegal.1
      have hnew : ∀ ends, arrived ends bench.frame (bench.frame ++ [data]) =
          ends (bench.frame ++ [data]) := by
        intro ends
        simp [arrived]
      refine ⟨?_, hresults.advance hflow hfeeds.not_newFrame⟩
      apply hflow.advance hfeeds.not_newFrame
      · intro _
        exact hknown.step hfeeds
      · have hfits := hlegal.2
        simp
        omega
      · exact Or.inr ⟨data, rfl⟩
      · exact Or.inl rfl
      · rw [hfeeds.valid, hnew, Bool.true_and, CsumCalc.last_eq hknown hfeeds]
      · rw [hfeeds.valid, hnew, Bool.true_and, CsumCalc.hdrLast_eq hknown hfeeds]
  | first data =>
      have hgap : bench.frame = [] ∨ 2 ≤ bench.gap := hlegal.imp id hspacing.trans
      exact ⟨hflow.first hgap data, Results.first hflow hgap data⟩

end CsumBench

end EmacZero
