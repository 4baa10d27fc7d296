/-
`csum_calc` says of every frame what the Internet checksum of its datagram is, and
none of its adders overflows on the way.
-/
import EmacZero.CsumCalcFlow

namespace EmacZero

namespace CsumCalc

variable {zero : Bool} {s : CsumCalc} {i : CsumIn} {frame : List (BitVec 8)}
  {data : BitVec 8}

/-- The accumulators hold no more than the bytes so far can add up to. -/
structure Bounded (s : CsumCalc) (frame : List (BitVec 8)) : Prop where
  ipAcc : s.ipAcc.toNat ≤
    wordSum (slice frame (l3Offset frame) (l3Offset frame + 64))
  phAcc : s.phAcc.toNat ≤
    wordSum (slice frame (l3Offset frame) (l3Offset frame + 64))
  l4Acc : s.l4Acc.toNat ≤ wordSum frame

theorem wordSum_grows (frame : List (BitVec 8)) (data : BitVec 8) :
    wordSum (slice frame (l3Offset frame) (l3Offset frame + 64)) ≤
      wordSum (slice (frame ++ [data]) (l3Offset (frame ++ [data]))
        (l3Offset (frame ++ [data]) + 64)) := by
  have hmin := le_l3Offset frame
  rcases Nat.lt_or_ge frame.length 14 with hlt | hge
  · rw [slice_empty (by omega)]
    exact Nat.zero_le _
  · rw [l3Offset_concat hge, wordSum_slice_concat _ _ (l3Offset_even frame)]
    exact Nat.le_add_right _ _

/-- An accumulator of the IP header that a byte is added to or not. -/
theorem bounded_acc {acc : BitVec 24} {adds : Bool} (hether : s.EtherRegs frame)
    (hfeeds : Feeds zero i frame data)
    (hacc : acc.toNat ≤ wordSum (slice frame (l3Offset frame) (l3Offset frame + 64)))
    (hin : adds = true → s.inL3 = true ∧ (s.r i).toNat < 64) :
    (if adds then acc + (weight i).setWidth 24 else acc).toNat ≤
      wordSum (slice (frame ++ [data]) (l3Offset (frame ++ [data]))
        (l3Offset (frame ++ [data]) + 64)) := by
  have hgrows := wordSum_grows frame data
  cases hadds : adds with
  | false => exact hacc.trans hgrows
  | true =>
      obtain ⟨hopen, hr⟩ := hin hadds
      have hknown : l3Offset frame ≤ frame.length := by
        rw [inL3, hether.known, Bool.and_eq_true, decide_eq_true_eq] at hopen
        exact hopen.1
      have hmin := le_l3Offset frame
      rw [hether.r_toNat hfeeds hknown] at hr
      have hsum := wordSum_slice_le (frame ++ [data]) (l3Offset frame)
        (l3Offset frame + 64)
      rw [show (l3Offset frame + 64 - l3Offset frame + 1) / 2 = 32 by omega] at hsum
      have hinside : l3Offset frame ≤ frame.length ∧
          frame.length < l3Offset frame + 64 := ⟨hknown, by omega⟩
      rw [wordSum_slice_concat _ _ (l3Offset_even frame), if_pos hinside] at hsum
      rw [if_pos rfl, l3Offset_concat (by omega),
        wordSum_slice_concat _ _ (l3Offset_even frame), if_pos hinside,
        acc_add hfeeds (by decide) (by omega)]
      omega

theorem Bounded.step (hbounded : s.Bounded frame) (hether : s.EtherRegs frame)
    (hfeeds : Feeds zero i frame data) : (s.clkEdge i).Bounded (frame ++ [data]) := by
  have hedge : (s.clkEdge i).toCsumSums = s.nextSums i := rfl
  have hfits := hfeeds.fits
  simp only [nextSums, hfeeds.not_newFrame, hfeeds.valid, Bool.false_eq_true, if_false,
    if_true] at hedge
  constructor
  · rw [congrArg CsumSums.ipAcc hedge]
    apply bounded_acc hether hfeeds hbounded.ipAcc
    intro hadds
    rw [Bool.and_eq_true] at hadds
    obtain ⟨hin, _⟩ := hadds
    rw [inIp4h, Bool.and_eq_true, Bool.and_eq_true, BitVec.ult_eq_decide,
      decide_eq_true_eq, BitVec.toNat_setWidth] at hin
    have hhdr := s.hdrLen.isLt
    exact ⟨hin.1.1, by omega⟩
  · rw [congrArg CsumSums.phAcc hedge]
    apply bounded_acc hether hfeeds hbounded.phAcc
    intro hadds
    rw [inPh, Bool.and_eq_true] at hadds
    refine ⟨hadds.1, ?_⟩
    have hrange := hadds.2
    split at hrange
    · rw [Bool.and_eq_true, BitVec.ult_eq_decide, decide_eq_true_eq] at hrange
      exact hrange.2.trans (by decide)
    · rw [Bool.and_eq_true, BitVec.ult_eq_decide, decide_eq_true_eq] at hrange
      exact hrange.2.trans (by decide)
  · have hacc := hbounded.l4Acc
    have hsum := wordSum_le (frame ++ [data])
    rw [wordSum_concat, List.length_append, List.length_singleton] at hsum
    rw [congrArg CsumSums.l4Acc hedge, wordSum_concat]
    dsimp only
    have hhalf : (frame.length + 1 + 1) / 2 ≤ 8192 := by omega
    have hmul := Nat.mul_le_mul_left 65535 hhalf
    split
    · rw [acc_add hfeeds (by decide) (by omega)]
      omega
    · omega

theorem Bounded.of_same {t : CsumCalc} (hsame : s.SameParse t) (hbounded : s.Bounded frame) :
    t.Bounded frame := by
  obtain ⟨hip, hph, hl4⟩ := hbounded
  constructor
  · rw [congrArg CsumSums.ipAcc hsame.sums]
    exact hip
  · rw [congrArg CsumSums.phAcc hsame.sums]
    exact hph
  · rw [congrArg CsumSums.l4Acc hsame.sums]
    exact hl4

/-- Every adder has room: the accumulators for one more byte, the total for all that it
adds, the second folds for their carry. -/
structure Roomy (s : CsumCalc) : Prop where
  ipAcc : s.ipAcc.toNat + 65280 < 2 ^ 24
  phAcc : s.phAcc.toNat + 65280 < 2 ^ 24
  l4Acc : s.l4Acc.toNat + 65280 < 2 ^ 32
  total : s.l4Acc.toNat + (s.phAcc.toNat + s.proto.toNat + s.phLen.toNat) < 2 ^ 32
  ipFold : s.ipF1R.toNat % 2 ^ 16 + s.ipF1R.toNat / 2 ^ 16 < 2 ^ 16
  l4Fold : s.l4F1R.toNat % 2 ^ 16 + s.l4F1R.toNat / 2 ^ 16 < 2 ^ 16

theorem roomy_of_bounded (hbounded : s.Bounded frame) (hfits : frame.length ≤ 16383)
    (hipF1R : s.ipF1R.toNat ≤ 131070) (hl4F1R : s.l4F1R.toNat ≤ 131070) : s.Roomy := by
  obtain ⟨hip, hph, hl4⟩ := hbounded
  have hheader := wordSum_slice_le frame (l3Offset frame) (l3Offset frame + 64)
  rw [show (l3Offset frame + 64 - l3Offset frame + 1) / 2 = 32 by omega] at hheader
  have hsum := wordSum_le frame
  have hhalf : (frame.length + 1) / 2 ≤ 8192 := by omega
  have hmul := Nat.mul_le_mul_left 65535 hhalf
  have hproto := s.proto.isLt
  have hlen := s.phLen.isLt
  constructor <;> omega

/-- A fold of two words. -/
theorem fold_le (sum : BitVec 32) :
    ((sum.extractLsb' 0 16).setWidth 17 + (sum.extractLsb' 16 16).setWidth 17).toNat ≤
      131070 := by
  have hlt := sum.isLt
  rw [@toNat_fold 16 (by decide) sum, foldCarry]
  omega

theorem ipF1_le (s : CsumCalc) : s.ipF1.toNat ≤ 131070 := by
  have hlt := s.ipAcc.isLt
  rw [ipF1, @toNat_fold 8 (by decide) s.ipAcc, foldCarry]
  omega

end CsumCalc

namespace CsumBench

variable {bench : CsumBench}

/-- What `csum_calc` is to say of the bytes it has had: of the header two cycles, of the
datagram three cycles after they were there, and so of the whole frame once it has
been idle for as long. -/
structure Reference (bench : CsumBench) : Prop where
  done : bench.engine.done = datagramWhole bench.ago3
  ip4 : bench.engine.ip4 = headerWhole bench.ago2
  header : bench.engine.ip4 = true →
    bench.engine.ipSum.toNat = onesFold 16 (headerSum bench.zero bench.ago2) ∧
      bench.engine.hdrEnd.toNat = l4Offset bench.ago2 ∧
      bench.engine.ipCsumPos.toNat = l3Offset bench.ago2 + 10
  l4Ok : bench.engine.l4Ok = (datagramWhole bench.ago3 && l4Covered bench.ago3)
  l4 : bench.engine.l4Ok = true →
    bench.engine.l4Sum.toNat = onesFold 16 (l4Sum bench.zero bench.ago3) ∧
      bench.engine.l4CsumPos.toNat = csumPos bench.ago3 ∧
      bench.engine.l4Field = wordAt bench.ago3 (csumPos bench.ago3) ∧
      bench.engine.l4Udp = (protocol bench.ago3 == 17)
  roomy : bench.engine.Roomy
  settled : 3 ≤ bench.gap → bench.ago2 = bench.frame ∧ bench.ago3 = bench.frame

/-- The accumulators and the first folds, along a run. -/
structure Adders (bench : CsumBench) : Prop where
  bounded : bench.engine.Bounded bench.frame
  ipF1R : bench.engine.ipF1R.toNat ≤ 131070
  l4F1R : bench.engine.l4F1R.toNat ≤ 131070

theorem Adders.step {spacing : Nat} {event : CsumEvent}
    (hlegal : bench.Legal spacing event) (hflow : bench.Flow) (hadders : bench.Adders) :
    (bench.step event).Adders := by
  have hedge : (bench.step event).engine.toCsumPipes =
      bench.engine.nextPipes (bench.pins event) := by
    cases event <;> rfl
  constructor
  · cases event with
    | idle inIdx inData =>
        exact hadders.bounded.of_same (CsumCalc.idle_clkEdge rfl)
    | next data =>
        have hfeeds := feeds_next hlegal data
        exact hadders.bounded.step (hflow.parsed hlegal.1).ether hfeeds
    | first data =>
        have hfresh := @CsumCalc.fresh_of_newFrame bench.engine (bench.pins (.first data)) rfl
        have hsums := hfresh.sums
        constructor
        · exact (congrArg BitVec.toNat (congrArg CsumSums.ipAcc hsums)).trans_le
            (Nat.zero_le _)
        · exact (congrArg BitVec.toNat (congrArg CsumSums.phAcc hsums)).trans_le
            (Nat.zero_le _)
        · exact (congrArg BitVec.toNat (congrArg CsumSums.l4Acc hsums)).trans_le
            (Nat.zero_le _)
  · rw [congrArg CsumPipes.ipF1R hedge]
    dsimp only [CsumCalc.nextPipes]
    split
    · exact CsumCalc.ipF1_le bench.engine
    · exact hadders.ipF1R
  · rw [congrArg CsumPipes.l4F1R hedge]
    dsimp only [CsumCalc.nextPipes]
    split
    · exact CsumCalc.fold_le bench.engine.l4TotR
    · exact hadders.l4F1R

section Live

variable (hflow : bench.Flow)
include hflow

/-- The positions that the header's results come with. -/
theorem header_live (hwhole : headerWhole bench.ago2 = true) :
    bench.engine.hdrEnd.toNat = l4Offset bench.ago2 ∧
      bench.engine.ipCsumPos.toNat = l3Offset bench.ago2 + 10 := by
  obtain ⟨hip4, hformed, hin⟩ := headerWhole_iff.mp hwhole
  obtain ⟨hproto, _⟩ := protocolAt_le_datagramEnd hformed
  have hlengths := lengthsAt_le_protocolAt bench.ago2
  have hopen := open_of_isIp4 hip4
  obtain ⟨rest, hrest⟩ := hflow.trails2.isPrefix.trans hflow.trails1.isPrefix
  obtain ⟨hl3, hl4, hfour, hsix⟩ := layout_append hopen rest
  rw [hrest] at hl3 hl4 hfour hsix
  have hlength : bench.ago2.length ≤ bench.frame.length := by
    rw [← hrest, List.length_append]
    exact Nat.le_add_right _ _
  have hopen' : l3Offset bench.frame < bench.frame.length := by omega
  have hknown := hflow.parsed (List.ne_nil_of_length_pos (by omega))
  have hbounds := (hknown.ip hopen' (Or.inl (hfour.trans hip4))).bounds
  have hlate : lengthsAt bench.frame ≤ bench.frame.length := by
    have hsame : lengthsAt bench.frame = lengthsAt bench.ago2 := by
      rw [lengthsAt, lengthsAt, hl3, hsix]
    omega
  rw [← hl4, ← hl3]
  exact ⟨hbounds.l4Start hlate, hbounds.ipCsumPos hlate⟩

/-- The registers that stand for the datagram once it is whole. -/
theorem whole_live (hwhole : datagramWhole bench.ago3 = true) :
    bench.engine.l3End.toNat = datagramEnd bench.ago3 ∧
      bench.engine.hdrEnd.toNat = l4Offset bench.ago3 ∧
      bench.engine.l4CsumPos.toNat = csumPos bench.ago3 ∧
      (l4Covered bench.ago3 = true →
        bench.engine.l4Field = wordAt bench.ago3 (csumPos bench.ago3)) := by
  obtain ⟨rest, hrest⟩ := hflow.trails3.isPrefix.trans
    (hflow.trails2.isPrefix.trans hflow.trails1.isPrefix)
  have hnow := datagramWhole_append hwhole rest
  have hl4 := (layout_append (open_of_whole hwhole) rest).2.1
  have hend := settled_append datagramEnd_settled hwhole rest
  have hpos := csumPos_append hwhole rest
  have hcover := settled_append l4Covered_settled hwhole rest
  rw [hrest] at hnow hl4 hend hpos hcover
  have hopen := open_of_whole hnow
  have hlate := protocolAt_of_whole hnow
  have hlengths := lengthsAt_le_protocolAt bench.frame
  obtain ⟨hformed, hin⟩ := datagramWhole_iff.mp hnow
  have hfits := hflow.fits
  have hknown := hflow.parsed (List.ne_nil_of_length_pos (by omega))
  have hregs := hknown.ip hopen (ip_of_wellFormed hformed)
  have hok : bench.engine.lenOk = true := by
    simp [hregs.bounds.lenOk, show lengthsAt bench.frame ≤ bench.frame.length by omega,
      show datagramEnd bench.frame ≤ 16383 by omega]
  rw [← hend, ← hl4, ← hpos]
  refine ⟨hregs.bounds.l3End hok, hregs.bounds.l4Start (by omega),
    hregs.bounds.l4CsumPos hlate, ?_⟩
  intro hcovered
  have hcovered' := hcover.trans hcovered
  simp only [l4Covered, Bool.and_eq_true, decide_eq_true_eq] at hcovered hcovered'
  have hroom := hcovered.1.2
  obtain ⟨hformed3, hin3⟩ := datagramWhole_iff.mp hwhole
  have htotal := l4Offset_add_l4Length (header_of_wellFormed hformed3)
  have hl4Regs := hregs.l4 (laid_of_wellFormed hformed (by omega))
    ((protocolAt_le_datagramEnd hformed).2.trans hin)
  rw [hl4Regs.l4Field hcovered'.1.2, hpos, ← hrest, wordAt_append]
  unfold csumPos
  omega

/-- The UDP flag is set two cycles before the verdict. -/
theorem l4Udp_live (hresults : bench.Results) (hwhole : datagramWhole bench.ago3 = true) :
    bench.engine.l4Udp = (protocol bench.ago3 == 17) := by
  obtain ⟨rest, hrest⟩ := hflow.trails3.isPrefix.trans hflow.trails2.isPrefix
  have hnow := datagramWhole_append hwhole rest
  have hproto := settled_append protocol_settled hwhole rest
  rw [hrest] at hnow hproto
  rw [hresults.l4Udp hnow, hproto]

end Live

theorem known_along {spacing : Nat} (hspacing : 2 ≤ spacing) (zero : Bool)
    {events : List CsumEvent} (hlegal : Along step (Legal spacing) (start zero) events) :
    (runFrom step (start zero) events).Flow ∧
      (runFrom step (start zero) events).Results ∧
      (runFrom step (start zero) events).Adders := by
  have hinv : ∀ bench event, Legal spacing bench event →
      (bench.Flow ∧ bench.Results ∧ bench.Adders) →
      ((bench.step event).Flow ∧ (bench.step event).Results ∧
        (bench.step event).Adders) := by
    intro bench event hlegal hknown
    obtain ⟨hflow, hresults, hadders⟩ := hknown
    obtain ⟨hflow', hresults'⟩ := step_known hspacing hlegal hflow hresults
    exact ⟨hflow', hresults', hadders.step hlegal hflow⟩
  have hstart : (start zero).Adders := by
    constructor
    · exact ⟨Nat.zero_le _, Nat.zero_le _, Nat.zero_le _⟩
    · exact Nat.zero_le _
    · exact Nat.zero_le _
  exact invariant_along hinv ⟨flow_start zero, results_start zero, hstart⟩ hlegal

/-- Four cycles between frames leave nothing in the pipelines. -/
theorem clean_step {event : CsumEvent} (hlegal : bench.Legal 4 event)
    (hknown : bench.clean = true ∧ bench.Flow ∧ bench.Results) :
    (bench.step event).clean = true ∧ (bench.step event).Flow ∧
      (bench.step event).Results := by
  obtain ⟨hclean, hflow, hresults⟩ := hknown
  refine ⟨?_, step_known (by decide) hlegal hflow hresults⟩
  cases event with
  | idle inIdx inData => exact hclean
  | next data => exact hclean
  | first data =>
      have hquiet := hflow.quiet3 (hlegal.imp id (by omega))
      exact congrArg not hquiet

theorem clean_along (zero : Bool) {events : List CsumEvent}
    (hlegal : Along step (Legal 4) (start zero) events) :
    (runFrom step (start zero) events).clean = true := by
  have hinv (bench : CsumBench) (event : CsumEvent) (hlegal : bench.Legal 4 event)
      (hknown : bench.clean = true ∧ bench.Flow ∧ bench.Results) :
      (bench.step event).clean = true ∧ (bench.step event).Flow ∧ (bench.step event).Results :=
    clean_step hlegal hknown
  exact (invariant_along hinv ⟨rfl, flow_start zero, results_start zero⟩ hlegal).1

/-- For every sequence of frames, every pattern of gaps and either setting of
`zero_fields`, in every cycle. -/
theorem reference_run (zero : Bool) {events : List CsumEvent}
    (hlegal : Along step (Legal 4) (start zero) events) :
    (runFrom step (start zero) events).Reference := by
  obtain ⟨hflow, hresults, hadders⟩ := known_along (by decide) zero hlegal
  have hclean := clean_along zero hlegal
  have hdone := hresults.done (Or.inl hclean)
  have hl4Ok := hresults.l4Ok (Or.inl hclean)
  constructor
  · exact hdone
  · exact hresults.ip4
  · intro hip4
    rw [hresults.ip4] at hip4
    exact ⟨hresults.ipSum hip4, header_live hflow hip4⟩
  · exact hl4Ok
  · intro hset
    rw [hl4Ok, Bool.and_eq_true] at hset
    obtain ⟨hwhole, hcovered⟩ := hset
    obtain ⟨_, _, hpos, hfield⟩ := whole_live hflow hwhole
    exact ⟨hresults.l4Sum hwhole hcovered, hpos, hfield hcovered,
      l4Udp_live hflow hresults hwhole⟩
  · exact CsumCalc.roomy_of_bounded hadders.bounded hflow.fits hadders.ipF1R hadders.l4F1R
  · intro hthree
    have hago1 := hflow.rest1 (by omega)
    have hago2 := hflow.rest2 (by omega)
    have hago3 := hflow.rest3 hthree
    rw [hago3, hago2, hago1]
    exact ⟨rfl, rfl⟩

/-- An ICMP echo request, after which the engine idles, and one more frame. -/
def echoRequest : List (BitVec 8) :=
  List.replicate 12 0x02 ++ [0x08, 0x00] ++
    [0x45, 0, 0, 28, 0, 0, 0, 0, 64, 1, 0xAB, 0xCD, 10, 0, 0, 1, 10, 0, 0, 2] ++
    [8, 0, 0x12, 0x34, 0, 1, 0, 2]

def echoEvents : List CsumEvent :=
  .first 0x02 :: echoRequest.tail.map .next ++ List.replicate 4 (.idle 7 0xFF) ++
    [.first 0x02, .next 0x02]

theorem reference_run_echo :
    (runFrom step (start true) echoEvents).Reference ∧
      (runFrom step (start true) (echoEvents.take 45)).engine.l4Ok = true :=
  ⟨reference_run true (by decide +kernel), by decide +kernel⟩

end CsumBench

end EmacZero
