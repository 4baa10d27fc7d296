/-
`csum_calc` with an observer on its inputs: its pipelines trail the bytes by one to
three cycles, and its results are those of the bytes that far behind.
-/
import EmacZero.ClockedRun
import EmacZero.CsumCalcAnswer

namespace EmacZero

/-- The version is in the IP header's first byte. -/
theorem open_of_isIp4 {frame : List (BitVec 8)} (hip4 : isIp4 frame = true) :
    l3Offset frame < frame.length := by
  by_contra hshort
  have hmissing : byteAt frame (l3Offset frame) = 0 := byteAt_of_le (Nat.le_of_not_lt hshort)
  rw [isIp4, ipVersion, hmissing, Bool.and_eq_true] at hip4
  exact absurd hip4.2 (by decide)

namespace CsumCalc

variable {zero : Bool} {s : CsumCalc} {i : CsumIn} {frame : List (BitVec 8)}
  {data : BitVec 8}

/-- The byte that ends the datagram. -/
theorem last_eq (hparsed : s.Parsed zero frame) (hfeeds : Feeds zero i frame data) :
    s.last i = datagramEnds (frame ++ [data]) := by
  have hgrown : (frame ++ [data]).length = frame.length + 1 := by simp
  have hafter : l3Offset (frame ++ [data]) + 5 ≤ lengthsAt (frame ++ [data]) := by
    unfold lengthsAt
    split <;> omega
  have hfits := hfeeds.fits
  by_cases hopen : l3Offset frame < frame.length
  · rw [last, hparsed.ether.inL3_open hopen, datagramEnds, isIp4_grown hopen,
      isIp6_grown hopen, lengthsAt_grown hopen, hgrown]
    by_cases hip : isIp4 frame = true ∨ isIp6 frame = true
    · have hbounds := (hparsed.ip hopen hip).bounds
      rw [(Bool.or_eq_true _ _).mpr hip, Bool.true_and, Bool.true_and, hbounds.lenOk]
      by_cases hin : lengthsAt frame ≤ frame.length
      · rw [datagramEnd_grown (by omega)]
        by_cases hroom : datagramEnd frame ≤ 16383
        · have hok : s.lenOk = true := by simp [hbounds.lenOk, hin, hroom]
          have hend := hbounds.l3End hok
          have hpos : 14 ≤ datagramEnd frame := by
            have hmin := le_l3Offset frame
            unfold datagramEnd
            omega
          have hminus : (s.l3End - 1).toNat = datagramEnd frame - 1 := by
            rw [BitVec.toNat_sub_of_le, hend]
            · rfl
            · rw [BitVec.le_def, hend]
              exact (show 1 ≤ 14 by decide).trans hpos
          rw [hfeeds.beq_eq hminus, decide_eq_true hin, decide_eq_true hroom,
            decide_eq_true (show lengthsAt frame < frame.length + 1 by omega), Bool.true_and,
            Bool.true_and, Bool.true_and]
          exact decide_eq_decide.mpr (by omega)
        · rw [decide_eq_false hroom, decide_eq_false (show ¬datagramEnd frame = _ by omega)]
          simp
      · rw [decide_eq_false hin, decide_eq_false (show ¬lengthsAt frame < _ by omega)]
        simp
    · rw [(Bool.eq_false_iff).mpr fun hany => hip ((Bool.or_eq_true _ _).mp hany)]
      simp
  · have hlate : lengthsAt (frame ++ [data]) < (frame ++ [data]).length → False := by
      intro hlt
      have hmin := le_l3Offset (frame ++ [data])
      rw [l3Offset_concat (by omega)] at hafter
      omega
    rw [datagramEnds, decide_eq_false hlate, Bool.and_false, Bool.false_and, last]
    rcases Nat.lt_or_ge frame.length (l3Offset frame) with hlt | hge
    · rw [inL3, hparsed.ether.known, decide_eq_false (by omega)]
      rfl
    · rw [(hparsed.fresh (by omega)).lenOk]
      simp

/-- The byte that ends the IPv4 header. -/
theorem hdrLast_eq (hparsed : s.Parsed zero frame) (hfeeds : Feeds zero i frame data) :
    s.hdrLast i = headerEnds (frame ++ [data]) := by
  have hgrown : (frame ++ [data]).length = frame.length + 1 := by simp
  have hfits := hfeeds.fits
  by_cases hopen : l3Offset frame < frame.length
  · have hr := hparsed.ether.r_toNat hfeeds hopen.le
    rw [hdrLast, inIp4h, hparsed.ether.inL3_open hopen, hparsed.ether.fam4_eq hopen,
      headerEnds, isIp4_grown hopen, l4Offset_grown hopen, hgrown]
    cases hip4 : isIp4 frame with
    | false => simp
    | true =>
        have hhdr := (hparsed.ip hopen (Or.inl hip4)).header.hdrLen hip4
        have hmax := ihlBytes_le frame
        have hwidth : (s.hdrLen.setWidth 14).toNat = ihlBytes frame := by
          rw [BitVec.toNat_setWidth, hhdr, Nat.mod_eq_of_lt (by omega)]
        rw [Bool.true_or, Bool.true_and, Bool.true_and, Bool.true_and,
          BitVec.ult_eq_decide, hr, hwidth, l4Offset, headerLength, isIp6_of_isIp4 hip4,
          Bool.eq_iff_iff]
        simp only [Bool.and_eq_true, decide_eq_true_eq, beq_iff_eq, Bool.false_eq_true,
          if_false]
        constructor
        · rintro ⟨hin, heq⟩
          have hlast := congrArg BitVec.toNat heq
          rw [hr, BitVec.toNat_sub_of_le (by rw [BitVec.le_def, hwidth]; simp; omega),
            hwidth] at hlast
          simp at hlast
          omega
        · intro heq
          refine ⟨by omega, ?_⟩
          rw [← BitVec.toNat_inj, hr,
            BitVec.toNat_sub_of_le (by rw [BitVec.le_def, hwidth]; simp; omega), hwidth]
          simp
          omega
  · have hnone : headerEnds (frame ++ [data]) = false := by
      rw [headerEnds, Bool.and_eq_false_iff]
      by_cases hip4 : isIp4 (frame ++ [data]) = true
      · right
        have hmin := le_l3Offset (frame ++ [data])
        have hin := open_of_isIp4 hip4
        have hoff := l3Offset_concat (show 14 ≤ frame.length by omega) data
        apply decide_eq_false
        rw [l4Offset, headerLength, isIp6_of_isIp4 hip4, ihlBytes, hgrown, hoff]
        simp only [Bool.false_eq_true, if_false]
        omega
      · left
        exact Bool.eq_false_iff.mpr hip4
    rw [hnone, hdrLast]
    rcases Nat.lt_or_ge frame.length (l3Offset frame) with hlt | hge
    · rw [inIp4h, inL3, hparsed.ether.known, decide_eq_false (by omega)]
      rfl
    · have hlength : frame.length = l3Offset frame := by omega
      have hr : s.r i = 0 := by
        rw [← BitVec.toNat_inj, hparsed.ether.r_toNat hfeeds hge, hlength, Nat.sub_self]
        rfl
      rw [hr, congrArg CsumHeader.hdrLen (hparsed.fresh hlength.le).header]
      simp

end CsumCalc

/-- A cycle of the engine's inputs: no byte (with anything on the other inputs), a
frame's byte 0, or the next byte of the frame. -/
inductive CsumEvent where
  | idle (inIdx : BitVec 14) (inData : BitVec 8)
  | first (data : BitVec 8)
  | next (data : BitVec 8)
deriving Repr, DecidableEq

/-- The engine, the bytes of the frame it has been given, those of one, two and three
cycles ago, the cycles since the last byte, and whether the pipelines were empty when
the frame started. -/
structure CsumBench where
  engine : CsumCalc
  zero : Bool
  frame : List (BitVec 8)
  ago1 : List (BitVec 8)
  ago2 : List (BitVec 8)
  ago3 : List (BitVec 8)
  gap : Nat
  clean : Bool

namespace CsumBench

def start (zero : Bool) : CsumBench where
  engine := .reset
  zero := zero
  frame := []
  ago1 := []
  ago2 := []
  ago3 := []
  gap := 0
  clean := true

def pins (bench : CsumBench) : CsumEvent → CsumIn
  | .idle inIdx inData => ⟨false, inIdx, inData, bench.zero⟩
  | .first data => ⟨true, 0, data, bench.zero⟩
  | .next data => ⟨true, BitVec.ofNat 14 bench.frame.length, data, bench.zero⟩

/-- A cycle that starts no frame. -/
def advance (bench : CsumBench) (i : CsumIn) (frame : List (BitVec 8)) (gap : Nat) :
    CsumBench where
  engine := bench.engine.clkEdge i
  zero := bench.zero
  frame := frame
  ago1 := bench.frame
  ago2 := bench.ago1
  ago3 := bench.ago2
  gap := gap
  clean := bench.clean

def step (bench : CsumBench) (event : CsumEvent) : CsumBench :=
  match event with
  | .idle _ _ => bench.advance (bench.pins event) bench.frame (bench.gap + 1)
  | .next data => bench.advance (bench.pins event) (bench.frame ++ [data]) 0
  | .first data =>
      { engine := bench.engine.clkEdge (bench.pins event)
        zero := bench.zero
        frame := [data]
        ago1 := []
        ago2 := []
        ago3 := []
        gap := 0
        clean := !bench.engine.p3 }

/-- Frames of at most 16383 bytes, this many cycles apart. -/
def Legal (spacing : Nat) (bench : CsumBench) : CsumEvent → Prop
  | .idle _ _ => True
  | .first _ => bench.frame = [] ∨ spacing ≤ bench.gap
  | .next _ => bench.frame ≠ [] ∧ bench.frame.length < 16383

instance (spacing : Nat) (bench : CsumBench) (event : CsumEvent) :
    Decidable (bench.Legal spacing event) :=
  match event with
  | .idle _ _ => inferInstanceAs (Decidable True)
  | .first _ => inferInstanceAs (Decidable (_ ∨ _))
  | .next _ => inferInstanceAs (Decidable (_ ∧ _))

end CsumBench

/-- The same bytes or one more. -/
def Trails (older newer : List (BitVec 8)) : Prop :=
  newer = older ∨ ∃ data, newer = older ++ [data]

/-- A byte arrived that is the end of something. -/
def arrived (ends : List (BitVec 8) → Bool) (older newer : List (BitVec 8)) : Bool :=
  decide (older ≠ newer) && ends newer

section Trails

variable {older newer : List (BitVec 8)}

theorem arrived_iff {ends : List (BitVec 8) → Bool} :
    arrived ends older newer = true ↔ older ≠ newer ∧ ends newer = true := by
  rw [arrived, Bool.and_eq_true, decide_eq_true_eq]

/-- What only ends can change has not changed. -/
theorem Trails.unchanged (htrails : Trails older newer) {ends holds : List (BitVec 8) → Bool}
    (hconcat : ∀ {frame data}, ends (frame ++ [data]) = false →
      holds (frame ++ [data]) = holds frame)
    (hnone : arrived ends older newer = false) : holds newer = holds older := by
  rcases htrails with rfl | ⟨data, rfl⟩
  · rfl
  · apply hconcat
    simpa [arrived] using hnone

theorem Trails.isPrefix (htrails : Trails older newer) : older <+: newer := by
  rcases htrails with rfl | ⟨data, rfl⟩
  · exact List.prefix_rfl
  · exact List.prefix_append older [data]

theorem Trails.eq_nil (htrails : Trails older newer) (hnil : newer = []) : older = [] := by
  rcases htrails with heq | ⟨data, heq⟩
  · rw [← heq, hnil]
  · rw [hnil] at heq
    simp at heq

theorem ne_nil_of_datagramEnds (hends : datagramEnds newer = true) : newer ≠ [] := by
  rintro rfl
  exact absurd hends (by decide)

theorem ne_nil_of_headerEnds (hends : headerEnds newer = true) : newer ≠ [] := by
  rintro rfl
  exact absurd hends (by decide)

/-- A datagram ends once. -/
theorem Trails.not_again (htrails : Trails older newer) (hends : datagramEnds older = true) :
    arrived datagramEnds older newer = false := by
  rcases htrails with rfl | ⟨data, rfl⟩
  · simp [arrived]
  · simp only [datagramEnds, Bool.and_eq_true, decide_eq_true_eq] at hends
    obtain ⟨⟨_, hin⟩, hend⟩ := hends
    rw [arrived, datagramEnds, datagramEnd_grown (by omega), hend]
    simp

theorem datagramWhole_of_ends (hends : datagramEnds newer = true) :
    datagramWhole newer = wellFormed newer := by
  simp only [datagramEnds, Bool.and_eq_true, decide_eq_true_eq] at hends
  rw [datagramWhole, hends.2]
  simp

/-- Only the datagram's last byte ends it. -/
theorem datagramEnded_concat {frame : List (BitVec 8)} {data : BitVec 8}
    (hends : datagramEnds (frame ++ [data]) = false)
    (hended : datagramEnded (frame ++ [data]) = true) : datagramEnded frame = true := by
  have hgrown : (frame ++ [data]).length = frame.length + 1 := by simp
  simp only [datagramEnded, Bool.and_eq_true, decide_eq_true_eq] at hended ⊢
  obtain ⟨⟨hip, hin⟩, hend⟩ := hended
  have hne : datagramEnd (frame ++ [data]) ≠ (frame ++ [data]).length := by
    intro heq
    rw [datagramEnds, hip, decide_eq_true (by omega), decide_eq_true heq] at hends
    exact absurd hends (by decide)
  have hopen : l3Offset frame < frame.length := by
    have hmin := le_l3Offset (frame ++ [data])
    have hover : l3Offset (frame ++ [data]) + 5 ≤ lengthsAt (frame ++ [data]) := by
      unfold lengthsAt
      split <;> omega
    have hoff := l3Offset_concat (show 14 ≤ frame.length by omega) data
    omega
  rw [isIp4_grown hopen, isIp6_grown hopen] at hip
  rw [lengthsAt_grown hopen] at hin
  have hlengths : lengthsAt frame ≤ frame.length + 1 := by omega
  rw [datagramEnd_grown hlengths] at hin hend hne
  exact ⟨⟨hip, hin⟩, by omega⟩

end Trails

end EmacZero
