/-
The checksum checker inside `eth_mac_rx`: it is fed the frames that the receiver
sees, and what it says when a frame is judged.
-/
import EmacZero.CsumCalcReference
import EmacZero.EthMacRxDelivery

namespace EmacZero

variable {params : EthMacRxParams}

namespace CsumCalc

variable {zero : Bool} {s : CsumCalc} {i : CsumIn} {frame : List (BitVec 8)}

/-- Bytes beyond the index range do not touch the engine. -/
theorem saturated_clkEdge (hparsed : s.Parsed zero frame) (hfull : frame.length = 16383)
    (hidx : i.inIdx = 0x3FFF) :
    s.clkEdge i = s.clkEdge { i with inValid := false } := by
  have hoff := l3Offset_le frame
  have hmin := le_l3Offset frame
  have hopen : l3Offset frame < frame.length := by omega
  have hidxNat : i.inIdx.toNat = 16383 := by
    rw [hidx]
    rfl
  have hl3Off : (s.l3Off.setWidth 14).toNat = l3Offset frame := by
    rw [hparsed.ether.off hopen.le, BitVec.toNat_setWidth, BitVec.toNat_ofNat,
      Nat.mod_eq_of_lt (show l3Offset frame < 2 ^ 5 by omega), Nat.mod_eq_of_lt (by omega)]
  have hr : (s.r i).toNat = 16383 - l3Offset frame := by
    rw [r, BitVec.toNat_sub_of_le, hidxNat, hl3Off]
    rw [BitVec.le_def, hidxNat, hl3Off]
    omega
  have hfar : ∀ offset, offset < 1000 → (s.r i == BitVec.ofNat 14 offset) = false := by
    intro offset hlt
    rw [beq_eq_false_iff_ne, ne_eq, ← BitVec.toNat_inj, hr, BitVec.toNat_ofNat,
      Nat.mod_eq_of_lt (by omega)]
    omega
  have hknown : s.l3Known = true := by
    rw [hparsed.ether.known, decide_eq_true hopen.le]
  have hfirst : newFrame i = false := by
    rw [newFrame, hidx]
    simp
  have hetype : s.etypeNow i = false := by simp [etypeNow, hknown]
  have htag : s.tagNow i = false := by simp [tagNow, hetype]
  have hip4h : s.inIp4h i = false := by
    have hhdr := s.hdrLen.isLt
    have hbeyond : (s.r i).ult (s.hdrLen.setWidth 14) = false := by
      rw [BitVec.ult_eq_decide, hr, BitVec.toNat_setWidth]
      exact decide_eq_false (by omega)
    simp [inIp4h, hbeyond]
  have hPh : s.inPh i = false := by
    have htwenty : (s.r i).ult 20 = false := by
      rw [BitVec.ult_eq_decide, hr]
      exact decide_eq_false (by simp; omega)
    have hforty : (s.r i).ult 40 = false := by
      rw [BitVec.ult_eq_decide, hr]
      exact decide_eq_false (by simp; omega)
    simp only [inPh, htwenty, hforty, Bool.and_false, ite_self]
  have hL4 : s.inL4 i = false := by
    have hend := s.l3End.isLt
    have hbeyond : i.inIdx.ult s.l3End = false := by
      rw [BitVec.ult_eq_decide, hidxNat]
      exact decide_eq_false (by omega)
    simp [inL4, hbeyond]
  have hhdrLast : s.hdrLast i = false := by simp [hdrLast, hip4h]
  have hinOpt : s.inOpt i = false := by simp [inOpt, hip4h]
  have hzero := hfar 0 (by decide)
  have htwo := hfar 2 (by decide)
  have hthree := hfar 3 (by decide)
  have hfour := hfar 4 (by decide)
  have hfive := hfar 5 (by decide)
  have hsix := hfar 6 (by decide)
  have hseven := hfar 7 (by decide)
  have hnine := hfar 9 (by decide)
  have hten := hfar 10 (by decide)
  have hidle : newFrame { i with inValid := false } = false := rfl
  have hplaces : s.inL3 = true → s.last i = false ∧ s.udpLenIn i = false ∧
      (s.lenOk && i.inIdx == s.l4Start + 4) = false := by
    intro hin
    rw [hparsed.ether.inL3_open hopen, Bool.or_eq_true] at hin
    have hbounds := (hparsed.ip hopen hin).bounds
    cases hok : s.lenOk with
    | false => simp [last, udpLenIn, hok]
    | true =>
        have hend := hbounds.l3End hok
        have hlow : 14 ≤ datagramEnd frame := by
          unfold datagramEnd
          omega
        have hlate : lengthsAt frame ≤ frame.length := by
          unfold lengthsAt
          split <;> omega
        have hstart := hbounds.l4Start hlate
        have hle := l4Offset_le frame
        have hbefore : (i.inIdx == s.l3End - 1) = false := by
          rw [beq_eq_false_iff_ne, ne_eq, ← BitVec.toNat_inj, hidxNat,
            BitVec.toNat_sub_of_le]
          · have hlt := s.l3End.isLt
            simp
            omega
          · rw [BitVec.le_def, hend]
            exact (show 1 ≤ 14 by decide).trans hlow
        have hudp : ∀ offset : BitVec 14, offset.toNat < 16 →
            (i.inIdx == s.l4Start + offset) = false := by
          intro offset hlt
          rw [beq_eq_false_iff_ne, ne_eq, ← BitVec.toNat_inj, hidxNat, BitVec.toNat_add,
            hstart]
          omega
        refine ⟨?_, ?_, ?_⟩
        · rw [last, hbefore, Bool.and_false]
        · rw [udpLenIn, hudp 5 (by decide), Bool.and_false]
        · rw [hudp 4 (by decide), Bool.and_false]
  have hether : s.nextEther i = s.nextEther { i with inValid := false } := by
    simp [nextEther, hfirst, hidle, hknown, hetype, htag, hzero]
    intro _
    exact (congrArg (CsumEther.mk s.etypeHi s.vlan · s.l3Off s.fam4 s.fam6) hknown).symm
  have hheader : s.nextHeader i = s.nextHeader { i with inValid := false } := by
    simp only [nextHeader, hfirst, hidle]
    cases s.fam4 <;> simp [hzero, htwo, hthree, hfour, hfive, hsix, hseven, hnine]
  have hbounds : s.nextBounds i = s.nextBounds { i with inValid := false } := by
    simp only [nextBounds, hfirst, hidle]
    cases hin : s.inL3 with
    | false => simp
    | true =>
        obtain ⟨_, hudp, hudpHi⟩ := hplaces hin
        have hhi : (s.isUdp && s.lenOk && i.inIdx == s.l4Start + 4) = false := by
          rw [Bool.and_assoc, hudpHi, Bool.and_false]
        simp only [hhi, hudp]
        simp [lengthsNow, hfour, hsix, hten, hseven]
  have hoptions : s.nextOptions i = s.nextOptions { i with inValid := false } := by
    simp [nextOptions, hfirst, hidle, hinOpt]
  have hsums : s.nextSums i = s.nextSums { i with inValid := false } := by
    simp [nextSums, hfirst, hidle, hip4h, hPh, hL4]
  have hlast : s.last i = false := by
    cases hin : s.inL3 with
    | false => simp [last, hin]
    | true => exact (hplaces hin).1
  have hpipes : s.nextPipes i = s.nextPipes { i with inValid := false } := by
    simp [nextPipes, hfirst, hhdrLast, hlast]
  have hresult : s.nextResult i = s.nextResult { i with inValid := false } := by
    simp [nextResult, hfirst, hidle]
  rw [clkEdge, clkEdge, hether, hheader, hbounds, hoptions, hsums, hpipes, hresult]

end CsumCalc

/-- The checker was on at the envelope's SFD. -/
def checkOn : List RxBeat → Bool
  | [] => false
  | beat :: rest => if beat.data = 0x55 then checkOn rest else beat.pins.rxCsumEn

theorem checkOn_concat {beats : List RxBeat} {frame : List RxBeat}
    (hframe : payload beats = some frame) (beat : RxBeat) :
    checkOn (beats ++ [beat]) = checkOn beats := by
  induction beats with
  | nil => simp [payload] at hframe
  | cons head rest ih =>
      rw [List.cons_append, checkOn, checkOn]
      split
      · rename_i hpreamble
        rw [payload, if_pos hpreamble] at hframe
        exact ih hframe
      · rfl

theorem checkOn_preamble {beats : List RxBeat}
    (hpreamble : ∀ beat ∈ beats, beat.data = 0x55) (beat : RxBeat) (hsfd : beat.data ≠ 0x55) :
    checkOn (beats ++ [beat]) = beat.pins.rxCsumEn := by
  induction beats with
  | nil => rw [List.nil_append, checkOn, if_neg hsfd]
  | cons head rest ih =>
      rw [List.cons_append, checkOn, if_pos (hpreamble head List.mem_cons_self),
        ih fun beat hbeat => hpreamble beat (List.mem_cons_of_mem head hbeat)]

/-- The bytes of a frame that the checker has indices for. -/
def checkedBytes (frame : List RxBeat) : List (BitVec 8) := (bytes frame).take 16383

namespace EthMacRx

/-- What a cycle is to the checker that has had these bytes. -/
def checkEvent (rx : EthMacRx params) (pins : EthMacRxIn) (had : List (BitVec 8)) :
    CsumEvent :=
  if rx.state = .data ∧ pins.gmiiRxDv = true then
    if rx.byteCnt = 0 then .first pins.gmiiRxd
    else if had.length < 16383 then .next pins.gmiiRxd
    else .idle rx.byteCnt pins.gmiiRxd
  else .idle rx.byteCnt pins.gmiiRxd

end EthMacRx

namespace MacRxBench

variable {bench : MacRxBench params} {check : CsumBench} {pins : EthMacRxIn}

/-- The frame being received, or judged in this cycle. -/
def current (bench : MacRxBench params) : Option (List RxBeat) :=
  match bench.ended with
  | none => payload bench.opened
  | some (beats, _) => payload beats

/-- The checker has had the bytes of the frame being received. -/
structure Checks (bench : MacRxBench params) (check : CsumBench) : Prop where
  flow : check.Flow
  results : check.Results
  zero : check.zero = false
  engine : check.engine = bench.rx.csum
  rested : bench.current = none ∨ bench.current = some [] →
    check.frame = [] ∨ 2 ≤ check.gap
  fed : ∀ frame, bench.current = some frame → frame ≠ [] →
    check.frame = checkedBytes frame
  ended : bench.ended ≠ none → 1 ≤ check.gap ∨ check.frame = []

theorem checks_start (mem : BitVec params.axisFifoAddrWidth → MacWord) (doutR : MacWord) :
    (start mem doutR).Checks (CsumBench.start false) where
  flow := CsumBench.flow_start false
  results := CsumBench.results_start false
  zero := rfl
  engine := rfl
  rested _ := Or.inl rfl
  fed frame hframe := by simp [current, start, payload] at hframe
  ended hended := absurd rfl hended

/-- A cycle without a byte of a frame. -/
theorem Checks.idle (hchecks : bench.Checks check)
    (hquiet : ¬(bench.rx.state = .data ∧ pins.gmiiRxDv = true)) :
    (check.step (.idle bench.rx.byteCnt pins.gmiiRxd)).Flow ∧
      (check.step (.idle bench.rx.byteCnt pins.gmiiRxd)).Results ∧
      (check.step (.idle bench.rx.byteCnt pins.gmiiRxd)).engine = (bench.step pins).rx.csum := by
  obtain ⟨hflow, hresults⟩ := CsumBench.step_known (by decide)
    (show check.Legal 2 (.idle bench.rx.byteCnt pins.gmiiRxd) from trivial)
    hchecks.flow hchecks.results
  refine ⟨hflow, hresults, ?_⟩
  have hvalid : (bench.rx.state == .data && pins.gmiiRxDv) = false := by
    cases hdv : pins.gmiiRxDv with
    | false => rw [Bool.and_false]
    | true =>
        rw [Bool.and_true, beq_eq_false_iff_ne]
        exact fun hstate => hquiet ⟨hstate, hdv⟩
  have hpins : check.pins (.idle bench.rx.byteCnt pins.gmiiRxd) = bench.rx.csumIn pins := by
    rw [CsumBench.pins, EthMacRx.csumIn, hvalid, hchecks.zero]
  change check.engine.clkEdge _ = bench.rx.csum.clkEdge _
  rw [hpins, hchecks.engine]

theorem payload_first (beats : List RxBeat) (hpreamble : ∀ beat ∈ beats, beat.data = 0x55)
    (beat : RxBeat) :
    payload (beats ++ [beat]) = none ∨ payload (beats ++ [beat]) = some [] := by
  rw [payload_of_preamble hpreamble, payload, payload]
  split
  · exact Or.inl rfl
  · split
    · exact Or.inr rfl
    · exact Or.inl rfl

/-- Outside a frame's bytes the next cycle has none of a frame yet. -/
theorem current_step (hphase : bench.rx.Phase bench.opened bench.ended)
    (hstate : bench.rx.state ≠ .data) :
    (bench.step pins).current = none ∨ (bench.step pins).current = some [] := by
  generalize hopened : bench.opened = opened at hphase
  generalize hended : bench.ended = ended at hphase
  have hfirst : opened = [] → (bench.step pins).current = none ∨
      (bench.step pins).current = some [] := by
    intro hnil
    cases hdv : pins.gmiiRxDv with
    | false => simp [current, step, hdv, hopened, hnil, payload]
    | true =>
        have hone := payload_first [] (by simp) ⟨pins, bench.rx.fifoRoom⟩
        simpa [current, step, hdv, hopened, hnil] using hone
  cases hphase with
  | idle hstate' hnone => exact hfirst rfl
  | preamble hstate' hne hpreamble hrec her =>
      cases hdv : pins.gmiiRxDv with
      | true =>
          have hone := payload_first opened hpreamble ⟨pins, bench.rx.fifoRoom⟩
          simpa [current, step, hdv, hopened] using hone
      | false =>
          left
          simp [current, step, hdv, hopened, hne, EthMacRx.payload_preamble hpreamble]
  | data hstate' hframe hrec her hcrc => exact absurd hstate' hstate
  | drop hstate' hne hrejected =>
      left
      cases hdv : pins.gmiiRxDv with
      | true => simpa [current, step, hdv, hopened] using hrejected [⟨pins, bench.rx.fifoRoom⟩]
      | false => simpa [current, step, hdv, hopened, hne] using hrejected []
  | crcCheck hstate' hframe hrec her hcrc => exact hfirst rfl

/-- In a frame the next cycle has its next byte, or has it ended. -/
theorem current_data {frame : List RxBeat} (hframe : payload bench.opened = some frame)
    (hended : bench.ended = none) :
    bench.current = some frame ∧
      (bench.step pins).current = some (if pins.gmiiRxDv then
        frame ++ [⟨pins, bench.rx.fifoRoom⟩] else frame) := by
  have hne : bench.opened ≠ [] := by
    intro hnil
    rw [hnil] at hframe
    simp [payload] at hframe
  refine ⟨by rw [current, hended]; exact hframe, ?_⟩
  cases hdv : pins.gmiiRxDv with
  | true => simpa [current, step, hdv] using payload_concat_of_some hframe
  | false => simpa [current, step, hdv, hne] using hframe

theorem current_quiet (hphase : bench.rx.Phase bench.opened bench.ended)
    (hstate : bench.rx.state ≠ .data) (hended : bench.ended = none) :
    bench.current = none := by
  rw [current, hended]
  rw [hended] at hphase
  generalize bench.opened = opened at hphase
  cases hphase with
  | idle _ _ => rfl
  | preamble _ _ hpreamble _ _ => exact EthMacRx.payload_preamble hpreamble
  | data hstate' _ _ _ _ => exact absurd hstate' hstate
  | drop _ _ hrejected => simpa using hrejected []

theorem phase_data (hphase : bench.rx.Phase bench.opened bench.ended)
    (hstate : bench.rx.state = .data) :
    bench.ended = none ∧
      ∃ frame, payload bench.opened = some frame ∧ bench.rx.Received frame := by
  generalize bench.opened = opened at hphase ⊢
  generalize bench.ended = ended at hphase ⊢
  cases hphase with
  | idle hstate' _ => simp [hstate] at hstate'
  | preamble hstate' _ _ _ _ => simp [hstate] at hstate'
  | data _ hframe hrec _ _ => exact ⟨rfl, _, hframe, hrec⟩
  | drop hstate' _ _ => simp [hstate] at hstate'
  | crcCheck hstate' _ _ _ _ => simp [hstate] at hstate'

theorem checkedBytes_concat {frame : List RxBeat} (hlt : frame.length < 16383)
    (beat : RxBeat) : checkedBytes (frame ++ [beat]) = checkedBytes frame ++ [beat.data] := by
  rw [checkedBytes, checkedBytes, bytes_concat, List.take_of_length_le (by simp; omega),
    List.take_of_length_le (by simp; omega)]

theorem checkedBytes_full {frame : List RxBeat} (hle : 16383 ≤ frame.length)
    (beat : RxBeat) : checkedBytes (frame ++ [beat]) = checkedBytes frame := by
  rw [checkedBytes, checkedBytes, bytes_concat, List.take_append_of_le_length (by simpa)]

/-- A byte of a frame. -/
theorem Checks.byte (hchecks : bench.Checks check)
    (hphase : bench.rx.Phase bench.opened bench.ended) (hstate : bench.rx.state = .data)
    (hdv : pins.gmiiRxDv = true) :
    (bench.step pins).Checks (check.step (bench.rx.checkEvent pins check.frame)) := by
  obtain ⟨hended, frame, hframe, hrec⟩ := phase_data hphase hstate
  obtain ⟨hnow, hnext⟩ := @current_data _ _ pins _ hframe hended
  rw [hdv, if_pos rfl] at hnext
  have hbyteCnt := hrec.byteCnt
  have hin : bench.rx.csumIn pins = ⟨true, bench.rx.byteCnt, pins.gmiiRxd, false⟩ := by
    simp [EthMacRx.csumIn, hstate, hdv]
  have hquiet : (bench.step pins).ended = none := by
    simp [step, hdv]
  have hbuild : ∀ event, check.Legal 2 event →
      (check.step event).engine = check.engine.clkEdge (bench.rx.csumIn pins) →
      (check.step event).frame = checkedBytes (frame ++ [⟨pins, bench.rx.fifoRoom⟩]) →
      (bench.step pins).Checks (check.step event) := by
    intro event hlegal hengine hhas
    obtain ⟨hflow, hresults⟩ :=
      CsumBench.step_known (by decide) hlegal hchecks.flow hchecks.results
    refine ⟨hflow, hresults, ?_, ?_, ?_, ?_, ?_⟩
    · cases event <;> exact hchecks.zero
    · rw [hengine, hchecks.engine]
      rfl
    · intro hnone
      rw [hnext] at hnone
      simp at hnone
    · intro fed hfed _
      rw [hnext] at hfed
      rw [hhas, ← Option.some.inj hfed]
    · intro hset
      exact absurd hquiet hset
  rw [EthMacRx.checkEvent, if_pos ⟨hstate, hdv⟩]
  cases frame with
  | nil =>
      have hzero : bench.rx.byteCnt = 0 := by
        rw [← BitVec.toNat_inj, hbyteCnt]
        rfl
      rw [if_pos hzero]
      apply hbuild
      · exact hchecks.rested (Or.inr hnow)
      · rw [hin, hzero]
        change check.engine.clkEdge ⟨true, 0, pins.gmiiRxd, check.zero⟩ = _
        rw [hchecks.zero]
      · rfl
  | cons first rest =>
      have hne : bench.rx.byteCnt ≠ 0 := by
        rw [ne_eq, ← BitVec.toNat_inj, hbyteCnt]
        simp
      have hhad := hchecks.fed _ hnow (List.cons_ne_nil first rest)
      rw [if_neg hne, hhad]
      by_cases hlt : (first :: rest).length < 16383
      · have hlength : (checkedBytes (first :: rest)).length = (first :: rest).length := by
          rw [checkedBytes, List.length_take, length_bytes]
          omega
        rw [if_pos (by rw [hlength]; exact hlt)]
        apply hbuild
        · rw [CsumBench.Legal, hhad, hlength]
          refine ⟨?_, hlt⟩
          simp [checkedBytes, bytes]
        · have hidx : bench.rx.byteCnt = BitVec.ofNat 14 check.frame.length := by
            rw [← BitVec.toNat_inj, hbyteCnt, BitVec.toNat_ofNat, hhad, hlength]
            omega
          rw [hin, hidx]
          change check.engine.clkEdge ⟨true, _, pins.gmiiRxd, check.zero⟩ = _
          rw [hchecks.zero]
        · change check.frame ++ [pins.gmiiRxd] = _
          rw [hhad, checkedBytes_concat hlt]
          rfl
      · have hfull : (checkedBytes (first :: rest)).length = 16383 := by
          rw [checkedBytes, List.length_take, length_bytes]
          omega
        rw [if_neg (by rw [hfull]; decide)]
        apply hbuild
        · trivial
        · have hidx : bench.rx.byteCnt = 0x3FFF := by
            rw [← BitVec.toNat_inj, hbyteCnt, Nat.min_eq_right (by omega)]
            rfl
          have hparsed := hchecks.flow.parsed (by rw [hhad]; simp [checkedBytes, bytes])
          rw [hhad] at hparsed
          rw [hin, CsumCalc.saturated_clkEdge hparsed hfull hidx]
          change check.engine.clkEdge ⟨false, _, pins.gmiiRxd, check.zero⟩ = _
          rw [hchecks.zero]
        · change check.frame = _
          rw [hhad, checkedBytes_full (by omega)]

theorem Checks.step (hchecks : bench.Checks check)
    (hphase : bench.rx.Phase bench.opened bench.ended) (pins : EthMacRxIn) :
    (bench.step pins).Checks (check.step (bench.rx.checkEvent pins check.frame)) := by
  by_cases hbyte : bench.rx.state = .data ∧ pins.gmiiRxDv = true
  · exact hchecks.byte hphase hbyte.1 hbyte.2
  · obtain ⟨hflow, hresults, hengine⟩ := hchecks.idle hbyte
    rw [EthMacRx.checkEvent, if_neg hbyte]
    have hgap : check.frame = [] ∨ 1 ≤ check.gap → check.frame = [] ∨ 2 ≤ check.gap + 1 :=
      Or.imp id (by omega)
    by_cases hstate : bench.rx.state = .data
    · have hdv : pins.gmiiRxDv = false := by
        simpa [hstate] using hbyte
      obtain ⟨hended, frame, hframe, hrec⟩ := phase_data hphase hstate
      obtain ⟨hnow, hnext⟩ := @current_data _ _ pins _ hframe hended
      rw [hdv, if_neg Bool.false_ne_true] at hnext
      refine ⟨hflow, hresults, hchecks.zero, hengine, ?_, ?_, ?_⟩
      · intro hnone
        rw [hnext, ← hnow] at hnone
        exact hgap ((hchecks.rested hnone).imp id (by omega))
      · intro fed hfed hne
        rw [hnext, ← hnow] at hfed
        exact hchecks.fed fed hfed hne
      · intro _
        exact Or.inl (Nat.le_add_left 1 check.gap)
    · have hnext := @current_step _ _ pins hphase hstate
      refine ⟨hflow, hresults, hchecks.zero, hengine, ?_, ?_, ?_⟩
      · intro _
        apply hgap
        by_cases hended : bench.ended = none
        · exact (hchecks.rested (Or.inl (current_quiet hphase hstate hended))).imp id
            (by omega)
        · exact (hchecks.ended hended).symm
      · intro fed hfed hne
        rcases hnext with hnone | hempty
        · rw [hnone] at hfed
          simp at hfed
        · rw [hempty] at hfed
          exact absurd (Option.some.inj hfed).symm hne
      · intro _
        exact Or.inl (Nat.le_add_left 1 check.gap)

/-- The checker's enable is the one of the SFD. -/
def Enabled (bench : MacRxBench params) : Prop :=
  ∀ frame, bench.current = some frame →
    bench.rx.csumEnR = checkOn (match bench.ended with
      | none => bench.opened
      | some (beats, _) => beats)

theorem Enabled.step (henabled : bench.Enabled)
    (hphase : bench.rx.Phase bench.opened bench.ended) (pins : EthMacRxIn) :
    (bench.step pins).Enabled := by
  intro frame hcurrent
  generalize hopened : bench.opened = opened at hphase
  generalize hended : bench.ended = ended at hphase
  have hstart : opened = [] → (bench.rx.state = .idle ∨ bench.rx.state = .crcCheck) →
      (bench.step pins).rx.csumEnR = checkOn (match (bench.step pins).ended with
        | none => (bench.step pins).opened
        | some (beats, _) => beats) := by
    intro hnil hstate
    cases hdv : pins.gmiiRxDv with
    | false => simp [current, MacRxBench.step, hdv, hopened, hnil, payload] at hcurrent
    | true =>
        simp only [current, MacRxBench.step, hdv, hopened, hnil, Bool.true_or, if_true,
          List.nil_append, payload, RxBeat.data] at hcurrent
        have hsfd : pins.gmiiRxd = 0xD5#8 := by
          by_contra hother
          simp [hother] at hcurrent
        have hnext : (bench.rx.clkEdge pins).csumEnR = pins.rxCsumEn := by
          rcases hstate with hstate | hstate <;>
            simp [EthMacRx.clkEdge, EthMacRx.nextFrame, EthMacRx.startFrame, hstate, hdv,
              hsfd]
        change (bench.rx.clkEdge pins).csumEnR = _
        rw [hnext]
        simp [MacRxBench.step, hdv, hopened, hnil, checkOn, RxBeat.data, hsfd]
  cases hphase with
  | idle hstate hnone => exact hstart rfl (Or.inl hstate)
  | crcCheck hstate hframe hrec her hcrc => exact hstart rfl (Or.inr hstate)
  | preamble hstate hne hpreamble hrec her =>
      cases hdv : pins.gmiiRxDv with
      | false =>
          simp [current, MacRxBench.step, hdv, hopened, hne,
            EthMacRx.payload_preamble hpreamble] at hcurrent
      | true =>
          simp only [current, MacRxBench.step, hdv, hopened, Bool.true_or, if_true,
            payload_of_preamble hpreamble, payload, RxBeat.data] at hcurrent
          have hsfd : pins.gmiiRxd = 0xD5#8 := by
            by_contra hother
            simp [hother] at hcurrent
          have hnext : (bench.rx.clkEdge pins).csumEnR = pins.rxCsumEn := by
            simp [EthMacRx.clkEdge, EthMacRx.nextFrame, EthMacRx.preambleFrame, hstate, hdv,
              hsfd]
          change (bench.rx.clkEdge pins).csumEnR = _
          rw [hnext]
          simp only [MacRxBench.step, hdv, hopened, Bool.true_or, if_true]
          rw [checkOn_preamble hpreamble]
          simp [RxBeat.data, hsfd]
  | data hstate hframe hrec her hcrc =>
      have hbefore := henabled _ (by rw [current, hended, hopened]; exact hframe)
      simp only [hended, hopened] at hbefore
      have hkept : (bench.rx.clkEdge pins).csumEnR = bench.rx.csumEnR := by
        cases hdv : pins.gmiiRxDv <;>
          simp [EthMacRx.clkEdge, EthMacRx.nextFrame, EthMacRx.dataFrame,
            EthMacRx.endFrame, hstate, hdv]
      have hne : opened ≠ [] := by
        rintro rfl
        simp [payload] at hframe
      change (bench.rx.clkEdge pins).csumEnR = _
      rw [hkept, hbefore]
      cases hdv : pins.gmiiRxDv with
      | true => simp [MacRxBench.step, hdv, hopened, checkOn_concat hframe]
      | false => simp [MacRxBench.step, hdv, hopened, hne]
  | drop hstate hne hrejected =>
      cases hdv : pins.gmiiRxDv with
      | true => simp [current, MacRxBench.step, hdv, hopened, hrejected] at hcurrent
      | false =>
          have hnone := hrejected []
          simp only [List.append_nil] at hnone
          simp [current, MacRxBench.step, hdv, hopened, hne, hnone] at hcurrent

end MacRxBench

/-! Verdicts. -/

/-- A wrong IPv4 header checksum, the header and four bytes after it being there. -/
def ipVerdict (frame : List (BitVec 8)) : Bool :=
  headerWhole frame && decide (l4Offset frame + 4 ≤ frame.length) &&
    onesFold 16 (headerSum false frame) != 65535

/-- A wrong L4 checksum that the frame has, the datagram and four bytes after it being
there. -/
def l4Verdict (frame : List (BitVec 8)) : Bool :=
  datagramWhole frame && decide (datagramEnd frame + 4 ≤ frame.length) &&
    l4Covered frame && !(protocol frame == 17 && wordAt frame (csumPos frame) == 0) &&
    onesFold 16 (l4Sum false frame) != 65535

section Behind

variable {older newer : List (BitVec 8)}

theorem not_datagramEnds (hafter : datagramEnd newer + 1 ≤ newer.length) :
    datagramEnds newer = false := by
  rw [datagramEnds, decide_eq_false (show ¬datagramEnd newer = newer.length by omega),
    Bool.and_false]

theorem length_le_of_trails (htrails : Trails older newer) :
    newer.length ≤ older.length + 1 := by
  rcases htrails with rfl | ⟨data, rfl⟩
  · omega
  · simp

/-- A datagram that ended before the last byte had ended a byte earlier. -/
theorem Trails.whole_behind (htrails : Trails older newer)
    (hwhole : datagramWhole newer = true) (hafter : datagramEnd newer + 1 ≤ newer.length) :
    datagramWhole older = true ∧ datagramEnd older = datagramEnd newer := by
  rcases htrails with rfl | ⟨data, rfl⟩
  · exact ⟨hwhole, rfl⟩
  · rw [datagramWhole_concat (not_datagramEnds hafter)] at hwhole
    exact ⟨hwhole, (datagramEnd_settled hwhole data).symm⟩

theorem Trails.ended_behind (htrails : Trails older newer)
    (hended : datagramEnded newer = true) (hafter : datagramEnd newer + 1 ≤ newer.length) :
    datagramEnded older = true ∧ datagramEnd older = datagramEnd newer := by
  rcases htrails with rfl | ⟨data, rfl⟩
  · exact ⟨hended, rfl⟩
  · have hold := datagramEnded_concat (not_datagramEnds hafter) hended
    have hthere := hold
    simp only [datagramEnded, Bool.and_eq_true, decide_eq_true_eq] at hthere
    exact ⟨hold, (datagramEnd_grown (by omega) data).symm⟩

theorem ended_of_whole (hwhole : datagramWhole newer = true) :
    datagramEnded newer = true := by
  obtain ⟨hformed, hend⟩ := datagramWhole_iff.mp hwhole
  obtain ⟨hproto, hl4⟩ := protocolAt_le_datagramEnd hformed
  have hlengths := lengthsAt_le_protocolAt newer
  rw [datagramEnded, (Bool.or_eq_true _ _).mpr (ip_of_wellFormed hformed),
    decide_eq_true (by omega), decide_eq_true hend]
  rfl

end Behind

namespace EthMacRx

variable {rx : EthMacRx params} {check : CsumBench}

theorem hdrWhole_eq {length : Nat} (hbyteCnt : rx.byteCnt.toNat = length) :
    rx.hdrWhole = decide (rx.csum.hdrEnd.toNat + 4 ≤ length) := by
  have hlt := rx.csum.hdrEnd.isLt
  rw [hdrWhole, BitVec.ule_eq_decide, decide_eq_decide, BitVec.toNat_add,
    BitVec.toNat_setWidth, BitVec.toNat_setWidth, hbyteCnt]
  simp only [BitVec.reduceToNat]
  omega

theorem whole_eq {length : Nat} (hbyteCnt : rx.byteCnt.toNat = length) :
    rx.whole = decide (rx.csum.l3End.toNat + 4 ≤ length) := by
  have hlt := rx.csum.l3End.isLt
  rw [whole, BitVec.ule_eq_decide, decide_eq_decide, BitVec.toNat_add,
    BitVec.toNat_setWidth, BitVec.toNat_setWidth, hbyteCnt]
  simp only [BitVec.reduceToNat]
  omega

section Judged

variable (hflow : check.Flow) (hresults : check.Results) (hzero : check.zero = false)
  (hengine : check.engine = rx.csum) (hrested : 1 ≤ check.gap)
  (hbyteCnt : rx.byteCnt.toNat = check.frame.length)
include hflow hresults hzero hengine hrested hbyteCnt

theorem ipBad_eq : rx.ipBad = ipVerdict check.frame := by
  have hsame := hflow.rest1 hrested
  have htrails := hflow.trails2
  rw [hsame] at htrails
  rw [ipBad, hdrWhole_eq hbyteCnt, ← hengine,
    hresults.ip4]
  cases hwhole : headerWhole check.ago2 with
  | true =>
      obtain ⟨hend, _⟩ := CsumBench.header_live hflow hwhole
      have hsum := hresults.ipSum hwhole
      rw [hzero] at hsum
      have hvalue : (check.engine.ipSum != 0xFFFF) =
          (onesFold 16 (headerSum false check.ago2) != 65535) := by
        rw [← hsum, Bool.eq_iff_iff, bne_iff_ne, bne_iff_ne, ne_eq, ne_eq, ← BitVec.toNat_inj]
        rfl
      rw [hend, hvalue, Bool.true_and]
      rcases htrails with heq | ⟨data, heq⟩
      · rw [heq, ipVerdict, hwhole, Bool.true_and]
      · have hopen := open_of_isIp4 (headerWhole_iff.mp hwhole).1
        rw [heq, ipVerdict, headerWhole_settled hwhole, headerSum_settled hwhole,
          l4Offset_grown hopen, hwhole, Bool.true_and]
  | false =>
      rw [Bool.false_and, Bool.false_and, ipVerdict]
      cases hnow : headerWhole check.frame with
      | false => rfl
      | true =>
          rcases htrails with heq | ⟨data, heq⟩
          · rw [heq, hwhole] at hnow
            exact absurd hnow Bool.false_ne_true
          · by_cases hafter : l4Offset check.frame + 4 ≤ check.frame.length
            · have hends : headerEnds check.frame = false := by
                rw [headerEnds, decide_eq_false (by omega), Bool.and_false]
              rw [heq] at hends hnow
              rw [headerWhole_concat hends, hwhole] at hnow
              exact absurd hnow Bool.false_ne_true
            · rw [decide_eq_false hafter]
              rfl

/-- Exact for a frame that started with the pipelines empty, and in any case for one
whose datagram has ended by then. -/
theorem l4Bad_eq (hknown : check.clean = true ∨ datagramEnded check.frame = true ∧
      datagramEnd check.frame + 4 ≤ check.frame.length) :
    rx.l4Bad = l4Verdict check.frame := by
  have hsame := hflow.rest1 hrested
  have htrails2 := hflow.trails2
  have htrails3 := hflow.trails3
  rw [hsame] at htrails2
  have hshort2 := length_le_of_trails htrails2
  have hdone : check.engine.done = datagramWhole check.ago3 ∧
      check.engine.l4Ok = (datagramWhole check.ago3 && l4Covered check.ago3) := by
    have hearlier : check.clean = true ∨ datagramEnded check.ago3 = true := by
      rcases hknown with hclean | ⟨hended, hafter⟩
      · exact Or.inl hclean
      · obtain ⟨hended2, hend2⟩ := htrails2.ended_behind hended (by omega)
        exact Or.inr (htrails3.ended_behind hended2 (by omega)).1
    exact ⟨hresults.done hearlier, hresults.l4Ok hearlier⟩
  rw [l4Bad, whole_eq hbyteCnt, ← hengine, hdone.1, hdone.2]
  cases hwhole : datagramWhole check.ago3 with
  | true =>
      obtain ⟨hend, _, _, hfield⟩ := CsumBench.whole_live hflow hwhole
      obtain ⟨rest, hrest⟩ := htrails3.isPrefix.trans htrails2.isPrefix
      have hnow := datagramWhole_append hwhole rest
      have hcover := settled_append l4Covered_settled hwhole rest
      have hproto := settled_append protocol_settled hwhole rest
      have hdatagram := settled_append datagramEnd_settled hwhole rest
      have hpos := csumPos_append hwhole rest
      rw [hrest] at hnow hcover hproto hdatagram hpos
      rw [l4Verdict, hnow, hcover, hproto, hdatagram, hend, Bool.true_and, Bool.true_and]
      cases hcovered : l4Covered check.ago3 with
      | false => simp
      | true =>
          have hsum := hresults.l4Sum hwhole hcovered
          rw [hzero] at hsum
          obtain ⟨hsums, hword⟩ := covered_append hwhole hcovered false rest
          rw [hrest] at hsums hword
          have hvalue : (check.engine.l4Sum != 0xFFFF) =
              (onesFold 16 (l4Sum false check.ago3) != 65535) := by
            rw [← hsum, Bool.eq_iff_iff, bne_iff_ne, bne_iff_ne, ne_eq, ne_eq,
              ← BitVec.toNat_inj]
            rfl
          rw [udpZero, ← hengine, CsumBench.l4Udp_live hflow hresults hwhole,
            hfield hcovered, hvalue, hsums, hword]
  | false =>
      rw [Bool.false_and, Bool.false_and, Bool.false_and, Bool.false_and, l4Verdict]
      cases hnow : datagramWhole check.frame with
      | false => rfl
      | true =>
          by_cases hafter : datagramEnd check.frame + 4 ≤ check.frame.length
          · obtain ⟨hwhole2, hend2⟩ := htrails2.whole_behind hnow (by omega)
            have hwhole3 := (htrails3.whole_behind hwhole2 (by omega)).1
            exact absurd (hwhole.symm.trans hwhole3) Bool.false_ne_true
          · rw [decide_eq_false hafter]
            rfl

/-- The checker's verdict on a frame. -/
theorem csumBadNow_eq (hknown : check.clean = true ∨ datagramEnded check.frame = true ∧
      datagramEnd check.frame + 4 ≤ check.frame.length) :
    rx.csumBadNow = (params.rxCsumOffload && rx.csumEnR &&
      (ipVerdict check.frame || l4Verdict check.frame)) := by
  rw [csumBadNow, ipBad_eq hflow hresults hzero hengine hrested hbyteCnt,
    l4Bad_eq hflow hresults hzero hengine hrested hbyteCnt hknown]

end Judged

end EthMacRx

namespace MacRxBench

variable {bench : MacRxBench params} {check : CsumBench}

/-- When a frame is judged, the checker has had its bytes and has rested since. -/
theorem Checks.judging (hchecks : bench.Checks check)
    (hphase : bench.rx.Phase bench.opened bench.ended) {beats frame : List RxBeat}
    {close : EthMacRxIn} (hended : bench.ended = some (beats, close))
    (hframe : payload beats = some frame) (hne : frame ≠ []) :
    check.frame = checkedBytes frame ∧ 1 ≤ check.gap ∧
      bench.rx.byteCnt.toNat = check.frame.length := by
  have hcurrent : bench.current = some frame := by
    rw [current, hended]
    exact hframe
  have hfed := hchecks.fed frame hcurrent hne
  have hnonempty : check.frame ≠ [] := by
    rw [hfed, checkedBytes]
    simpa [bytes] using hne
  have hrec : bench.rx.Received frame := by
    rw [hended] at hphase
    generalize bench.opened = opened at hphase
    cases hphase with
    | idle _ hnone => exact absurd hframe (by simp [hnone beats close rfl])
    | crcCheck _ hframe' hrec _ _ =>
        rw [hframe] at hframe'
        rwa [← Option.some.inj hframe'] at hrec
  refine ⟨hfed, (hchecks.ended (by simp [hended])).resolve_right hnonempty, ?_⟩
  rw [hrec.byteCnt, hfed, checkedBytes, List.length_take, length_bytes, Nat.min_comm]

/-- The verdict on the frame judged in this cycle. -/
theorem Checks.verdict (hchecks : bench.Checks check) (henabled : bench.Enabled)
    (hphase : bench.rx.Phase bench.opened bench.ended) {beats frame : List RxBeat}
    {close : EthMacRxIn} (hended : bench.ended = some (beats, close))
    (hframe : payload beats = some frame) (hne : frame ≠ [])
    (hknown : check.clean = true ∨ datagramEnded (checkedBytes frame) = true ∧
      datagramEnd (checkedBytes frame) + 4 ≤ (checkedBytes frame).length) :
    bench.rx.csumBadNow = (params.rxCsumOffload && checkOn beats &&
      (ipVerdict (checkedBytes frame) || l4Verdict (checkedBytes frame))) := by
  obtain ⟨hfed, hgap, hbyteCnt⟩ := hchecks.judging hphase hended hframe hne
  have hcurrent : bench.current = some frame := by
    rw [current, hended]
    exact hframe
  have henable := henabled frame hcurrent
  simp only [hended] at henable
  rw [← hfed] at hknown ⊢
  rw [EthMacRx.csumBadNow_eq hchecks.flow hchecks.results hchecks.zero hchecks.engine hgap
    hbyteCnt hknown, henable]

/-- Frames whose datagram ends before the FCS are judged by what they are. -/
def Judged (bench : MacRxBench params) : Prop :=
  ∀ envelope ∈ bench.closed, ∀ frame, payload envelope.beats = some frame →
    datagramEnded (checkedBytes frame) = true →
    datagramEnd (checkedBytes frame) + 4 ≤ (checkedBytes frame).length →
    envelope.csumBad = (params.rxCsumOffload && checkOn envelope.beats &&
      (ipVerdict (checkedBytes frame) || l4Verdict (checkedBytes frame)))

theorem Judged.step (hjudged : bench.Judged) (hchecks : bench.Checks check)
    (henabled : bench.Enabled) (hphase : bench.rx.Phase bench.opened bench.ended)
    (pins : EthMacRxIn) : (bench.step pins).Judged := by
  intro envelope henvelope frame hframe hended hafter
  rcases List.mem_append.mp henvelope with hold | hnew
  · exact hjudged envelope hold frame hframe hended hafter
  · obtain ⟨hlast, _, hbad⟩ := mem_judged hnew
    have hne : frame ≠ [] := by
      rintro rfl
      exact absurd hended (by decide)
    rw [hbad]
    exact hchecks.verdict henabled hphase hlast hframe hne (Or.inr ⟨hended, hafter⟩)

/-- The receiver, its checker and what they have said, along every run. -/
structure Checked (bench : MacRxBench params) : Prop where
  reserved : bench.rx.Reserved
  follows : bench.Follows
  enabled : bench.Enabled
  checks : ∃ check, bench.Checks check
  judged : bench.Judged

theorem Checked.step (haddr : 2 ≤ params.axisFifoAddrWidth) (hchecked : bench.Checked)
    (pins : EthMacRxIn) : (bench.step pins).Checked := by
  obtain ⟨hreserved, hfollows, henabled, ⟨check, hchecks⟩, hjudged⟩ := hchecked
  exact ⟨hreserved.clkEdge haddr pins, hfollows.step hreserved.occ_lt pins,
    henabled.step hfollows.phase pins, ⟨_, hchecks.step hfollows.phase pins⟩,
    hjudged.step hchecks henabled hfollows.phase pins⟩

theorem checked_run (haddr : 2 ≤ params.axisFifoAddrWidth)
    (mem : BitVec params.axisFifoAddrWidth → MacWord) (doutR : MacWord)
    (cycles : List EthMacRxIn) : (runFrom step (start mem doutR) cycles).Checked := by
  apply @invariant_runFrom _ _ step Checked
  · intro bench pins hchecked
    exact hchecked.step haddr pins
  · refine ⟨EthMacRx.reserved_reset haddr mem doutR, follows_start mem doutR, ?_,
      ⟨_, checks_start mem doutR⟩, ?_⟩
    · intro frame hframe
      simp [current, start, payload] at hframe
    · intro envelope henvelope
      simp [start] at henvelope

end MacRxBench

end EmacZero
