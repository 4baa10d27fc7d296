/-
What came before a frame does not change what the receiver makes of it, unless the
checker still had the frame before in its pipelines.
-/
import EmacZero.EthMacRxCsum

namespace EmacZero

variable {params : EthMacRxParams}

namespace MacRxBench

variable {bench : MacRxBench params} {check : CsumBench} {pins : EthMacRxIn}

/-- Bytes past the last index are idle cycles to the checker. -/
def Overlong (bench : MacRxBench params) (check : CsumBench) : Prop :=
  ∀ frame, bench.current = some frame → 16383 < frame.length →
    1 + bench.ended.isSome.toNat ≤ check.gap

/-- The checker was empty when the frame being received began. -/
structure Calm (bench : MacRxBench params) (check : CsumBench) : Prop where
  ahead : bench.current = some [] → bench.ended = none → check.engine.p3 = false
  inside : ∀ frame, bench.current = some frame → frame ≠ [] → check.clean = true

theorem checkEvent_quiet {had : List (BitVec 8)}
    (hquiet : ¬(bench.rx.state = .data ∧ pins.gmiiRxDv = true)) :
    bench.rx.checkEvent pins had = .idle bench.rx.byteCnt pins.gmiiRxd := by
  rw [EthMacRx.checkEvent, if_neg hquiet]

/-- A byte of a frame that has had some. -/
theorem checkEvent_later (hchecks : bench.Checks check) (hstate : bench.rx.state = .data)
    {frame : List RxBeat} (hcurrent : bench.current = some frame)
    (hrec : bench.rx.Received frame) (hne : frame ≠ []) (hdv : pins.gmiiRxDv = true) :
    bench.rx.checkEvent pins check.frame =
      if frame.length < 16383 then .next pins.gmiiRxd
      else .idle bench.rx.byteCnt pins.gmiiRxd := by
  have hbyteCnt := hrec.byteCnt
  have hpos := List.length_pos_of_ne_nil hne
  have hlater : bench.rx.byteCnt ≠ 0 := by
    intro hzero
    rw [hzero] at hbyteCnt
    simp at hbyteCnt
    omega
  rw [EthMacRx.checkEvent, if_pos ⟨hstate, hdv⟩, if_neg hlater,
    hchecks.fed frame hcurrent hne, checkedBytes, List.length_take, length_bytes]
  simp

theorem Overlong.step (hover : bench.Overlong check) (hchecks : bench.Checks check)
    (hphase : bench.rx.Phase bench.opened bench.ended) (pins : EthMacRxIn) :
    (bench.step pins).Overlong (check.step (bench.rx.checkEvent pins check.frame)) := by
  intro fed hfed hlong
  by_cases hstate : bench.rx.state = .data
  · obtain ⟨hended, frame, hframe, hrec⟩ := phase_data hphase hstate
    obtain ⟨hnow, hnext⟩ := @current_data _ _ pins _ hframe hended
    rw [hnext] at hfed
    obtain rfl := Option.some.inj hfed
    cases hdv : pins.gmiiRxDv with
    | true =>
        rw [hdv, if_pos rfl, List.length_append, List.length_singleton] at hlong
        have hne : frame ≠ [] := by
          rintro rfl
          simp at hlong
        rw [checkEvent_later hchecks hstate hnow hrec hne hdv, if_neg (by omega)]
        have hnone : (bench.step pins).ended = none := by simp [MacRxBench.step, hdv]
        rw [hnone]
        exact Nat.le_add_left 1 check.gap
    | false =>
        rw [hdv, if_neg Bool.false_ne_true] at hlong
        have hbefore := hover frame hnow hlong
        rw [hended] at hbefore
        rw [checkEvent_quiet (by simp [hdv])]
        have hle := Bool.toNat_le (bench.step pins).ended.isSome
        change 1 + _ ≤ check.gap + 1
        simp at hbefore
        omega
  · rcases @current_step _ _ pins hphase hstate with hnone | hempty
    · rw [hnone] at hfed
      simp at hfed
    · rw [hempty] at hfed
      obtain rfl := Option.some.inj hfed
      simp at hlong

/-- An idle cycle moves the second stage on to the third. -/
theorem Checks.idle_p3 (hchecks : bench.Checks check) (inIdx : BitVec 14)
    (inData : BitVec 8) :
    (check.step (.idle inIdx inData)).engine.p3 = check.engine.p2 := by
  obtain ⟨hflow, -⟩ := CsumBench.step_known (by decide)
    (show check.Legal 2 (.idle inIdx inData) from trivial) hchecks.flow hchecks.results
  rw [hflow.p3, hchecks.flow.p2]
  rfl

theorem Calm.step (hcalm : bench.Calm check) (hchecks : bench.Checks check)
    (hphase : bench.rx.Phase bench.opened bench.ended) (hended : bench.ended = none)
    (pins : EthMacRxIn) :
    (bench.step pins).Calm (check.step (bench.rx.checkEvent pins check.frame)) := by
  by_cases hstate : bench.rx.state = .data
  · obtain ⟨-, frame, hframe, hrec⟩ := phase_data hphase hstate
    obtain ⟨hnow, hnext⟩ := @current_data _ _ pins _ hframe hended
    have hopened : bench.opened ≠ [] := by
      intro hnil
      rw [hnil] at hframe
      simp [payload] at hframe
    cases hdv : pins.gmiiRxDv with
    | true =>
        rw [hdv, if_pos rfl] at hnext
        constructor
        · intro hempty
          rw [hnext] at hempty
          simp at hempty
        · intro _ _ _
          cases frame with
          | nil =>
              have hzero : bench.rx.byteCnt = 0 := by
                rw [← BitVec.toNat_inj, hrec.byteCnt]
                rfl
              rw [EthMacRx.checkEvent, if_pos ⟨hstate, hdv⟩, if_pos hzero]
              exact congrArg not (hcalm.ahead hnow hended)
          | cons first rest =>
              have hclean := hcalm.inside _ hnow (List.cons_ne_nil first rest)
              rw [checkEvent_later hchecks hstate hnow hrec (List.cons_ne_nil first rest) hdv]
              split
              · exact hclean
              · exact hclean
    | false =>
        rw [hdv, if_neg Bool.false_ne_true] at hnext
        rw [checkEvent_quiet (by simp [hdv])]
        constructor
        · intro _ hnone
          simp [MacRxBench.step, hdv, hopened] at hnone
        · intro fed hfed hne
          rw [hnext, ← hnow] at hfed
          exact hcalm.inside fed hfed hne
  · rw [checkEvent_quiet (by simp [hstate])]
    constructor
    · intro _ _
      rw [hchecks.idle_p3]
      exact (hchecks.flow.quiet
        (hchecks.rested (Or.inl (current_quiet hphase hstate hended)))).2.1
    · intro fed hfed hne
      rcases @current_step _ _ pins hphase hstate with hnone | hempty
      · rw [hnone] at hfed
        simp at hfed
      · rw [hempty] at hfed
        exact absurd (Option.some.inj hfed).symm hne

/-- The frame before has just ended, its datagram with its very last byte, and the next
one starts with its SFD at once. -/
def pending (bench : MacRxBench params) (first : EthMacRxIn) : Bool :=
  first.gmiiRxd == 0xD5 &&
    match bench.ended with
    | none => false
    | some (beats, _) =>
        match payload beats with
        | none => false
        | some frame => datagramEnds (bytes frame)

/-- The pipelines' second stage is empty when an SFD comes. -/
theorem p2_of_not_pending (hchecks : bench.Checks check) (hover : bench.Overlong check)
    {first : EthMacRxIn} (hsfd : first.gmiiRxd = 0xD5) (hended : bench.ended ≠ none)
    (hquiet : bench.pending first = false) : check.engine.p2 = false := by
  obtain ⟨⟨beats, close⟩, hlast⟩ := Option.ne_none_iff_exists'.mp hended
  have hcurrent : bench.current = payload beats := by rw [current, hlast]
  have hrested := hchecks.rested
  rw [hcurrent] at hrested
  cases hframe : payload beats with
  | none => exact (hchecks.flow.quiet (hrested (Or.inl hframe))).2.1
  | some frame =>
      by_cases hne : frame = []
      · exact (hchecks.flow.quiet (hrested (Or.inr (by rw [hframe, hne])))).2.1
      · have hnow := hcurrent.trans hframe
        have hfed := hchecks.fed frame hnow hne
        rw [pending, hsfd, hlast] at hquiet
        simp only [beq_self_eq_true, Bool.true_and, hframe] at hquiet
        by_cases hlong : 16383 < frame.length
        · have hgap := hover frame hnow hlong
          rw [hlast] at hgap
          exact (hchecks.flow.quiet (Or.inr hgap)).2.1
        · have hgap := hchecks.ended hended
          have hall : check.ago1 = bytes frame := by
            have hsame : check.frame = bytes frame := by
              rw [hfed, checkedBytes, List.take_of_length_le (by simp; omega)]
            rcases hgap with hone | hnil
            · rw [hchecks.flow.rest1 hone, hsame]
            · rw [hchecks.flow.trails1.eq_nil hnil, ← hnil, hsame]
          rw [hchecks.flow.p2, arrived, hall, hquiet, Bool.and_false]

theorem calm_first (hchecks : bench.Checks check) (hover : bench.Overlong check)
    (hopened : bench.opened = []) {first : EthMacRxIn} (hdv : first.gmiiRxDv = true)
    (hquiet : bench.pending first = false)
    (hphase : bench.rx.Phase bench.opened bench.ended) :
    (bench.step first).Calm (check.step (bench.rx.checkEvent first check.frame)) := by
  by_cases hended : bench.ended = none
  · have hcalm : bench.Calm check := by
      have hnone : bench.current = none := by
        rw [current, hended, hopened]
        rfl
      constructor
      · intro hempty
        rw [hnone] at hempty
        simp at hempty
      · intro frame hframe
        rw [hnone] at hframe
        simp at hframe
    exact hcalm.step hchecks hphase hended first
  · have hstate : bench.rx.state ≠ .data := by
      intro hstate
      exact hended (phase_data hphase hstate).1
    have hcurrent : (bench.step first).current =
        payload [⟨first, bench.rx.fifoRoom⟩] := by
      simp [current, MacRxBench.step, hdv, hopened]
    rw [checkEvent_quiet (by simp [hstate])]
    constructor
    · intro hempty _
      have hsfd : first.gmiiRxd = 0xD5 := by
        have hstart := payload_eq_some_iff.mp (hcurrent.symm.trans hempty)
        obtain ⟨preamble, sfd, hbeats, -, hsfd⟩ := hstart
        rcases List.append_eq_singleton_iff.mp hbeats.symm with ⟨-, hone⟩ | ⟨-, hone⟩
        · rwa [(List.cons.inj hone).1] at hsfd
        · simp at hone
      rw [hchecks.idle_p3]
      exact p2_of_not_pending hchecks hover hsfd hended hquiet
    · intro frame hframe hne
      rcases @current_step _ _ first hphase hstate with hnone | hempty
      · rw [hnone] at hframe
        simp at hframe
      · rw [hempty] at hframe
        exact absurd (Option.some.inj hframe).symm hne

/-- The receiver and its checker, in step. -/
structure Traced (bench : MacRxBench params) (check : CsumBench) : Prop where
  reserved : bench.rx.Reserved
  follows : bench.Follows
  enabled : bench.Enabled
  checks : bench.Checks check
  overlong : bench.Overlong check

theorem Traced.step (haddr : 2 ≤ params.axisFifoAddrWidth) (htraced : bench.Traced check)
    (pins : EthMacRxIn) :
    (bench.step pins).Traced (check.step (bench.rx.checkEvent pins check.frame)) := by
  obtain ⟨hreserved, hfollows, henabled, hchecks, hover⟩ := htraced
  exact ⟨hreserved.clkEdge haddr pins, hfollows.step hreserved.occ_lt pins,
    henabled.step hfollows.phase pins, hchecks.step hfollows.phase pins,
    hover.step hchecks hfollows.phase pins⟩

theorem traced_run (haddr : 2 ≤ params.axisFifoAddrWidth)
    (mem : BitVec params.axisFifoAddrWidth → MacWord) (doutR : MacWord)
    (cycles : List EthMacRxIn) :
    ∃ check, (runFrom step (start mem doutR) cycles).Traced check := by
  apply @invariant_runFrom _ _ step fun bench => ∃ check, bench.Traced check
  · rintro bench pins ⟨check, htraced⟩
    exact ⟨_, htraced.step haddr pins⟩
  · refine ⟨CsumBench.start false, EthMacRx.reserved_reset haddr mem doutR,
      follows_start mem doutR, ?_, checks_start mem doutR, ?_⟩
    · intro frame hframe
      simp [current, start, payload] at hframe
    · intro frame hframe
      simp [current, start, payload] at hframe

/-- The FIFO has room for a word in this cycle. -/
def HasRoom (bench : MacRxBench params) (_ : EthMacRxIn) : Prop := bench.rx.fifoRoom = true

instance (bench : MacRxBench params) (pins : EthMacRxIn) : Decidable (bench.HasRoom pins) :=
  inferInstanceAs (Decidable (_ = _))

/-- Along an envelope the checker stays as empty as it began. -/
theorem wave_along (haddr : 2 ≤ params.axisFifoAddrWidth) {wave : List EthMacRxIn} :
    ∀ (bench : MacRxBench params) (check : CsumBench), bench.Traced check →
      bench.Calm check → bench.ended = none → (∀ pins ∈ wave, pins.gmiiRxDv = true) →
      Along step HasRoom bench wave →
      ∃ later, (runFrom step bench wave).Traced later ∧ (runFrom step bench wave).Calm later ∧
        (runFrom step bench wave).ended = none ∧
        (runFrom step bench wave).opened = bench.opened ++ wave.map (⟨·, true⟩) := by
  induction wave with
  | nil =>
      intro bench check htraced hcalm hended _ _
      exact ⟨check, htraced, hcalm, hended, (List.append_nil _).symm⟩
  | cons pins rest ih =>
      intro bench check htraced hcalm hended hdv hroom
      obtain ⟨hnow, hlater⟩ := hroom
      have hhigh := hdv pins List.mem_cons_self
      have hstep := hcalm.step htraced.checks htraced.follows.phase hended pins
      obtain ⟨later, htraced', hcalm', hended', hopened'⟩ := ih _ _ (htraced.step haddr pins)
        hstep (by simp [MacRxBench.step, hhigh])
        (fun pins hpins => hdv pins (List.mem_cons_of_mem _ hpins)) hlater
      refine ⟨later, htraced', hcalm', hended', hopened'.trans ?_⟩
      have hone : (bench.step pins).opened = bench.opened ++ [⟨pins, true⟩] := by
        simp only [MacRxBench.step, hhigh, if_true]
        rw [show bench.rx.fifoRoom = true from hnow]
      rw [hone, List.append_assoc]
      rfl

/-- The last envelope of a run, and the verdict that it got. -/
theorem last_closed (haddr : 2 ≤ params.axisFifoAddrWidth) {bench : MacRxBench params}
    {check : CsumBench} (htraced : bench.Traced check) (hopened : bench.opened = [])
    {first : EthMacRxIn} {rest : List EthMacRxIn}
    (hdv : ∀ pins ∈ first :: rest, pins.gmiiRxDv = true)
    (hroom : Along step HasRoom bench (first :: rest))
    (hquiet : bench.pending first = false) {close : EthMacRxIn}
    (hclose : close.gmiiRxDv = false) (judge : EthMacRxIn) :
    ∃ envelope,
      (runFrom step bench (first :: rest ++ [close, judge])).closed.getLast? = some envelope ∧
      envelope.beats = (first :: rest).map (⟨·, true⟩) ∧ envelope.close = close ∧
      envelope.judge = judge ∧
      ∀ frame, payload envelope.beats = some frame → frame ≠ [] →
        envelope.csumBad = (params.rxCsumOffload && checkOn envelope.beats &&
          (ipVerdict (checkedBytes frame) || l4Verdict (checkedBytes frame))) := by
  obtain ⟨hnow, hlater⟩ := hroom
  have hhigh := hdv first List.mem_cons_self
  have hcalm := calm_first htraced.checks htraced.overlong hopened hhigh hquiet
    htraced.follows.phase
  obtain ⟨later, htraced', hcalm', hended', hopened'⟩ := wave_along haddr _ _
    (htraced.step haddr first) hcalm (by simp [MacRxBench.step, hhigh])
    (fun pins hpins => hdv pins (List.mem_cons_of_mem _ hpins)) hlater
  have hbeats : (runFrom step (bench.step first) rest).opened =
      (first :: rest).map (⟨·, true⟩) := by
    have hone : (bench.step first).opened = [⟨first, true⟩] := by
      simp only [MacRxBench.step, hhigh, if_true, hopened, List.nil_append]
      rw [show bench.rx.fifoRoom = true from hnow]
    rw [hopened', hone]
    rfl
  rw [List.cons_append, runFrom_cons, runFrom_append]
  generalize runFrom step (bench.step first) rest = reached at htraced' hcalm' hended' hbeats
  have hjudged := htraced'.step haddr close
  have hcalm'' := hcalm'.step htraced'.checks htraced'.follows.phase hended' close
  have hlast : (reached.step close).ended = some ((first :: rest).map (⟨·, true⟩), close) := by
    simp [MacRxBench.step, hclose, hbeats]
  refine ⟨⟨(first :: rest).map (⟨·, true⟩), close, judge, (reached.step close).rx.csumBadNow⟩,
    ?_, rfl, rfl, rfl, ?_⟩
  · change ((reached.step close).closed ++ (reached.step close).judged judge).getLast? = _
    rw [judged, hlast]
    exact List.getLast?_concat
  · intro frame hframe hne
    have hcurrent : (reached.step close).current = some frame := by
      rw [current, hlast]
      exact hframe
    exact hjudged.checks.verdict hjudged.enabled hjudged.follows.phase hlast hframe hne
      (Or.inl (hcalm''.inside frame hcurrent hne))

end MacRxBench

/-! What the receiver makes of an envelope. -/

/-- An input cycle as the wire and the configuration have it. -/
def EthMacRxIn.wire (pins : EthMacRxIn) : EthMacRxIn := { pins with mAxisTready := true }

/-- The words that a frame leaves on the stream, with their error flag, and the pulse of
the statistics. -/
def verdict (params : EthMacRxParams) (envelope : RxEnvelope) :
    List MacWord × List StatPulse :=
  (envelopeWords params envelope, framePulse params envelope)

section Wire

/-- A beat that found room, as the wire has it. -/
def RxBeat.wire (beat : RxBeat) : RxBeat := ⟨beat.pins.wire, true⟩

theorem payload_wire (beats : List RxBeat) :
    payload (beats.map RxBeat.wire) = (payload beats).map (List.map RxBeat.wire) := by
  induction beats with
  | nil => rfl
  | cons beat rest ih =>
      rw [List.map_cons, payload, payload]
      change (if beat.data = 0x55 then _ else if beat.data = 0xD5 then _ else _) = _
      split
      · exact ih
      · split
        · rfl
        · rfl

theorem bytes_wire (frame : List RxBeat) : bytes (frame.map RxBeat.wire) = bytes frame := by
  rw [bytes, bytes, List.map_map]
  rfl

theorem forStation_wire (frame : List RxBeat) :
    forStation params (frame.map RxBeat.wire) = forStation params frame := by
  rw [forStation, forStation, List.getElem?_map, bytes_wire]
  cases frame[5]? with
  | none => rfl
  | some beat => rfl

theorem checkOn_wire (beats : List RxBeat) :
    checkOn (beats.map RxBeat.wire) = checkOn beats := by
  induction beats with
  | nil => rfl
  | cons beat rest ih =>
      rw [List.map_cons, checkOn, checkOn, ih]
      rfl

theorem alignErr_wire (beats : List RxBeat) :
    ((beats.map RxBeat.wire).any fun beat => beat.pins.gmiiRxEr) =
      beats.any fun beat => beat.pins.gmiiRxEr := by
  rw [List.any_map]
  rfl

/-- A frame for this station that found room is started and misses nothing. -/
theorem started_of_roomy {beats frame : List RxBeat} (hroom : Roomy beats)
    (hframe : payload beats = some frame) (hstation : forStation params frame = true) :
    6 ≤ frame.length ∧ started params frame = true ∧ missed frame = false := by
  obtain ⟨preamble, sfd, hbeats, -, -⟩ := payload_eq_some_iff.mp hframe
  have hroomy : Roomy frame := by
    intro beat hbeat
    apply hroom
    rw [hbeats]
    exact List.mem_append_right _ (List.mem_cons_of_mem _ hbeat)
  have hlong : 6 ≤ frame.length := by
    by_contra hshort
    rw [forStation_short (by omega)] at hstation
    simp at hstation
  have hstart : startRoom frame = true := by
    rw [startRoom, List.getElem?_eq_getElem (show 5 < frame.length by omega)]
    exact hroomy _ (List.getElem_mem _)
  have hmissed : missed frame = false := by
    rw [missed, List.any_eq_false]
    intro beat hbeat
    simp [hroomy beat (List.mem_of_mem_drop hbeat)]
  exact ⟨hlong, by rw [started, hstation, hstart, Bool.and_true], hmissed⟩

/-- Two envelopes that are the same on the wire get the same verdict if the checker says
the same of them. -/
theorem verdict_of_wire {left right : RxEnvelope} (hroomL : Roomy left.beats)
    (hroomR : Roomy right.beats)
    (hbeats : left.beats.map RxBeat.wire = right.beats.map RxBeat.wire)
    (hclose : left.close.gmiiRxEr = right.close.gmiiRxEr)
    (hjudge : left.judge.jumboEn = right.judge.jumboEn)
    (hcsum : ∀ frame, payload left.beats = some frame → frame ≠ [] →
      left.csumBad = right.csumBad) :
    verdict params left = verdict params right := by
  have hpayload := congrArg payload hbeats
  rw [payload_wire, payload_wire] at hpayload
  have halign : left.alignErr = right.alignErr := by
    have hany : (left.beats.any fun beat => beat.pins.gmiiRxEr) =
        right.beats.any fun beat => beat.pins.gmiiRxEr := by
      rw [← alignErr_wire, hbeats, alignErr_wire]
    rw [RxEnvelope.alignErr, RxEnvelope.alignErr, hany, hclose]
  cases hleft : payload left.beats with
  | none =>
      rw [hleft] at hpayload
      have hright : payload right.beats = none := by simpa using hpayload.symm
      simp only [verdict, envelopeWords, framePulse, hleft, hright]
  | some frame =>
      rw [hleft] at hpayload
      obtain ⟨other, hright, hsame⟩ := Option.map_eq_some_iff.mp hpayload.symm
      have hbytes : bytes other = bytes frame := by
        rw [← bytes_wire other, hsame, bytes_wire]
      have hlength : other.length = frame.length := by
        simpa using congrArg List.length hbytes
      have hstation : forStation params other = forStation params frame := by
        rw [← forStation_wire, hsame, forStation_wire]
      cases hfor : forStation params frame with
      | false =>
          rw [hfor] at hstation
          simp [verdict, envelopeWords, framePulse, hleft, hright, started, hfor, hstation]
      | true =>
          rw [hfor] at hstation
          obtain ⟨hlong, hstartedL, hmissedL⟩ := started_of_roomy hroomL hleft hfor
          obtain ⟨-, hstartedR, hmissedR⟩ := started_of_roomy hroomR hright hstation
          have hbad := hcsum frame hleft (List.ne_nil_of_length_pos (by omega))
          have herr : frameErr params left frame = frameErr params right other := by
            rw [frameErr, frameErr, hbytes, halign, hmissedL, hmissedR, hjudge, hbad]
          have hclass : classify params left frame = classify params right other := by
            rw [classify, classify, hbytes, hlength, halign, hmissedL, hmissedR, hjudge, hbad]
          rw [verdict, verdict, envelopeWords_of_started hleft hstartedL hmissedL,
            envelopeWords_of_started hright hstartedR hmissedR, hbytes, hlength, herr]
          simp only [framePulse, hleft, hright, hstartedL, hstartedR, if_true, hclass]

end Wire

/-- A stream that ends in a frame: the cycles before it, its own, the one in which
`gmii_rx_dv` falls and the one in which it is judged. -/
structure FrameStream (params : EthMacRxParams) where
  mem : BitVec params.axisFifoAddrWidth → MacWord
  doutR : MacWord
  before : List EthMacRxIn
  first : EthMacRxIn
  rest : List EthMacRxIn
  close : EthMacRxIn
  judge : EthMacRxIn

namespace FrameStream

/-- The receiver as the frame comes. -/
def ahead (stream : FrameStream params) : MacRxBench params :=
  runFrom MacRxBench.step (MacRxBench.start stream.mem stream.doutR) stream.before

def frame (stream : FrameStream params) : List EthMacRxIn :=
  stream.first :: stream.rest ++ [stream.close, stream.judge]

/-- The whole run. -/
def reached (stream : FrameStream params) : MacRxBench params :=
  runFrom MacRxBench.step stream.ahead stream.frame

/-- What the receiver makes of the last frame. -/
def lastVerdict (stream : FrameStream params) : Option (List MacWord × List StatPulse) :=
  stream.reached.closed.getLast?.map (verdict params)

/-- `gmii_rx_dv` is low before the frame and after it and high for its bytes, and the FIFO
has room for them. -/
structure Offered (stream : FrameStream params) : Prop where
  low : ∀ last ∈ stream.before.getLast?, last.gmiiRxDv = false
  high : ∀ pins ∈ stream.first :: stream.rest, pins.gmiiRxDv = true
  close : stream.close.gmiiRxDv = false
  room : Along MacRxBench.step MacRxBench.HasRoom stream.ahead (stream.first :: stream.rest)

variable {stream : FrameStream params}

theorem Offered.opened (hoffered : stream.Offered) : stream.ahead.opened = [] := by
  have hlow := hoffered.low
  unfold ahead
  rcases List.eq_nil_or_concat stream.before with hnil | ⟨front, last, hlast⟩
  · rw [hnil]
    rfl
  · rw [List.concat_eq_append] at hlast
    rw [hlast] at hlow ⊢
    have hdv := hlow last (by rw [List.getLast?_concat]; exact rfl)
    rw [runFrom_append]
    simp [MacRxBench.step, hdv]

theorem Offered.last_closed (haddr : 2 ≤ params.axisFifoAddrWidth)
    (hoffered : stream.Offered) (hquiet : stream.ahead.pending stream.first = false) :
    ∃ envelope, stream.reached.closed.getLast? = some envelope ∧
      envelope.beats = (stream.first :: stream.rest).map (⟨·, true⟩) ∧
      envelope.close = stream.close ∧ envelope.judge = stream.judge ∧
      ∀ frame, payload envelope.beats = some frame → frame ≠ [] →
        envelope.csumBad = (params.rxCsumOffload && checkOn envelope.beats &&
          (ipVerdict (checkedBytes frame) || l4Verdict (checkedBytes frame))) := by
  obtain ⟨check, htraced⟩ := MacRxBench.traced_run haddr stream.mem stream.doutR stream.before
  exact MacRxBench.last_closed haddr htraced hoffered.opened hoffered.high hoffered.room hquiet
    hoffered.close stream.judge

/-- Two streams that end in the same frame: it gets the same verdict in both, if in
neither the checker still has the datagram before in its pipelines. -/
theorem alone_run (haddr : 2 ≤ params.axisFifoAddrWidth) {left right : FrameStream params}
    (hleft : left.Offered) (hright : right.Offered)
    (hsame : left.frame.map EthMacRxIn.wire = right.frame.map EthMacRxIn.wire)
    (hquietL : left.ahead.pending left.first = false)
    (hquietR : right.ahead.pending right.first = false) :
    ∃ judged, left.lastVerdict = some judged ∧ right.lastVerdict = some judged := by
  obtain ⟨envelopeL, hlastL, hbeatsL, hcloseL, hjudgeL, hcsumL⟩ :=
    hleft.last_closed haddr hquietL
  obtain ⟨envelopeR, hlastR, hbeatsR, hcloseR, hjudgeR, hcsumR⟩ :=
    hright.last_closed haddr hquietR
  have hsplit : (left.first :: left.rest).map EthMacRxIn.wire =
      (right.first :: right.rest).map EthMacRxIn.wire ∧
      left.close.wire = right.close.wire ∧ left.judge.wire = right.judge.wire := by
    rw [frame, frame, List.map_append, List.map_append] at hsame
    obtain ⟨hfront, hback⟩ := List.append_inj_left' hsame rfl, List.append_inj_right' hsame rfl
    simp at hback
    exact ⟨hfront, hback⟩
  obtain ⟨hwave, hclose, hjudge⟩ := hsplit
  have hwire : envelopeL.beats.map RxBeat.wire = envelopeR.beats.map RxBeat.wire := by
    have hbuilt := congrArg (List.map (RxBeat.mk · true)) hwave
    rw [hbeatsL, hbeatsR, List.map_map, List.map_map]
    rwa [List.map_map, List.map_map] at hbuilt
  have hroom : ∀ wave : List EthMacRxIn, Roomy (wave.map (RxBeat.mk · true)) := by
    intro wave beat hbeat
    obtain ⟨pins, _, rfl⟩ := List.mem_map.mp hbeat
    rfl
  have hequal : verdict params envelopeL = verdict params envelopeR := by
    apply verdict_of_wire
    · rw [hbeatsL]
      exact hroom _
    · rw [hbeatsR]
      exact hroom _
    · exact hwire
    · rw [hcloseL, hcloseR]
      exact @congrArg _ _ left.close.wire right.close.wire EthMacRxIn.gmiiRxEr hclose
    · rw [hjudgeL, hjudgeR]
      exact @congrArg _ _ left.judge.wire right.judge.wire EthMacRxIn.jumboEn hjudge
    · intro frame hframe hne
      have hpayload := congrArg payload hwire
      rw [payload_wire, payload_wire, hframe] at hpayload
      obtain ⟨other, hother, hbytes⟩ := Option.map_eq_some_iff.mp hpayload.symm
      have hchecked : checkedBytes other = checkedBytes frame := by
        rw [checkedBytes, checkedBytes, ← bytes_wire other, hbytes, bytes_wire]
      have hon : checkOn envelopeL.beats = checkOn envelopeR.beats := by
        rw [← checkOn_wire, hwire, checkOn_wire]
      have hother' : other ≠ [] := by
        rintro rfl
        exact hne (by simpa using hbytes.symm)
      rw [hcsumL frame hframe hne, hcsumR other hother hother', hchecked, hon]
  refine ⟨verdict params envelopeL, ?_, ?_⟩
  · rw [lastVerdict, hlastL]
    rfl
  · rw [lastVerdict, hlastR, hequal]
    rfl

/-- A byte on the wire, the checker on. -/
def checkedPins (data : BitVec 8) : EthMacRxIn :=
  { wirePins true data with rxCsumEn := true }

/-- A UDP datagram with a wrong checksum, and no byte after it. -/
def bareDatagram : List (BitVec 8) :=
  List.replicate 6 0xFF ++ [0x02, 0, 0, 0, 0, 0x01, 0x08, 0x00] ++
    [0x45, 0, 0, 32, 0, 0, 0, 0, 64, 17, 0x66, 0xCB, 10, 0, 0, 1, 10, 0, 0, 2] ++
    [0, 7, 0, 7, 0, 12, 0xE7, 0xBE, 1, 2, 3, 4]

/-- The cycles of that frame, and the one in which `gmii_rx_dv` falls. -/
def bareCycles : List EthMacRxIn :=
  (0x55 :: 0xD5 :: bareDatagram).map checkedPins ++ [{ quietPins true with rxCsumEn := true }]

/-- A broadcast that carries no datagram, its SFD first, after these cycles. -/
def plainAfter (before : List EthMacRxIn) :
    FrameStream ⟨false, 7, 1518, 9018, true, by decide, by decide⟩ :=
  let plain := List.replicate 12 0xFF ++ [0x12, 0x34] ++ List.replicate 46 0
  { mem := fun _ => plainWord 0
    doutR := plainWord 0
    before := before
    first := checkedPins 0xD5
    rest := (plain ++ fcsOf plain).map checkedPins
    close := { quietPins true with rxCsumEn := true }
    judge := { quietPins true with rxCsumEn := true } }

theorem plainAfter_offered (before : List EthMacRxIn)
    (hlow : (before.getLast?.all fun last => !last.gmiiRxDv) = true)
    (hroom : Along MacRxBench.step MacRxBench.HasRoom (plainAfter before).ahead
      ((plainAfter before).first :: (plainAfter before).rest)) :
    (plainAfter before).Offered := by
  refine ⟨?_, ?_, rfl, hroom⟩
  · intro last hlast
    have hlast' : before.getLast? = some last := hlast
    rw [hlast'] at hlow
    simpa using hlow
  · show ∀ pins ∈ checkedPins 0xD5 :: _, pins.gmiiRxDv = true
    intro pins hpins
    rcases List.mem_cons.mp hpins with rfl | hrest
    · rfl
    · obtain ⟨data, _, rfl⟩ := List.mem_map.mp hrest
      rfl

/-- Two idle cycles after the wrong datagram are enough. -/
theorem alone_run_plain :
    ∃ judged, (plainAfter [quietPins true]).lastVerdict = some judged ∧
      (plainAfter (bareCycles ++ [quietPins true])).lastVerdict = some judged :=
  alone_run (by decide) (plainAfter_offered _ rfl (by decide +kernel))
    (plainAfter_offered _ (by decide +kernel) (by decide +kernel)) rfl rfl (by decide +kernel)

/-- One is not: the datagram's verdict comes out on the frame behind it. -/
theorem stale_verdict :
    (plainAfter [quietPins true]).Offered ∧ (plainAfter bareCycles).Offered ∧
      (plainAfter [quietPins true]).frame = (plainAfter bareCycles).frame ∧
      (plainAfter [quietPins true]).lastVerdict ≠ (plainAfter bareCycles).lastVerdict :=
  ⟨plainAfter_offered _ rfl (by decide +kernel),
    plainAfter_offered _ (by decide +kernel) (by decide +kernel), rfl, by decide +kernel⟩

end FrameStream

end EmacZero
