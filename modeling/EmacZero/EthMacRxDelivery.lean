/-
What `eth_mac_rx` delivers: well-formed frames under any backpressure, and with
room in the FIFO exactly the frames for this station, each as it was received.
-/
import EmacZero.EthMacRxFrames

namespace EmacZero

variable {params : EthMacRxParams}

/-- A data word between the first and the last. -/
def plainWord (data : BitVec 8) : MacWord := ⟨false, false, false, data⟩

/-- Nothing on the wire, and a station that takes its own address 0 and
broadcasts. -/
def quietPins (tready : Bool) : EthMacRxIn :=
  ⟨0, false, false, 0, false, false, false, false, 0, tready⟩

/-- A byte on the wire. -/
def wirePins (tready : Bool) (data : BitVec 8) : EthMacRxIn :=
  { quietPins tready with gmiiRxd := data, gmiiRxDv := true }

/-- One frame on the stream: SOF on the first word only, TLAST on the last. -/
structure WellFormed (frame : List MacWord) : Prop where
  sof : ∃ first rest, frame = first :: rest ∧ first.sof = true ∧
    ∀ word ∈ rest, word.sof = false
  last : ∃ front word, frame = front ++ [word] ∧ word.last = true ∧
    ∀ word ∈ front, word.last = false

/-- The beginning of a frame, perhaps nothing of it yet. -/
structure Begins (part : List MacWord) : Prop where
  sof : ∀ first rest, part = first :: rest → first.sof = true ∧
    ∀ word ∈ rest, word.sof = false
  last : ∀ word ∈ part, word.last = false

/-- Whole frames, and the beginning of one more. -/
def Framed (words : List MacWord) : Prop :=
  ∃ (frames : List (List MacWord)) (part : List MacWord),
    words = frames.flatten ++ part ∧
    (∀ frame ∈ frames, WellFormed frame) ∧ Begins part

theorem begins_nil : Begins [] := ⟨by simp, by simp⟩

theorem Begins.of_prefix {part shorter : List MacWord} (hbegins : Begins part)
    (hle : shorter <+: part) : Begins shorter := by
  obtain ⟨more, rfl⟩ := hle
  constructor
  · rintro first rest rfl
    obtain ⟨hfirst, hrest⟩ := hbegins.sof first (rest ++ more) rfl
    exact ⟨hfirst, fun word hword => hrest word (List.mem_append_left more hword)⟩
  · exact fun word hword => hbegins.last word (List.mem_append_left more hword)

/-- A frame cut short is a beginning of it. -/
theorem WellFormed.begins {frame shorter : List MacWord} (hframe : WellFormed frame)
    (hle : shorter <+: frame) (hne : shorter ≠ frame) : Begins shorter := by
  obtain ⟨first, rest, hsplit, hfirst, hrest⟩ := hframe.sof
  obtain ⟨front, last, hfront, -, hnotlast⟩ := hframe.last
  have hinfront : shorter <+: front := by
    rw [hfront] at hle hne
    rcases List.prefix_concat_iff.mp hle with heq | hfront
    · exact absurd heq hne
    · exact hfront
  constructor
  · rintro head tail rfl
    rw [hsplit] at hle
    obtain ⟨rfl, htail⟩ := List.cons_prefix_cons.mp hle
    exact ⟨hfirst, fun word hword => hrest word (htail.subset hword)⟩
  · exact fun word hword => hnotlast word (hinfront.subset hword)

theorem Framed.of_prefix {words prior : List MacWord} (hwords : Framed words)
    (hle : prior <+: words) : Framed prior := by
  obtain ⟨frames, part, rfl, hframes, hpart⟩ := hwords
  induction frames generalizing prior with
  | nil => exact ⟨[], prior, rfl, by simp, hpart.of_prefix hle⟩
  | cons frame frames ih =>
      rw [List.flatten_cons, List.append_assoc] at hle
      rcases List.prefix_or_prefix_of_prefix hle (List.prefix_append frame _) with
        hshort | ⟨more, rfl⟩
      · by_cases hwhole : prior = frame
        · exact ⟨[frame], [], by simp [hwhole], by simp_all, begins_nil⟩
        · exact ⟨[], prior, rfl, by simp,
            (hframes frame List.mem_cons_self).begins hshort hwhole⟩
      · rw [List.prefix_append_right_inj] at hle
        obtain ⟨whole, rest, rfl, hwhole, hrest⟩ :=
          ih hle fun frame hframe => hframes frame (List.mem_cons_of_mem _ hframe)
        refine ⟨frame :: whole, rest, by simp, ?_, hrest⟩
        intro other hother
        rcases List.mem_cons.mp hother with rfl | hother
        · exact hframes _ List.mem_cons_self
        · exact hwhole other hother

theorem begun_cons (first : RxBeat) (rest : List RxBeat) :
    ∃ later, begun (first :: rest) = ⟨true, false, false, first.data⟩ :: later ∧
      ∀ word ∈ later, word.sof = false ∧ word.err = false ∧ word.last = false := by
  refine ⟨_, rfl, ?_⟩
  intro word hword
  obtain ⟨⟨now, late⟩, -, hpair⟩ := List.mem_filterMap.mp hword
  cases hroom : now.room with
  | false => simp [hroom] at hpair
  | true =>
      simp only [hroom, if_true, Option.some.injEq] at hpair
      simp [← hpair]

/-- What has been queued of a frame begins one. -/
theorem begins_begun (frame : List RxBeat) : Begins (begun frame) := by
  cases frame with
  | nil => exact begins_nil
  | cons first rest =>
      obtain ⟨later, hbegun, hlater⟩ := begun_cons first rest
      rw [hbegun]
      constructor
      · intro head tail hsplit
        obtain ⟨rfl, rfl⟩ := List.cons.inj hsplit
        exact ⟨rfl, fun word hword => (hlater word hword).1⟩
      · intro word hword
        rcases List.mem_cons.mp hword with rfl | hword
        · rfl
        · exact (hlater word hword).2.2

theorem wellFormed_closed {frame : List RxBeat} (hne : frame ≠ []) (word : MacWord)
    (hsof : word.sof = false) (hlast : word.last = true) :
    WellFormed (begun frame ++ [word]) := by
  cases frame with
  | nil => exact absurd rfl hne
  | cons first rest =>
      obtain ⟨later, hbegun, hlater⟩ := begun_cons first rest
      rw [hbegun]
      constructor
      · refine ⟨_, later ++ [word], rfl, rfl, ?_⟩
        intro other hother
        rcases List.mem_append.mp hother with hbefore | hclose
        · exact (hlater other hbefore).1
        · rw [List.mem_singleton.mp hclose, hsof]
      · refine ⟨_, word, rfl, hlast, ?_⟩
        intro other hother
        rcases List.mem_cons.mp hother with rfl | hbefore
        · rfl
        · exact (hlater other hbefore).2.2

/-- An envelope leaves a well-formed frame or nothing. -/
theorem envelopeWords_wellFormed (envelope : RxEnvelope) :
    envelopeWords params envelope = [] ∨ WellFormed (envelopeWords params envelope) := by
  unfold envelopeWords
  split
  · exact Or.inl rfl
  · split
    · rename_i frame _ hstarted
      right
      apply wellFormed_closed
      · rintro rfl
        simp [started, forStation] at hstarted
      · rfl
      · rfl
    · exact Or.inl rfl

theorem begins_queuedOf (beats : List RxBeat) : Begins (queuedOf params beats) := by
  unfold queuedOf
  split
  · exact begins_nil
  · split
    · exact begins_begun _
    · exact begins_nil

theorem MacRxBench.begins_queuing (bench : MacRxBench params) :
    Begins bench.queuing := by
  unfold MacRxBench.queuing
  split
  · exact begins_queuedOf _
  · exact begins_queuedOf _

theorem framed_envelopes (envelopes : List RxEnvelope) {part : List MacWord}
    (hpart : Begins part) : Framed (envelopes.flatMap (envelopeWords params) ++ part) := by
  refine ⟨(envelopes.map (envelopeWords params)).filter fun frame => !frame.isEmpty, part,
    ?_, ?_, hpart⟩
  · rw [List.flatten_filter_not_isEmpty, List.flatMap]
  · intro frame hframe
    obtain ⟨hmem, hne⟩ := List.mem_filter.mp hframe
    obtain ⟨envelope, -, rfl⟩ := List.mem_map.mp hmem
    rcases @envelopeWords_wellFormed params envelope with hnil | hwell
    · simp [hnil] at hne
    · exact hwell

namespace MacRxBench

variable {bench : MacRxBench params}

theorem taken_prefix (bench : MacRxBench params) : bench.taken <+: bench.sent := by
  rw [sent, List.append_assoc]
  exact List.prefix_append _ _

/-- Framing survives any backpressure: no write is refused; the stream is a
sequence of well-formed frames, those of the envelopes in order; a frame of which
a byte was dropped ends with the error flag; one that found no room at its first
word is dropped whole and raises `stat_drop` once. -/
theorem framed_run (haddr : 2 ≤ params.axisFifoAddrWidth)
    (mem : BitVec params.axisFifoAddrWidth → MacWord) (doutR : MacWord)
    (cycles : List EthMacRxIn) :
    let bench := runFrom step (start mem doutR) cycles
    (∀ pins, bench.rx.fifoOverflow pins = false) ∧
      Framed bench.taken ∧
      bench.taken <+: bench.closed.flatMap (envelopeWords params) ++ bench.queuing ∧
      bench.pulses ++ bench.rx.pulsesNow = bench.closed.flatMap (framePulse params) ∧
      ∀ envelope ∈ bench.closed, ∀ frame, payload envelope.beats = some frame →
        forStation params frame = true →
        (startRoom frame = true → missed frame = true →
          ∃ front word, envelopeWords params envelope = front ++ [word] ∧
            word.last = true ∧ word.err = true) ∧
        (startRoom frame = false →
          envelopeWords params envelope = [] ∧ framePulse params envelope = [.drop]) := by
  intro bench
  obtain ⟨hres, hfollows⟩ : bench.rx.Reserved ∧ bench.Follows :=
    follows_run haddr mem doutR cycles
  have htaken := bench.taken_prefix
  have hframed := @framed_envelopes params bench.closed _ bench.begins_queuing
  rw [hfollows.sent] at htaken
  refine ⟨hres.fits, hframed.of_prefix htaken, htaken, hfollows.pulses, ?_⟩
  intro envelope _ frame hframe hstation
  constructor
  · intro hroom hmissed
    refine ⟨begun frame, closing params envelope frame, ?_, rfl, ?_⟩
    · simp [envelopeWords, hframe, started, hstation, hroom]
    · simp [closing, frameErr, hmissed]
  · intro hroom
    constructor
    · simp [envelopeWords, hframe, started, hroom]
    · simp [framePulse, hframe, started, hstation, hroom]

/-- A FIFO of eight words that nobody reads, and a broadcast frame of twenty. -/
theorem framed_run_stalled :
    let params : EthMacRxParams := ⟨false, 3, 1518, 9018, false, by decide, by decide⟩
    let bench : MacRxBench params :=
      runFrom step (start (fun _ => plainWord 0) (plainWord 0))
        (((0x55 : BitVec 8) :: 0xD5 :: List.replicate 20 0xFF).map (wirePins false) ++
          [quietPins false, quietPins false, quietPins false])
    Framed bench.taken :=
  (framed_run (by decide) _ _ _).2.1

end MacRxBench

/-! With room in the FIFO. -/

/-- A frame on the stream: these bytes, SOF on the first only, TLAST and the error
flag on the last. -/
def axisFrame (data : List (BitVec 8)) (err : Bool) : List MacWord :=
  data.mapIdx fun index byte =>
    { sof := index == 0
      err := err && index + 1 == data.length
      last := index + 1 == data.length
      data := byte }

/-- The error flag as the wire decides it: wrong FCS, `gmii_rx_er`, length. -/
def wireErr (params : EthMacRxParams) (envelope : RxEnvelope) (frame : List RxBeat) :
    Bool :=
  !fcsOk (bytes frame) || envelope.alignErr || isRunt (bytes frame) ||
    overLimit params envelope.judge.jumboEn (bytes frame)

/-- What an envelope is delivered as: nothing unless it carries a frame for this
station, else the frame without its FCS. -/
def deliveredWords (params : EthMacRxParams) (envelope : RxEnvelope) : List MacWord :=
  match payload envelope.beats with
  | none => []
  | some frame =>
      if forStation params frame then
        axisFrame ((bytes frame).take (frame.length - 4)) (wireErr params envelope frame)
      else []

/-- Every beat found room. -/
def Roomy (beats : List RxBeat) : Prop := ∀ beat ∈ beats, beat.room = true

/-- With none of them missed every byte is queued, in order. -/
theorem begun_of_not_missed {first : RxBeat} {rest : List RxBeat}
    (hmissed : missed (first :: rest) = false) :
    begun (first :: rest) = ⟨true, false, false, first.data⟩ ::
      ((bytes rest).take (rest.length - 5)).map plainWord := by
  rw [missed, List.any_eq_false] at hmissed
  have hzip : (rest.drop 5).zip rest = (rest.drop 5).zip (rest.take (rest.length - 5)) := by
    conv_lhs =>
      rw [← List.append_nil (rest.drop 5)]
      rhs
      rw [← List.take_append_drop (rest.length - 5) rest]
    rw [List.zip_append (by simp)]
    simp
  have hall : ∀ pair ∈ (rest.drop 5).zip (rest.take (rest.length - 5)),
      (if pair.1.room then some (plainWord pair.2.data) else none) =
        some (plainWord pair.2.data) := by
    intro pair hpair
    have hroom := hmissed pair.1 (List.of_mem_zip hpair).1
    rw [if_pos (by simpa using hroom)]
  have hsnd : ((rest.drop 5).zip (rest.take (rest.length - 5))).map Prod.snd =
      rest.take (rest.length - 5) :=
    List.map_snd_zip (by simp)
  have hmap : ((rest.drop 5).zip (rest.take (rest.length - 5))).filterMap
      (fun pair => if pair.1.room then some (plainWord pair.2.data) else none) =
        ((bytes rest).take (rest.length - 5)).map plainWord := by
    have hwords := congrArg (List.map fun beat => plainWord beat.data) hsnd
    rw [List.filterMap_congr hall, List.filterMap_eq_map', bytes, ← List.map_take]
    simpa [Function.comp_def] using hwords
  rw [begun, List.drop_succ_cons, hzip]
  exact congrArg _ hmap

theorem axisFrame_cons (first : BitVec 8) (middle : List (BitVec 8)) (last : BitVec 8)
    (err : Bool) :
    axisFrame (first :: (middle ++ [last])) err =
      ⟨true, false, false, first⟩ :: (middle.map plainWord ++ [⟨false, err, true, last⟩]) := by
  have hmiddle : (middle.mapIdx fun index byte =>
      MacWord.mk (index + 1 == 0) (err && index + 1 + 1 == middle.length + 1 + 1)
        (index + 1 + 1 == middle.length + 1 + 1) byte) = middle.map plainWord := by
    apply List.ext_getElem
    · simp
    · intro index hleft hright
      simp only [List.length_mapIdx] at hleft
      simp [plainWord, hleft.ne]
  simp only [axisFrame, List.mapIdx_cons, List.mapIdx_append, List.length_cons,
    List.length_append, List.length_nil, List.mapIdx_nil, hmiddle]
  simp

/-- A frame that was started and missed nothing leaves its bytes without the FCS. -/
theorem envelopeWords_of_started {envelope : RxEnvelope} {frame : List RxBeat}
    (hframe : payload envelope.beats = some frame) (hstarted : started params frame = true)
    (hmissed : missed frame = false) :
    envelopeWords params envelope =
      axisFrame ((bytes frame).take (frame.length - 4)) (frameErr params envelope frame) := by
  have hlong : 6 ≤ frame.length := by
    by_contra hshort
    rw [started, forStation_short (by omega)] at hstarted
    simp at hstarted
  cases frame with
  | nil => simp at hlong
  | cons first rest =>
      simp only [List.length_cons] at hlong
      have hbound : rest.length - 5 < (bytes rest).length := by
        rw [length_bytes]
        omega
      have hsplit : (bytes (first :: rest)).take ((first :: rest).length - 4) =
          first.data :: ((bytes rest).take (rest.length - 5) ++
            [(bytes rest)[rest.length - 5]]) := by
        rw [List.take_append_getElem, List.length_cons,
          show rest.length + 1 - 4 = rest.length - 5 + 1 + 1 by omega]
        rfl
      have hlast : (bytes (first :: rest)).getD ((first :: rest).length - 5) 0 =
          (bytes rest)[rest.length - 5] := by
        rw [List.length_cons, show rest.length + 1 - 5 = rest.length - 5 + 1 by omega,
          List.getElem_eq_getD 0]
        rfl
      simp only [envelopeWords, hframe, hstarted, if_true, hsplit, axisFrame_cons,
        begun_of_not_missed hmissed, closing, hlast]
      rfl

/-- With room throughout, what an envelope leaves is decided by the wire and the
checksum verdict. -/
theorem envelopeWords_of_room {envelope : RxEnvelope} (hroom : Roomy envelope.beats) :
    envelopeWords params envelope =
      match payload envelope.beats with
      | none => []
      | some frame =>
          if forStation params frame then
            axisFrame ((bytes frame).take (frame.length - 4))
              (wireErr params envelope frame || envelope.csumBad)
          else [] := by
  cases hframe : payload envelope.beats with
  | none => simp [envelopeWords, hframe]
  | some frame =>
      obtain ⟨preamble, sfd, hbeats, -, -⟩ := payload_eq_some_iff.mp hframe
      have hroomy : Roomy frame := by
        intro beat hbeat
        apply hroom
        rw [hbeats]
        exact List.mem_append_right _ (List.mem_cons_of_mem _ hbeat)
      cases hstation : forStation params frame with
      | false => simp [envelopeWords, hframe, started, hstation]
      | true =>
          have hlong : 6 ≤ frame.length := by
            by_contra hshort
            rw [forStation_short (by omega)] at hstation
            simp at hstation
          have hstart : startRoom frame = true := by
            rw [startRoom, List.getElem?_eq_getElem (show 5 < frame.length by omega)]
            exact hroomy _ (List.getElem_mem _)
          have hmissed : missed frame = false := by
            rw [missed, List.any_eq_false]
            intro beat hbeat
            simp [hroomy beat (List.mem_of_mem_drop hbeat)]
          have herr : frameErr params envelope frame =
              (wireErr params envelope frame || envelope.csumBad) := by
            rw [frameErr, wireErr, hmissed, Bool.or_false,
              Bool.or_right_comm (!fcsOk (bytes frame) || envelope.alignErr)]
          rw [envelopeWords_of_started hframe (by simp [started, hstation, hstart]) hmissed,
            herr]
          simp only [hstation, if_true]

/-- Without a checksum verdict against it, just what the wire calls for. -/
theorem envelopeWords_of_roomy {envelope : RxEnvelope} (hroom : Roomy envelope.beats)
    (hcsum : envelope.csumBad = false) :
    envelopeWords params envelope = deliveredWords params envelope := by
  rw [envelopeWords_of_room hroom, deliveredWords]
  simp only [hcsum, Bool.or_false]

namespace MacRxBench

variable {bench : MacRxBench params}

/-- The FIFO has room in this cycle, and no checksum is judged. -/
def Plain (bench : MacRxBench params) (pins : EthMacRxIn) : Prop :=
  bench.rx.fifoRoom = true ∧ (params.rxCsumOffload = true → pins.rxCsumEn = false)

instance (bench : MacRxBench params) (pins : EthMacRxIn) :
    Decidable (bench.Plain pins) :=
  inferInstanceAs (Decidable (_ ∧ _))

/-- What room in every cycle leaves behind. -/
structure AllRoomy (bench : MacRxBench params) : Prop where
  opened : Roomy bench.opened
  ended : ∀ beats close, bench.ended = some (beats, close) → Roomy beats
  closed : ∀ envelope ∈ bench.closed, Roomy envelope.beats

/-- The checksum checker is not used. -/
structure CsumOff (bench : MacRxBench params) : Prop where
  enable : params.rxCsumOffload = true → bench.rx.csumEnR = false
  closed : ∀ envelope ∈ bench.closed, envelope.csumBad = false

theorem mem_judged {pins : EthMacRxIn} {envelope : RxEnvelope}
    (hjudged : envelope ∈ bench.judged pins) :
    bench.ended = some (envelope.beats, envelope.close) ∧
      envelope.judge = pins ∧ envelope.csumBad = bench.rx.csumBadNow := by
  unfold judged at hjudged
  cases hended : bench.ended with
  | none => simp [hended] at hjudged
  | some last =>
      simp only [hended, List.mem_singleton] at hjudged
      simp [hjudged]

theorem AllRoomy.step (pins : EthMacRxIn) (hroom : bench.rx.fifoRoom = true)
    (hall : bench.AllRoomy) : (bench.step pins).AllRoomy := by
  refine ⟨?_, ?_, ?_⟩
  · intro beat hbeat
    cases hdv : pins.gmiiRxDv with
    | false => simp [MacRxBench.step, hdv] at hbeat
    | true =>
        simp only [MacRxBench.step, hdv, if_true, List.mem_append, List.mem_singleton]
          at hbeat
        rcases hbeat with hold | rfl
        · exact hall.opened beat hold
        · exact hroom
  · intro beats close hended
    simp only [MacRxBench.step] at hended
    split at hended
    · simp at hended
    · rw [← (Prod.mk.inj (Option.some.inj hended)).1]
      exact hall.opened
  · intro envelope henvelope
    rcases List.mem_append.mp henvelope with hold | hnew
    · exact hall.closed envelope hold
    · exact hall.ended _ _ (mem_judged hnew).1

theorem CsumOff.csumBadNow_eq (hoff : bench.CsumOff) : bench.rx.csumBadNow = false := by
  unfold EthMacRx.csumBadNow
  cases hoffload : params.rxCsumOffload with
  | false => rfl
  | true => simp [hoff.enable hoffload]

theorem csumEnR_clkEdge {rx : EthMacRx params} {pins : EthMacRxIn}
    (hoff : rx.csumEnR = false) (hpins : pins.rxCsumEn = false) :
    (rx.clkEdge pins).csumEnR = false := by
  cases hstate : rx.state <;> cases hdv : pins.gmiiRxDv <;>
    simp [EthMacRx.clkEdge, EthMacRx.nextFrame, EthMacRx.startFrame,
      EthMacRx.preambleFrame, EthMacRx.dataFrame, EthMacRx.endFrame,
      EthMacRx.dropFrame, hstate, hdv, hoff, hpins]

theorem CsumOff.step (pins : EthMacRxIn)
    (hpins : params.rxCsumOffload = true → pins.rxCsumEn = false)
    (hoff : bench.CsumOff) : (bench.step pins).CsumOff := by
  constructor
  · intro hoffload
    exact csumEnR_clkEdge (hoff.enable hoffload) (hpins hoffload)
  · intro envelope henvelope
    rcases List.mem_append.mp henvelope with hold | hnew
    · exact hoff.closed envelope hold
    · rw [(mem_judged hnew).2.2, hoff.csumBadNow_eq]

theorem allRoomy_start (mem : BitVec params.axisFifoAddrWidth → MacWord)
    (doutR : MacWord) : (start mem doutR).AllRoomy :=
  ⟨by simp [Roomy, start], by simp [start], by simp [start]⟩

theorem csumOff_start (mem : BitVec params.axisFifoAddrWidth → MacWord)
    (doutR : MacWord) : (start mem doutR).CsumOff :=
  ⟨fun _ => rfl, by simp [start]⟩

theorem follows_plain {mem : BitVec params.axisFifoAddrWidth → MacWord} {doutR : MacWord}
    {cycles : List EthMacRxIn} (hplain : Along step Plain (start mem doutR) cycles) :
    (runFrom step (start mem doutR) cycles).Follows :=
  invariant_along
    (fun _ pins hroom hfollows =>
      hfollows.step (EthMacRx.occ_lt_of_fifoRoom hroom.1) pins)
    (follows_start mem doutR) hplain

end MacRxBench

/-- An envelope is delivered exactly if it is a preamble of bytes 0x55, an SFD and
a frame of at least six bytes whose destination passes the filter. -/
theorem deliveredWords_ne_nil_iff {envelope : RxEnvelope} :
    deliveredWords params envelope ≠ [] ↔
      ∃ preamble sfd frame sixth, envelope.beats = preamble ++ sfd :: frame ∧
        (∀ beat ∈ preamble, beat.data = 0x55) ∧ sfd.data = 0xD5 ∧
        frame[5]? = some sixth ∧
        filterPasses params sixth.pins (destination (bytes frame)) = true := by
  constructor
  · intro hne
    unfold deliveredWords at hne
    split at hne
    · exact absurd rfl hne
    · rename_i frame hframe
      obtain ⟨preamble, sfd, hbeats, hpreamble, hsfd⟩ := payload_eq_some_iff.mp hframe
      split at hne
      · rename_i hstation
        unfold forStation at hstation
        split at hstation
        · simp at hstation
        · rename_i sixth hsixth
          exact ⟨preamble, sfd, frame, sixth, hbeats, hpreamble, hsfd, hsixth, hstation⟩
      · exact absurd rfl hne
  · rintro ⟨preamble, sfd, frame, sixth, hbeats, hpreamble, hsfd, hsixth, hpasses⟩
    have hframe := payload_eq_some_iff.mpr ⟨preamble, sfd, hbeats, hpreamble, hsfd⟩
    have hstation : forStation params frame = true := by
      rw [forStation, hsixth]
      exact hpasses
    obtain ⟨hlong, -⟩ := List.getElem?_eq_some_iff.mp hsixth
    rw [deliveredWords, hframe]
    simp only [hstation, if_true, axisFrame, ne_eq, List.mapIdx_eq_nil_iff]
    intro hnil
    have hlength := congrArg List.length hnil
    simp at hlength
    omega

namespace MacRxBench

/-- Acceptance and delivery, with room in every cycle and no checksum judged: the
words queued are those of the envelopes that carry a frame for this station, in
order, each with its bytes but for the FCS and with the error flag that the wire
calls for.  The stream hands over these words and no others. -/
theorem delivers_run (mem : BitVec params.axisFifoAddrWidth → MacWord) (doutR : MacWord)
    (cycles : List EthMacRxIn) (hplain : Along step Plain (start mem doutR) cycles) :
    let bench := runFrom step (start mem doutR) cycles
    bench.taken ++ bench.rx.fifo.words ++
        (if bench.rx.pushEnR then [bench.rx.pushR] else []) =
      bench.closed.flatMap (deliveredWords params) ++ bench.queuing ∧
    ∀ envelope ∈ bench.closed, deliveredWords params envelope ≠ [] ↔
      ∃ preamble sfd frame sixth, envelope.beats = preamble ++ sfd :: frame ∧
        (∀ beat ∈ preamble, beat.data = 0x55) ∧ sfd.data = 0xD5 ∧
        frame[5]? = some sixth ∧
        filterPasses params sixth.pins (destination (bytes frame)) = true := by
  intro bench
  have hall : bench.AllRoomy :=
    invariant_along (fun _ pins hroom => AllRoomy.step pins hroom.1)
      (allRoomy_start mem doutR) hplain
  have hoff : bench.CsumOff :=
    invariant_along (fun _ pins hroom => CsumOff.step pins hroom.2)
      (csumOff_start mem doutR) hplain
  have hsame : bench.closed.flatMap (envelopeWords params) =
      bench.closed.flatMap (deliveredWords params) := by
    apply List.flatMap_congr
    intro envelope henvelope
    exact envelopeWords_of_roomy (hall.closed envelope henvelope)
      (hoff.closed envelope henvelope)
  have hsent := (follows_plain hplain).sent
  rw [hsame] at hsent
  exact ⟨hsent, fun _ _ => deliveredWords_ne_nil_iff⟩

/-- The shortest frame that is delivered: six bytes, four of them its FCS. -/
theorem delivers_run_six :
    let params : EthMacRxParams := ⟨false, 4, 1518, 9018, false, by decide, by decide⟩
    let bench : MacRxBench params :=
      runFrom step (start (fun _ => plainWord 0) (plainWord 0))
        (((0xD5 : BitVec 8) :: List.replicate 6 0xFF).map (wirePins true) ++
          [quietPins true, quietPins true, quietPins true])
    bench.taken ++ bench.rx.fifo.words ++
        (if bench.rx.pushEnR then [bench.rx.pushR] else []) =
      bench.closed.flatMap (deliveredWords params) ++ bench.queuing :=
  (delivers_run _ _ _ (by decide +kernel)).1

end MacRxBench

end EmacZero
