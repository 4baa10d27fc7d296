/-
What the stream of `eth_mac_rx` says about the wire: the frames that come out without
the error flag are sound frames that an observer of the pins has seen, in order.
-/
import EmacZero.DeliveredFrames
import EmacZero.FrameLog
import EmacZero.MacLoopback
import EmacZero.NibbleFrames
import EmacZero.RxWords

namespace EmacZero

variable {params : EthMacRxParams}

/-! The frames on a stream. -/

/-- The frames on a stream, each up to its last word. -/
def streamLog (words : List MacWord) : FrameLog MacWord :=
  words.foldl (fun log word => log.add word word.last) .empty

/-- The frames that are handed over without the error flag, as bytes. -/
def acceptedFrames (words : List MacWord) : List (List (BitVec 8)) :=
  ((streamLog words).whole.filter fun frame => !frame.any MacWord.err).map
    (List.map MacWord.data)

theorem streamLog_concat (words : List MacWord) (word : MacWord) :
    streamLog (words ++ [word]) = (streamLog words).add word word.last :=
  List.foldl_concat ..

/-- Words without the last flag extend the frame at hand. -/
theorem streamLog_front {words front : List MacWord} (hfront : ∀ word ∈ front, word.last = false) :
    streamLog (words ++ front) =
      { streamLog words with part := (streamLog words).part ++ front } := by
  induction front using List.reverseRecOn with
  | nil => rw [List.append_nil, List.append_nil]
  | append_singleton front word ih =>
      rw [← List.append_assoc, streamLog_concat,
        ih fun other hother => hfront other (List.mem_append_left _ hother),
        hfront word (List.mem_append_right _ (List.mem_singleton_self word)),
        ← List.append_assoc]
      rfl

theorem streamLog_frame {words frame : List MacWord} (hwell : WellFormed frame)
    (hpart : (streamLog words).part = []) :
    streamLog (words ++ frame) = ⟨(streamLog words).whole ++ [frame], []⟩ := by
  obtain ⟨front, word, rfl, hlast, hfront⟩ := hwell.last
  rw [← List.append_assoc, streamLog_concat, streamLog_front hfront, hpart, hlast]
  rfl

/-- A frame that has come whole stays as it is. -/
theorem whole_streamLog_append (words more : List MacWord) :
    (streamLog words).whole <+: (streamLog (words ++ more)).whole := by
  induction more using List.reverseRecOn with
  | nil => rw [List.append_nil]
  | append_singleton more word ih =>
      rw [← List.append_assoc, streamLog_concat, FrameLog.add]
      split
      · exact ih.trans (List.prefix_append _ _)
      · exact ih

theorem acceptedFrames_prefix {words more : List MacWord} (hwords : words <+: more) :
    acceptedFrames words <+: acceptedFrames more := by
  obtain ⟨later, rfl⟩ := hwords
  exact ((whole_streamLog_append words later).filter _).map _

/-- The frames of the envelopes that have been judged. -/
theorem streamLog_envelopes (envelopes : List RxEnvelope) :
    streamLog (envelopes.flatMap (envelopeWords params)) =
      ⟨(envelopes.map (envelopeWords params)).filter fun frame => !frame.isEmpty, []⟩ := by
  induction envelopes using List.reverseRecOn with
  | nil => rfl
  | append_singleton envelopes envelope ih =>
      rw [List.flatMap_append, List.flatMap_singleton, List.map_append, List.filter_append]
      rcases @envelopeWords_wellFormed params envelope with hnil | hwell
      · rw [hnil, List.append_nil, ih]
        simp [hnil]
      · have hne : envelopeWords params envelope ≠ [] := by
          obtain ⟨first, rest, hframe, -⟩ := hwell.sof
          rw [hframe]
          exact List.cons_ne_nil first rest
        rw [streamLog_frame hwell (by rw [ih]), ih]
        simp [hne]

/-! The frame that an envelope is accepted with. -/

/-- What an envelope leaves on the stream without the error flag. -/
def acceptedOf (params : EthMacRxParams) (envelope : RxEnvelope) : Option (List (BitVec 8)) :=
  match payload envelope.beats with
  | none => none
  | some frame =>
      if started params frame && !frameErr params envelope frame then
        some ((bytes frame).take (frame.length - 4))
      else none

theorem err_axisFrame (data : List (BitVec 8)) :
    ((axisFrame data false).any MacWord.err) = false := by
  rw [List.any_eq_false]
  intro word hword
  obtain ⟨index, hindex, rfl⟩ := List.mem_mapIdx.mp hword
  exact Bool.false_ne_true

theorem data_axisFrame (data : List (BitVec 8)) (err : Bool) :
    (axisFrame data err).map MacWord.data = data := by
  apply List.ext_getElem
  · simp [axisFrame]
  · intro index _ _
    simp [axisFrame]

/-- The words of an envelope carry no error flag exactly if it is accepted. -/
theorem accepted_envelopeWords (envelope : RxEnvelope) :
    (if (envelopeWords params envelope).isEmpty || (envelopeWords params envelope).any MacWord.err
      then none else some ((envelopeWords params envelope).map MacWord.data)) =
        acceptedOf params envelope := by
  rw [acceptedOf]
  cases hframe : payload envelope.beats with
  | none => simp [envelopeWords, hframe]
  | some frame =>
      cases hstarted : started params frame with
      | false => simp [envelopeWords, hframe, hstarted]
      | true =>
          cases herr : frameErr params envelope frame with
          | true => simp [envelopeWords, hframe, hstarted, closing, herr]
          | false =>
              have hmissed : missed frame = false := by
                by_contra hnot
                rw [frameErr, Bool.not_eq_false] at *
                simp [hnot] at herr
              have hne : (envelopeWords params envelope).isEmpty = false := by
                simp [envelopeWords, hframe, hstarted]
              rw [hne, envelopeWords_of_started hframe hstarted hmissed, herr, err_axisFrame,
                data_axisFrame]
              simp only [hstarted, herr]
              rfl

theorem accepted_envelopes (envelopes : List RxEnvelope) :
    acceptedFrames (envelopes.flatMap (envelopeWords params)) =
      envelopes.filterMap (acceptedOf params) := by
  rw [acceptedFrames, streamLog_envelopes, List.filter_filter]
  induction envelopes with
  | nil => rfl
  | cons envelope envelopes ih =>
      rw [List.filterMap_cons, ← accepted_envelopeWords envelope, List.map_cons,
        List.filter_cons, ← ih]
      cases (envelopeWords params envelope).isEmpty <;>
        cases (envelopeWords params envelope).any MacWord.err <;> rfl

/-! Frames on the wire. -/

/-- The settings that a station may have during a run: the addresses that it may let
through, and whether it may ever take jumbo frames. -/
structure RxPolicy where
  admits : BitVec 48 → Bool
  jumbo : Bool

/-- The settings on the pins are among them. -/
def RxPolicy.Covers (policy : RxPolicy) (params : EthMacRxParams) (pins : EthMacRxIn) : Prop :=
  (∀ mac, filterPasses params pins mac = true → policy.admits mac = true) ∧
    (pins.jumboEn = true → policy.jumbo = true)

/-- What an envelope on the wire may be accepted as: the frame behind preamble and SFD but
for its FCS, if no byte carries `rx_er`, the FCS is right, the length within the limits and
the address one that may be let through. -/
def soundFrame (params : EthMacRxParams) (policy : RxPolicy) (wire : List RxByte) :
    Option (List (BitVec 8)) :=
  match frameOf (wire.map Prod.fst) with
  | none => none
  | some body =>
      if !wire.any Prod.snd && policy.admits (destination body) && fcsOk body &&
          !isRunt body && !overLimit params policy.jumbo body then
        some (body.take (body.length - 4))
      else none

/-- The frame of an envelope is found in its bytes. -/
theorem frameOf_bytes (beats : List RxBeat) :
    frameOf (bytes beats) = (payload beats).map bytes := by
  induction beats with
  | nil => rfl
  | cons beat rest ih =>
      rw [bytes, List.map_cons, frameOf, payload]
      split
      · exact ih
      · split
        · rfl
        · rfl

theorem soundFrame_nil (policy : RxPolicy) : soundFrame params policy [] = none := rfl

theorem overLimit_jumbo {jumboEn jumbo : Bool} {frame : List (BitVec 8)}
    (hjumbo : jumboEn = true → jumbo = true) (hlimit : overLimit params jumboEn frame = false) :
    overLimit params jumbo frame = false := by
  cases jumboEn with
  | false =>
      rw [overLimit, Bool.not_false, Bool.true_or, Bool.and_true] at hlimit
      rw [overLimit, hlimit, Bool.false_and]
  | true =>
      rw [hjumbo rfl]
      exact hlimit

/-- The settings on the pins are just those. -/
def RxPolicy.Exact (policy : RxPolicy) (params : EthMacRxParams) (pins : EthMacRxIn) : Prop :=
  (∀ mac, filterPasses params pins mac = policy.admits mac) ∧ pins.jumboEn = policy.jumbo

/-- The policy of one setting. -/
def RxPolicy.of (params : EthMacRxParams) (station : EthMacRxIn) : RxPolicy :=
  ⟨filterPasses params station, station.jumboEn⟩

section Policy

variable {policy : RxPolicy} {envelope : RxEnvelope}

/-- An envelope that is accepted is sound. -/
theorem soundFrame_of_accepted {data : List (BitVec 8)}
    (hbeats : ∀ beat ∈ envelope.beats, policy.Covers params beat.pins)
    (hjudge : policy.Covers params envelope.judge)
    (haccepted : acceptedOf params envelope = some data) :
    soundFrame params policy (onWire envelope.beats) = some data := by
  rw [acceptedOf] at haccepted
  cases hframe : payload envelope.beats with
  | none => simp [hframe] at haccepted
  | some frame =>
      simp only [hframe, Option.ite_none_right_eq_some, Bool.and_eq_true, Bool.not_eq_true',
        Option.some.injEq] at haccepted
      obtain ⟨⟨hstarted, herr⟩, hdata⟩ := haccepted
      simp only [frameErr, Bool.or_eq_false_iff, Bool.not_eq_false'] at herr
      obtain ⟨⟨⟨⟨⟨hfcs, halign⟩, -⟩, hlimit⟩, hrunt⟩, -⟩ := herr
      have hbody : frameOf ((onWire envelope.beats).map Prod.fst) = some (bytes frame) := by
        have hbytes : (onWire envelope.beats).map Prod.fst = bytes envelope.beats := by
          rw [onWire, List.map_map]
          rfl
        rw [hbytes, frameOf_bytes, hframe]
        rfl
      have her : (onWire envelope.beats).any Prod.snd = false := by
        rw [RxEnvelope.alignErr, Bool.or_eq_false_iff] at halign
        rw [onWire, List.any_map]
        exact halign.1
      have haddress : policy.admits (destination (bytes frame)) = true := by
        rw [started, Bool.and_eq_true] at hstarted
        have hstation := hstarted.1
        rw [forStation] at hstation
        split at hstation
        · exact absurd hstation Bool.false_ne_true
        · rename_i beat hsixth
          obtain ⟨preamble, sfd, hsplit, -, -⟩ := payload_eq_some_iff.mp hframe
          refine (hbeats beat ?_).1 _ hstation
          rw [hsplit]
          exact List.mem_append_right _
            (List.mem_cons_of_mem _ (List.mem_of_getElem? hsixth))
      rw [soundFrame, hbody]
      simp only [her, haddress, hfcs, hrunt, overLimit_jumbo hjudge.2 hlimit, length_bytes, hdata]
      rfl

/-- With room, without a checksum verdict and under settings that stay, every sound
envelope is accepted. -/
theorem acceptedOf_eq_soundFrame (hbeats : ∀ beat ∈ envelope.beats, policy.Exact params beat.pins)
    (hjudge : policy.Exact params envelope.judge) (hroom : Roomy envelope.beats)
    (hcsum : envelope.csumBad = false) (hclose : envelope.close.gmiiRxEr = false) :
    acceptedOf params envelope = soundFrame params policy (onWire envelope.beats) := by
  have hbytes : (onWire envelope.beats).map Prod.fst = bytes envelope.beats := by
    rw [onWire, List.map_map]
    rfl
  have her : (onWire envelope.beats).any Prod.snd = envelope.alignErr := by
    rw [RxEnvelope.alignErr, hclose, Bool.or_false, onWire, List.any_map]
    rfl
  rw [acceptedOf, soundFrame, hbytes, frameOf_bytes, her]
  cases hframe : payload envelope.beats with
  | none => rfl
  | some frame =>
      obtain ⟨preamble, sfd, hsplit, -, -⟩ := payload_eq_some_iff.mp hframe
      have hmem : ∀ beat ∈ frame, beat ∈ envelope.beats := by
        intro beat hbeat
        rw [hsplit]
        exact List.mem_append_right _ (List.mem_cons_of_mem _ hbeat)
      have hmissed : missed frame = false := by
        rw [missed, List.any_eq_false]
        intro beat hbeat
        rw [hroom beat (hmem beat (List.mem_of_mem_drop hbeat))]
        exact Bool.false_ne_true
      simp only [Option.map_some, length_bytes]
      by_cases hlong : 6 ≤ frame.length
      · have hsixth : frame[5]? = some frame[5] := List.getElem?_eq_getElem hlong
        have hstarted : started params frame = policy.admits (destination (bytes frame)) := by
          rw [started, startRoom, forStation, hsixth]
          simp only [(hbeats _ (hmem _ (List.getElem_mem hlong))).1,
            hroom _ (hmem _ (List.getElem_mem hlong)), Bool.and_true]
        rw [hstarted, frameErr, hmissed, hcsum, hjudge.2]
        cases envelope.alignErr <;> cases policy.admits (destination (bytes frame)) <;>
          cases fcsOk (bytes frame) <;> cases isRunt (bytes frame) <;>
          cases overLimit params policy.jumbo (bytes frame) <;> rfl
      · have hrunt : isRunt (bytes frame) = true := by
          rw [isRunt, length_bytes, decide_eq_true_iff]
          omega
        rw [started_short (by omega), hrunt]
        simp

end Policy

/-! What an observer of the pins has seen. -/

/-- The beat on the GMII pins in one cycle. -/
def EthMacRxIn.beat (pins : EthMacRxIn) : Option RxByte :=
  if pins.gmiiRxDv then some (pins.gmiiRxd, pins.gmiiRxEr) else none

namespace MacRxBench

/-- The envelope that is about to be judged. -/
def onHand (bench : MacRxBench params) : List (List RxByte) :=
  bench.ended.toList.map fun last => onWire last.1

/-- The receiver has seen these envelopes, and the pins met `ok` in every cycle of theirs. -/
structure Heard (ok : EthMacRxIn → Prop) (bench : MacRxBench params) (wire : Envelopes RxByte) :
    Prop where
  closed : (bench.closed.map fun envelope => onWire envelope.beats) ++ bench.onHand = wire.closed
  opened : onWire bench.opened = wire.opened
  during : ∀ beat ∈ bench.opened, ok beat.pins
  ended : ∀ last ∈ bench.ended,
    (∀ beat ∈ last.1, ok beat.pins) ∧ ok last.2 ∧ last.2.gmiiRxDv = false
  judged : ∀ envelope ∈ bench.closed, (∀ beat ∈ envelope.beats, ok beat.pins) ∧
    (ok envelope.close ∧ envelope.close.gmiiRxDv = false) ∧ ok envelope.judge

variable {ok : EthMacRxIn → Prop} {bench : MacRxBench params} {wire : Envelopes RxByte}
variable {pins : EthMacRxIn}

theorem heard_start (ok : EthMacRxIn → Prop) (mem : BitVec params.axisFifoAddrWidth → MacWord)
    (doutR : MacWord) : (start mem doutR).Heard ok .unseen where
  closed := rfl
  opened := rfl
  during := fun _ hbeat => absurd hbeat List.not_mem_nil
  ended := fun _ hlast => absurd hlast (Option.not_mem_none _)
  judged := fun _ henvelope => absurd henvelope List.not_mem_nil

theorem onWire_judged (bench : MacRxBench params) (pins : EthMacRxIn) :
    (bench.judged pins).map (fun envelope => onWire envelope.beats) = bench.onHand := by
  rw [judged, onHand]
  cases bench.ended with
  | none => rfl
  | some last => rfl

/-- One cycle at the pins. -/
theorem Heard.step (hheard : bench.Heard ok wire) (hok : ok pins) :
    (bench.step pins).Heard ok (wire.observe pins.beat) := by
  have hclosed : ((bench.step pins).closed.map fun envelope => onWire envelope.beats) =
      wire.closed := by
    change ((bench.closed ++ bench.judged pins).map _) = _
    rw [List.map_append, onWire_judged, hheard.closed]
  have hjudged : ∀ envelope ∈ (bench.step pins).closed, (∀ beat ∈ envelope.beats, ok beat.pins) ∧
      (ok envelope.close ∧ envelope.close.gmiiRxDv = false) ∧ ok envelope.judge := by
    intro envelope henvelope
    rcases List.mem_append.mp henvelope with hold | hnew
    · exact hheard.judged envelope hold
    · obtain ⟨hended, hjudge, -⟩ := mem_judged hnew
      have hlast := hheard.ended _ hended
      exact ⟨hlast.1, hlast.2, hjudge ▸ hok⟩
  cases hdv : pins.gmiiRxDv with
  | true =>
      have hended : (bench.step pins).ended = none := by
        simp [MacRxBench.step, hdv]
      have hopened : (bench.step pins).opened = bench.opened ++ [⟨pins, bench.rx.fifoRoom⟩] := by
        simp [MacRxBench.step, hdv]
      have hbeat : pins.beat = some (pins.gmiiRxd, pins.gmiiRxEr) := by
        rw [EthMacRxIn.beat, hdv, if_pos rfl]
      refine ⟨?_, ?_, ?_, ?_, hjudged⟩
      · rw [hclosed, onHand, hended, hbeat]
        exact List.append_nil _
      · rw [hopened, hbeat, MacLoop.onWire_append, hheard.opened]
        rfl
      · intro beat hmem
        rw [hopened] at hmem
        rcases List.mem_append.mp hmem with hold | hnew
        · exact hheard.during beat hold
        · rw [List.mem_singleton.mp hnew]
          exact hok
      · rw [hended]
        exact fun _ hlast => absurd hlast (Option.not_mem_none _)
  | false =>
      have hopened : (bench.step pins).opened = [] := by
        simp [MacRxBench.step, hdv]
      have hbeat : pins.beat = none := by
        rw [EthMacRxIn.beat, hdv, if_neg Bool.false_ne_true]
      have hnone : onWire (bench.step pins).opened = (wire.observe none).opened := by
        rw [hopened, Envelopes.observe_none_opened]
        rfl
      rw [hbeat]
      refine ⟨?_, hnone, by rw [hopened]; exact fun _ hmem => absurd hmem List.not_mem_nil, ?_,
        hjudged⟩
      · rw [hclosed, Envelopes.observe_none_closed]
        by_cases hidle : bench.opened = []
        · have hwire : wire.opened = [] := by
            rw [← hheard.opened, hidle]
            rfl
          simp [onHand, MacRxBench.step, hdv, hidle, Envelopes.all_of_idle hwire]
        · have hwire : wire.opened ≠ [] := by
            rw [← hheard.opened]
            exact fun hnil => hidle (MacLoop.onWire_eq_nil.mp hnil)
          simp [onHand, MacRxBench.step, hdv, hidle, Envelopes.all_of_busy hwire, hheard.opened]
      · intro last hlast
        have hended : (bench.step pins).ended =
            if bench.opened.isEmpty then none else some (bench.opened, pins) := by
          simp [MacRxBench.step, hdv]
        rw [hended] at hlast
        split at hlast
        · exact absurd hlast (Option.not_mem_none _)
        · rw [← Option.some.inj hlast]
          exact ⟨hheard.during, hok, hdv⟩

/-- What is still being queued does not end a frame. -/
theorem Follows.accepted (hfollows : bench.Follows) :
    acceptedFrames bench.sent = bench.closed.filterMap (acceptedOf params) := by
  rw [hfollows.sent, ← accepted_envelopes, acceptedFrames, acceptedFrames,
    streamLog_front bench.begins_queuing.last]

/-- The frames taken without the error flag are sound envelopes, in order. -/
theorem Heard.accepted_sublist {policy : RxPolicy} (hheard : bench.Heard ok wire)
    (hok : ∀ pins, ok pins → policy.Covers params pins) (hfollows : bench.Follows) :
    (acceptedFrames bench.taken).Sublist (wire.closed.filterMap (soundFrame params policy)) := by
  have htaken := acceptedFrames_prefix bench.taken_prefix
  rw [hfollows.accepted] at htaken
  have hsound : (bench.closed.filterMap (acceptedOf params)).Sublist
      ((bench.closed.map fun envelope => onWire envelope.beats).filterMap
        (soundFrame params policy)) := by
    rw [List.filterMap_map]
    refine filterMap_sublist fun envelope henvelope data haccepted => ?_
    obtain ⟨hbeats, -, hjudge⟩ := hheard.judged envelope henvelope
    exact soundFrame_of_accepted (fun beat hbeat => hok _ (hbeats beat hbeat)) (hok _ hjudge)
      haccepted
  refine (htaken.sublist.trans hsound).trans (List.Sublist.filterMap _ ?_)
  rw [← hheard.closed]
  exact List.sublist_append_left _ _

/-- With room all along every sound envelope is accepted. -/
theorem Heard.accepted_eq {policy : RxPolicy} (hheard : bench.Heard ok wire)
    (hok : ∀ pins, ok pins → policy.Exact params pins ∧
      (pins.gmiiRxDv = false → pins.gmiiRxEr = false))
    (hroomy : bench.AllRoomy) (hcsum : bench.CsumOff) :
    bench.closed.filterMap (acceptedOf params) =
      (bench.closed.map fun envelope => onWire envelope.beats).filterMap
        (soundFrame params policy) := by
  rw [List.filterMap_map]
  refine List.filterMap_congr fun envelope henvelope => ?_
  obtain ⟨hbeats, ⟨hclose, hlow⟩, hjudge⟩ := hheard.judged envelope henvelope
  exact acceptedOf_eq_soundFrame (fun beat hbeat => (hok _ (hbeats beat hbeat)).1)
    (hok _ hjudge).1 (hroomy.closed envelope henvelope) (hcsum.closed envelope henvelope)
    ((hok _ hclose).2 hlow)

end MacRxBench

end EmacZero
