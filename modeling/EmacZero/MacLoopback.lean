/-
`eth_mac_tx` into `eth_mac_rx`: the frames handed to the transmitter come out of
the receiver, in order.
-/
import EmacZero.EthMacRxDelivery
import EmacZero.EthMacTxBench

namespace EmacZero

universe u v

/-- Groups of images, all but one image of which are images of a list, group it. -/
theorem exists_groups {α : Type u} {β : Type v} {image : α → β} {items : List α}
    {pending lost : List β} {groups : List (List β)}
    (hall : items.map image ++ pending = groups.flatten ++ lost)
    (hpending : pending.length ≤ 1) (hne : ∀ group ∈ groups, group ≠ []) :
    ∃ (parts : List (List α)) (rest : List α), items = parts.flatten ++ rest ∧
      parts.map (List.map image) = groups.take parts.length ∧
      groups.length ≤ parts.length + 1 ∧
      (pending = [] → parts.length = groups.length) := by
  induction groups generalizing items with
  | nil => exact ⟨[], items, rfl, rfl, by simp, fun _ => rfl⟩
  | cons group groups ih =>
      have hlater := fun other hother => hne other (List.mem_cons_of_mem group hother)
      rw [List.flatten_cons, List.append_assoc] at hall
      by_cases hlength : group.length ≤ items.length
      · have hsplit := congrArg (List.splitAt group.length) hall
        rw [List.splitAt_eq, List.splitAt_eq, List.take_left, List.drop_left,
          List.take_append_of_le_length (by simpa using hlength),
          List.drop_append_of_le_length (by simpa using hlength), ← List.map_take,
          ← List.map_drop] at hsplit
        obtain ⟨hfirst, hrest⟩ := Prod.mk.inj hsplit
        obtain ⟨parts, rest, hparts, himages, hshort, hfull⟩ := ih hrest hlater
        refine ⟨items.take group.length :: parts, rest, ?_, ?_, ?_, ?_⟩
        · rw [List.flatten_cons, List.append_assoc, ← hparts, List.take_append_drop]
        · rw [List.map_cons, hfirst, himages]
          rfl
        · simpa using hshort
        · intro hnone
          simpa using hfull hnone
      · have htotal := congrArg List.length hall
        simp only [List.length_append, List.length_map] at htotal
        have hnil : groups = [] := by
          cases groups with
          | nil => rfl
          | cons next others =>
              have hpos := List.length_pos_of_ne_nil (hlater next List.mem_cons_self)
              simp only [List.flatten_cons, List.length_append] at htotal
              omega
        subst hnil
        refine ⟨[], items, rfl, rfl, by simp, ?_⟩
        rintro rfl
        simp only [List.length_nil] at htotal
        omega

variable {params : EthMacRxParams}

/-- The source's pins, and those of the station that receives.  Its GMII pins are
driven by the transmitter. -/
structure MacLoopIn where
  source : EthMacTxIn
  station : EthMacRxIn
deriving Repr, DecidableEq

def wiredPins (tx : EthMacTx) (station : EthMacRxIn) : EthMacRxIn :=
  { station with
    gmiiRxd := tx.gmiiTxd
    gmiiRxDv := tx.gmiiTxEn
    gmiiRxEr := tx.gmiiTxEr }

/-- The transmitter with its source, and the receiver on the same wire. -/
structure MacLoop (params : EthMacRxParams) where
  sender : MacTxBench
  receiver : MacRxBench params

namespace MacLoop

def start (mem : BitVec params.axisFifoAddrWidth → MacWord) (doutR : MacWord) :
    MacLoop params where
  sender := .start
  receiver := .start mem doutR

def step (maxFrame : Nat) (loop : MacLoop params) (cycle : MacLoopIn) :
    MacLoop params where
  sender := loop.sender.step maxFrame cycle.source
  receiver := loop.receiver.step (wiredPins loop.sender.tx cycle.station)

end MacLoop

/-- An envelope as the wire carried it. -/
def onWire (beats : List RxBeat) : List (BitVec 8 × Bool) :=
  beats.map fun beat => (beat.pins.gmiiRxd, beat.pins.gmiiRxEr)

namespace MacLoop

variable {maxFrame : Nat} {loop : MacLoop params} {cycle : MacLoopIn}

/-- The envelope that the receiver is about to judge. -/
def ended (loop : MacLoop params) : List (List (BitVec 8 × Bool)) :=
  match loop.receiver.ended with
  | none => []
  | some (beats, _) => [onWire beats]

/-- The envelopes of which the receiver has not judged one yet. -/
def pending (loop : MacLoop params) : List (List (BitVec 8 × Bool)) :=
  loop.ended ++
    (if loop.sender.tx.gmiiTxEn || loop.sender.wire.opened.isEmpty then []
      else [loop.sender.wire.opened]) ++ loop.sender.owed

/-- Both ends have seen the same wire. -/
structure Linked (loop : MacLoop params) : Prop where
  settled : loop.sender.tx.Settled
  closed : (loop.receiver.closed.map fun envelope => onWire envelope.beats) ++ loop.ended =
    loop.sender.wire.closed
  opened : onWire loop.receiver.opened = loop.sender.wire.opened
  ifg : loop.sender.tx.state = .ifg → loop.sender.tx.gmiiTxEn = true →
    loop.sender.tx.count = 0
  closing : loop.sender.wire.opened ≠ [] → loop.sender.tx.gmiiTxEn = false →
    loop.sender.tx.state = .ifg ∧ loop.sender.tx.count = 1
  judging : loop.receiver.ended ≠ none →
    loop.sender.tx.state = .ifg ∧ loop.sender.tx.count = 2
  quietEr : loop.sender.tx.gmiiTxEn = false → loop.sender.tx.gmiiTxEr = false
  closeEr : (∀ beats close, loop.receiver.ended = some (beats, close) →
      close.gmiiRxEr = false) ∧
    ∀ envelope ∈ loop.receiver.closed, envelope.close.gmiiRxEr = false

theorem linked_start (mem : BitVec params.axisFifoAddrWidth → MacWord)
    (doutR : MacWord) : (start mem doutR).Linked where
  settled := EthMacTx.settled_reset
  closed := rfl
  opened := rfl
  ifg := by simp [start, MacTxBench.start, EthMacTx.reset]
  closing := by simp [start, MacTxBench.start]
  judging := by simp [start, MacRxBench.start]
  quietEr := fun _ => rfl
  closeEr := by simp [start, MacRxBench.start]

@[simp] theorem onWire_append (first second : List RxBeat) :
    onWire (first ++ second) = onWire first ++ onWire second :=
  List.map_append

theorem onWire_eq_nil {beats : List RxBeat} : onWire beats = [] ↔ beats = [] :=
  List.map_eq_nil_iff

theorem closed_judged (loop : MacLoop params) (pins : EthMacRxIn) :
    (loop.receiver.judged pins).map (fun envelope => onWire envelope.beats) =
      loop.ended := by
  unfold MacRxBench.judged ended
  split <;> simp_all

theorem ended_step (loop : MacLoop params) (cycle : MacLoopIn) :
    (loop.step maxFrame cycle).ended =
      if loop.sender.tx.gmiiTxEn || loop.receiver.opened.isEmpty then []
      else [onWire loop.receiver.opened] := by
  unfold ended
  cases hen : loop.sender.tx.gmiiTxEn <;> cases hopened : loop.receiver.opened <;>
    simp [step, MacRxBench.step, wiredPins, hen, hopened]

/-- The wire is low in this cycle after a frame: S_IFG is in its second cycle. -/
theorem Linked.low_after (hlinked : loop.Linked)
    (hlow : (loop.sender.tx.clkEdge maxFrame cycle.source).gmiiTxEn = false)
    (hhigh : loop.sender.tx.gmiiTxEn = true) :
    (loop.sender.tx.clkEdge maxFrame cycle.source).state = .ifg ∧
      (loop.sender.tx.clkEdge maxFrame cycle.source).count = 1 := by
  have hifg : loop.sender.tx.state = .ifg := by
    by_contra hother
    have hbefore := EthMacTx.gmiiTxEn_clkEdge hlinked.settled hother hlow
    simp [hhigh] at hbefore
  rw [EthMacTx.clkEdge_ifg hifg]
  simp [EthMacTx.ifgEdge, EthMacTx.cycleDefaults, hlinked.ifg hifg hhigh,
    EthMacTx.ifgBytes]

theorem Linked.step (hlinked : loop.Linked) : (loop.step maxFrame cycle).Linked where
  settled := hlinked.settled.clkEdge
  closed := by
    have hclosed := hlinked.closed
    have hopened := hlinked.opened
    rw [ended_step]
    change (loop.receiver.closed ++ loop.receiver.judged _).map _ ++ _ =
      (loop.sender.wire.observe loop.sender.tx.beat).closed
    rw [List.map_append, closed_judged, hclosed, EthMacTx.beat]
    cases hen : loop.sender.tx.gmiiTxEn with
    | true => simp
    | false =>
        by_cases hempty : loop.receiver.opened = []
        · have hwire : loop.sender.wire.opened = [] := by
            rw [← hopened, hempty]
            rfl
          simp [hempty, Envelopes.all_of_idle hwire]
        · have hwire : loop.sender.wire.opened ≠ [] := by
            rw [← hopened]
            exact fun hnil => hempty (onWire_eq_nil.mp hnil)
          simp [hempty, Envelopes.all_of_busy hwire, hopened]
  opened := by
    have hopened := hlinked.opened
    cases hen : loop.sender.tx.gmiiTxEn with
    | true =>
        simpa [MacLoop.step, MacRxBench.step, MacTxBench.step, EthMacTx.beat, wiredPins,
          hen, onWire] using hopened
    | false =>
        simp [MacLoop.step, MacRxBench.step, MacTxBench.step, EthMacTx.beat, wiredPins,
          hen, onWire]
  ifg := EthMacTx.count_clkEdge
  closing := by
    intro hbusy hlow
    apply hlinked.low_after hlow
    by_contra hen
    simp [MacLoop.step, MacTxBench.step, EthMacTx.beat, hen] at hbusy
  judging := by
    intro hended
    have hlow : loop.sender.tx.gmiiTxEn = false := by
      by_contra hen
      simp [MacLoop.step, MacRxBench.step, wiredPins, hen] at hended
    have hbusy : loop.sender.wire.opened ≠ [] := by
      rw [← hlinked.opened]
      intro hnil
      simp [MacLoop.step, MacRxBench.step, onWire_eq_nil.mp hnil] at hended
    obtain ⟨hstate, hcount⟩ := hlinked.closing hbusy hlow
    change (loop.sender.tx.clkEdge maxFrame cycle.source).state = _ ∧
      (loop.sender.tx.clkEdge maxFrame cycle.source).count = _
    rw [EthMacTx.clkEdge_ifg hstate]
    simp [EthMacTx.ifgEdge, EthMacTx.cycleDefaults, hcount, EthMacTx.ifgBytes]
  quietEr := EthMacTx.gmiiTxEr_clkEdge hlinked.settled
  closeEr := by
    obtain ⟨hended, hclosed⟩ := hlinked.closeEr
    constructor
    · intro beats close hnow
      change (if _ then none else some (_, wiredPins loop.sender.tx cycle.station)) = _
        at hnow
      split at hnow
      · simp at hnow
      · rename_i hlow
        rw [Bool.or_eq_true, not_or, Bool.not_eq_true] at hlow
        rw [← (Prod.mk.inj (Option.some.inj hnow)).2]
        exact hlinked.quietEr hlow.1
    · intro envelope henvelope
      rcases List.mem_append.mp henvelope with hold | hnew
      · exact hclosed envelope hold
      · exact hended _ _ (MacRxBench.mem_judged hnew).1

/-- At most one envelope is on its way between the transmitter and the verdict, and
none while the transmitter waits for a frame. -/
theorem Linked.pending_le (hlinked : loop.Linked) :
    loop.pending.length ≤ 1 ∧
      (loop.sender.tx.state = .idle → loop.sender.tx.haveFirst = false →
        loop.pending = []) := by
  have hgap : loop.sender.tx.state = .ifg → loop.sender.tx.gmiiTxEn = false →
      loop.sender.owed = [] := by
    intro hstate hlow
    apply MacTxBench.owed_of_open
    simp [EthMacTx.ending, hstate, hlow]
  cases hended : loop.receiver.ended with
  | some last =>
      obtain ⟨hstate, hcount⟩ := hlinked.judging (by simp [hended])
      have hlow : loop.sender.tx.gmiiTxEn = false := by
        by_contra hhigh
        have hzero := hlinked.ifg hstate (by simpa using hhigh)
        simp [hzero] at hcount
      have hopened : loop.sender.wire.opened = [] := by
        by_contra hbusy
        have hone := (hlinked.closing hbusy hlow).2
        simp [hone] at hcount
      simp [pending, ended, hended, hopened, hgap hstate hlow, hstate]
  | none =>
      by_cases hclosing : loop.sender.wire.opened ≠ [] ∧ loop.sender.tx.gmiiTxEn = false
      · obtain ⟨hbusy, hlow⟩ := hclosing
        obtain ⟨hstate, -⟩ := hlinked.closing hbusy hlow
        simp [pending, ended, hended, hbusy, hlow, hgap hstate hlow, hstate]
      · have hmiddle : (if loop.sender.tx.gmiiTxEn || loop.sender.wire.opened.isEmpty
            then [] else [loop.sender.wire.opened]) = [] := by
          rw [if_pos]
          by_cases hhigh : loop.sender.tx.gmiiTxEn = true <;> simp_all
        rw [pending, hmiddle, ended, hended]
        simp only [List.append_nil, List.nil_append]
        constructor
        · unfold MacTxBench.owed
          split <;> simp
        · intro hstate hnone
          apply MacTxBench.owed_of_open
          simp [EthMacTx.ending, hstate, hnone]

/-- The envelopes judged and the one on its way are those settled on the wire. -/
theorem Linked.known_eq (hlinked : loop.Linked) :
    (loop.receiver.closed.map fun envelope => onWire envelope.beats) ++ loop.pending =
      loop.sender.known := by
  rw [pending, ← List.append_assoc, ← List.append_assoc, hlinked.closed, MacTxBench.known,
    MacTxBench.now, EthMacTx.beat]
  cases hen : loop.sender.tx.gmiiTxEn with
  | true => simp
  | false => cases hopened : loop.sender.wire.opened <;> simp [Envelopes.all, hopened]

end MacLoop

/-- An envelope that carries a frame as the transmitter sends it. -/
theorem payload_of_wireFrame {envelope : RxEnvelope} {data : List (BitVec 8)}
    (hwire : onWire envelope.beats = wireFrame data)
    (hclose : envelope.close.gmiiRxEr = false) :
    ∃ frame, payload envelope.beats = some frame ∧
      bytes frame = padded data ++ fcsOf (padded data) ∧ envelope.alignErr = false := by
  have hbytes : bytes envelope.beats =
      List.replicate EthMacTx.preambleLen 0x55 ++
        0xD5 :: (padded data ++ fcsOf (padded data)) := by
    have hfirst := congrArg (List.map Prod.fst) hwire
    change envelope.beats.map (fun beat => beat.pins.gmiiRxd) = _
    simpa [onWire, wireFrame, errorFree, preambleBytes, Function.comp_def] using hfirst
  have her : ∀ beat ∈ envelope.beats, beat.pins.gmiiRxEr = false := by
    intro beat hbeat
    have hmem : (beat.pins.gmiiRxd, beat.pins.gmiiRxEr) ∈ wireFrame data := by
      rw [← hwire]
      exact List.mem_map_of_mem hbeat
    simp only [wireFrame, errorFree, List.mem_map] at hmem
    obtain ⟨byte, -, hpair⟩ := hmem
    exact (Prod.mk.inj hpair).2.symm
  obtain ⟨preamble, later, hbeats, hpreamble, hlater⟩ := List.map_eq_append_iff.mp hbytes
  obtain ⟨sfd, frame, rfl, hsfd, hframe⟩ := List.map_eq_cons_iff.mp hlater
  refine ⟨frame, ?_, hframe, ?_⟩
  · apply payload_eq_some_iff.mpr
    refine ⟨preamble, sfd, hbeats, ?_, hsfd⟩
    intro beat hbeat
    apply List.eq_of_mem_replicate
    rw [← hpreamble]
    exact List.mem_map_of_mem hbeat
  · rw [RxEnvelope.alignErr, hclose, Bool.or_false, List.any_eq_false]
    intro beat hbeat
    simp [her beat hbeat]

/-- It leaves the frame, padded, with the checksum verdict for an error flag. -/
theorem envelopeWords_of_wireFrame {envelope : RxEnvelope} {data : List (BitVec 8)}
    {frame : List RxBeat} (hroom : Roomy envelope.beats)
    (hframe : payload envelope.beats = some frame)
    (hbytes : bytes frame = padded data ++ fcsOf (padded data))
    (halign : envelope.alignErr = false) (hstation : forStation params frame = true)
    (hlimit : overLimit params envelope.judge.jumboEn (bytes frame) = false) :
    envelopeWords params envelope = axisFrame (padded data) envelope.csumBad := by
  have hlength : frame.length = (padded data).length + 4 := by
    rw [← length_bytes, hbytes, List.length_append, length_fcsOf]
  have hfcs : fcsOk (bytes frame) = true := by
    rw [fcsOk, length_bytes, hlength, Nat.add_sub_cancel, hbytes, List.take_left,
      List.drop_left, beq_self_eq_true]
  have hrunt : isRunt (bytes frame) = false := by
    have hpadded := length_padded data
    simp only [isRunt, length_bytes, decide_eq_false_iff_not, EthMacTx.minFrame]
      at hpadded ⊢
    omega
  have herr : wireErr params envelope frame = false := by
    simp [wireErr, hfcs, halign, hrunt, hlimit]
  rw [envelopeWords_of_room hroom, hframe]
  simp only [hstation, if_true, herr, Bool.false_or, hlength, Nat.add_sub_cancel, hbytes,
    List.take_left]

/-- No frame within the receiver's limit is too long for the transmitter's counter. -/
theorem length_of_within {data : List (BitVec 8)}
    (hlimit : overLimit params true (padded data ++ fcsOf (padded data)) = false) :
    data.length ≤ 16383 := by
  have hstd := params.std_le
  have hjumbo := params.jumbo_le
  have hpadded := length_padded data
  simp only [overLimit, List.length_append, length_fcsOf, Bool.not_true, Bool.false_or,
    Bool.and_eq_false_iff, decide_eq_false_iff_not] at hlimit
  rcases hlimit with hlimit | hlimit
  · split at hlimit <;> omega
  · omega

/-- A frame that was offered without gaps, is not longer than `MAX_FRAME` and within
the receiver's limit comes through: one envelope with the frame, the padding and
the FCS.  If the destination is accepted that leaves exactly the padded frame on
the output stream, with no error flag but for the checksum verdict. -/
def Carried (maxFrame : Nat) (params : EthMacRxParams) (frame : SourceFrame)
    (group : List RxEnvelope) : Prop :=
  frame.steady = true → frame.bytes.length ≤ maxFrame →
    overLimit params true (padded frame.bytes ++ fcsOf (padded frame.bytes)) = false →
    ∃ envelope received, group = [envelope] ∧ payload envelope.beats = some received ∧
      bytes received = padded frame.bytes ++ fcsOf (padded frame.bytes) ∧
      (forStation params received = true →
        overLimit params envelope.judge.jumboEn (bytes received) = false →
        envelopeWords params envelope = axisFrame (padded frame.bytes) envelope.csumBad)

theorem carried_of_relayed {maxFrame : Nat} {frame : SourceFrame}
    {group : List RxEnvelope} (hroom : ∀ envelope ∈ group, Roomy envelope.beats)
    (hclose : ∀ envelope ∈ group, envelope.close.gmiiRxEr = false)
    (hrelayed : MacTxBench.Relayed maxFrame frame
      (group.map fun envelope => onWire envelope.beats)) :
    Carried maxFrame params frame group := by
  intro hsteady hlength hlimit
  have hwhole := hrelayed.whole hsteady
    (Nat.le_min.mpr ⟨hlength, length_of_within hlimit⟩)
  obtain ⟨envelope, rfl, hwire⟩ := List.map_eq_singleton_iff.mp hwhole
  obtain ⟨received, hframe, hbytes, halign⟩ :=
    payload_of_wireFrame hwire (hclose envelope List.mem_cons_self)
  refine ⟨envelope, received, rfl, hframe, hbytes, ?_⟩
  intro hstation hwithin
  exact envelopeWords_of_wireFrame (hroom envelope List.mem_cons_self) hframe hbytes halign
    hstation hwithin

namespace MacLoop

variable {maxFrame : Nat}

theorem sender_run (loop : MacLoop params) (cycles : List MacLoopIn) :
    (runFrom (step maxFrame) loop cycles).sender =
      runFrom (MacTxBench.step maxFrame) loop.sender (cycles.map MacLoopIn.source) := by
  induction cycles generalizing loop with
  | nil => rfl
  | cons cycle rest ih => exact ih (loop.step maxFrame cycle)

/-- The output FIFO has room in this cycle. -/
def HasRoom (loop : MacLoop params) (_ : MacLoopIn) : Prop :=
  loop.receiver.rx.fifoRoom = true

instance (loop : MacLoop params) (cycle : MacLoopIn) : Decidable (loop.HasRoom cycle) :=
  inferInstanceAs (Decidable (_ = _))

/-- With room in the receiver's FIFO every frame comes through, in order: the
envelopes judged are grouped by the frames handed over, of which at most the last
is still on its way, and none once the transmitter waits for the next; the output
words are those of the envelopes.  No checksum verdict is against a frame unless
the checker is built and enabled.  Left alone the transmitter comes to wait. -/
theorem carries_run (maxFrame : Nat) (mem : BitVec params.axisFifoAddrWidth → MacWord)
    (doutR : MacWord) (cycles : List MacLoopIn)
    (hroom : Along (step maxFrame) HasRoom (start mem doutR) cycles) :
    let loop := runFrom (step maxFrame) (start mem doutR) cycles
    (∃ groups rest, loop.receiver.closed = groups.flatten ++ rest ∧
      List.Forall₂ (Carried maxFrame params)
        (loop.sender.source.offered.take groups.length) groups ∧
      loop.sender.source.offered.length ≤ groups.length + 1 ∧
      (loop.sender.tx.state = .idle → loop.sender.tx.haveFirst = false →
        groups.length = loop.sender.source.offered.length)) ∧
    loop.receiver.sent =
      loop.receiver.closed.flatMap (envelopeWords params) ++ loop.receiver.queuing ∧
    ((params.rxCsumOffload = true → ∀ cycle ∈ cycles, cycle.station.rxCsumEn = false) →
      ∀ envelope ∈ loop.receiver.closed, envelope.csumBad = false) ∧
    ∀ drain, (∀ cycle ∈ drain, cycle.source.sAxisTvalid = false ∧
        cycle.source.txStartOk = true) → 85 ≤ drain.length →
      (runFrom (step maxFrame) loop drain).sender.tx.state = .idle ∧
        (runFrom (step maxFrame) loop drain).sender.tx.haveFirst = false := by
  intro loop
  have hlinked : loop.Linked :=
    invariant_runFrom (fun _ _ hlinked => hlinked.step) (linked_start mem doutR) cycles
  obtain ⟨hfollows, hall⟩ : loop.receiver.Follows ∧ loop.receiver.AllRoomy := by
    apply @invariant_along _ _ _ _
      (fun loop => loop.receiver.Follows ∧ loop.receiver.AllRoomy) _ _
      ⟨MacRxBench.follows_start mem doutR, MacRxBench.allRoomy_start mem doutR⟩ _ hroom
    rintro before cycle hbefore ⟨hfollows, hall⟩
    exact ⟨hfollows.step (EthMacRx.occ_lt_of_fifoRoom hbefore) _, hall.step _ hbefore⟩
  refine ⟨?_, hfollows.sent, ?_, ?_⟩
  · obtain ⟨images, lost, hoffered, hknown, -⟩ : loop.sender.Traced maxFrame := by
      have hsender : loop.sender = _ := sender_run (start mem doutR) cycles
      rw [hsender]
      exact (MacTxBench.traced_run maxFrame _).2
    obtain ⟨hpending, hidle⟩ := hlinked.pending_le
    obtain ⟨groups, rest, hclosed, himages, hshort, hfull⟩ :=
      exists_groups (hlinked.known_eq.trans hknown) hpending
        (MacTxBench.relayed_ne_nil hoffered)
    have hcount := hoffered.length_eq
    refine ⟨groups, rest, hclosed, ?_, by omega, ?_⟩
    · have htaken := List.forall₂_take groups.length hoffered
      rw [← himages, List.forall₂_map_right_iff, List.forall₂_iff_zip] at htaken
      obtain ⟨hlength, hpairs⟩ := htaken
      rw [List.forall₂_iff_zip]
      refine ⟨hlength, fun {frame group} hpair => ?_⟩
      have hmem : ∀ envelope ∈ group, envelope ∈ loop.receiver.closed := by
        intro envelope henvelope
        rw [hclosed]
        exact List.mem_append_left _
          (List.mem_flatten_of_mem (List.of_mem_zip hpair).2 henvelope)
      apply carried_of_relayed _ _ (hpairs hpair)
      · exact fun envelope henvelope => hall.closed envelope (hmem envelope henvelope)
      · exact fun envelope henvelope =>
          hlinked.closeEr.2 envelope (hmem envelope henvelope)
    · intro hstate hnone
      rw [hfull (hidle hstate hnone), hcount]
  · intro hoff
    have halong := @along_of_mem _ _ (step maxFrame) (fun cycle : MacLoopIn =>
      params.rxCsumOffload = true → cycle.station.rxCsumEn = false) cycles
      (fun cycle hcycle hoffload => hoff hoffload cycle hcycle) (start mem doutR)
    have hcsum : loop.receiver.CsumOff := by
      apply @invariant_along _ _ _ _ (fun loop => loop.receiver.CsumOff) _ _
        (MacRxBench.csumOff_start mem doutR) _ halong
      intro before cycle hpins hcsum
      exact hcsum.step (wiredPins before.sender.tx cycle.station) hpins
    exact hcsum.closed
  · intro drain hquiet henough
    rw [sender_run]
    apply MacTxBench.idle_run hlinked.settled
    · intro i hi
      obtain ⟨cycle, hcycle, rfl⟩ := List.mem_map.mp hi
      exact hquiet cycle hcycle
    · simpa using henough

/-- A source that hands over one frame of two bytes or more without gaps and then
stays away, towards a receiver that is always read. -/
def sending (csumEn : Bool) (frame : List (BitVec 8)) : List MacLoopIn :=
  let station : EthMacRxIn := { quietPins true with rxCsumEn := csumEn }
  let offer := fun (data : BitVec 8) => MacLoopIn.mk ⟨data, true, false, true⟩ station
  let away := MacLoopIn.mk ⟨0, false, false, true⟩ station
  [away, offer (frame.headD 0)] ++ List.replicate 9 (offer (frame.getD 1 0)) ++
    (frame.drop 1).dropLast.map offer ++
    [MacLoopIn.mk ⟨frame.getLastD 0, true, true, true⟩ station] ++ List.replicate 50 away

/-- A broadcast frame with an IPv4 header of which the checksum is wrong. -/
def badHeader : List (BitVec 8) :=
  List.replicate 6 0xFF ++ List.replicate 6 0 ++ [0x08, 0x00, 0x45, 0x00, 0x00, 0x14] ++
    List.replicate 15 0 ++ [0x01]

/-- With the checksum checker on it comes through, but with the error flag. -/
theorem carries_run_csum :
    let params : EthMacRxParams := ⟨false, 4, 1518, 9018, true, by decide, by decide⟩
    let begin : MacLoop params := start (fun _ => plainWord 0) (plainWord 0)
    let loop := runFrom (step 1518) begin (sending true badHeader)
    Along (step 1518) HasRoom begin (sending true badHeader) ∧
      loop.sender.source.offered = [⟨badHeader, true⟩] ∧
      (1 ≤ badHeader.length ∧ badHeader.length ≤ 1518) ∧
      filterPasses params (quietPins true) (destination badHeader) = true ∧
      overLimit params false (padded badHeader ++ fcsOf (padded badHeader)) = false ∧
      loop.receiver.taken = axisFrame (padded badHeader) true ∧
      loop.receiver.taken ≠ axisFrame (padded badHeader) false := by
  decide +kernel

/-- The same frame with the checker off. -/
theorem carries_run_plain :
    let params : EthMacRxParams := ⟨false, 4, 1518, 9018, false, by decide, by decide⟩
    let begin : MacLoop params := start (fun _ => plainWord 0) (plainWord 0)
    let loop := runFrom (step 1518) begin (sending false badHeader)
    loop.receiver.taken = axisFrame (padded badHeader) false ∧
      loop.receiver.sent =
        loop.receiver.closed.flatMap (envelopeWords params) ++ loop.receiver.queuing :=
  ⟨by decide +kernel, (carries_run 1518 _ _ _ (by decide +kernel)).2.1⟩

end MacLoop

end EmacZero
