/-
What the receive MAC is for: the frame that an envelope on its GMII pins carries,
whether the frame is for this station, and how it is judged.
-/
import EmacZero.EthMacRx
import EmacZero.IpDatagram

namespace EmacZero

/-- A byte of an envelope: the pins in its cycle, and whether the output FIFO
had room for another data word then. -/
structure RxBeat where
  pins : EthMacRxIn
  room : Bool
deriving Repr, DecidableEq

namespace RxBeat

def data (beat : RxBeat) : BitVec 8 := beat.pins.gmiiRxd

end RxBeat

/-- An envelope that has ended, with the pins in the cycle its `gmii_rx_dv` fell
and in the next one, where it is judged, and the checksum verdict of then. -/
structure RxEnvelope where
  beats : List RxBeat
  close : EthMacRxIn
  judge : EthMacRxIn
  csumBad : Bool
deriving Repr, DecidableEq

/-- The beats after the SFD: bytes 0x55, then 0xD5, then the frame. -/
def payload : List RxBeat → Option (List RxBeat)
  | [] => none
  | beat :: rest =>
      if beat.data = 0x55 then payload rest
      else if beat.data = 0xD5 then some rest
      else none

def bytes (beats : List RxBeat) : List (BitVec 8) := beats.map RxBeat.data

/-- The first six bytes of a frame as an address. -/
def destination (frame : List (BitVec 8)) : BitVec 48 :=
  (frame.take 6).foldl shiftMac 0

/-- The address filter: own address, broadcast, promiscuous, pass-through, or a
multicast address whose hash bit is set. -/
def filterPasses (params : EthMacRxParams) (pins : EthMacRxIn) (mac : BitVec 48) :
    Bool :=
  mac == pins.ourMac || mac == broadcastMac || pins.promisc || pins.passthrough ||
    (params.mcastHashFilter && mac.getLsbD 40 &&
      pins.mcastHashTable.getLsbD (mcastHashIdx mac).toNat)

/-- The frame is for this station, by the filter at its sixth byte. -/
def forStation (params : EthMacRxParams) (frame : List RxBeat) : Bool :=
  match frame[5]? with
  | none => false
  | some beat => filterPasses params beat.pins (destination (bytes frame))

/-- The FIFO had room when the frame's first word was due. -/
def startRoom (frame : List RxBeat) : Bool :=
  match frame[5]? with
  | none => false
  | some beat => beat.room

/-- A byte of the frame found no room. -/
def missed (frame : List RxBeat) : Bool := (frame.drop 6).any fun beat => !beat.room

/-- The last four bytes are the frame check sequence of the others. -/
def fcsOk (frame : List (BitVec 8)) : Bool :=
  frame.drop (frame.length - 4) == fcsOf (frame.take (frame.length - 4))

/-- The register holds the residue behind a frame whose FCS is right. -/
theorem crcOf_eq_residue_iff {frame : List (BitVec 8)} (hlong : 4 ≤ frame.length) :
    crcOf frame = crcResidue ↔ fcsOk frame = true := by
  have hsplit : frame = frame.take (frame.length - 4) ++ frame.drop (frame.length - 4) :=
    (List.take_append_drop _ _).symm
  have hcheck : (frame.drop (frame.length - 4)).length = 4 := by
    rw [List.length_drop]
    omega
  rw [fcsOk, beq_iff_eq, ← crcOf_append_eq_residue_iff hcheck, ← hsplit]

def overLimit (params : EthMacRxParams) (jumboEn : Bool) (frame : List (BitVec 8)) :
    Bool :=
  decide ((if vlanTagged frame then params.maxFrameStd + 4 else params.maxFrameStd) <
      frame.length) &&
    (!jumboEn || decide (params.maxFrameJumbo < frame.length))

def isRunt (frame : List (BitVec 8)) : Bool := decide (frame.length < 64)

/-- `gmii_rx_er` was high between an envelope's first byte and its end. -/
def RxEnvelope.alignErr (envelope : RxEnvelope) : Bool :=
  (envelope.beats.any fun beat => beat.pins.gmiiRxEr) || envelope.close.gmiiRxEr

/-- The error flag of a delivered frame. -/
def frameErr (params : EthMacRxParams) (envelope : RxEnvelope) (frame : List RxBeat) :
    Bool :=
  !fcsOk (bytes frame) || envelope.alignErr || missed frame ||
    overLimit params envelope.judge.jumboEn (bytes frame) ||
    isRunt (bytes frame) || envelope.csumBad

/-- The words of a frame up to its last byte: a byte is queued when the fifth one
after it is here and there is room. -/
def begun (frame : List RxBeat) : List MacWord :=
  match frame with
  | [] => []
  | first :: rest =>
      ⟨true, false, false, first.data⟩ ::
        ((frame.drop 6).zip rest).filterMap fun (now, late) =>
          if now.room then some ⟨false, false, false, late.data⟩ else none

/-- The word that ends a frame, four bytes before the end of the FCS. -/
def closing (params : EthMacRxParams) (envelope : RxEnvelope) (frame : List RxBeat) :
    MacWord where
  sof := false
  err := frameErr params envelope frame
  last := true
  data := (bytes frame).getD (frame.length - 5) 0

/-- Received for this station, and the FIFO had room for its first word. -/
def started (params : EthMacRxParams) (frame : List RxBeat) : Bool :=
  forStation params frame && startRoom frame

/-- The words that an envelope leaves in the output FIFO. -/
def envelopeWords (params : EthMacRxParams) (envelope : RxEnvelope) : List MacWord :=
  match payload envelope.beats with
  | none => []
  | some frame =>
      if started params frame then begun frame ++ [closing params envelope frame]
      else []

/-- A pulse of `stat_done`, with the classification beside it, or `stat_drop`. -/
inductive StatPulse where
  | done (stat : EthMacRxStat)
  | drop
deriving Repr, DecidableEq

def isBroadcast (frame : List (BitVec 8)) : Bool := destination frame == broadcastMac

def isMulticast (frame : List (BitVec 8)) : Bool :=
  (destination frame).getLsbD 40 && destination frame != broadcastMac

/-- The classification of a frame that was delivered. -/
def classify (params : EthMacRxParams) (envelope : RxEnvelope) (frame : List RxBeat) :
    EthMacRxStat where
  statDone := true
  statLen := BitVec.ofNat 14 (min frame.length 16383)
  statErrFcs := !fcsOk (bytes frame)
  statErrAlign := envelope.alignErr
  statErrOverflow := missed frame
  statErrOversize := overLimit params envelope.judge.jumboEn (bytes frame)
  statErrCsum :=
    envelope.csumBad && fcsOk (bytes frame) && !envelope.alignErr && !missed frame &&
      !overLimit params envelope.judge.jumboEn (bytes frame) && !isRunt (bytes frame)
  statIsBcast := isBroadcast (bytes frame)
  statIsMcast := isMulticast (bytes frame)
  statDrop := false

/-- The pulse that an envelope raises. -/
def framePulse (params : EthMacRxParams) (envelope : RxEnvelope) : List StatPulse :=
  match payload envelope.beats with
  | none => []
  | some frame =>
      if started params frame then [.done (classify params envelope frame)]
      else if forStation params frame then [.drop]
      else []

theorem payload_concat_of_some {beats frame : List RxBeat} {beat : RxBeat}
    (hframe : payload beats = some frame) :
    payload (beats ++ [beat]) = some (frame ++ [beat]) := by
  induction beats with
  | nil => simp [payload] at hframe
  | cons head rest ih =>
      simp only [payload, List.cons_append] at hframe ⊢
      split at hframe
      · rename_i hpreamble
        rw [if_pos hpreamble]
        exact ih hframe
      · rename_i hpreamble
        rw [if_neg hpreamble]
        split at hframe
        · rename_i hsfd
          rw [if_pos hsfd, ← Option.some.inj hframe]
        · simp at hframe

theorem payload_of_preamble {beats : List RxBeat}
    (hpreamble : ∀ beat ∈ beats, beat.data = 0x55) (rest : List RxBeat) :
    payload (beats ++ rest) = payload rest := by
  induction beats with
  | nil => rfl
  | cons head beats ih =>
      rw [List.cons_append, payload, if_pos (hpreamble head List.mem_cons_self),
        ih fun beat hbeat => hpreamble beat (List.mem_cons_of_mem head hbeat)]

/-- An envelope carries a frame exactly if it is a preamble, an SFD and it. -/
theorem payload_eq_some_iff {beats frame : List RxBeat} :
    payload beats = some frame ↔
      ∃ preamble sfd, beats = preamble ++ sfd :: frame ∧
        (∀ beat ∈ preamble, beat.data = 0x55) ∧ sfd.data = 0xD5 := by
  constructor
  · intro hframe
    induction beats with
    | nil => simp [payload] at hframe
    | cons head rest ih =>
        rw [payload] at hframe
        split at hframe
        · rename_i hhead
          obtain ⟨preamble, sfd, rfl, hpreamble, hsfd⟩ := ih hframe
          refine ⟨head :: preamble, sfd, rfl, ?_, hsfd⟩
          intro beat hbeat
          rcases List.mem_cons.mp hbeat with rfl | hbeat
          · exact hhead
          · exact hpreamble beat hbeat
        · split at hframe
          · rename_i hsfd
            exact ⟨[], head, by simp [Option.some.inj hframe], by simp, hsfd⟩
          · simp at hframe
  · rintro ⟨preamble, sfd, rfl, hpreamble, hsfd⟩
    rw [payload_of_preamble hpreamble, payload, if_neg (by simp [hsfd]), if_pos hsfd]

/-! How each of these grows with a frame. -/

@[simp] theorem bytes_concat (frame : List RxBeat) (beat : RxBeat) :
    bytes (frame ++ [beat]) = bytes frame ++ [beat.data] := by
  simp [bytes]

@[simp] theorem length_bytes (frame : List RxBeat) :
    (bytes frame).length = frame.length :=
  List.length_map _

theorem destination_concat_short {frame : List (BitVec 8)} (hshort : frame.length < 6)
    (data : BitVec 8) :
    destination (frame ++ [data]) = shiftMac (destination frame) data := by
  rw [destination, destination, List.take_of_length_le (by simp; omega),
    List.take_of_length_le (Nat.le_of_lt hshort)]
  simp

theorem destination_concat_long {frame : List (BitVec 8)} (hlong : 6 ≤ frame.length)
    (data : BitVec 8) : destination (frame ++ [data]) = destination frame := by
  rw [destination, destination, List.take_append_of_le_length hlong]

theorem forStation_short {params : EthMacRxParams} {frame : List RxBeat}
    (hshort : frame.length < 6) : forStation params frame = false := by
  rw [forStation, List.getElem?_eq_none (by omega)]

theorem forStation_sixth {params : EthMacRxParams} {frame : List RxBeat}
    (hfive : frame.length = 5) (beat : RxBeat) :
    forStation params (frame ++ [beat]) =
      filterPasses params beat.pins (shiftMac (destination (bytes frame)) beat.data) := by
  rw [forStation, List.getElem?_append_right (by omega), hfive, bytes_concat,
    destination_concat_short (by simp [hfive])]
  rfl

theorem forStation_concat {params : EthMacRxParams} {frame : List RxBeat}
    (hlong : 6 ≤ frame.length) (beat : RxBeat) :
    forStation params (frame ++ [beat]) = forStation params frame := by
  rw [forStation, forStation, List.getElem?_append_left (by omega), bytes_concat,
    destination_concat_long (by simpa using hlong)]

theorem startRoom_sixth {frame : List RxBeat} (hfive : frame.length = 5)
    (beat : RxBeat) : startRoom (frame ++ [beat]) = beat.room := by
  rw [startRoom, List.getElem?_append_right (by omega), hfive]
  rfl

theorem startRoom_concat {frame : List RxBeat} (hlong : 6 ≤ frame.length)
    (beat : RxBeat) : startRoom (frame ++ [beat]) = startRoom frame := by
  rw [startRoom, startRoom, List.getElem?_append_left (by omega)]

theorem started_short {params : EthMacRxParams} {frame : List RxBeat}
    (hshort : frame.length < 6) : started params frame = false := by
  rw [started, forStation_short hshort, Bool.false_and]

theorem started_concat {params : EthMacRxParams} {frame : List RxBeat}
    (hlong : 6 ≤ frame.length) (beat : RxBeat) :
    started params (frame ++ [beat]) = started params frame := by
  rw [started, started, forStation_concat hlong, startRoom_concat hlong]

theorem missed_short {frame : List RxBeat} (hshort : frame.length ≤ 6) :
    missed frame = false := by
  rw [missed, List.drop_of_length_le hshort, List.any_nil]

theorem missed_concat {frame : List RxBeat} (hlong : 6 ≤ frame.length)
    (beat : RxBeat) : missed (frame ++ [beat]) = (missed frame || !beat.room) := by
  rw [missed, missed, List.drop_append_of_le_length hlong]
  simp

/-- The sixth byte is here: the first word is the frame's first byte. -/
theorem begun_sixth {frame : List RxBeat} {first : RxBeat} (hfive : frame.length = 5)
    (hfirst : frame[0]? = some first) (beat : RxBeat) :
    begun (frame ++ [beat]) = [⟨true, false, false, first.data⟩] := by
  cases frame with
  | nil => simp at hfive
  | cons head rest =>
      obtain rfl : head = first := by simpa using hfirst
      simp only [List.length_cons] at hfive
      simp [begun, List.drop_of_length_le, hfive]

/-- Every later byte brings the one five places before it, if there is room. -/
theorem begun_concat {frame : List RxBeat} {late : RxBeat} (hlong : 6 ≤ frame.length)
    (hlate : frame[frame.length - 5]? = some late) (beat : RxBeat) :
    begun (frame ++ [beat]) =
      begun frame ++ if beat.room then [⟨false, false, false, late.data⟩] else [] := by
  cases frame with
  | nil => simp at hlong
  | cons head rest =>
      simp only [List.length_cons] at hlong hlate
      have hlate' : rest[rest.length - 5]? = some late := by
        rw [← hlate, show rest.length + 1 - 5 = (rest.length - 5) + 1 by omega]
        rfl
      obtain ⟨hlt, hget⟩ := List.getElem?_eq_some_iff.mp hlate'
      have hsplit : rest = rest.take (rest.length - 5) ++
          late :: rest.drop (rest.length - 5 + 1) := by
        rw [← hget, ← List.drop_eq_getElem_cons hlt, List.take_append_drop]
      have hzip : ∀ now more : List RxBeat,
          (rest.drop 5 ++ now).zip (rest ++ more) =
            (rest.drop 5).zip (rest.take (rest.length - 5)) ++
              now.zip (late :: (rest.drop (rest.length - 5 + 1) ++ more)) := by
        intro now more
        conv_lhs =>
          rhs
          rw [hsplit, List.append_assoc, List.cons_append]
        rw [List.zip_append (by simp)]
      have hbefore := hzip [] []
      simp only [List.append_nil, List.zip_nil_left] at hbefore
      have hafter := hzip [beat] [beat]
      rw [← hbefore] at hafter
      simp only [begun, List.cons_append, List.drop_succ_cons,
        List.drop_append_of_le_length (show 5 ≤ rest.length by omega), hafter,
        List.filterMap_append, List.zip_cons_cons, List.zip_nil_left]
      cases hroom : beat.room <;> simp [hroom]

end EmacZero
