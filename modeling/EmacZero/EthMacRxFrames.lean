/-
`eth_mac_rx` follows the envelopes on its pins: what it has queued and which
pulses it has raised is, in every cycle, what the envelopes so far call for.
-/
import EmacZero.EthMacRxBench

namespace EmacZero

variable {params : EthMacRxParams}

namespace EthMacRx

/-- The CRC register holds, or is about to hold, the check of a frame. -/
def CrcDue (rx : EthMacRx params) (frame : List RxBeat) : Prop :=
  rx.crc.clkEdge rx.crcDataIn rx.crcDataValid rx.crcInit = ⟨crcOf (bytes frame)⟩

/-- Where the machine is in an envelope, with the beats of the one that is open
and the one that ended in the last cycle. -/
inductive Phase (rx : EthMacRx params) :
    List RxBeat → Option (List RxBeat × EthMacRxIn) → Prop
  | idle {ended} (hstate : rx.state = .idle)
      (hended : ∀ beats close, ended = some (beats, close) → payload beats = none) :
      Phase rx [] ended
  | preamble {opened} (hstate : rx.state = .preamble) (hopened : opened ≠ [])
      (hpreamble : ∀ beat ∈ opened, beat.data = 0x55) (hrec : rx.Received [])
      (her : rx.rxErSeen = opened.any fun beat => beat.pins.gmiiRxEr) :
      Phase rx opened none
  | data {opened frame} (hstate : rx.state = .data)
      (hframe : payload opened = some frame) (hrec : rx.Received frame)
      (her : rx.rxErSeen = opened.any fun beat => beat.pins.gmiiRxEr)
      (hcrc : rx.CrcDue frame) : Phase rx opened none
  | drop {opened} (hstate : rx.state = .drop) (hopened : opened ≠ [])
      (hrejected : ∀ rest, payload (opened ++ rest) = none) : Phase rx opened none
  | crcCheck {beats close frame} (hstate : rx.state = .crcCheck)
      (hframe : payload beats = some frame) (hrec : rx.Received frame)
      (her : rx.rxErSeen =
        ((beats.any fun beat => beat.pins.gmiiRxEr) || close.gmiiRxEr))
      (hcrc : rx.crc.crcReg = crcOf (bytes frame)) :
      Phase rx [] (some (beats, close))

variable {rx : EthMacRx params} {pins : EthMacRxIn}

theorem clkEdge_start (hstate : rx.state = .idle ∨ rx.state = .crcCheck)
    (hfits : rx.fifoOverflow pins = false) :
    (rx.clkEdge pins).toEthMacRxFrame = rx.startFrame pins := by
  have hdrop : rx.dataDrop pins = false := by
    rcases hstate with hstate | hstate <;> simp [dataDrop, dataNow, hstate]
  rcases hstate with hstate | hstate <;>
    simp [clkEdge, nextFrame, hstate, hdrop, hfits]

theorem received_start {before : EthMacRx params}
    (hnext : rx.toEthMacRxFrame = before.startFrame pins) :
    rx.Received [] := by
  constructor
  · simp [congrArg EthMacRxFrame.byteCnt hnext, startFrame]
  · simp [delayLine, congrArg EthMacRxFrame.delayPipe5 hnext,
      congrArg EthMacRxFrame.delayPipe4 hnext, congrArg EthMacRxFrame.delayPipe3 hnext,
      congrArg EthMacRxFrame.delayPipe2 hnext, congrArg EthMacRxFrame.delayPipe1 hnext,
      startFrame, bytes]
  · exact congrArg EthMacRxFrame.dstMacCaptured hnext
  · exact congrArg EthMacRxFrame.macOk hnext
  · exact congrArg EthMacRxFrame.frameStarted hnext
  · exact congrArg EthMacRxFrame.rxOverflowSeen hnext
  · intro hlong
    simp at hlong
  · intro hlong
    simp at hlong
  · exact congrArg EthMacRxFrame.vlanTag hnext

/-- A cycle in which a frame may start. -/
theorem Phase.first (hstate : rx.state = .idle ∨ rx.state = .crcCheck)
    (hfits : rx.fifoOverflow pins = false) (room : Bool) :
    (rx.clkEdge pins).Phase (if pins.gmiiRxDv then [⟨pins, room⟩] else []) none := by
  have hnext := clkEdge_start hstate hfits
  have hnextState := congrArg EthMacRxFrame.state hnext
  have hrec : (rx.clkEdge pins).Received [] := received_start hnext
  have her : (rx.clkEdge pins).rxErSeen = (pins.gmiiRxDv && pins.gmiiRxEr) :=
    congrArg EthMacRxFrame.rxErSeen hnext
  cases hdv : pins.gmiiRxDv with
  | false =>
      refine .idle ?_ (by simp)
      simp [hnextState, startFrame, hdv]
  | true =>
      rw [hdv, Bool.true_and] at her
      by_cases hpreamble : pins.gmiiRxd = 0x55#8
      · refine .preamble ?_ (by simp) ?_ hrec (by simpa using her)
        · simp [hnextState, startFrame, hdv, hpreamble]
        · simpa [RxBeat.data] using hpreamble
      · by_cases hsfd : pins.gmiiRxd = 0xD5#8
        · refine @Phase.data _ _ _ [] ?_ ?_ hrec (by simpa using her) ?_
          · simp [hnextState, startFrame, hdv, hsfd]
          · simp [payload, RxBeat.data, hsfd]
          · have hinit := congrArg EthMacRxFrame.crcInit hnext
            simp only [startFrame, hdv, hsfd] at hinit
            simp [CrcDue, Crc32.clkEdge, hinit, crcOf, bytes]
        · refine .drop ?_ (by simp) ?_
          · simp [hnextState, startFrame, hdv, hpreamble, hsfd]
          · intro rest
            simp [payload, RxBeat.data, hpreamble, hsfd]

/-- Registers that a cycle leaves alone still know the same frame. -/
theorem Received.of_kept {frame : List RxBeat} {after : EthMacRx params}
    (hrec : rx.Received frame) (hbyteCnt : after.byteCnt = rx.byteCnt)
    (hline : after.delayLine = rx.delayLine)
    (hdst : after.dstMacCaptured = rx.dstMacCaptured) (hmac : after.macOk = rx.macOk)
    (hstarted : after.frameStarted = rx.frameStarted)
    (hover : after.rxOverflowSeen = rx.rxOverflowSeen)
    (hbcast : after.isBcastR = rx.isBcastR) (hmcast : after.isMcastR = rx.isMcastR)
    (hvlan : after.vlanTag = rx.vlanTag) : after.Received frame where
  byteCnt := hbyteCnt ▸ hrec.byteCnt
  delayed := hline ▸ hrec.delayed
  destination := hdst ▸ hrec.destination
  macOk := hmac ▸ hrec.macOk
  frameStarted := hstarted ▸ hrec.frameStarted
  overflow := hover ▸ hrec.overflow
  isBcast := hbcast ▸ hrec.isBcast
  isMcast := hmcast ▸ hrec.isMcast
  vlanTag := hvlan ▸ hrec.vlanTag

theorem payload_preamble {opened : List RxBeat}
    (hpreamble : ∀ beat ∈ opened, beat.data = 0x55) : payload opened = none := by
  have hend := payload_of_preamble hpreamble []
  rw [List.append_nil] at hend
  exact hend

theorem er_concat (opened : List RxBeat) (beat : RxBeat) :
    ((opened ++ [beat]).any fun beat => beat.pins.gmiiRxEr) =
      ((opened.any fun beat => beat.pins.gmiiRxEr) || beat.pins.gmiiRxEr) := by
  rw [List.any_append, List.any_cons, List.any_nil, Bool.or_false]

theorem clkEdge_preamble (hstate : rx.state = .preamble)
    (hfits : rx.fifoOverflow pins = false) :
    (rx.clkEdge pins).toEthMacRxFrame = rx.preambleFrame pins := by
  simp [clkEdge, nextFrame, hstate, dataDrop, dataNow, hfits]

theorem Phase.preamble_clkEdge {opened : List RxBeat} (hstate : rx.state = .preamble)
    (hopened : opened ≠ []) (hpreamble : ∀ beat ∈ opened, beat.data = 0x55)
    (hrec : rx.Received [])
    (her : rx.rxErSeen = opened.any fun beat => beat.pins.gmiiRxEr)
    (hfits : rx.fifoOverflow pins = false) (room : Bool) :
    (rx.clkEdge pins).Phase
      (if pins.gmiiRxDv then opened ++ [⟨pins, room⟩] else [])
      (if pins.gmiiRxDv || opened.isEmpty then none else some (opened, pins)) := by
  have hnext := clkEdge_preamble hstate hfits
  have hnextState := congrArg EthMacRxFrame.state hnext
  have hrec' : (rx.clkEdge pins).Received [] := by
    apply hrec.of_kept <;>
      simp [delayLine, clkEdge, nextFrame, hstate, preambleFrame, dataDrop, dataNow, hfits]
  have her' : (rx.clkEdge pins).rxErSeen =
      ((opened.any fun beat => beat.pins.gmiiRxEr) || pins.gmiiRxEr) := by
    rw [congrArg EthMacRxFrame.rxErSeen hnext, ← her, preambleFrame]
    cases pins.gmiiRxEr <;> simp
  cases hdv : pins.gmiiRxDv with
  | false =>
      simp only [Bool.false_or, List.isEmpty_eq_false_iff.mpr hopened]
      refine .idle ?_ ?_
      · simp [hnextState, preambleFrame, hdv]
      · intro beats close hended
        simp only [Bool.false_eq_true, if_false, Option.some.injEq, Prod.mk.injEq] at hended
        rw [← hended.1, payload_preamble hpreamble]
  | true =>
      simp only [if_true, Bool.true_or]
      rw [← er_concat opened ⟨pins, room⟩] at her'
      by_cases hmore : pins.gmiiRxd = 0x55#8
      · refine .preamble ?_ (by simp) ?_ hrec' her'
        · simp [hnextState, preambleFrame, hdv, hmore]
        · intro beat hbeat
          rcases List.mem_append.mp hbeat with hold | hnew
          · exact hpreamble beat hold
          · rw [List.mem_singleton.mp hnew]
            exact hmore
      · by_cases hsfd : pins.gmiiRxd = 0xD5#8
        · refine @Phase.data _ _ _ [] ?_ ?_ hrec' her' ?_
          · simp [hnextState, preambleFrame, hdv, hsfd]
          · rw [payload_of_preamble hpreamble]
            simp [payload, RxBeat.data, hsfd]
          · have hinit := congrArg EthMacRxFrame.crcInit hnext
            simp only [preambleFrame, hdv, hsfd] at hinit
            simp [CrcDue, Crc32.clkEdge, hinit, crcOf, bytes]
        · refine .drop ?_ (by simp) ?_
          · simp [hnextState, preambleFrame, hdv, hmore, hsfd]
          · intro rest
            rw [List.append_assoc, payload_of_preamble hpreamble]
            simp [payload, RxBeat.data, hmore, hsfd]

theorem Phase.data_clkEdge {opened frame : List RxBeat} (hstate : rx.state = .data)
    (hframe : payload opened = some frame) (hrec : rx.Received frame)
    (her : rx.rxErSeen = opened.any fun beat => beat.pins.gmiiRxEr)
    (hcrc : rx.CrcDue frame) (hfits : rx.fifoOverflow pins = false) :
    (rx.clkEdge pins).Phase
      (if pins.gmiiRxDv then opened ++ [⟨pins, rx.fifoRoom⟩] else [])
      (if pins.gmiiRxDv || opened.isEmpty then none else some (opened, pins)) := by
  have hopened : opened ≠ [] := by
    rintro rfl
    simp [payload] at hframe
  have hcrcReg : (rx.clkEdge pins).crc = ⟨crcOf (bytes frame)⟩ := hcrc
  cases hdv : pins.gmiiRxDv with
  | true =>
      simp only [if_true, Bool.true_or]
      have hnext := clkEdge_data hstate hdv hfits
      refine .data ?_ (payload_concat_of_some hframe) (hrec.beat hstate hdv hfits) ?_ ?_
      · rw [congrArg EthMacRxFrame.state hnext]
        rfl
      · rw [congrArg EthMacRxFrame.rxErSeen hnext]
        simp only [dataFrame, her, er_concat]
        cases pins.gmiiRxEr <;> simp
      · rw [CrcDue, hcrcReg, congrArg EthMacRxFrame.crcDataIn hnext,
          congrArg EthMacRxFrame.crcDataValid hnext, congrArg EthMacRxFrame.crcInit hnext,
          bytes_concat, crcOf_concat]
        rfl
  | false =>
      simp only [Bool.false_or, List.isEmpty_eq_false_iff.mpr hopened]
      have hdrop : rx.dataDrop pins = false := by
        simp [dataDrop, dataNow, hdv]
      refine @Phase.crcCheck _ _ _ _ frame ?_ hframe ?_ ?_ ?_
      · simp [clkEdge, nextFrame, hstate, hdv, endFrame]
      · apply hrec.of_kept <;>
          simp [delayLine, clkEdge, nextFrame, hstate, hdv, endFrame, hdrop, hfits]
      · simp only [clkEdge, nextFrame, hstate, hdv, endFrame, her]
        cases pins.gmiiRxEr <;> simp
      · rw [hcrcReg]

/-- One cycle of the machine, whatever the pins do. -/
theorem Phase.clkEdge {opened : List RxBeat} {ended : Option (List RxBeat × EthMacRxIn)}
    (hphase : rx.Phase opened ended) (hfits : rx.fifoOverflow pins = false) :
    (rx.clkEdge pins).Phase
      (if pins.gmiiRxDv then opened ++ [⟨pins, rx.fifoRoom⟩] else [])
      (if pins.gmiiRxDv || opened.isEmpty then none else some (opened, pins)) := by
  cases hphase with
  | idle hstate hended =>
      simpa using Phase.first (Or.inl hstate) hfits rx.fifoRoom
  | crcCheck hstate hframe hrec her hcrc =>
      simpa using Phase.first (Or.inr hstate) hfits rx.fifoRoom
  | preamble hstate hopened hpreamble hrec her =>
      exact Phase.preamble_clkEdge hstate hopened hpreamble hrec her hfits _
  | data hstate hframe hrec her hcrc =>
      exact Phase.data_clkEdge hstate hframe hrec her hcrc hfits
  | drop hstate hopened hrejected =>
      cases hdv : pins.gmiiRxDv with
      | true =>
          refine .drop ?_ (by simp) ?_
          · simp [EthMacRx.clkEdge, nextFrame, hstate, dropFrame, hdv]
          · intro rest
            rw [if_pos rfl, List.append_assoc]
            exact hrejected _
      | false =>
          simp only [Bool.false_or, List.isEmpty_eq_false_iff.mpr hopened]
          refine .idle ?_ ?_
          · simp [EthMacRx.clkEdge, nextFrame, hstate, dropFrame, hdv]
          · intro beats close hended
            simp only [Bool.false_eq_true, if_false, Option.some.injEq,
              Prod.mk.injEq] at hended
            have hnone := hrejected []
            rw [List.append_nil] at hnone
            rw [← hended.1, hnone]

/-! What is pushed, and the pulses, in each cycle. -/

/-- The word pushed in this cycle, if any. -/
def pushed (rx : EthMacRx params) (pins : EthMacRxIn) : List MacWord :=
  if rx.pushEn pins then [rx.pushWord pins] else []

theorem exists_delayed {frame : List RxBeat} (hlong : 5 ≤ frame.length) :
    ∃ late, frame[frame.length - 5]? = some late :=
  ⟨_, List.getElem?_eq_getElem (by omega)⟩

theorem started_imp_long {frame : List RxBeat} (hstarted : started params frame = true) :
    6 ≤ frame.length := by
  by_contra hshort
  rw [started_short (by omega)] at hstarted
  simp at hstarted

theorem closeNow_data (hstate : rx.state = .data) : rx.closeNow = false := by
  rw [closeNow, hstate]
  rfl

theorem errFcsNow_eq {frame : List RxBeat} (hcrc : rx.crc.crcReg = crcOf (bytes frame))
    (hlong : 4 ≤ frame.length) : rx.errFcsNow = !fcsOk (bytes frame) := by
  have hlength : 4 ≤ (bytes frame).length := by rwa [length_bytes]
  rw [errFcsNow, Crc32.crcRaw, hcrc, bne]
  congr 1
  rw [Bool.eq_iff_iff, beq_iff_eq]
  exact crcOf_eq_residue_iff hlength

namespace Received

variable {frame : List RxBeat} (hrec : rx.Received frame)
include hrec

/-- A byte brings the word five places before it. -/
theorem pushed_beat (hstate : rx.state = .data) (hdv : pins.gmiiRxDv = true) :
    (if started params frame then begun frame else []) ++ rx.pushed pins =
      if started params (frame ++ [⟨pins, rx.fifoRoom⟩]) then
        begun (frame ++ [⟨pins, rx.fifoRoom⟩]) else [] := by
  have hclose := closeNow_data hstate
  have hsof := hrec.sofNow_eq hstate hdv
  have hdata := hrec.dataNow_eq hstate hdv
  rcases Nat.lt_trichotomy frame.length 5 with hlt | hfive | hgt
  · have hpush : rx.pushEn pins = false := by
      rw [pushEn, hsof, hdata, hclose, started_short (by omega)]
      simp [hlt.ne]
    rw [started_short (by omega), started_short (by simp; omega), pushed, hpush]
    rfl
  · obtain ⟨late, hlate⟩ := exists_delayed hfive.ge
    have hfirst : frame[0]? = some late := by
      rw [← hlate, hfive]
    have hstarted : started params (frame ++ [⟨pins, rx.fifoRoom⟩]) =
        (rx.sofNow pins && rx.fifoRoom) := by
      rw [started, startRoom_sixth hfive, hsof]
      simp [hfive]
    have hpush : rx.pushEn pins = (rx.sofNow pins && rx.fifoRoom) := by
      rw [pushEn, hdata, hclose, started_short (by omega)]
      simp
    rw [started_short (by omega), hstarted, pushed, hpush, begun_sixth hfive hfirst]
    cases hnow : rx.sofNow pins && rx.fifoRoom with
    | false => rfl
    | true =>
        simp [pushWord, pushSof, hnow, hclose, hpush,
          hrec.delayPipe1_eq hfive.ge hlate]
  · obtain ⟨late, hlate⟩ := exists_delayed hgt.le
    have hsof' : rx.sofNow pins = false := by
      rw [hsof]
      simp [hgt.ne']
    have hpush : rx.pushEn pins = (started params frame && rx.fifoRoom) := by
      rw [pushEn, hsof', hdata, hclose]
      simp [show 6 ≤ frame.length from hgt]
    rw [started_concat hgt, begun_concat hgt hlate, pushed, hpush]
    cases hstarted : started params frame with
    | false => rfl
    | true =>
        cases hroom : rx.fifoRoom with
        | false => simp
        | true =>
            rw [hstarted, hroom] at hpush
            simp [pushWord, pushSof, hsof', hclose, hpush,
              hrec.delayPipe1_eq hgt.le hlate]

/-- The closing word is due exactly for a started frame. -/
theorem closeNow_eq (hstate : rx.state = .crcCheck) :
    rx.closeNow = started params frame := by
  rw [closeNow, hstate, hrec.six_ule, hrec.macOk, hrec.frameStarted]
  cases hstarted : started params frame with
  | false => simp
  | true =>
      have hlong := started_imp_long hstarted
      have hstation : forStation params frame = true := by
        rw [started, Bool.and_eq_true] at hstarted
        exact hstarted.1
      simp [hlong, hstation]

theorem errOversizeNow_eq (pins : EthMacRxIn) :
    rx.errOversizeNow pins = overLimit params pins.jumboEn (bytes frame) := by
  have hstd := params.std_le
  have hjumbo := params.jumbo_le
  have hlimit : ∀ limit, limit ≤ 16382 →
      (decide (limit < rx.byteCnt.toNat)) = decide (limit < frame.length) := by
    intro limit hle
    rw [hrec.byteCnt, decide_eq_decide]
    omega
  rw [errOversizeNow, overStdNow, overLimit, hrec.vlanTag, length_bytes,
    hlimit _ hstd, hlimit _ (by omega), hlimit _ hjumbo]
  cases vlanTagged (bytes frame) <;> rfl

theorem errUndersizeNow_eq : rx.errUndersizeNow = isRunt (bytes frame) := by
  rw [errUndersizeNow, isRunt, length_bytes, BitVec.ult_eq_decide, hrec.byteCnt,
    show (64 : BitVec 14).toNat = 64 from rfl, decide_eq_decide]
  omega

end Received

/-- The judgement of a frame, in the cycle after its envelope ended. -/
theorem Received.pushed_close {beats frame : List RxBeat} {close : EthMacRxIn}
    (hrec : rx.Received frame) (hstate : rx.state = .crcCheck)
    (her : rx.rxErSeen = RxEnvelope.alignErr ⟨beats, close, pins, rx.csumBadNow⟩)
    (hcrc : rx.crc.crcReg = crcOf (bytes frame)) :
    rx.pushed pins =
      if started params frame then
        [closing params ⟨beats, close, pins, rx.csumBadNow⟩ frame] else [] := by
  have hclose := hrec.closeNow_eq hstate
  have hsof : rx.sofNow pins = false := by
    simp [sofNow, hstate]
  have hdata : rx.dataNow pins = false := by
    simp [dataNow, hstate]
  have hpush : rx.pushEn pins = started params frame := by
    rw [pushEn, hsof, hdata, hclose]
    rfl
  rw [pushed, hpush]
  cases hstarted : started params frame with
  | false => rfl
  | true =>
      have hlong := started_imp_long hstarted
      obtain ⟨late, hlate⟩ := exists_delayed (Nat.le_of_succ_le hlong)
      have hlast : (bytes frame)[frame.length - 5]? = some late.data := by
        rw [bytes, List.getElem?_map, hlate]
        rfl
      rw [hstarted] at hclose hpush
      have herr : rx.pushErr pins =
          frameErr params ⟨beats, close, pins, rx.csumBadNow⟩ frame := by
        rw [pushErr, frameErr, errFcsNow_eq hcrc (by omega), her,
          hrec.errOversizeNow_eq, hrec.errUndersizeNow_eq, hrec.overflow, hstarted,
          Bool.true_and]
      simp [pushWord, pushSof, hsof, hclose, hpush, closing, herr, hlast,
        hrec.delayPipe1_eq (Nat.le_of_succ_le hlong) hlate]

theorem pulsesNow_clkEdge_of_ne (hstate : rx.state ≠ .crcCheck) (pins : EthMacRxIn) :
    (rx.clkEdge pins).pulsesNow = [] := by
  simp [pulsesNow, clkEdge, nextStat, hstate]

/-- The pulses of a frame, in the cycle after it was judged. -/
theorem Received.pulsesNow_close {beats frame : List RxBeat} {close : EthMacRxIn}
    (hrec : rx.Received frame) (hstate : rx.state = .crcCheck)
    (hframe : payload beats = some frame)
    (her : rx.rxErSeen = RxEnvelope.alignErr ⟨beats, close, pins, rx.csumBadNow⟩)
    (hcrc : rx.crc.crcReg = crcOf (bytes frame)) :
    (rx.clkEdge pins).pulsesNow =
      framePulse params ⟨beats, close, pins, rx.csumBadNow⟩ := by
  rw [framePulse, hframe]
  cases hstarted : started params frame with
  | false =>
      have hkept : rx.frameStarted = false := by
        rw [hrec.frameStarted, hstarted]
      simp only [pulsesNow, clkEdge, nextStat, hstate, hkept, hrec.macOk]
      simp [hstarted]
  | true =>
      have hlong := started_imp_long hstarted
      have hstation : forStation params frame = true := by
        rw [started, Bool.and_eq_true] at hstarted
        exact hstarted.1
      have hlen : rx.byteCnt = BitVec.ofNat 14 (min frame.length 16383) := by
        rw [← hrec.byteCnt, BitVec.ofNat_toNat, BitVec.setWidth_eq]
      have hover : rx.rxOverflowSeen = missed frame := by
        rw [hrec.overflow, hstarted, Bool.true_and]
      have hfcs := errFcsNow_eq hcrc (show 4 ≤ frame.length by omega)
      simp only [pulsesNow, clkEdge, nextStat, hstate, hrec.frameStarted, hstarted,
        hrec.macOk, hstation, errCsumNow, hfcs, her, hover, hrec.errOversizeNow_eq,
        hrec.errUndersizeNow_eq, hrec.isBcast hlong, hrec.isMcast hlong, hlen]
      simp [classify]

end EthMacRx

/-! The run. -/

/-- The words that a frame still open has queued. -/
def queuedOf (params : EthMacRxParams) (beats : List RxBeat) : List MacWord :=
  match payload beats with
  | none => []
  | some frame => if started params frame then begun frame else []

namespace MacRxBench

variable {bench : MacRxBench params}

def queuing (bench : MacRxBench params) : List MacWord :=
  match bench.ended with
  | none => queuedOf params bench.opened
  | some (beats, _) => queuedOf params beats

/-- The queue and the pulses are what the envelopes judged so far call for, but
for the words of the one not judged yet and the pulse that is up now. -/
structure Follows (bench : MacRxBench params) : Prop where
  valid : bench.rx.fifo.Valid
  phase : bench.rx.Phase bench.opened bench.ended
  sent : bench.sent = bench.closed.flatMap (envelopeWords params) ++ bench.queuing
  pulses : bench.pulses ++ bench.rx.pulsesNow =
    bench.closed.flatMap (framePulse params)

theorem sent_step (hvalid : bench.rx.fifo.Valid)
    (hlt : bench.rx.fifo.occ.toNat < 2 ^ params.axisFifoAddrWidth) (pins : EthMacRxIn) :
    (bench.step pins).sent = bench.sent ++ bench.rx.pushed pins := by
  have hwords := SyncFifo.words_clkEdge hvalid bench.rx.pushEnR bench.rx.pushR
    pins.mAxisTready
  rw [SyncFifo.pushOk_of_room hlt] at hwords
  have hfifo : (bench.step pins).rx.fifo.words = _ := hwords
  have hpushed : (if (bench.step pins).rx.pushEnR then [(bench.step pins).rx.pushR]
      else []) = bench.rx.pushed pins := rfl
  rw [sent, hpushed, hfifo, sent]
  have htaken : (bench.step pins).taken ++
      bench.rx.fifo.words.drop (bench.rx.fifo.pop pins.mAxisTready).toNat =
        bench.taken ++ bench.rx.fifo.words := by
    cases hpop : bench.rx.fifo.pop pins.mAxisTready with
    | false => simp [step, EthMacRx.mAxisTaken, hpop]
    | true =>
        have hvalid : bench.rx.fifo.doutValidR = true := by
          rw [SyncFifo.pop, Bool.and_eq_true] at hpop
          exact hpop.1
        rw [SyncFifo.words_of_rdValid hvalid]
        simp [step, EthMacRx.mAxisTaken, hpop]
  rw [← List.append_assoc, htaken]

theorem queuedOf_none {beats : List RxBeat} (hnone : payload beats = none) :
    queuedOf params beats = [] := by
  rw [queuedOf, hnone]

theorem queuedOf_empty {beats : List RxBeat} (hempty : payload beats = some []) :
    queuedOf params beats = [] := by
  rw [queuedOf, hempty]
  rfl

theorem queuedOf_some {beats frame : List RxBeat} (hframe : payload beats = some frame) :
    queuedOf params beats = if started params frame then begun frame else [] := by
  rw [queuedOf, hframe]

/-- The first byte after a preamble queues nothing. -/
theorem queuedOf_preamble {opened : List RxBeat}
    (hpreamble : ∀ beat ∈ opened, beat.data = 0x55) (beat : RxBeat) :
    queuedOf params (opened ++ [beat]) = [] := by
  have hfirst : payload (opened ++ [beat]) = none ∨
      payload (opened ++ [beat]) = some [] := by
    rw [payload_of_preamble hpreamble, payload, payload]
    split
    · exact Or.inl rfl
    · split
      · exact Or.inr rfl
      · exact Or.inl rfl
  rcases hfirst with hnone | hempty
  · exact queuedOf_none hnone
  · exact queuedOf_empty hempty

theorem pushed_quiet (hdata : bench.rx.state ≠ .data)
    (hcheck : bench.rx.state ≠ .crcCheck) (pins : EthMacRxIn) :
    bench.rx.pushed pins = [] := by
  simp [EthMacRx.pushed, EthMacRx.pushEn, EthMacRx.sofNow, EthMacRx.dataNow,
    EthMacRx.closeNow, hdata, hcheck]

/-- Where no frame is open nothing is queued in the next cycle either. -/
theorem queuing_step_idle (hopened : bench.opened = []) (pins : EthMacRxIn) :
    (bench.step pins).queuing = [] := by
  cases hdv : pins.gmiiRxDv with
  | false => simp [queuing, step, hopened, hdv, queuedOf, payload]
  | true =>
      have hfirst := @queuedOf_preamble params [] (by simp) ⟨pins, bench.rx.fifoRoom⟩
      simpa [queuing, step, hopened, hdv] using hfirst

/-- One cycle: the words queued, and those that the envelope judged calls for. -/
theorem queuing_step (hphase : bench.rx.Phase bench.opened bench.ended)
    (pins : EthMacRxIn) :
    bench.queuing ++ bench.rx.pushed pins =
      (bench.judged pins).flatMap (envelopeWords params) ++ (bench.step pins).queuing := by
  generalize hopened : bench.opened = opened at hphase
  generalize hended : bench.ended = ended at hphase
  cases hphase with
  | idle hstate hnone =>
      have hpushed := @pushed_quiet _ bench (by simp [hstate]) (by simp [hstate]) pins
      rw [queuing_step_idle hopened, hpushed]
      cases ended with
      | none => simp [queuing, judged, hended, hopened, queuedOf, payload]
      | some last =>
          have hlast := hnone last.1 last.2 rfl
          simp [queuing, judged, hended, envelopeWords, queuedOf, hlast]
  | preamble hstate hne hpreamble hrec her =>
      have hpushed := @pushed_quiet _ bench (by simp [hstate]) (by simp [hstate]) pins
      have hnone := EthMacRx.payload_preamble hpreamble
      have hbefore : bench.queuing = [] := by
        simp only [queuing, hended, hopened]
        exact queuedOf_none hnone
      rw [hbefore, hpushed]
      cases hdv : pins.gmiiRxDv with
      | true => simp [judged, queuing, step, hended, hopened, hdv, queuedOf_preamble hpreamble]
      | false => simp [judged, queuing, step, hended, hopened, hdv, hne, queuedOf_none hnone]
  | data hstate hframe hrec her hcrc =>
      cases hdv : pins.gmiiRxDv with
      | true =>
          have hbeat := hrec.pushed_beat hstate hdv
          simp only [queuing, judged, step, hended, hopened, hdv, if_true, Bool.true_or,
            queuedOf_some hframe, queuedOf_some (payload_concat_of_some hframe), hbeat]
          rfl
      | false =>
          have hne : opened ≠ [] := by
            rintro rfl
            simp [payload] at hframe
          have hpushed : bench.rx.pushed pins = [] := by
            simp [EthMacRx.pushed, EthMacRx.pushEn, EthMacRx.sofNow, EthMacRx.dataNow,
              EthMacRx.closeNow, hstate, hdv]
          rw [hpushed]
          simp [judged, queuing, step, hended, hopened, hdv, hne]
  | drop hstate hne hrejected =>
      have hpushed := @pushed_quiet _ bench (by simp [hstate]) (by simp [hstate]) pins
      have hnone := hrejected []
      rw [List.append_nil] at hnone
      have hbefore : bench.queuing = [] := by
        simp only [queuing, hended, hopened]
        exact queuedOf_none hnone
      rw [hbefore, hpushed]
      cases hdv : pins.gmiiRxDv with
      | true =>
          simp [judged, queuing, step, hended, hopened, hdv,
            queuedOf_none (hrejected [_])]
      | false => simp [judged, queuing, step, hended, hopened, hdv, hne, queuedOf_none hnone]
  | crcCheck hstate hframe hrec her hcrc =>
      have hclose := @EthMacRx.Received.pushed_close _ _ pins _ _ _ hrec hstate her hcrc
      rw [queuing_step_idle hopened, hclose]
      simp only [queuing, judged, hended, queuedOf_some hframe, envelopeWords, hframe,
        List.flatMap_cons, List.flatMap_nil]
      split <;> simp

theorem pulses_step (hphase : bench.rx.Phase bench.opened bench.ended)
    (pins : EthMacRxIn) :
    (bench.step pins).rx.pulsesNow =
      (bench.judged pins).flatMap (framePulse params) := by
  change (bench.rx.clkEdge pins).pulsesNow = _
  generalize hopened : bench.opened = opened at hphase
  generalize hended : bench.ended = ended at hphase
  cases hphase with
  | idle hstate hnone =>
      rw [EthMacRx.pulsesNow_clkEdge_of_ne (by simp [hstate])]
      cases ended with
      | none => simp [judged, hended]
      | some last =>
          have hlast := hnone last.1 last.2 rfl
          simp [judged, hended, framePulse, hlast]
  | preamble hstate _ _ _ _ =>
      rw [EthMacRx.pulsesNow_clkEdge_of_ne (by simp [hstate])]
      simp [judged, hended]
  | data hstate _ _ _ _ =>
      rw [EthMacRx.pulsesNow_clkEdge_of_ne (by simp [hstate])]
      simp [judged, hended]
  | drop hstate _ _ =>
      rw [EthMacRx.pulsesNow_clkEdge_of_ne (by simp [hstate])]
      simp [judged, hended]
  | crcCheck hstate hframe hrec her hcrc =>
      rw [hrec.pulsesNow_close hstate hframe her hcrc]
      simp [judged, hended]

theorem Follows.step (hfollows : bench.Follows)
    (hlt : bench.rx.fifo.occ.toNat < 2 ^ params.axisFifoAddrWidth) (pins : EthMacRxIn) :
    (bench.step pins).Follows := by
  have hfits := EthMacRx.fits_of_occ_lt hlt pins
  refine ⟨hfollows.valid.clkEdge _ _ _, hfollows.phase.clkEdge hfits, ?_, ?_⟩
  · rw [sent_step hfollows.valid hlt, hfollows.sent, List.append_assoc,
      queuing_step hfollows.phase, ← List.append_assoc]
    change _ = (bench.closed ++ bench.judged pins).flatMap _ ++ _
    rw [List.flatMap_append]
  · change bench.pulses ++ bench.rx.pulsesNow ++ _ =
      (bench.closed ++ bench.judged pins).flatMap _
    rw [pulses_step hfollows.phase, hfollows.pulses, List.flatMap_append]

theorem follows_start (mem : BitVec params.axisFifoAddrWidth → MacWord)
    (doutR : MacWord) : (start mem doutR).Follows where
  valid := SyncFifo.valid_reset mem doutR
  phase := .idle rfl fun _ _ hended => nomatch hended
  sent := by
    simp [sent, start, EthMacRx.reset, queuing, queuedOf, payload]
  pulses := rfl

theorem follows_run (haddr : 2 ≤ params.axisFifoAddrWidth)
    (mem : BitVec params.axisFifoAddrWidth → MacWord) (doutR : MacWord)
    (cycles : List EthMacRxIn) :
    (runFrom step (start mem doutR) cycles).rx.Reserved ∧
      (runFrom step (start mem doutR) cycles).Follows := by
  apply @invariant_runFrom _ _ step fun bench => bench.rx.Reserved ∧ bench.Follows
  · rintro bench pins ⟨hres, hfollows⟩
    exact ⟨hres.clkEdge haddr pins, hfollows.step hres.occ_lt pins⟩
  · exact ⟨EthMacRx.reserved_reset haddr mem doutR, follows_start mem doutR⟩

end MacRxBench

end EmacZero
