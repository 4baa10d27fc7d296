/-
`eth_mac_rx` with an observer at its pins, and what its registers know about the
envelope being received.
-/
import EmacZero.ClockedRun
import EmacZero.MacEnvelopes

namespace EmacZero

variable {params : EthMacRxParams}

/-- The receiver, the envelopes seen on its GMII pins, the words its stream has
handed over and the statistics pulses it has raised. -/
structure MacRxBench (params : EthMacRxParams) where
  rx : EthMacRx params
  opened : List RxBeat
  ended : Option (List RxBeat × EthMacRxIn)
  closed : List RxEnvelope
  taken : List MacWord
  pulses : List StatPulse

/-- The pulses that are up in this cycle. -/
def EthMacRx.pulsesNow (rx : EthMacRx params) : List StatPulse :=
  (if rx.statDone then [.done rx.toEthMacRxStat] else []) ++
    if rx.statDrop then [.drop] else []

namespace MacRxBench

def start (mem : BitVec params.axisFifoAddrWidth → MacWord) (doutR : MacWord) :
    MacRxBench params where
  rx := .reset mem doutR
  opened := []
  ended := none
  closed := []
  taken := []
  pulses := []

/-- The envelope judged in this cycle, if one ended in the last. -/
def judged (bench : MacRxBench params) (pins : EthMacRxIn) : List RxEnvelope :=
  match bench.ended with
  | none => []
  | some (beats, close) => [⟨beats, close, pins, bench.rx.csumBadNow⟩]

def step (bench : MacRxBench params) (pins : EthMacRxIn) : MacRxBench params where
  rx := bench.rx.clkEdge pins
  opened :=
    if pins.gmiiRxDv then bench.opened ++ [⟨pins, bench.rx.fifoRoom⟩] else []
  ended :=
    if pins.gmiiRxDv || bench.opened.isEmpty then none
    else some (bench.opened, pins)
  closed := bench.closed ++ bench.judged pins
  taken :=
    if bench.rx.mAxisTaken pins then bench.taken ++ [bench.rx.fifo.doutR]
    else bench.taken
  pulses := bench.pulses ++ bench.rx.pulsesNow

/-- The words queued so far: those handed over, those in the FIFO and the one on
its way into it. -/
def sent (bench : MacRxBench params) : List MacWord :=
  bench.taken ++ bench.rx.fifo.words ++
    if bench.rx.pushEnR then [bench.rx.pushR] else []

end MacRxBench

namespace EthMacRx

/-- The delay line, the youngest byte first. -/
def delayLine (rx : EthMacRx params) : List (BitVec 8) :=
  [rx.delayPipe5, rx.delayPipe4, rx.delayPipe3, rx.delayPipe2, rx.delayPipe1]

/-- The registers know this much of a frame. -/
structure Received (rx : EthMacRx params) (frame : List RxBeat) : Prop where
  byteCnt : rx.byteCnt.toNat = min frame.length 16383
  delayed : rx.delayLine = ((bytes frame).reverse ++ List.replicate 5 0).take 5
  destination : rx.dstMacCaptured = destination (bytes frame)
  macOk : rx.macOk = forStation params frame
  frameStarted : rx.frameStarted = started params frame
  overflow : rx.rxOverflowSeen = (started params frame && missed frame)
  isBcast : 6 ≤ frame.length → rx.isBcastR = isBroadcast (bytes frame)
  isMcast : 6 ≤ frame.length → rx.isMcastR = isMulticast (bytes frame)
  vlanTag : rx.vlanTag = vlanTagged (bytes frame)

variable {rx : EthMacRx params} {frame : List RxBeat}

namespace Received

variable (hrec : rx.Received frame)
include hrec

theorem byteCnt_beq {count : Nat} (hcount : count < 16383) :
    (rx.byteCnt == BitVec.ofNat 14 count) = decide (frame.length = count) := by
  have hbyteCnt := hrec.byteCnt
  rw [Bool.eq_iff_iff, beq_iff_eq, decide_eq_true_iff, ← BitVec.toNat_inj,
    BitVec.toNat_ofNat, Nat.mod_eq_of_lt (by omega)]
  omega

theorem six_ule : (6 : BitVec 14).ule rx.byteCnt = decide (6 ≤ frame.length) := by
  have hbyteCnt := hrec.byteCnt
  rw [BitVec.ule_eq_decide, Bool.eq_iff_iff, decide_eq_true_iff, decide_eq_true_iff,
    show (6 : BitVec 14).toNat = 6 from rfl]
  omega

theorem ult_six : rx.byteCnt.ult 6 = decide (frame.length < 6) := by
  have hbyteCnt := hrec.byteCnt
  rw [BitVec.ult_eq_decide, Bool.eq_iff_iff, decide_eq_true_iff, decide_eq_true_iff,
    show (6 : BitVec 14).toNat = 6 from rfl]
  omega

theorem macChk_eq (pins : EthMacRxIn) :
    rx.macChk pins = shiftMac (EmacZero.destination (bytes frame)) pins.gmiiRxd := by
  rw [macChk, hrec.destination]

theorem macPassNow_eq (pins : EthMacRxIn) :
    rx.macPassNow pins =
      filterPasses params pins
        (shiftMac (EmacZero.destination (bytes frame)) pins.gmiiRxd) := by
  rw [macPassNow, hrec.macChk_eq, filterPasses]
  generalize shiftMac (EmacZero.destination (bytes frame)) pins.gmiiRxd = mac
  cases hbroadcast : mac == broadcastMac <;> simp [bne, hbroadcast]

/-- The byte that the delay line gives out is the fifth youngest. -/
theorem delayPipe1_eq {late : RxBeat} (hlong : 5 ≤ frame.length)
    (hlate : frame[frame.length - 5]? = some late) : rx.delayPipe1 = late.data := by
  have hlast := congrArg (fun bytes => bytes[4]?) hrec.delayed
  have hrev : (bytes frame).reverse[4]? = some late.data := by
    rw [List.getElem?_reverse (by simp; omega), bytes, List.getElem?_map,
      List.length_map, show frame.length - 1 - 4 = frame.length - 5 by omega, hlate]
    rfl
  simp only [List.getElem?_take, show (4 : Nat) < 5 by decide, if_true] at hlast
  rw [List.getElem?_append_left (by simp; omega), hrev] at hlast
  simpa [delayLine] using hlast

theorem delayPipe5_eq {last : RxBeat} (hlast : frame.getLast? = some last) :
    rx.delayPipe5 = last.data := by
  obtain ⟨front, rfl⟩ := List.getLast?_eq_some_iff.mp hlast
  have hfirst := congrArg List.head? hrec.delayed
  simpa [delayLine] using hfirst

end Received

variable {pins : EthMacRxIn}

theorem clkEdge_data (hstate : rx.state = .data) (hdv : pins.gmiiRxDv = true)
    (hfits : rx.fifoOverflow pins = false) :
    (rx.clkEdge pins).toEthMacRxFrame =
      { rx.dataFrame pins with
        rxOverflowSeen := rx.dataDrop pins || rx.rxOverflowSeen } := by
  simp only [clkEdge, nextFrame, hstate, hdv, if_true, hfits, Bool.or_false]
  cases rx.dataDrop pins <;> rfl

namespace Received

variable (hrec : rx.Received frame)
include hrec

theorem sofNow_eq (hstate : rx.state = .data) (hdv : pins.gmiiRxDv = true) :
    rx.sofNow pins =
      (decide (frame.length = 5) && forStation params (frame ++ [⟨pins, rx.fifoRoom⟩])) := by
  have hfive := hrec.byteCnt_beq (show 5 < 16383 by decide)
  rw [show BitVec.ofNat 14 5 = 5 from rfl] at hfive
  rw [sofNow, hstate, hdv, hfive, hrec.macPassNow_eq]
  by_cases hlength : frame.length = 5
  · rw [forStation_sixth hlength]
    rfl
  · simp [hlength]

theorem dataNow_eq (hstate : rx.state = .data) (hdv : pins.gmiiRxDv = true) :
    rx.dataNow pins = (decide (6 ≤ frame.length) && started params frame) := by
  rw [dataNow, hstate, hdv, hrec.six_ule, hrec.macOk, hrec.frameStarted, started]
  simp [Bool.and_assoc]

theorem byteCnt_beat :
    (if rx.byteCnt != 0x3FFF then rx.byteCnt + 1 else rx.byteCnt).toNat =
      min (frame.length + 1) 16383 := by
  have hbyteCnt := hrec.byteCnt
  by_cases hfull : rx.byteCnt = 0x3FFF
  · have htop : (0x3FFF : BitVec 14).toNat = 16383 := rfl
    rw [hfull] at hbyteCnt
    simp only [hfull, bne_self_eq_false, Bool.false_eq_true, if_false, htop]
    omega
  · have hne : rx.byteCnt.toNat ≠ 16383 := by
      intro heq
      exact hfull (BitVec.eq_of_toNat_eq heq)
    have hone : (1 : BitVec 14).toNat = 1 := rfl
    rw [if_pos (by simpa using hfull), BitVec.toNat_add_of_lt (by omega), hone]
    omega

/-- One more byte of the frame. -/
theorem beat (hstate : rx.state = .data) (hdv : pins.gmiiRxDv = true)
    (hfits : rx.fifoOverflow pins = false) :
    (rx.clkEdge pins).Received (frame ++ [⟨pins, rx.fifoRoom⟩]) := by
  have hnext := clkEdge_data hstate hdv hfits
  have hfive := hrec.byteCnt_beq (show 5 < 16383 by decide)
  rw [show BitVec.ofNat 14 5 = 5 from rfl] at hfive
  have hdata : RxBeat.data ⟨pins, rx.fifoRoom⟩ = pins.gmiiRxd := rfl
  constructor
  · rw [congrArg EthMacRxFrame.byteCnt hnext, List.length_append, List.length_singleton]
    exact hrec.byteCnt_beat
  · have hdelayed := hrec.delayed
    simp only [delayLine, congrArg EthMacRxFrame.delayPipe5 hnext,
      congrArg EthMacRxFrame.delayPipe4 hnext, congrArg EthMacRxFrame.delayPipe3 hnext,
      congrArg EthMacRxFrame.delayPipe2 hnext, congrArg EthMacRxFrame.delayPipe1 hnext,
      dataFrame, bytes_concat, List.reverse_append, List.reverse_singleton] at hdelayed ⊢
    have htake := congrArg (List.take 4) hdelayed
    rw [List.take_take] at htake
    simpa [hdata] using htake
  · rw [congrArg EthMacRxFrame.dstMacCaptured hnext]
    simp only [dataFrame, hrec.ult_six, bytes_concat, hdata]
    by_cases hshort : frame.length < 6
    · simp [hshort, hrec.macChk_eq, destination_concat_short]
    · rw [destination_concat_long (by simpa using Nat.le_of_not_lt hshort)]
      simpa [hshort] using hrec.destination
  · rw [congrArg EthMacRxFrame.macOk hnext]
    simp only [dataFrame, hfive, hrec.macPassNow_eq]
    by_cases hlength : frame.length = 5
    · rw [forStation_sixth hlength]
      simp [hlength, hdata]
    · simp only [hlength, decide_false, Bool.false_eq_true, if_false, hrec.macOk]
      by_cases hlong : 6 ≤ frame.length
      · rw [forStation_concat hlong]
      · rw [forStation_short (by omega), forStation_short (by simp; omega)]
  · rw [congrArg EthMacRxFrame.frameStarted hnext]
    simp only [dataFrame, pushSof, hrec.sofNow_eq hstate hdv, hrec.frameStarted]
    by_cases hlength : frame.length = 5
    · simp [hlength, started, startRoom_sixth, forStation_short]
    · simp only [hlength, decide_false, Bool.false_and, Bool.false_eq_true, if_false]
      by_cases hlong : 6 ≤ frame.length
      · rw [started_concat hlong]
      · rw [started_short (by omega), started_short (by simp; omega)]
  · rw [congrArg EthMacRxFrame.rxOverflowSeen hnext]
    simp only [dataDrop, hrec.dataNow_eq hstate hdv, hrec.overflow]
    by_cases hlong : 6 ≤ frame.length
    · rw [started_concat hlong, missed_concat hlong]
      cases started params frame <;> simp [hlong, Bool.or_comm]
    · have hmissed : missed (frame ++ [⟨pins, rx.fifoRoom⟩]) = false :=
        missed_short (by rw [List.length_append, List.length_singleton]; omega)
      rw [started_short (by omega), hmissed, Bool.and_false]
      simp
  · intro hlong
    rw [congrArg EthMacRxFrame.isBcastR hnext]
    simp only [dataFrame, hfive, hrec.macChk_eq, bytes_concat, hdata, isBroadcast]
    by_cases hlength : frame.length = 5
    · rw [destination_concat_short (by simp [hlength])]
      simp [hlength]
    · simp only [List.length_append, List.length_singleton] at hlong
      rw [destination_concat_long (by simp; omega)]
      simpa [hlength, isBroadcast] using hrec.isBcast (by omega)
  · intro hlong
    rw [congrArg EthMacRxFrame.isMcastR hnext]
    simp only [dataFrame, hfive, hrec.macChk_eq, bytes_concat, hdata, isMulticast]
    by_cases hlength : frame.length = 5
    · rw [destination_concat_short (by simp [hlength])]
      simp [hlength]
    · simp only [List.length_append, List.length_singleton] at hlong
      rw [destination_concat_long (by simp; omega)]
      simpa [hlength, isMulticast] using hrec.isMcast (by omega)
  · have hthirteen := hrec.byteCnt_beq (show 13 < 16383 by decide)
    rw [show BitVec.ofNat 14 13 = 13 from rfl] at hthirteen
    rw [congrArg EthMacRxFrame.vlanTag hnext]
    simp only [dataFrame, hthirteen, bytes_concat, hdata, hrec.vlanTag]
    rcases Nat.lt_trichotomy frame.length 13 with hlt | heq | hgt
    · rw [vlanTagged_short (by simp; omega), vlanTagged_short (by simp; omega)]
      simp [hlt.ne]
    · have hne : frame ≠ [] := by
        rintro rfl
        simp at heq
      obtain ⟨last, hlast⟩ : ∃ last, frame.getLast? = some last :=
        ⟨_, List.getLast?_eq_some_getLast hne⟩
      have htwelfth : (bytes frame)[12]? = some last.data := by
        rw [List.getLast?_eq_getElem?, heq] at hlast
        simp [bytes, hlast]
      rw [vlanTagged_fourteenth (by simpa using heq) htwelfth, hrec.delayPipe5_eq hlast]
      simp [heq]
    · rw [vlanTagged_concat (by simp; omega)]
      simp [hgt.ne']

end Received

/-! The slots held back in the FIFO. -/

/-- The FIFO always has two slots to spare, and one more while a started frame
still needs its closing word. -/
structure Reserved (rx : EthMacRx params) : Prop where
  valid : rx.fifo.Valid
  spare : rx.fifo.occ.toNat + rx.pushEnR.toNat + 2 ≤ 2 ^ params.axisFifoAddrWidth
  closing : rx.frameStarted = true →
    rx.fifo.occ.toNat + rx.pushEnR.toNat + 3 ≤ 2 ^ params.axisFifoAddrWidth

theorem reserved_reset (haddr : 2 ≤ params.axisFifoAddrWidth)
    (mem : BitVec params.axisFifoAddrWidth → MacWord) (doutR : MacWord) :
    (reset mem doutR).Reserved := by
  have hdepth : 2 ^ 2 ≤ 2 ^ params.axisFifoAddrWidth :=
    Nat.pow_le_pow_right (by decide) haddr
  have hempty : (SyncFifo.reset mem doutR).occ.toNat = 0 := by
    simp [SyncFifo.occ, SyncFifo.reset]
  refine ⟨SyncFifo.valid_reset mem doutR, ?_, ?_⟩
  · simp only [reset, hempty, Bool.toNat_false]
    omega
  · intro hstarted
    simp [reset] at hstarted

theorem fifoHwm_toNat (haddr : 2 ≤ params.axisFifoAddrWidth) :
    (fifoHwm params).toNat + 4 = 2 ^ params.axisFifoAddrWidth := by
  have hpow : 2 ^ (params.axisFifoAddrWidth + 1) = 2 * 2 ^ params.axisFifoAddrWidth :=
    Nat.pow_succ'
  have hdepth : 2 ^ 2 ≤ 2 ^ params.axisFifoAddrWidth :=
    Nat.pow_le_pow_right (by decide) haddr
  have hfour : (BitVec.ofNat (params.axisFifoAddrWidth + 1) 4).toNat = 4 := by
    rw [BitVec.toNat_ofNat, Nat.mod_eq_of_lt (by omega)]
  have hfull : (BitVec.ofNat (params.axisFifoAddrWidth + 1)
      (2 ^ params.axisFifoAddrWidth)).toNat = 2 ^ params.axisFifoAddrWidth := by
    rw [BitVec.toNat_ofNat, Nat.mod_eq_of_lt (by omega)]
  rw [fifoHwm, BitVec.toNat_sub_of_le (by rw [BitVec.le_def]; omega), hfour, hfull]
  omega

theorem fifoRoom_iff (haddr : 2 ≤ params.axisFifoAddrWidth) :
    rx.fifoRoom = true ↔ rx.fifo.occ.toNat + 4 < 2 ^ params.axisFifoAddrWidth := by
  have hhwm := fifoHwm_toNat haddr
  rw [fifoRoom, BitVec.ult_eq_decide, decide_eq_true_iff]
  omega

/-- Room is a free slot, whatever the width. -/
theorem occ_lt_of_fifoRoom (hroom : rx.fifoRoom = true) :
    rx.fifo.occ.toNat < 2 ^ params.axisFifoAddrWidth := by
  have hhwm : (fifoHwm params).toNat ≤ 2 ^ params.axisFifoAddrWidth := by
    by_cases haddr : 2 ≤ params.axisFifoAddrWidth
    · have := fifoHwm_toNat haddr
      omega
    · have hsmall : params.axisFifoAddrWidth = 0 ∨ params.axisFifoAddrWidth = 1 := by
        omega
      rw [fifoHwm]
      rcases hsmall with hzero | hone
      · rw [hzero]
        decide
      · rw [hone]
        decide
  rw [fifoRoom, BitVec.ult_eq_decide, decide_eq_true_iff] at hroom
  omega

theorem fits_of_occ_lt (hlt : rx.fifo.occ.toNat < 2 ^ params.axisFifoAddrWidth)
    (pins : EthMacRxIn) : rx.fifoOverflow pins = false := by
  rw [fifoOverflow, SyncFifo.wrOverflow, SyncFifo.pushOk_of_room hlt]
  cases rx.pushEnR <;> rfl

theorem Reserved.occ_lt (hres : rx.Reserved) :
    rx.fifo.occ.toNat < 2 ^ params.axisFifoAddrWidth := by
  have hspare := hres.spare
  omega

/-- A write is never refused. -/
theorem Reserved.fits (hres : rx.Reserved) (pins : EthMacRxIn) :
    rx.fifoOverflow pins = false :=
  fits_of_occ_lt hres.occ_lt pins

theorem frameStarted_clkEdge (hstarted : (rx.clkEdge pins).frameStarted = true) :
    rx.closeNow = false ∧ (rx.pushSof pins = true ∨ rx.frameStarted = true) := by
  cases hstate : rx.state <;> cases hdv : pins.gmiiRxDv <;>
    cases hsof : rx.pushSof pins <;>
    simp_all [clkEdge, nextFrame, startFrame, preambleFrame, dataFrame, endFrame,
      dropFrame, closeNow]

/-- Data words leave room for the closing word, which takes it. -/
theorem Reserved.clkEdge (haddr : 2 ≤ params.axisFifoAddrWidth) (hres : rx.Reserved)
    (pins : EthMacRxIn) : (rx.clkEdge pins).Reserved := by
  have hspare := hres.spare
  have hocc : (rx.clkEdge pins).fifo.occ.toNat ≤
      rx.fifo.occ.toNat + rx.pushEnR.toNat := by
    rw [EthMacRx.clkEdge, SyncFifo.occ_clkEdge hres.valid,
      SyncFifo.pushOk_of_room (by omega)]
    omega
  have hpushed : (rx.clkEdge pins).pushEnR = rx.pushEn pins := rfl
  have hold : rx.pushEnR.toNat ≤ 1 := Bool.toNat_le _
  have hroom : rx.closeNow = false → rx.pushEn pins = true →
      rx.fifo.occ.toNat + 4 < 2 ^ params.axisFifoAddrWidth := by
    intro hclose hpush
    rw [← fifoRoom_iff haddr]
    simp only [pushEn, hclose, Bool.or_false, Bool.or_eq_true, Bool.and_eq_true] at hpush
    rcases hpush with hsof | hdata
    · exact hsof.2
    · exact hdata.2
  refine ⟨hres.valid.clkEdge _ _ _, ?_, ?_⟩
  · rw [hpushed]
    cases hpush : rx.pushEn pins with
    | false =>
        simp only [Bool.toNat_false]
        omega
    | true =>
        cases hclose : rx.closeNow with
        | false =>
            have hleft := hroom hclose hpush
            simp only [Bool.toNat_true]
            omega
        | true =>
            have hstarted : rx.frameStarted = true := by
              simp only [closeNow, Bool.and_eq_true] at hclose
              exact hclose.2
            have hleft := hres.closing hstarted
            simp only [Bool.toNat_true]
            omega
  · intro hstarted
    obtain ⟨hclose, hsince⟩ := frameStarted_clkEdge hstarted
    rw [hpushed]
    cases hpush : rx.pushEn pins with
    | false =>
        have hsof : rx.pushSof pins = false := by
          simp only [pushEn, Bool.or_eq_false_iff] at hpush
          exact hpush.1.1
        have hleft := hres.closing (hsince.resolve_left (by simp [hsof]))
        simp only [Bool.toNat_false]
        omega
    | true =>
        have hleft := hroom hclose hpush
        simp only [Bool.toNat_true]
        omega

end EthMacRx

end EmacZero
