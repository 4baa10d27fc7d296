/-
The receive path of `mii_if`: nibbles on `mii_rx_clk` are paired into bytes and
go through a FIFO, each frame closed by an EOF word; on `clk` a frame is loaded
into a frame memory once it is known to be whole, and replayed from there.

The FIFO is a parameter: `async_fifo`, or the vendor FIFO that Xilinx builds
use in its place.
-/
import EmacZero.BoundedFifo
import EmacZero.FrameCount
import EmacZero.RxWords

namespace EmacZero

universe u

variable {Q : Type u}

/-- The MII receive pins at one `mii_rx_clk` edge. -/
structure MiiRxIn where
  dv : Bool
  er : Bool
  rxd : BitVec 4
deriving Repr, DecidableEq

inductive RxReplayState where
  | idle
  | load
  | prime
  | wait
  | send
deriving Repr, DecidableEq

/-- The registers of the replay state machine, with the frame memory. -/
structure MiiRxReplay where
  gmiiRxd : BitVec 8
  gmiiRxDv : Bool
  gmiiRxEr : Bool
  rxRdEn : Bool
  rxMemWrEn : Bool
  rxMemWrAddr : BitVec 12
  rxMemWrData : RxByte
  rxReplayState : RxReplayState
  rxLoadWait : Bool
  rxLoadCount : BitVec 16
  rxReplayLen : BitVec 16
  rxReplayIndex : BitVec 16
  rxReplayEofEr : Bool
  rxMemRdAddr : BitVec 16
  rxMemRdData : RxByte
  rxFrameDonePulse : Bool
  rxFrameMem : BitVec 12 → RxByte
  rxFrameMemDoutR : RxByte

structure MiiIfRx (Q : Type u) extends MiiRxReplay where
  miiRxdIob : BitVec 4
  miiRxDvIob : Bool
  miiRxErIob : Bool
  rxNibSel : Bool
  rxNibLow : BitVec 4
  rxErLow : Bool
  rxSfdSeen : Bool
  rxDvD1 : Bool
  rxWrData : RxWord
  rxWrEn : Bool
  rxFifoFullSeen : Bool
  rxFrameCount : FrameCount 4
  rxFifo : Q

namespace MiiIfRx

/-- The memories are not reset. -/
def reset (fifo : Q) (mem : BitVec 12 → RxByte) (dout : RxByte) :
    MiiIfRx Q where
  gmiiRxd := 0
  gmiiRxDv := false
  gmiiRxEr := false
  rxRdEn := false
  rxMemWrEn := false
  rxMemWrAddr := 0
  rxMemWrData := (0, false)
  rxReplayState := .idle
  rxLoadWait := false
  rxLoadCount := 0
  rxReplayLen := 0
  rxReplayIndex := 0
  rxReplayEofEr := false
  rxMemRdAddr := 0
  rxMemRdData := (0, false)
  rxFrameDonePulse := false
  rxFrameMem := mem
  rxFrameMemDoutR := dout
  miiRxdIob := 0
  miiRxDvIob := false
  miiRxErIob := false
  rxNibSel := false
  rxNibLow := 0
  rxErLow := false
  rxSfdSeen := false
  rxDvD1 := false
  rxWrData := ⟨false, false, 0⟩
  rxWrEn := false
  rxFifoFullSeen := false
  rxFrameCount := .reset
  rxFifo := fifo

section Wires

variable (ports : FifoPorts RxWord Q) (rx : MiiIfRx Q)

def rxSfdNow : Bool :=
  !rx.rxSfdSeen && rx.miiRxdIob == 0xD && rx.rxNibLow == 0x5

def rxByteNow : Bool := rx.rxNibSel || rx.rxSfdNow

def rxFullWrite : Bool := rx.rxWrEn && ports.wrFull rx.rxFifo

def rxWrAccept : Bool := rx.rxWrEn && !ports.wrFull rx.rxFifo

def rxFramePendingSys : Bool := rx.rxFrameCount.pending

def rxRdWordValid : Bool := !ports.rdEmpty rx.rxFifo

def rxMemRdEn : Bool :=
  match rx.rxReplayState with
  | .prime => true
  | .wait => decide (1 < rx.rxReplayLen)
  | .send => decide (rx.rxReplayIndex + 2 < rx.rxReplayLen)
  | _ => false

def rxMemRdAddrReg : BitVec 12 :=
  match rx.rxReplayState with
  | .prime => 0
  | .wait => 1
  | _ => rx.rxMemRdAddr.setWidth 12

end Wires

/-- A rising edge of `mii_rx_clk`: the pins go into the input registers, the
registered nibble into the pairing, and the paired word into the FIFO. -/
def miiRxEdge (ports : FifoPorts RxWord Q) (rx : MiiIfRx Q) (mii : MiiRxIn)
    (skew : Skew) : MiiIfRx Q :=
  { rx with
    miiRxdIob := mii.rxd
    miiRxDvIob := mii.dv
    miiRxErIob := mii.er
    rxNibSel := rx.miiRxDvIob && !rx.rxByteNow
    rxNibLow := if rx.miiRxDvIob then rx.miiRxdIob else 0
    rxErLow := rx.miiRxDvIob && rx.miiRxErIob
    rxSfdSeen := rx.miiRxDvIob && (rx.rxSfdNow || rx.rxSfdSeen)
    rxDvD1 := rx.miiRxDvIob
    rxWrEn := if rx.miiRxDvIob then rx.rxByteNow else rx.rxDvD1
    rxWrData :=
      if rx.miiRxDvIob then
        if rx.rxByteNow then
          ⟨false, rx.rxErLow || rx.miiRxErIob || rx.rxFifoFullSeen ||
            rx.rxFullWrite ports, rx.miiRxdIob ++ rx.rxNibLow⟩
        else rx.rxWrData
      else if rx.rxDvD1 then
        ⟨true, rx.rxFifoFullSeen || rx.rxFullWrite ports ||
          (rx.rxNibSel && rx.rxErLow), 0⟩
      else rx.rxWrData
    rxFifoFullSeen :=
      if !rx.miiRxDvIob && rx.rxDvD1 then false
      else rx.rxFullWrite ports || rx.rxFifoFullSeen
    rxFrameCount :=
      rx.rxFrameCount.wrEdge (rx.rxWrAccept ports && rx.rxWrData.eof)
    rxFifo := ports.wrEdge rx.rxFifo (rx.rxWrAccept ports) rx.rxWrData skew }

/-- The values that the states of the replay machine start from: no strobe,
and the frame memory doing what it was told at the last edge. -/
@[simps rxRdEn rxMemWrEn gmiiRxDv gmiiRxEr rxFrameDonePulse rxReplayState
  rxLoadWait rxLoadCount rxReplayLen rxReplayIndex rxReplayEofEr rxMemRdAddr]
def replayDefaults (rx : MiiIfRx Q) : MiiRxReplay :=
  { rx.toMiiRxReplay with
    rxRdEn := false
    rxMemWrEn := false
    gmiiRxDv := false
    gmiiRxEr := false
    rxFrameDonePulse := false
    rxFrameMem :=
      if rx.rxMemWrEn then
        Function.update rx.rxFrameMem rx.rxMemWrAddr rx.rxMemWrData
      else rx.rxFrameMem
    rxFrameMemDoutR :=
      if rx.rxMemRdEn then rx.rxFrameMem rx.rxMemRdAddrReg
      else rx.rxFrameMemDoutR }

/-- The replay state machine at one `clk` edge. -/
def replayStep (ports : FifoPorts RxWord Q) (rx : MiiIfRx Q) : MiiRxReplay :=
  let rest := rx.replayDefaults
  match rx.rxReplayState with
  | .idle =>
      { rest with
        rxLoadWait := false
        rxLoadCount := 0
        rxReplayState :=
          if rx.rxFramePendingSys && rx.rxRdWordValid ports then .load
          else .idle }
  | .load =>
      let word := ports.rdData rx.rxFifo
      if rx.rxLoadWait then { rest with rxLoadWait := false }
      else if rx.rxRdWordValid ports then
        if word.eof then
          { rest with
            rxRdEn := true
            rxLoadWait := true
            rxFrameDonePulse := true
            rxReplayLen := rx.rxLoadCount
            rxReplayEofEr := word.err
            rxMemRdAddr := 0
            rxReplayIndex := 0
            rxReplayState := if rx.rxLoadCount != 0 then .prime else .idle }
        else
          { rest with
            rxRdEn := true
            rxLoadWait := true
            rxMemWrEn := true
            rxMemWrAddr := rx.rxLoadCount.setWidth 12
            rxMemWrData := (word.data, word.err)
            rxLoadCount := rx.rxLoadCount + 1 }
      else rest
  | .prime =>
      { rest with
        rxMemRdAddr := 1
        rxReplayIndex := 0
        rxReplayState := .wait }
  | .wait =>
      { rest with
        rxMemRdData := rx.rxFrameMemDoutR
        rxMemRdAddr := if 1 < rx.rxReplayLen then 2 else rx.rxMemRdAddr
        rxReplayState := .send }
  | .send =>
      let last := decide (rx.rxReplayLen ≤ rx.rxReplayIndex + 1)
      { rest with
        gmiiRxd := rx.rxMemRdData.1
        gmiiRxEr := rx.rxMemRdData.2 || (rx.rxReplayEofEr && last)
        gmiiRxDv := true
        rxReplayState := if last then .idle else .send
        rxMemRdData := if last then rx.rxMemRdData else rx.rxFrameMemDoutR
        rxMemRdAddr :=
          if !last && decide (rx.rxReplayIndex + 2 < rx.rxReplayLen) then
            rx.rxMemRdAddr + 1
          else rx.rxMemRdAddr
        rxReplayIndex :=
          if last then rx.rxReplayIndex else rx.rxReplayIndex + 1 }

/-- A rising edge of `clk`; the frame count may be caught late. -/
def clkEdge (ports : FifoPorts RxWord Q) (rx : MiiIfRx Q) (skew : Skew)
    (late : Bool) : MiiIfRx Q :=
  { rx with
    toMiiRxReplay := rx.replayStep ports
    rxFrameCount := rx.rxFrameCount.rdEdge rx.rxFrameDonePulse late
    rxFifo := ports.rdEdge rx.rxFifo rx.rxRdEn skew }

/-- What the MAC samples from the receive outputs. -/
def gmiiRxOut (rx : MiiIfRx Q) : Option RxByte :=
  if rx.gmiiRxDv then some (rx.gmiiRxd, rx.gmiiRxEr) else none

section Replay

variable {ports : FifoPorts RxWord Q} {rx : MiiIfRx Q}

theorem frameMem_of_not_wrEn (hwrEn : rx.rxMemWrEn = false) :
    rx.replayDefaults.rxFrameMem = rx.rxFrameMem :=
  if_neg (by simp [hwrEn])

theorem frameMem_of_wrEn (hwrEn : rx.rxMemWrEn = true) :
    rx.replayDefaults.rxFrameMem =
      Function.update rx.rxFrameMem rx.rxMemWrAddr rx.rxMemWrData :=
  if_pos hwrEn

theorem frameMemDoutR_of_rdEn (hrdEn : rx.rxMemRdEn = true) :
    rx.replayDefaults.rxFrameMemDoutR = rx.rxFrameMem rx.rxMemRdAddrReg :=
  if_pos hrdEn

theorem replayStep_idle (hstate : rx.rxReplayState = .idle) :
    rx.replayStep ports =
      { rx.replayDefaults with
        rxLoadWait := false
        rxLoadCount := 0
        rxReplayState :=
          if rx.rxFramePendingSys && rx.rxRdWordValid ports then .load
          else .idle } := by
  simp only [replayStep, hstate]

/-- The cycle after a pop, in which the FIFO still shows the popped word. -/
theorem replayStep_loadWait (hstate : rx.rxReplayState = .load)
    (hwait : rx.rxLoadWait = true) :
    rx.replayStep ports = { rx.replayDefaults with rxLoadWait := false } := by
  simp only [replayStep, hstate, hwait, if_true]

theorem replayStep_loadEmpty (hstate : rx.rxReplayState = .load)
    (hwait : rx.rxLoadWait = false) (hvalid : rx.rxRdWordValid ports = false) :
    rx.replayStep ports = rx.replayDefaults := by
  simp [replayStep, hstate, hwait, hvalid]

theorem replayStep_loadEof (hstate : rx.rxReplayState = .load)
    (hwait : rx.rxLoadWait = false) (hvalid : rx.rxRdWordValid ports = true)
    (heof : (ports.rdData rx.rxFifo).eof = true) :
    rx.replayStep ports =
      { rx.replayDefaults with
        rxRdEn := true
        rxLoadWait := true
        rxFrameDonePulse := true
        rxReplayLen := rx.rxLoadCount
        rxReplayEofEr := (ports.rdData rx.rxFifo).err
        rxMemRdAddr := 0
        rxReplayIndex := 0
        rxReplayState := if rx.rxLoadCount != 0 then .prime else .idle } := by
  simp [replayStep, hstate, hwait, hvalid, heof]

theorem replayStep_loadByte (hstate : rx.rxReplayState = .load)
    (hwait : rx.rxLoadWait = false) (hvalid : rx.rxRdWordValid ports = true)
    (heof : (ports.rdData rx.rxFifo).eof = false) :
    rx.replayStep ports =
      { rx.replayDefaults with
        rxRdEn := true
        rxLoadWait := true
        rxMemWrEn := true
        rxMemWrAddr := rx.rxLoadCount.setWidth 12
        rxMemWrData :=
          ((ports.rdData rx.rxFifo).data, (ports.rdData rx.rxFifo).err)
        rxLoadCount := rx.rxLoadCount + 1 } := by
  simp [replayStep, hstate, hwait, hvalid, heof]

theorem replayStep_prime (hstate : rx.rxReplayState = .prime) :
    rx.replayStep ports =
      { rx.replayDefaults with
        rxMemRdAddr := 1
        rxReplayIndex := 0
        rxReplayState := .wait } := by
  simp only [replayStep, hstate]

theorem replayStep_wait (hstate : rx.rxReplayState = .wait) :
    rx.replayStep ports =
      { rx.replayDefaults with
        rxMemRdData := rx.rxFrameMemDoutR
        rxMemRdAddr := if 1 < rx.rxReplayLen then 2 else rx.rxMemRdAddr
        rxReplayState := .send } := by
  simp only [replayStep, hstate]

/-- The index of a frame that is being replayed does not wrap. -/
theorem index_add_one {index len : BitVec 16} (hlt : index.toNat < len.toNat) :
    (index + 1).toNat = index.toNat + 1 := by
  have hlen := len.isLt
  have hone : (1 : BitVec 16).toNat = 1 := rfl
  rw [BitVec.toNat_add, hone]
  omega

theorem replayStep_sendLast (hstate : rx.rxReplayState = .send)
    (hlast : rx.rxReplayIndex.toNat + 1 = rx.rxReplayLen.toNat) :
    rx.replayStep ports =
      { rx.replayDefaults with
        gmiiRxd := rx.rxMemRdData.1
        gmiiRxEr := rx.rxMemRdData.2 || rx.rxReplayEofEr
        gmiiRxDv := true
        rxReplayState := .idle } := by
  have hlt : rx.rxReplayIndex.toNat < rx.rxReplayLen.toNat := by omega
  have hle : rx.rxReplayLen ≤ rx.rxReplayIndex + 1 := by
    rw [BitVec.le_def, index_add_one hlt, hlast]
  simp only [replayStep, hstate, hle, decide_true, Bool.and_true, if_true,
    Bool.not_true, Bool.false_and, Bool.false_eq_true, if_false]
  rfl

theorem replayStep_sendMore (hstate : rx.rxReplayState = .send)
    (hmore : rx.rxReplayIndex.toNat + 1 < rx.rxReplayLen.toNat) :
    rx.replayStep ports =
      { rx.replayDefaults with
        gmiiRxd := rx.rxMemRdData.1
        gmiiRxEr := rx.rxMemRdData.2
        gmiiRxDv := true
        rxMemRdData := rx.rxFrameMemDoutR
        rxMemRdAddr :=
          if rx.rxReplayIndex + 2 < rx.rxReplayLen then rx.rxMemRdAddr + 1
          else rx.rxMemRdAddr
        rxReplayIndex := rx.rxReplayIndex + 1
        rxReplayState := .send } := by
  have hlt : rx.rxReplayIndex.toNat < rx.rxReplayLen.toNat := by omega
  have hle : ¬ rx.rxReplayLen ≤ rx.rxReplayIndex + 1 := by
    rw [BitVec.le_def, index_add_one hlt]
    omega
  simp only [replayStep, hstate, hle, decide_false, Bool.and_false,
    Bool.or_false, Bool.false_eq_true, if_false, Bool.not_false,
    Bool.true_and, decide_eq_true_eq]

end Replay

end MiiIfRx

end EmacZero
