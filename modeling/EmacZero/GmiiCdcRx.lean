/-
The receive half of `gmii_cdc`: GMII beats on `media_rx_clk` go through an
asynchronous FIFO, each frame closed by an EOF word, and are replayed on
`sys_clk` once a toggle has announced that the frame is whole.
-/
import EmacZero.AsyncFifo
import EmacZero.RxWords

namespace EmacZero

variable {addrWidth : Nat} {ramStyle : RamStyle}

/-- One `media_rx_clk` cycle of the receive interface: `gmii_rx_dv_in` is the
frame envelope, and within it `gmii_rx_ce_in` strobes the bytes. -/
structure GmiiRxIn where
  dv : Bool
  ce : Bool
  er : Bool
  rxd : BitVec 8
deriving Repr, DecidableEq

/-- The registers of the readout state machine. -/
structure RxReadout where
  rxFrameDonePulse : Bool
  rxReading : Bool
  rxPendData : BitVec 8
  rxPendEr : Bool
  rxPendValid : Bool
  rxRdEn : Bool
  gmiiRxdOut : BitVec 8
  gmiiRxDvOut : Bool
  gmiiRxErOut : Bool
deriving Repr, DecidableEq

structure GmiiCdcRx (addrWidth : Nat) (ramStyle : RamStyle)
    extends RxReadout where
  rxWrData : RxWord
  rxWrEn : Bool
  rxDvD1 : Bool
  rxDrop : Bool
  rxErNoce : Bool
  rxDataRoom : Bool
  rxFrameToggle : Launched Bool
  rxFifo : AsyncFifo RxWord addrWidth ramStyle
  rxToggleS1 : Bool
  rxToggleS2 : Bool
  rxToggleS3 : Bool
  rxAvailDelay : BitVec 8
  rxFramesPending : BitVec (addrWidth + 1)

namespace GmiiCdcRx

def reset (mem : BitVec addrWidth → RxWord) (headQ : RxWord) :
    GmiiCdcRx addrWidth ramStyle where
  rxWrData := ⟨false, false, 0⟩
  rxWrEn := false
  rxDvD1 := false
  rxDrop := false
  rxErNoce := false
  rxDataRoom := true
  rxFrameToggle := .rest false
  rxFifo := .reset mem headQ
  rxToggleS1 := false
  rxToggleS2 := false
  rxToggleS3 := false
  rxAvailDelay := 0
  rxFramesPending := 0
  rxFrameDonePulse := false
  rxReading := false
  rxPendData := 0
  rxPendEr := false
  rxPendValid := false
  rxRdEn := false
  gmiiRxdOut := 0
  gmiiRxDvOut := false
  gmiiRxErOut := false

section Wires

variable (rx : GmiiCdcRx addrWidth ramStyle)

def rxWrIsEof : Bool := rx.rxWrData.eof

def rxWrAccept : Bool :=
  rx.rxWrEn &&
    (if rx.rxWrIsEof then !rx.rxFifo.wrFull else rx.rxDataRoom && !rx.rxDrop)

def rxDataRefuse : Bool := rx.rxWrEn && !rx.rxWrIsEof && !rx.rxWrAccept

def rxFifoDin : RxWord :=
  if rx.rxWrIsEof then
    ⟨true, rx.rxDrop || rx.rxDataRefuse || rx.rxWrData.err, 0⟩
  else rx.rxWrData

/-- The occupancy leaves a slot for the EOF word behind the write in flight. -/
def rxHasRoom : Bool :=
  decide (rx.rxFifo.wrDataCount < BitVec.ofNat (addrWidth + 1) (2 ^ addrWidth) - 2)

def rxFrameAvail : Bool := rx.rxToggleS2 != rx.rxToggleS3

def rxFrameAvailD : Bool := rx.rxAvailDelay.msb

/-- A retired frame is still counted while its done pulse is in flight. -/
def rxDoneInflight : BitVec (addrWidth + 1) :=
  (BitVec.ofBool rx.rxFrameDonePulse).setWidth (addrWidth + 1)

def rxFrameReady : Bool := decide (rx.rxDoneInflight < rx.rxFramesPending)

def rxNextReady : Bool := decide (rx.rxDoneInflight + 1 < rx.rxFramesPending)

end Wires

/-- A rising edge of `media_rx_clk`. -/
def mediaEdge (rx : GmiiCdcRx addrWidth ramStyle) (gmii : GmiiRxIn)
    (skew : Skew) : GmiiCdcRx addrWidth ramStyle :=
  { rx with
    rxDataRoom := rx.rxHasRoom
    rxDvD1 := gmii.dv
    rxDrop :=
      if rx.rxWrEn && rx.rxWrIsEof then false
      else if rx.rxDataRefuse then true
      else rx.rxDrop
    rxWrEn := if gmii.dv then gmii.ce else rx.rxDvD1
    rxWrData :=
      if gmii.dv then
        if gmii.ce then ⟨false, gmii.er, gmii.rxd⟩ else rx.rxWrData
      else if rx.rxDvD1 then ⟨true, rx.rxErNoce, 0⟩
      else rx.rxWrData
    rxErNoce :=
      if gmii.dv then
        if !gmii.ce && gmii.er then true else rx.rxErNoce
      else if rx.rxDvD1 then false
      else rx.rxErNoce
    rxFrameToggle :=
      if rx.rxWrAccept && rx.rxWrIsEof then
        rx.rxFrameToggle.drive (!rx.rxFrameToggle.now)
      else rx.rxFrameToggle
    rxFifo := rx.rxFifo.wrEdge rx.rxWrAccept rx.rxFifoDin skew }

/-- The readout state machine at one `sys_clk` edge. -/
def readout (rx : GmiiCdcRx addrWidth ramStyle) : RxReadout :=
  let idle : RxReadout :=
    { rx.toRxReadout with
      rxRdEn := false
      gmiiRxDvOut := false
      gmiiRxErOut := false
      rxFrameDonePulse := false }
  -- the held byte leaves when the word behind it is seen
  let release (err : Bool) : RxReadout :=
    if rx.rxPendValid then
      { idle with
        gmiiRxdOut := rx.rxPendData
        gmiiRxDvOut := true
        gmiiRxErOut := rx.rxPendEr || err }
    else idle
  let word := rx.rxFifo.rdData
  if rx.rxReading then
    if !rx.rxFifo.rdEmpty then
      if word.eof then
        { release word.err with
          rxFrameDonePulse := true
          rxPendValid := false
          rxRdEn := rx.rxNextReady
          rxReading := rx.rxNextReady }
      else
        { release false with
          rxPendData := word.data
          rxPendEr := word.err
          rxPendValid := true
          rxRdEn := true }
    else if !rx.rxFrameReady then { idle with rxReading := false }
    else idle
  else if rx.rxFrameReady && !rx.rxFifo.rdEmpty then
    { idle with rxReading := true, rxRdEn := true }
  else idle

/-- A rising edge of `sys_clk`; the frame toggle may be caught late. -/
def sysEdge (rx : GmiiCdcRx addrWidth ramStyle) (skew : Skew) (late : Bool) :
    GmiiCdcRx addrWidth ramStyle :=
  { rx with
    toRxReadout := rx.readout
    rxFrameToggle := rx.rxFrameToggle.settle
    rxToggleS1 := rx.rxFrameToggle.sample late
    rxToggleS2 := rx.rxToggleS1
    rxToggleS3 := rx.rxToggleS2
    rxAvailDelay := (rx.rxAvailDelay.setWidth 7).concat rx.rxFrameAvail
    rxFramesPending :=
      match rx.rxFrameAvailD, rx.rxFrameDonePulse with
      | true, false => rx.rxFramesPending + 1
      | false, true =>
          if rx.rxFramesPending != 0 then rx.rxFramesPending - 1
          else rx.rxFramesPending
      | _, _ => rx.rxFramesPending
    rxFifo := rx.rxFifo.rdEdge rx.rxRdEn skew }

/-- What the MAC samples from the receive outputs: a byte and its error flag
while `gmii_rx_dv_out` is high. -/
def gmiiRxOut (rx : GmiiCdcRx addrWidth ramStyle) : Option (BitVec 8 × Bool) :=
  if rx.gmiiRxDvOut then some (rx.gmiiRxdOut, rx.gmiiRxErOut) else none

end GmiiCdcRx

end EmacZero
