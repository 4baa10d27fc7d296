/-
The transmit half of `gmii_cdc`: data frames and control frames each go through a
FIFO of their own, every byte with its error flag and the last one marked, and are
sent on `media_clk` one frame at a time, paced by the speed and kept apart.
-/
import EmacZero.PacketFifo

namespace EmacZero

/-- `{er, eof, data}` -/
structure GmiiTxWord where
  er : Bool
  eof : Bool
  data : BitVec 8
deriving Repr, DecidableEq

/-- One of the two GMII inputs at a rising edge of `sys_clk`. -/
structure GmiiTxIn where
  txd : BitVec 8
  en : Bool
  er : Bool
deriving Repr, DecidableEq

/-- How an edge of `media_clk` catches what comes from `sys_clk`: the speed, the
hold, and the pointers and frame counters of the two FIFOs. -/
structure GmiiTxCatch where
  cfgSpeed : BitVec 2
  txHold : Bool
  datSkew : Skew
  datLate : Bool
  ctlSkew : Skew
  ctlLate : Bool
deriving Repr, DecidableEq

/-- The write side of one stream: a byte waits a cycle for its EOF bit.  `tx_valid_d1`
is the same register as `tx_en_d1`. -/
structure GmiiTxLane (addrWidth : Nat) (ramStyle : RamStyle) where
  enD1 : Bool
  dataD1 : BitVec 8
  erD1 : Bool
  packet : PacketFifo GmiiTxWord addrWidth ramStyle

namespace GmiiTxLane

variable {addrWidth : Nat} {ramStyle : RamStyle}

def reset (mem : BitVec addrWidth → GmiiTxWord) (headQ : GmiiTxWord) :
    GmiiTxLane addrWidth ramStyle where
  enD1 := false
  dataD1 := 0
  erD1 := false
  packet := .reset mem headQ

variable (lane : GmiiTxLane addrWidth ramStyle) (i : GmiiTxIn)

def enFall : Bool := lane.enD1 && !i.en

def wrData : GmiiTxWord := ⟨lane.erD1, lane.enFall i, lane.dataD1⟩

def wrAccept : Bool := lane.enD1 && !lane.packet.wrFull

def eofWr : Bool := lane.wrAccept && (lane.wrData i).eof

def fifoCount : BitVec (addrWidth + 1) := lane.packet.fifo.wrDataCount

/-- A rising edge of `sys_clk`. -/
def sysEdge (skew : Skew) : GmiiTxLane addrWidth ramStyle where
  enD1 := i.en
  dataD1 := i.txd
  erD1 := i.er
  packet := lane.packet.wrEdge lane.wrAccept (lane.wrData i) (lane.wrData i).eof skew

/-- A rising edge of `media_clk`. -/
def mediaEdge (rdEn done : Bool) (skew : Skew) (late : Bool) :
    GmiiTxLane addrWidth ramStyle :=
  { lane with packet := lane.packet.rdEdge rdEn done skew late }

end GmiiTxLane

/-- 00 and 11 are 1G, 01 is 100M and 10 is 10M. -/
def is1g (speed : BitVec 2) : Bool := speed == 0 || speed == 3

/-- A byte takes one cycle more than this. -/
def paceMax (speed : BitVec 2) : BitVec 10 :=
  if is1g speed then 0 else if speed == 1 then 9 else 99

/-- The start delay before each frame. -/
def txGap (speed : BitVec 2) : BitVec 11 :=
  if is1g speed then 10 else if speed == 1 then 120 else 1200

/-- The registers of the readout state machine. -/
structure GmiiTxReadout where
  gmiiTxdOut : BitVec 8
  gmiiTxEnOut : Bool
  gmiiTxErOut : Bool
  txRdEn : Bool
  txFrameLoaded : Bool
  txFrameEnd : Bool
  txStartDelay : BitVec 11
  txSelCtl : Bool
  paceCnt : BitVec 10
deriving Repr, DecidableEq

namespace GmiiTxReadout

def reset : GmiiTxReadout where
  gmiiTxdOut := 0
  gmiiTxEnOut := false
  gmiiTxErOut := false
  txRdEn := false
  txFrameLoaded := false
  txFrameEnd := false
  txStartDelay := 0
  txSelCtl := false
  paceCnt := 0

variable (tx : GmiiTxReadout) (speed : BitVec 2)

def paceTick : Bool := tx.paceCnt == 0

def paceAdvance : Bool := paceMax speed == 0 || tx.paceCnt == 1

/-- What every edge does first. -/
def tick : GmiiTxReadout :=
  { tx with
    txRdEn := false
    paceCnt := if tx.paceTick then paceMax speed else tx.paceCnt - 1 }

/-- No frame is loaded: pick the next one, a control frame first. -/
def pickEdge (ctlPending datPending hold : Bool) : GmiiTxReadout :=
  let base := { tx.tick speed with gmiiTxEnOut := false }
  if ctlPending || datPending && !hold then
    { base with
      txSelCtl := ctlPending
      txStartDelay := txGap speed
      txFrameLoaded := true
      paceCnt := paceMax speed }
  else base

/-- A data frame in its start gap gives way to a control frame or a hold. -/
def givesWay (ctlPending hold : Bool) : Bool :=
  decide (1 < tx.txStartDelay) && !tx.txSelCtl && (hold || ctlPending)

/-- The start gap; in its last cycle the first word is popped ahead. -/
def gapEdge (rdEmpty : Bool) : GmiiTxReadout :=
  let base :=
    { tx.tick speed with
      txStartDelay := tx.txStartDelay - 1
      gmiiTxEnOut := false }
  if tx.txStartDelay == 1 && !rdEmpty then { base with txRdEn := true, paceCnt := 0 }
  else base

/-- Behind the last byte: it is held for its time, then the frame is closed. -/
def endEdge : GmiiTxReadout :=
  if tx.paceTick then
    { tx.tick speed with
      txRdEn := !is1g speed
      gmiiTxEnOut := false
      txFrameLoaded := false
      txFrameEnd := false }
  else tx.tick speed

/-- The bytes of the frame. -/
def byteEdge (rdData : GmiiTxWord) (rdEmpty : Bool) : GmiiTxReadout :=
  if rdEmpty then tx.tick speed
  else
    let base :=
      if tx.paceTick then
        { tx.tick speed with
          gmiiTxdOut := rdData.data
          gmiiTxEnOut := true
          gmiiTxErOut := rdData.er
          txFrameEnd := if rdData.eof then true else tx.txFrameEnd }
      else tx.tick speed
    { base with txRdEn := tx.paceAdvance speed && !rdData.eof }

def edge (rdData : GmiiTxWord) (rdEmpty ctlPending datPending hold : Bool) :
    GmiiTxReadout :=
  if !tx.txFrameLoaded then tx.pickEdge speed ctlPending datPending hold
  else if tx.givesWay ctlPending hold then { tx.tick speed with txFrameLoaded := false }
  else if tx.txStartDelay != 0 then tx.gapEdge speed rdEmpty
  else if tx.txFrameEnd then tx.endEdge speed
  else tx.byteEdge speed rdData rdEmpty

/-- The end of a frame, where it is counted as read. -/
def done : Bool :=
  tx.txFrameLoaded && tx.txStartDelay == 0 && tx.txFrameEnd && tx.paceTick

/-- The last cycle of the start gap: the frame is sent now. -/
def starts : Bool := tx.txFrameLoaded && tx.txStartDelay == 1

/-- What the PHY interface takes from the outputs: a byte and its error flag while
`gmii_tx_en_out` is high. -/
def gmiiOut : Option (BitVec 8 × Bool) :=
  if tx.gmiiTxEnOut then some (tx.gmiiTxdOut, tx.gmiiTxErOut) else none

/-- `gmii_txd_out`, `gmii_tx_en_out` and `gmii_tx_er_out`. -/
def mediaPins : GmiiTxIn := ⟨tx.gmiiTxdOut, tx.gmiiTxEnOut, tx.gmiiTxErOut⟩

end GmiiTxReadout

structure GmiiCdcTx (ramStyle : RamStyle) extends GmiiTxReadout where
  dat : GmiiTxLane 14 ramStyle
  ctl : GmiiTxLane 7 .distributed
  cfgSpeedS1 : BitVec 2
  cfgSpeedS2 : BitVec 2
  txHoldS1 : Bool
  txHoldS2 : Bool

namespace GmiiCdcTx

variable {ramStyle : RamStyle}

/-- The memories and their read ports are not reset. -/
def reset (datMem : BitVec 14 → GmiiTxWord) (ctlMem : BitVec 7 → GmiiTxWord)
    (headQ : GmiiTxWord) : GmiiCdcTx ramStyle where
  toGmiiTxReadout := .reset
  dat := .reset datMem headQ
  ctl := .reset ctlMem headQ
  cfgSpeedS1 := 0
  cfgSpeedS2 := 0
  txHoldS1 := false
  txHoldS2 := false

/-- `TX_MAX_FRAME_BYTES` -/
def txMaxFrameBytes (maxFrame : Nat) : Nat := if 9018 < maxFrame then maxFrame else 9018

def txStartLimit (maxFrame : Nat) : BitVec 15 :=
  16383 - BitVec.ofNat 15 (txMaxFrameBytes maxFrame) - 13

section Wires

variable (tx : GmiiCdcTx ramStyle)

def txBusy (maxFrame : Nat) : Bool := decide (txStartLimit maxFrame < tx.dat.fifoCount)

def txCtlBusy : Bool := decide (55 < tx.ctl.fifoCount)

/-- The word on the read port of the FIFO of the frame being sent. -/
def txRdData : GmiiTxWord :=
  if tx.txSelCtl then tx.ctl.packet.rdData else tx.dat.packet.rdData

def txRdEmpty : Bool :=
  if tx.txSelCtl then tx.ctl.packet.rdEmpty else tx.dat.packet.rdEmpty

def txdRdEn : Bool := tx.txRdEn && !tx.txSelCtl

def ctlRdEn : Bool := tx.txRdEn && tx.txSelCtl

end Wires

/-- A rising edge of `sys_clk`. -/
def sysEdge (tx : GmiiCdcTx ramStyle) (dat ctl : GmiiTxIn) (datSkew ctlSkew : Skew) :
    GmiiCdcTx ramStyle :=
  { tx with
    dat := tx.dat.sysEdge dat datSkew
    ctl := tx.ctl.sysEdge ctl ctlSkew }

/-- A rising edge of `media_clk`. -/
def mediaEdge (tx : GmiiCdcTx ramStyle) (caught : GmiiTxCatch) : GmiiCdcTx ramStyle where
  toGmiiTxReadout :=
    tx.toGmiiTxReadout.edge tx.cfgSpeedS2 tx.txRdData tx.txRdEmpty tx.ctl.packet.pending
      tx.dat.packet.pending tx.txHoldS2
  dat := tx.dat.mediaEdge tx.txdRdEn (tx.done && !tx.txSelCtl) caught.datSkew
    caught.datLate
  ctl := tx.ctl.mediaEdge tx.ctlRdEn (tx.done && tx.txSelCtl) caught.ctlSkew
    caught.ctlLate
  cfgSpeedS1 := caught.cfgSpeed
  cfgSpeedS2 := tx.cfgSpeedS1
  txHoldS1 := caught.txHold
  txHoldS2 := tx.txHoldS1

end GmiiCdcTx

end EmacZero
