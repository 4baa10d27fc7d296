/-
`mii_tx_saf`: the transmit path of the MII interface.  Frames from two
AXI-Stream ports are stored whole, then a framer on `mii_tx_clk` sends them a
nibble a cycle, with preamble, padding, FCS and the gap between frames.
-/
import EmacZero.Crc32
import EmacZero.PacketFifo

namespace EmacZero

/-- `{tlast, data}` -/
structure MiiTxWord where
  last : Bool
  data : BitVec 8
deriving Repr, DecidableEq

/-- The two AXI-Stream ports at a rising edge of `clk`. -/
structure MiiTxIn where
  sAxisTdata : BitVec 8
  sAxisTvalid : Bool
  sAxisTlast : Bool
  ctlAxisTdata : BitVec 8
  ctlAxisTvalid : Bool
  ctlAxisTlast : Bool
deriving Repr, DecidableEq

/-- How an edge of `mii_tx_clk` catches what comes from `clk`: `tx_start_ok`,
and the pointers and frame counters of the two FIFOs. -/
structure MiiTxCatch where
  txStartOk : Bool
  datSkew : Skew
  datLate : Bool
  ctlSkew : Skew
  ctlLate : Bool
deriving Repr, DecidableEq

inductive MiiTxState where
  | idle
  | pre
  | sfd
  | data
  | pad
  | fcs
  | ifg
deriving Repr, DecidableEq

/-- The registers of the framer. -/
structure MiiTxFramer where
  st : MiiTxState
  nib : Bool
  cur : BitVec 8
  cnt : BitVec 4
  dcnt : BitVec 14
  crc : BitVec 32
  crcSaved : BitVec 32
  curLast : Bool
  srcCtl : Bool
  rdEn : Bool
  miiTxdInt : BitVec 4
  miiTxEnInt : Bool
deriving Repr, DecidableEq

namespace MiiTxFramer

def preambleLen : Nat := 7
def minFrame : Nat := 60
def ifgBytes : Nat := 12

def reset : MiiTxFramer where
  st := .idle
  nib := false
  cur := 0
  cnt := 0
  dcnt := 0
  crc := crcStart
  crcSaved := 0
  curLast := false
  srcCtl := false
  rdEn := false
  miiTxdInt := 0
  miiTxEnInt := false

variable (framer : MiiTxFramer) (rdData : MiiTxWord)

/-- For the last data byte. -/
def crcFinal : BitVec 32 := ~~~crcStep framer.crc framer.cur

/-- For the last pad byte. -/
def crcPad0 : BitVec 32 := ~~~crcStep framer.crc 0x00

/-- S_IDLE; `ctlReady` and `datReady` offer a control frame and a data frame. -/
def idleEdge (ctlReady datReady : Bool) : MiiTxFramer :=
  let base := { framer with rdEn := false, miiTxEnInt := false, nib := false }
  if ctlReady || datReady then
    { base with srcCtl := ctlReady, st := .pre, cur := 0x55, cnt := 0 }
  else base

/-- What every cycle of the other states does: drive a nibble. -/
def nibbleEdge : MiiTxFramer :=
  { framer with
    rdEn := false
    miiTxdInt :=
      if framer.nib then framer.cur.extractLsb' 4 4 else framer.cur.extractLsb' 0 4
    miiTxEnInt := framer.st != .ifg
    nib := !framer.nib }

/-- S_PRE -/
def preEdge : MiiTxFramer :=
  if framer.cnt.toNat = preambleLen - 1 then
    { framer.nibbleEdge with st := .sfd, cur := 0xD5 }
  else { framer.nibbleEdge with cnt := framer.cnt + 1, cur := 0x55 }

/-- S_SFD: the first byte of the frame is on the read port. -/
def sfdEdge : MiiTxFramer :=
  { framer.nibbleEdge with
    st := .data
    cur := rdData.data
    curLast := rdData.last
    rdEn := true
    dcnt := 0
    crc := crcStart }

/-- S_DATA -/
def dataEdge : MiiTxFramer :=
  let base :=
    { framer.nibbleEdge with
      crc := crcStep framer.crc framer.cur
      dcnt := framer.dcnt + 1 }
  if framer.curLast then
    if framer.dcnt.toNat + 1 < minFrame then { base with st := .pad, cur := 0x00 }
    else
      { base with
        crcSaved := framer.crcFinal
        cur := framer.crcFinal.extractLsb' 0 8
        st := .fcs
        cnt := 0 }
  else { base with cur := rdData.data, curLast := rdData.last, rdEn := true }

/-- S_PAD -/
def padEdge : MiiTxFramer :=
  let base :=
    { framer.nibbleEdge with
      crc := crcStep framer.crc 0x00
      dcnt := framer.dcnt + 1 }
  if minFrame ≤ framer.dcnt.toNat + 1 then
    { base with
      crcSaved := framer.crcPad0
      cur := framer.crcPad0.extractLsb' 0 8
      st := .fcs
      cnt := 0 }
  else { base with cur := 0x00 }

/-- S_FCS -/
def fcsEdge : MiiTxFramer :=
  let base :=
    { framer.nibbleEdge with
      cur :=
        if framer.cnt = 0 then framer.crcSaved.extractLsb' 8 8
        else if framer.cnt = 1 then framer.crcSaved.extractLsb' 16 8
        else if framer.cnt = 2 then framer.crcSaved.extractLsb' 24 8
        else 0 }
  if framer.cnt = 3 then { base with st := .ifg, cnt := 0 }
  else { base with cnt := framer.cnt + 1 }

/-- S_IFG -/
def ifgEdge : MiiTxFramer :=
  if framer.cnt.toNat = ifgBytes - 1 then { framer.nibbleEdge with st := .idle }
  else { framer.nibbleEdge with cnt := framer.cnt + 1 }

/-- The cycle of the high nibble, where the next byte is chosen. -/
def byteEdge : MiiTxFramer :=
  match framer.st with
  | .idle => framer
  | .pre => framer.preEdge
  | .sfd => framer.sfdEdge rdData
  | .data => framer.dataEdge rdData
  | .pad => framer.padEdge
  | .fcs => framer.fcsEdge
  | .ifg => framer.ifgEdge

def edge (ctlReady datReady : Bool) : MiiTxFramer :=
  if framer.st = .idle then framer.idleEdge ctlReady datReady
  else if framer.nib then framer.byteEdge rdData
  else framer.nibbleEdge

/-- The end of the gap, where the frame is counted as sent. -/
def done : Bool :=
  framer.st == .ifg && framer.nib && framer.cnt.toNat == ifgBytes - 1

end MiiTxFramer

structure MiiTxSaf (addrWidth : Nat) extends MiiTxFramer where
  dropping : Bool
  frameBytes : BitVec 14
  dat : PacketFifo MiiTxWord addrWidth .distributed
  ctl : PacketFifo MiiTxWord 6 .distributed
  startOkS1 : Bool
  startOkS2 : Bool
  miiTxdIob : BitVec 4
  miiTxEnIob : Bool

namespace MiiTxSaf

variable {addrWidth : Nat}

/-- The memories and their read ports are not reset. -/
def reset (datMem : BitVec addrWidth → MiiTxWord) (ctlMem : BitVec 6 → MiiTxWord)
    (headQ : MiiTxWord) : MiiTxSaf addrWidth where
  toMiiTxFramer := .reset
  dropping := false
  frameBytes := 0
  dat := .reset datMem headQ
  ctl := .reset ctlMem headQ
  startOkS1 := false
  startOkS2 := false
  miiTxdIob := 0
  miiTxEnIob := false

section Wires

variable (maxFrame : Nat) (tx : MiiTxSaf addrWidth) (i : MiiTxIn)

/-- `OVERSIZE_LIMIT` has 14 bits. -/
def reachedLimit : Bool := tx.frameBytes == BitVec.ofNat 14 maxFrame - 1

def effLast : Bool := i.sAxisTlast || tx.reachedLimit maxFrame

def forcedCut : Bool := tx.reachedLimit maxFrame && !i.sAxisTlast

def wrAccept : Bool := i.sAxisTvalid && !tx.dat.wrFull && !tx.dropping

def sAxisTready : Bool := if tx.dropping then true else !tx.dat.wrFull

def ctlWrAccept : Bool := i.ctlAxisTvalid && !tx.ctl.wrFull

def ctlAxisTready : Bool := !tx.ctl.wrFull

/-- The word on the read port of the FIFO of the frame being sent. -/
def rdData : MiiTxWord := if tx.srcCtl then tx.ctl.rdData else tx.dat.rdData

def datRdEn : Bool := tx.rdEn && !tx.srcCtl

def ctlRdEn : Bool := tx.rdEn && tx.srcCtl

/-- A control frame may be started. -/
def ctlReady : Bool := tx.ctl.pending && !tx.ctl.rdEmpty

/-- A data frame may be started, if no control frame is. -/
def datReady : Bool := tx.dat.pending && !tx.dat.rdEmpty && tx.startOkS2

end Wires

/-- A rising edge of `clk`. -/
def clkEdge (maxFrame : Nat) (tx : MiiTxSaf addrWidth) (i : MiiTxIn)
    (datSkew ctlSkew : Skew) : MiiTxSaf addrWidth :=
  { tx with
    dropping :=
      if tx.dropping then !(i.sAxisTvalid && i.sAxisTlast)
      else tx.wrAccept i && tx.forcedCut maxFrame i
    frameBytes :=
      if tx.wrAccept i then
        if tx.effLast maxFrame i then 0 else tx.frameBytes + 1
      else tx.frameBytes
    dat := tx.dat.wrEdge (tx.wrAccept i) ⟨tx.effLast maxFrame i, i.sAxisTdata⟩
      (tx.effLast maxFrame i) datSkew
    ctl := tx.ctl.wrEdge (tx.ctlWrAccept i) ⟨i.ctlAxisTlast, i.ctlAxisTdata⟩
      i.ctlAxisTlast ctlSkew }

/-- A rising edge of `mii_tx_clk`. -/
def miiTxEdge (tx : MiiTxSaf addrWidth) (caught : MiiTxCatch) :
    MiiTxSaf addrWidth :=
  { tx with
    toMiiTxFramer := tx.toMiiTxFramer.edge tx.rdData tx.ctlReady tx.datReady
    dat := tx.dat.rdEdge tx.datRdEn (tx.done && !tx.srcCtl) caught.datSkew
      caught.datLate
    ctl := tx.ctl.rdEdge tx.ctlRdEn (tx.done && tx.srcCtl) caught.ctlSkew
      caught.ctlLate
    startOkS1 := caught.txStartOk
    startOkS2 := tx.startOkS1
    miiTxdIob := tx.miiTxdInt
    miiTxEnIob := tx.miiTxEnInt }

/-- What is on the MII pins: a nibble, while `mii_tx_en` is high. -/
def miiOut (tx : MiiTxSaf addrWidth) : Option (BitVec 4) :=
  if tx.miiTxEnIob then some tx.miiTxdIob else none

end MiiTxSaf

end EmacZero
