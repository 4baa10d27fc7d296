/-
`eth_mac_tx`: the transmit path of the MAC.  It adds preamble and SFD, pads to the
minimum length, appends the FCS and keeps the gap between frames.
-/
import EmacZero.Crc32
import EmacZero.Envelopes

namespace EmacZero

/-- The inputs of `eth_mac_tx` in one cycle. -/
structure EthMacTxIn where
  sAxisTdata : BitVec 8
  sAxisTvalid : Bool
  sAxisTlast : Bool
  txStartOk : Bool
deriving Repr, DecidableEq

inductive EthMacTxState where
  | idle
  | preamble
  | sfd
  | data
  | pad
  | crc
  | ifg
deriving Repr, DecidableEq

structure EthMacTx where
  state : EthMacTxState
  count : BitVec 4
  dataCnt : BitVec 14
  stallCnt : BitVec 4
  gmiiTxd : BitVec 8
  gmiiTxEn : Bool
  gmiiTxEr : Bool
  sAxisTready : Bool
  txActive : Bool
  crcSaved : BitVec 32
  crcAccum : BitVec 32
  frameEnded : Bool
  firstData : BitVec 8
  firstLast : Bool
  haveFirst : Bool
deriving Repr, DecidableEq

namespace EthMacTx

def preambleLen : Nat := 7
def minFrame : Nat := 60
def ifgBytes : Nat := 12

def reset : EthMacTx where
  state := .idle
  count := 0
  dataCnt := 0
  stallCnt := 0
  gmiiTxd := 0
  gmiiTxEn := false
  gmiiTxEr := false
  sAxisTready := false
  txActive := false
  crcSaved := 0
  crcAccum := crcStart
  frameEnded := false
  firstData := 0
  firstLast := false
  haveFirst := false

variable (maxFrame : Nat) (tx : EthMacTx) (i : EthMacTxIn)

/-- What every cycle starts from. -/
def cycleDefaults : EthMacTx :=
  { tx with sAxisTready := false, gmiiTxEr := false }

/-- S_IDLE -/
def idleEdge : EthMacTx :=
  let base :=
    { tx.cycleDefaults with
      gmiiTxEn := false
      txActive := false
      frameEnded := false
      stallCnt := 0 }
  if tx.haveFirst || (i.sAxisTvalid && tx.sAxisTready) then
    let held :=
      { base with
        firstData := if tx.haveFirst then tx.firstData else i.sAxisTdata
        firstLast := if tx.haveFirst then tx.firstLast else i.sAxisTlast
        haveFirst := true }
    if i.txStartOk then
      { held with
        state := .preamble
        count := 0
        crcAccum := crcStart
        txActive := true }
    else held
  else { base with sAxisTready := i.txStartOk }

/-- S_PREAMBLE -/
def preambleEdge : EthMacTx :=
  { tx.cycleDefaults with
    gmiiTxEn := true
    gmiiTxd := 0x55
    stallCnt := 0
    count := tx.count + 1
    state := if tx.count.toNat = preambleLen - 1 then .sfd else .preamble }

/-- S_SFD -/
def sfdEdge : EthMacTx :=
  { tx.cycleDefaults with
    gmiiTxd := 0xD5
    dataCnt := 0
    stallCnt := 0
    state := .data }

/-- S_DATA after the last byte: padding, or the FCS. -/
def endedEdge : EthMacTx :=
  let base := { tx.cycleDefaults with stallCnt := 0 }
  if tx.dataCnt.toNat < minFrame - 1 then
    { base with
      state := .pad
      gmiiTxd := 0x00
      crcAccum := crcStep tx.crcAccum 0x00
      dataCnt := tx.dataCnt + 1 }
  else if tx.dataCnt.toNat = minFrame - 1 then
    { base with
      gmiiTxd := 0x00
      crcSaved := ~~~crcStep tx.crcAccum 0x00
      dataCnt := tx.dataCnt + 1
      state := .crc
      count := 0 }
  else
    { base with
      state := .crc
      count := 1
      gmiiTxd := tx.crcSaved.extractLsb' 0 8 }

/-- S_DATA with a byte, the one held since S_IDLE or one from the stream. -/
def byteEdge (data : BitVec 8) (last : Bool) : EthMacTx :=
  let base :=
    { tx.cycleDefaults with
      stallCnt := 0
      gmiiTxd := data
      crcAccum := crcStep tx.crcAccum data
      dataCnt := tx.dataCnt + 1
      haveFirst := false }
  if last then
    { base with crcSaved := ~~~crcStep tx.crcAccum data, frameEnded := true }
  else if maxFrame ≤ tx.dataCnt.toNat + 1 then
    { base with gmiiTxEr := true, state := .ifg, count := 0 }
  else { base with sAxisTready := true }

/-- S_DATA while the source has no byte: filler marked with `gmii_tx_er`. -/
def stallEdge : EthMacTx :=
  { tx.cycleDefaults with
    gmiiTxd := 0x00
    gmiiTxEr := true
    stallCnt := tx.stallCnt + 1
    state := if 7 ≤ tx.stallCnt.toNat then .ifg else .data
    count := if 7 ≤ tx.stallCnt.toNat then 0 else tx.count }

def dataEdge : EthMacTx :=
  if tx.frameEnded then tx.endedEdge
  else if tx.haveFirst then tx.byteEdge maxFrame tx.firstData tx.firstLast
  else if i.sAxisTvalid then tx.byteEdge maxFrame i.sAxisTdata i.sAxisTlast
  else tx.stallEdge

/-- S_PAD -/
def padEdge : EthMacTx :=
  let base :=
    { tx.cycleDefaults with
      stallCnt := 0
      gmiiTxd := 0x00
      crcAccum := crcStep tx.crcAccum 0x00
      dataCnt := tx.dataCnt + 1 }
  if minFrame - 1 ≤ tx.dataCnt.toNat then
    { base with crcSaved := ~~~crcStep tx.crcAccum 0x00, state := .crc, count := 0 }
  else base

/-- S_CRC -/
def crcEdge : EthMacTx :=
  let base := { tx.cycleDefaults with stallCnt := 0, count := tx.count + 1 }
  if tx.count = 0 then { base with gmiiTxd := tx.crcSaved.extractLsb' 0 8 }
  else if tx.count = 1 then { base with gmiiTxd := tx.crcSaved.extractLsb' 8 8 }
  else if tx.count = 2 then { base with gmiiTxd := tx.crcSaved.extractLsb' 16 8 }
  else if tx.count = 3 then
    { base with gmiiTxd := tx.crcSaved.extractLsb' 24 8, state := .ifg, count := 0 }
  else base

/-- S_IFG -/
def ifgEdge : EthMacTx :=
  { tx.cycleDefaults with
    gmiiTxEn := false
    gmiiTxd := 0
    stallCnt := 0
    count := tx.count + 1
    state := if ifgBytes - 3 ≤ tx.count.toNat then .idle else .ifg }

/-- A rising edge of `clk`. -/
def clkEdge : EthMacTx :=
  match tx.state with
  | .idle => tx.idleEdge i
  | .preamble => tx.preambleEdge
  | .sfd => tx.sfdEdge
  | .data => tx.dataEdge maxFrame i
  | .pad => tx.padEdge
  | .crc => tx.crcEdge
  | .ifg => tx.ifgEdge

/-- What is on the GMII pins: a byte and `gmii_tx_er`, while `gmii_tx_en` is high. -/
def beat : Option (BitVec 8 × Bool) :=
  if tx.gmiiTxEn then some (tx.gmiiTxd, tx.gmiiTxEr) else none

end EthMacTx

end EmacZero
