/-
`eth_mac_rx`: the receive path of the MAC.  It strips preamble, SFD and FCS,
filters by destination address, judges each frame and queues its bytes in a
FIFO towards the AXI4-Stream output.
-/
import EmacZero.Crc32
import EmacZero.CsumCalc
import EmacZero.SyncFifo

namespace EmacZero

/-- The parameters of `eth_mac_rx`.  The limits are those its elaboration check
admits. -/
structure EthMacRxParams where
  mcastHashFilter : Bool
  axisFifoAddrWidth : Nat
  maxFrameStd : Nat
  maxFrameJumbo : Nat
  rxCsumOffload : Bool
  std_le : maxFrameStd + 4 ≤ 16382
  jumbo_le : maxFrameJumbo ≤ 16382

/-- The inputs of `eth_mac_rx` in one cycle. -/
structure EthMacRxIn where
  gmiiRxd : BitVec 8
  gmiiRxDv : Bool
  gmiiRxEr : Bool
  ourMac : BitVec 48
  promisc : Bool
  passthrough : Bool
  jumboEn : Bool
  rxCsumEn : Bool
  mcastHashTable : BitVec 64
  mAxisTready : Bool
deriving Repr, DecidableEq

/-- A word of the output FIFO. -/
structure MacWord where
  sof : Bool
  err : Bool
  last : Bool
  data : BitVec 8
deriving Repr, DecidableEq

inductive EthMacRxState where
  | idle
  | preamble
  | data
  | drop
  | crcCheck
deriving Repr, DecidableEq

/-- The end-of-frame classification. -/
structure EthMacRxStat where
  statDone : Bool
  statLen : BitVec 14
  statErrFcs : Bool
  statErrAlign : Bool
  statErrOverflow : Bool
  statErrOversize : Bool
  statErrCsum : Bool
  statIsBcast : Bool
  statIsMcast : Bool
  statDrop : Bool
deriving Repr, DecidableEq

/-- The registers that belong to the frame being received. -/
structure EthMacRxFrame where
  state : EthMacRxState
  byteCnt : BitVec 14
  firstByte : Bool
  crcInit : Bool
  crcDataValid : Bool
  crcDataIn : BitVec 8
  delayPipe0 : BitVec 8
  delayPipe1 : BitVec 8
  delayPipe2 : BitVec 8
  delayPipe3 : BitVec 8
  delayPipe4 : BitVec 8
  delayPipe5 : BitVec 8
  dstMacCaptured : BitVec 48
  macOk : Bool
  frameStarted : Bool
  rxErSeen : Bool
  rxOverflowSeen : Bool
  isBcastR : Bool
  isMcastR : Bool
  vlanTag : Bool
  csumEnR : Bool
deriving Repr, DecidableEq

structure EthMacRx (params : EthMacRxParams) extends EthMacRxFrame, EthMacRxStat
    where
  pushEnR : Bool
  pushR : MacWord
  crc : Crc32
  csum : CsumCalc
  fifo : SyncFifo MacWord params.axisFifoAddrWidth

/-- `mcast_hash_idx` of an address. -/
def mcastHashIdx (mac : BitVec 48) : BitVec 6 :=
  mac.extractLsb' 0 6 ^^^ mac.extractLsb' 6 6 ^^^ mac.extractLsb' 12 6 ^^^
    mac.extractLsb' 18 6 ^^^ mac.extractLsb' 24 6 ^^^ mac.extractLsb' 30 6 ^^^
    mac.extractLsb' 36 6 ^^^ mac.extractLsb' 42 6

def broadcastMac : BitVec 48 := 0xFFFFFFFFFFFF

/-- `dst_mac_captured` with one more byte shifted in. -/
def shiftMac (mac : BitVec 48) (data : BitVec 8) : BitVec 48 :=
  mac.extractLsb' 0 40 ++ data

namespace EthMacRx

variable {params : EthMacRxParams}

def reset (mem : BitVec params.axisFifoAddrWidth → MacWord) (doutR : MacWord) :
    EthMacRx params where
  state := .idle
  byteCnt := 0
  firstByte := false
  crcInit := false
  crcDataValid := false
  crcDataIn := 0
  delayPipe0 := 0
  delayPipe1 := 0
  delayPipe2 := 0
  delayPipe3 := 0
  delayPipe4 := 0
  delayPipe5 := 0
  dstMacCaptured := 0
  macOk := false
  frameStarted := false
  rxErSeen := false
  rxOverflowSeen := false
  isBcastR := false
  isMcastR := false
  vlanTag := false
  csumEnR := false
  statDone := false
  statLen := 0
  statErrFcs := false
  statErrAlign := false
  statErrOverflow := false
  statErrOversize := false
  statErrCsum := false
  statIsBcast := false
  statIsMcast := false
  statDrop := false
  pushEnR := false
  pushR := ⟨false, false, false, 0⟩
  crc := .reset
  csum := .reset
  fifo := .reset mem doutR

variable (rx : EthMacRx params) (pins : EthMacRxIn)

def macChk : BitVec 48 := shiftMac rx.dstMacCaptured pins.gmiiRxd

def macPassNow : Bool :=
  rx.macChk pins == pins.ourMac || rx.macChk pins == broadcastMac ||
    pins.promisc || pins.passthrough ||
    (params.mcastHashFilter && (rx.macChk pins).getLsbD 40 &&
      rx.macChk pins != broadcastMac &&
      pins.mcastHashTable.getLsbD (mcastHashIdx (rx.macChk pins)).toNat)

/-- `FIFO_HWM` -/
def fifoHwm (params : EthMacRxParams) : BitVec (params.axisFifoAddrWidth + 1) :=
  BitVec.ofNat _ (2 ^ params.axisFifoAddrWidth) - BitVec.ofNat _ 4

def fifoRoom : Bool := rx.fifo.occ.ult (fifoHwm params)

def errFcsNow : Bool := rx.crc.crcRaw != crcResidue

def overStdNow : Bool :=
  if rx.vlanTag then decide (params.maxFrameStd + 4 < rx.byteCnt.toNat)
  else decide (params.maxFrameStd < rx.byteCnt.toNat)

def errOversizeNow : Bool :=
  rx.overStdNow && (!pins.jumboEn || decide (params.maxFrameJumbo < rx.byteCnt.toNat))

def errUndersizeNow : Bool := rx.byteCnt.ult 64

/-- What the checksum checker sees. -/
def csumIn : CsumIn where
  inValid := rx.state == .data && pins.gmiiRxDv
  inIdx := rx.byteCnt
  inData := pins.gmiiRxd
  zeroFields := false

def hdrWhole : Bool := (rx.csum.hdrEnd.setWidth 15 + 4).ule (rx.byteCnt.setWidth 15)

def whole : Bool := (rx.csum.l3End.setWidth 15 + 4).ule (rx.byteCnt.setWidth 15)

def udpZero : Bool := rx.csum.l4Udp && rx.csum.l4Field == 0

def ipBad : Bool := rx.csum.ip4 && rx.hdrWhole && rx.csum.ipSum != 0xFFFF

def l4Bad : Bool :=
  rx.csum.done && rx.whole && rx.csum.l4Ok && !rx.udpZero &&
    rx.csum.l4Sum != 0xFFFF

def csumBadNow : Bool :=
  params.rxCsumOffload && rx.csumEnR && (rx.ipBad || rx.l4Bad)

def errCsumNow : Bool :=
  rx.csumBadNow && !rx.errFcsNow && !rx.rxErSeen && !rx.rxOverflowSeen &&
    !rx.errOversizeNow pins && !rx.errUndersizeNow

/-- The sixth byte of a frame that passes the filter is here. -/
def sofNow : Bool :=
  rx.state == .data && pins.gmiiRxDv && rx.byteCnt == 5 && rx.macPassNow pins

/-- A later byte of a frame whose SOF word was pushed is here. -/
def dataNow : Bool :=
  rx.state == .data && pins.gmiiRxDv && (6 : BitVec 14).ule rx.byteCnt &&
    rx.macOk && rx.frameStarted

/-- The closing word of a started frame is due. -/
def closeNow : Bool :=
  rx.state == .crcCheck && (6 : BitVec 14).ule rx.byteCnt && rx.macOk &&
    rx.frameStarted

def pushSof : Bool := rx.sofNow pins && rx.fifoRoom

def pushEn : Bool :=
  (rx.sofNow pins && rx.fifoRoom) || (rx.dataNow pins && rx.fifoRoom) || rx.closeNow

def dataDrop : Bool := rx.dataNow pins && !rx.fifoRoom

def pushErr : Bool :=
  rx.errFcsNow || rx.rxErSeen || rx.rxOverflowSeen || rx.errOversizeNow pins ||
    rx.errUndersizeNow || rx.csumBadNow

def pushWord : MacWord where
  sof := rx.pushSof pins
  err := rx.closeNow && rx.pushErr pins
  last := rx.closeNow
  data := if rx.pushEn pins then rx.delayPipe1 else 0

/-- S_IDLE and S_CRC_CHECK: what a frame's first byte starts. -/
def startFrame : EthMacRxFrame where
  state :=
    if !pins.gmiiRxDv then .idle
    else if pins.gmiiRxd == 0x55 then .preamble
    else if pins.gmiiRxd == 0xD5 then .data
    else .drop
  byteCnt := 0
  firstByte := pins.gmiiRxDv && pins.gmiiRxd == 0xD5
  crcInit := pins.gmiiRxDv && pins.gmiiRxd == 0xD5
  crcDataValid := false
  crcDataIn := rx.crcDataIn
  delayPipe0 := 0
  delayPipe1 := 0
  delayPipe2 := 0
  delayPipe3 := 0
  delayPipe4 := 0
  delayPipe5 := 0
  dstMacCaptured := 0
  macOk := false
  frameStarted := false
  rxErSeen := pins.gmiiRxDv && pins.gmiiRxEr
  rxOverflowSeen := false
  isBcastR := false
  isMcastR := false
  vlanTag := false
  csumEnR :=
    if pins.gmiiRxDv && pins.gmiiRxd == 0xD5 then pins.rxCsumEn else rx.csumEnR

/-- S_PREAMBLE -/
def preambleFrame : EthMacRxFrame :=
  { rx.toEthMacRxFrame with
    crcDataValid := false
    rxErSeen := if pins.gmiiRxEr then true else rx.rxErSeen
    state :=
      if !pins.gmiiRxDv then .idle
      else if pins.gmiiRxd == 0xD5 then .data
      else if pins.gmiiRxd != 0x55 then .drop
      else .preamble
    firstByte :=
      if pins.gmiiRxDv && pins.gmiiRxd == 0xD5 then true else rx.firstByte
    crcInit := pins.gmiiRxDv && pins.gmiiRxd == 0xD5
    csumEnR :=
      if pins.gmiiRxDv && pins.gmiiRxd == 0xD5 then pins.rxCsumEn else rx.csumEnR }

/-- S_DATA with a byte. -/
def dataFrame : EthMacRxFrame where
  state := .data
  byteCnt := if rx.byteCnt != 0x3FFF then rx.byteCnt + 1 else rx.byteCnt
  firstByte := false
  crcInit := false
  crcDataValid := true
  crcDataIn := pins.gmiiRxd
  delayPipe0 := rx.delayPipe1
  delayPipe1 := rx.delayPipe2
  delayPipe2 := rx.delayPipe3
  delayPipe3 := rx.delayPipe4
  delayPipe4 := rx.delayPipe5
  delayPipe5 := pins.gmiiRxd
  dstMacCaptured := if rx.byteCnt.ult 6 then rx.macChk pins else rx.dstMacCaptured
  macOk := if rx.byteCnt == 5 then rx.macPassNow pins else rx.macOk
  frameStarted := if rx.pushSof pins then true else rx.frameStarted
  rxErSeen := if pins.gmiiRxEr then true else rx.rxErSeen
  rxOverflowSeen := rx.rxOverflowSeen
  isBcastR := if rx.byteCnt == 5 then rx.macChk pins == broadcastMac else rx.isBcastR
  isMcastR :=
    if rx.byteCnt == 5 then
      (rx.macChk pins).getLsbD 40 && rx.macChk pins != broadcastMac
    else rx.isMcastR
  vlanTag :=
    if rx.byteCnt == 13 then
      (rx.delayPipe5 ++ pins.gmiiRxd : BitVec 16) == 0x8100 ||
        (rx.delayPipe5 ++ pins.gmiiRxd : BitVec 16) == 0x88A8
    else rx.vlanTag
  csumEnR := rx.csumEnR

/-- S_DATA when `gmii_rx_dv` is low. -/
def endFrame : EthMacRxFrame :=
  { rx.toEthMacRxFrame with
    crcInit := false
    crcDataValid := false
    rxErSeen := if pins.gmiiRxEr then true else rx.rxErSeen
    state := .crcCheck }

/-- S_DROP -/
def dropFrame : EthMacRxFrame :=
  { rx.toEthMacRxFrame with
    crcInit := false
    crcDataValid := false
    state := if !pins.gmiiRxDv then .idle else .drop }

def nextFrame : EthMacRxFrame :=
  match rx.state with
  | .idle | .crcCheck => rx.startFrame pins
  | .preamble => rx.preambleFrame pins
  | .data => if pins.gmiiRxDv then rx.dataFrame pins else rx.endFrame pins
  | .drop => rx.dropFrame pins

/-- The classification of a frame, in the cycle after `gmii_rx_dv` fell. -/
def nextStat : EthMacRxStat :=
  if rx.state == .crcCheck && rx.macOk && rx.frameStarted then
    { statDone := true
      statLen := rx.byteCnt
      statErrFcs := rx.errFcsNow
      statErrAlign := rx.rxErSeen
      statErrOverflow := rx.rxOverflowSeen
      statErrOversize := rx.errOversizeNow pins
      statErrCsum := rx.errCsumNow pins
      statIsBcast := rx.isBcastR
      statIsMcast := rx.isMcastR
      statDrop := false }
  else
    { rx.toEthMacRxStat with
      statDone := false
      statDrop := rx.state == .crcCheck && rx.macOk }

def fifoOverflow : Bool := rx.fifo.wrOverflow rx.pushEnR pins.mAxisTready

/-- A rising edge of `clk`. -/
def clkEdge : EthMacRx params where
  toEthMacRxFrame :=
    { rx.nextFrame pins with
      rxOverflowSeen :=
        if rx.dataDrop pins || rx.fifoOverflow pins then true
        else (rx.nextFrame pins).rxOverflowSeen }
  toEthMacRxStat := rx.nextStat pins
  pushEnR := rx.pushEn pins
  pushR := rx.pushWord pins
  crc := rx.crc.clkEdge rx.crcDataIn rx.crcDataValid rx.crcInit
  csum := rx.csum.clkEdge (rx.csumIn pins)
  fifo := rx.fifo.clkEdge rx.pushEnR rx.pushR pins.mAxisTready

/-- The stream's handshake: a word is taken. -/
def mAxisTaken : Bool := rx.fifo.pop pins.mAxisTready

end EthMacRx

end EmacZero
