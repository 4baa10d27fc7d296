/-
The receive path of the network stack, `net_rx`: the parser, the checks of the IPv4
header, and the payload streams with their last byte held back.
-/
import Mathlib.Data.BitVec

namespace EmacZero

/-- The inputs of `net_rx` in one cycle. -/
structure NetRxIn where
  tdata : BitVec 8
  tvalid : Bool
  tlast : Bool
  terror : Bool
  ourIp : BitVec 32
deriving Repr, DecidableEq

inductive NetRxState where
  | ethDst | ethSrc | ethType | arpPayload | ipHdr | icmpData | udpHdr | udpData | drop
deriving Repr, DecidableEq

/-- The registers of `net_rx`. -/
structure NetRx where
  state : NetRxState
  byteCnt : BitVec 14
  ethertype : BitVec 16
  ipProtocol : BitVec 8
  ipIhl : BitVec 4
  ipHdrBytes : BitVec 14
  ipTotLen : BitVec 16
  dstMacBuf : BitVec 48
  srcMacBuf : BitVec 48
  srcIpBuf : BitVec 32
  dstIpBuf : BitVec 32
  hdrSum : BitVec 32
  hdrChk : Bool
  plSum : BitVec 32
  plOdd : Bool
  rem : BitVec 16
  terrSeen : Bool
  holdV : Bool
  holdD : BitVec 8
  fin : Bool
  finErr : Bool
  finIcmp : Bool
  arpData : BitVec 8
  arpValid : Bool
  arpLast : Bool
  icmpData : BitVec 8
  icmpValid : Bool
  icmpLast : Bool
  icmpErr : Bool
  icmpSrcIp : BitVec 32
  udpData : BitVec 8
  udpValid : Bool
  udpLast : Bool
  udpErr : Bool
  udpSrcIp : BitVec 32
  udpSrcPort : BitVec 16
  udpDstPort : BitVec 16
  udpLength : BitVec 16
  rxSrcMac : BitVec 48
deriving Repr, DecidableEq

namespace NetRx

def reset : NetRx where
  state := .ethDst
  byteCnt := 0
  ethertype := 0
  ipProtocol := 0
  ipIhl := 0
  ipHdrBytes := 0
  ipTotLen := 0
  dstMacBuf := 0
  srcMacBuf := 0
  srcIpBuf := 0
  dstIpBuf := 0
  hdrSum := 0
  hdrChk := false
  plSum := 0
  plOdd := false
  rem := 0
  terrSeen := false
  holdV := false
  holdD := 0
  fin := false
  finErr := false
  finIcmp := false
  arpData := 0
  arpValid := false
  arpLast := false
  icmpData := 0
  icmpValid := false
  icmpLast := false
  icmpErr := false
  icmpSrcIp := 0
  udpData := 0
  udpValid := false
  udpLast := false
  udpErr := false
  udpSrcIp := 0
  udpSrcPort := 0
  udpDstPort := 0
  udpLength := 0
  rxSrcMac := 0

/-- `fold` -/
def fold (s : BitVec 32) : BitVec 16 :=
  let t := (s.extractLsb' 0 16).setWidth 32 + (s.extractLsb' 16 16).setWidth 32
  let t := (t.extractLsb' 0 16).setWidth 32 + (t.extractLsb' 16 16).setWidth 32
  t.extractLsb' 0 16

/-- A byte as the high or the low one of a word. -/
def wordOf (low : Bool) (data : BitVec 8) : BitVec 32 :=
  if low then data.setWidth 32 else (data ++ (0 : BitVec 8)).setWidth 32

/-- A byte of a register that is written at one place of the header. -/
def fieldAt (count place : BitVec 14) (data old : BitVec 8) : BitVec 8 :=
  if count = place then data else old

section Edge

variable (rx : NetRx) (i : NetRxIn)

def hdrSumNow : BitVec 32 := rx.hdrSum + wordOf (rx.byteCnt.getLsbD 0) i.tdata

def plWord : BitVec 32 := wordOf rx.plOdd i.tdata

def inPayload : Bool :=
  rx.state == .icmpData || rx.state == .udpHdr || rx.state == .udpData

def remNext : BitVec 16 := if rx.rem ≠ 0 then rx.rem - 1 else 0

/-- The outputs are cleared, and a held byte is released. -/
def release : NetRx :=
  let next := { rx with
    arpValid := false
    arpLast := false
    icmpValid := false
    icmpLast := false
    icmpErr := false
    udpValid := false
    udpLast := false
    udpErr := false }
  if rx.fin then
    if rx.holdV then
      if rx.finIcmp then
        { next with
          fin := false
          holdV := false
          icmpData := rx.holdD
          icmpValid := true
          icmpLast := true
          icmpErr := rx.finErr || fold rx.plSum != 0xFFFF }
      else
        { next with
          fin := false
          holdV := false
          udpData := rx.holdD
          udpValid := true
          udpLast := true
          udpErr := rx.finErr }
    else { next with fin := false }
  else next

/-- What every beat counts and sums. -/
def count (next : NetRx) : NetRx :=
  let next := { next with terrSeen := next.terrSeen || i.terror }
  if rx.inPayload && rx.rem != 0 then
    { next with rem := rx.rem - 1, plSum := rx.plSum + rx.plWord i, plOdd := !rx.plOdd }
  else next

/-- The registers that an IPv4 header byte goes into. -/
def headerByte (next : NetRx) : NetRx :=
  let next := { next with
    byteCnt := rx.byteCnt + 1
    hdrSum := rx.hdrSumNow i
    ipTotLen :=
      fieldAt rx.byteCnt 2 i.tdata (rx.ipTotLen.extractLsb' 8 8) ++
        fieldAt rx.byteCnt 3 i.tdata (rx.ipTotLen.extractLsb' 0 8)
    ipProtocol := fieldAt rx.byteCnt 9 i.tdata rx.ipProtocol
    srcIpBuf :=
      fieldAt rx.byteCnt 12 i.tdata (rx.srcIpBuf.extractLsb' 24 8) ++
        fieldAt rx.byteCnt 13 i.tdata (rx.srcIpBuf.extractLsb' 16 8) ++
        fieldAt rx.byteCnt 14 i.tdata (rx.srcIpBuf.extractLsb' 8 8) ++
        fieldAt rx.byteCnt 15 i.tdata (rx.srcIpBuf.extractLsb' 0 8)
    dstIpBuf :=
      fieldAt rx.byteCnt 16 i.tdata (rx.dstIpBuf.extractLsb' 24 8) ++
        fieldAt rx.byteCnt 17 i.tdata (rx.dstIpBuf.extractLsb' 16 8) ++
        fieldAt rx.byteCnt 18 i.tdata (rx.dstIpBuf.extractLsb' 8 8) ++
        fieldAt rx.byteCnt 19 i.tdata (rx.dstIpBuf.extractLsb' 0 8) }
  if rx.byteCnt = 0 then
    if i.tdata.extractLsb' 4 4 ≠ 4 ∨ i.tdata.extractLsb' 0 4 < 5 then
      { next with state := .drop }
    else
      { next with
        ipIhl := i.tdata.extractLsb' 0 4
        ipHdrBytes := (i.tdata.extractLsb' 0 4).setWidth 14 <<< 2 }
  else next

/-- The destination, as it is compared at the last header byte. -/
def dstIp : BitVec 32 := rx.dstIpBuf.extractLsb' 8 24 ++ i.tdata

def srcIp : BitVec 32 :=
  rx.srcIpBuf.extractLsb' 8 24 ++
    fieldAt rx.byteCnt 15 i.tdata (rx.srcIpBuf.extractLsb' 0 8)

/-- End of the IPv4 header. -/
def headerEnd (next : NetRx) : NetRx :=
  if rx.byteCnt = rx.ipHdrBytes - 1 then
    let next := { next with
      byteCnt := 0
      rem := rx.ipTotLen - rx.ipHdrBytes.setWidth 16 }
    if rx.dstIp i ≠ i.ourIp ∧ rx.dstIp i ≠ 0xFFFFFFFF then { next with state := .drop }
    else if rx.ipTotLen < rx.ipHdrBytes.setWidth 16 + 8 then { next with state := .drop }
    else if rx.ipProtocol = 1 then
      { next with state := .icmpData, hdrChk := true, icmpSrcIp := rx.srcIp i }
    else if rx.ipProtocol = 17 then
      { next with state := .udpHdr, hdrChk := true, udpSrcIp := rx.srcIp i }
    else { next with state := .drop }
  else next

/-- A payload byte takes the place of the one held. -/
def hold (next : NetRx) : NetRx :=
  if rx.rem ≠ 0 then { next with holdD := i.tdata, holdV := true } else next

/-- The byte by the parser's state. -/
def parse (next : NetRx) : NetRx :=
  match rx.state with
  | .ethDst =>
      { next with
        dstMacBuf := rx.dstMacBuf.setWidth 40 ++ i.tdata
        byteCnt := if rx.byteCnt = 5 then 0 else rx.byteCnt + 1
        state := if rx.byteCnt = 5 then .ethSrc else rx.state }
  | .ethSrc =>
      { next with
        srcMacBuf := rx.srcMacBuf.setWidth 40 ++ i.tdata
        byteCnt := if rx.byteCnt = 5 then 0 else rx.byteCnt + 1
        state := if rx.byteCnt = 5 then .ethType else rx.state
        rxSrcMac :=
          if rx.byteCnt = 5 then rx.srcMacBuf.setWidth 40 ++ i.tdata else rx.rxSrcMac }
  | .ethType =>
      let next := { next with hdrSum := 0, plSum := 0, plOdd := false, holdV := false }
      if rx.byteCnt = 0 then
        { next with
          ethertype := i.tdata ++ rx.ethertype.extractLsb' 0 8
          byteCnt := 1 }
      else
        let ethertype := rx.ethertype.extractLsb' 8 8 ++ i.tdata
        { next with
          ethertype := ethertype
          byteCnt := 0
          state :=
            if ethertype = 0x0806 then .arpPayload
            else if ethertype = 0x0800 then .ipHdr
            else .drop }
  | .arpPayload =>
      { next with arpData := i.tdata, arpValid := true, arpLast := i.tlast }
  | .ipHdr => rx.headerEnd i (rx.headerByte i next)
  | .icmpData =>
      let next :=
        if rx.rem ≠ 0 ∧ rx.holdV then { next with icmpData := rx.holdD, icmpValid := true }
        else next
      rx.hold i next
  | .udpHdr =>
      { next with
        udpSrcPort :=
          fieldAt rx.byteCnt 0 i.tdata (rx.udpSrcPort.extractLsb' 8 8) ++
            fieldAt rx.byteCnt 1 i.tdata (rx.udpSrcPort.extractLsb' 0 8)
        udpDstPort :=
          fieldAt rx.byteCnt 2 i.tdata (rx.udpDstPort.extractLsb' 8 8) ++
            fieldAt rx.byteCnt 3 i.tdata (rx.udpDstPort.extractLsb' 0 8)
        udpLength :=
          fieldAt rx.byteCnt 4 i.tdata (rx.udpLength.extractLsb' 8 8) ++
            fieldAt rx.byteCnt 5 i.tdata (rx.udpLength.extractLsb' 0 8)
        byteCnt := if rx.byteCnt = 7 then 0 else rx.byteCnt + 1
        state := if rx.byteCnt = 7 then .udpData else rx.state }
  | .udpData =>
      let next :=
        if rx.rem ≠ 0 ∧ rx.holdV then { next with udpData := rx.holdD, udpValid := true }
        else next
      rx.hold i next
  | .drop => next

/-- End of frame. -/
def frameEnd (next : NetRx) : NetRx :=
  if i.tlast then
    let next := { next with
      state := .ethDst
      byteCnt := 0
      terrSeen := false
      hdrChk := false }
    if rx.inPayload then
      { next with
        fin := true
        finErr := rx.terrSeen || i.terror || rx.remNext != 0
        finIcmp := rx.state == .icmpData }
    else next
  else next

def beat (next : NetRx) : NetRx :=
  if i.tvalid then rx.frameEnd i (rx.parse i (rx.count i next)) else next

/-- The verdict on the IPv4 header, the cycle after its last byte. -/
def verdict (next : NetRx) : NetRx :=
  if rx.hdrChk then
    if fold rx.hdrSum ≠ 0xFFFF then
      { next with
        hdrChk := false
        holdV := false
        fin := false
        state := if i.tvalid && i.tlast then next.state else .drop }
    else { next with hdrChk := false }
  else next

/-- A rising edge: each part overrides what those before it have assigned. -/
def clkEdge : NetRx := rx.verdict i (rx.beat i rx.release)

end Edge

end NetRx

end EmacZero
