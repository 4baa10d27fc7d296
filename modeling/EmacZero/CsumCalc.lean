/-
`csum_calc`: watches one Ethernet frame as a byte stream and computes the
Internet checksums it carries.  The registers are grouped by what they parse;
each group has its own next-state function.
-/
import Mathlib.Data.BitVec

namespace EmacZero

/-- The inputs of `csum_calc` in one cycle. -/
structure CsumIn where
  inValid : Bool
  inIdx : BitVec 14
  inData : BitVec 8
  zeroFields : Bool
deriving Repr, DecidableEq

/-- EtherType, VLAN tag and IP version. -/
structure CsumEther where
  etypeHi : BitVec 8
  vlan : Bool
  l3Known : Bool
  l3Off : BitVec 5
  fam4 : Bool
  fam6 : Bool
deriving Repr, DecidableEq

/-- Fields of the IP header. -/
structure CsumHeader where
  hdrLen : BitVec 6
  ipLen : BitVec 16
  frag : Bool
  proto : BitVec 8
deriving Repr, DecidableEq

/-- Where the datagram and the L4 bytes summed start and end. -/
structure CsumBounds where
  lenOk : Bool
  l3End : BitVec 14
  l4Start : BitVec 14
  l4Len : BitVec 16
  l4End : BitVec 14
  ipCsumPos : BitVec 14
  l4CsumPos : BitVec 14
  udpLenHi : BitVec 8
  udpLen : BitVec 16
deriving Repr, DecidableEq

/-- The IPv4 option walk. -/
structure CsumOptions where
  optPos : BitVec 9
  optLenNx : Bool
  optEnd : Bool
  optSkip : Bool
deriving Repr, DecidableEq

structure CsumSums where
  ipAcc : BitVec 24
  phAcc : BitVec 24
  l4Acc : BitVec 32
  l4Field : BitVec 16
deriving Repr, DecidableEq

/-- The two pipelines that fold the sums. -/
structure CsumPipes where
  h1 : Bool
  h2 : Bool
  ipF1R : BitVec 17
  p1 : Bool
  p2 : Bool
  p3 : Bool
  l4TotR : BitVec 32
  l4F1R : BitVec 17
  structOkR : Bool
  l4OkR : Bool
deriving Repr, DecidableEq

structure CsumResult where
  done : Bool
  ip4 : Bool
  ipSum : BitVec 16
  l4Ok : Bool
  l4Udp : Bool
  l4Sum : BitVec 16
deriving Repr, DecidableEq

structure CsumCalc extends CsumEther, CsumHeader, CsumBounds, CsumOptions,
    CsumSums, CsumPipes, CsumResult
deriving Repr, DecidableEq

namespace CsumCalc

/-- The registers after reset. -/
def reset : CsumCalc where
  etypeHi := 0
  vlan := false
  l3Known := false
  l3Off := 14
  fam4 := false
  fam6 := false
  hdrLen := 20
  ipLen := 0
  frag := false
  proto := 0
  lenOk := false
  l3End := 0
  l4Start := 0
  l4Len := 0
  l4End := 0
  ipCsumPos := 0
  l4CsumPos := 0x3FFF
  udpLenHi := 0
  udpLen := 0
  optPos := 20
  optLenNx := false
  optEnd := false
  optSkip := false
  ipAcc := 0
  phAcc := 0
  l4Acc := 0
  l4Field := 0
  h1 := false
  h2 := false
  ipF1R := 0
  p1 := false
  p2 := false
  p3 := false
  l4TotR := 0
  l4F1R := 0
  structOkR := false
  l4OkR := false
  done := false
  ip4 := false
  ipSum := 0
  l4Ok := false
  l4Udp := false
  l4Sum := 0

variable (s : CsumCalc) (i : CsumIn)

/-- Offset of this byte within the L3 header. -/
def r : BitVec 14 := i.inIdx - s.l3Off.setWidth 14

/-- Even frame offsets are the most significant byte of a 16-bit word. -/
def weight (i : CsumIn) : BitVec 16 :=
  if i.inIdx.getLsbD 0 then i.inData.setWidth 16 else i.inData.setWidth 16 <<< 8

/-- Offset of the checksum field within the L4 header. -/
def l4Off : BitVec 5 :=
  if s.proto == 6 then 16
  else if s.proto == 17 then 6
  else if s.proto == 1 then 2
  else if s.proto == 58 then 2
  else 0

def l4ProtoOk : Bool :=
  if s.proto == 6 then true
  else if s.proto == 17 then true
  else if s.proto == 1 then s.fam4
  else if s.proto == 58 then s.fam6
  else false

def inL3 : Bool := s.l3Known && (s.fam4 || s.fam6)

def inIp4h : Bool := s.inL3 && s.fam4 && (s.r i).ult (s.hdrLen.setWidth 14)

def inPh : Bool :=
  s.inL3 &&
    if s.fam4 then (12 : BitVec 14).ule (s.r i) && (s.r i).ult 20
    else (8 : BitVec 14).ule (s.r i) && (s.r i).ult 40

def inL4 : Bool :=
  s.inL3 && s.lenOk && s.l4Start.ule i.inIdx && i.inIdx.ult s.l4End &&
    i.inIdx.ult s.l3End

def isIpf : Bool := s.fam4 && (s.r i == 10 || s.r i == 11)

def isL4f : Bool := i.inIdx == s.l4CsumPos || i.inIdx == s.l4CsumPos + 1

def last : Bool := s.inL3 && s.lenOk && i.inIdx == s.l3End - 1

def hdrLast : Bool := s.inIp4h i && s.r i == s.hdrLen.setWidth 14 - 1

def inOpt : Bool := s.inIp4h i && (20 : BitVec 14).ule (s.r i) && !s.optEnd

def isUdp : Bool := s.proto == 17

def udpLenNow : BitVec 16 := s.udpLenHi ++ i.inData

def hdrEnd : BitVec 14 := s.l4Start

def ipF1 : BitVec 17 :=
  (s.ipAcc.extractLsb' 0 16).setWidth 17 + (s.ipAcc.extractLsb' 16 8).setWidth 17

def usePh : Bool := s.fam6 || s.proto != 1

def struct4 : Bool :=
  s.fam4 && (20 : BitVec 6).ule s.hdrLen && (s.hdrLen.setWidth 16).ule s.ipLen

def structOk : Bool := s.lenOk && (s.struct4 || s.fam6)

def udpOk : Bool := (8 : BitVec 16).ule s.udpLen && s.udpLen.ule s.l4Len

def phLen : BitVec 16 := if s.isUdp then s.udpLen else s.l4Len

def l4Able : Bool :=
  s.structOk && s.l4ProtoOk && !(s.fam4 && (s.frag || s.optSkip)) &&
    (s.l4Off.setWidth 16 + 2).ule s.l4Len && (!s.isUdp || s.udpOk)

/-- Frame byte 0 starts a new frame. -/
def newFrame (i : CsumIn) : Bool := i.inValid && i.inIdx == 0

/-- The EtherType of the frame, once its second byte is here. -/
def etype : BitVec 16 := s.etypeHi ++ i.inData

/-- This byte completes an EtherType or TPID. -/
def etypeNow : Bool :=
  !s.l3Known && (i.inIdx == 13 || (s.vlan && i.inIdx == 17))

def tagNow : Bool :=
  s.etypeNow i && !s.vlan && (s.etype i == 0x8100 || s.etype i == 0x88A8)

def nextEther : CsumEther :=
  if newFrame i then
    { s.toCsumEther with
      vlan := false
      l3Known := false
      l3Off := 14
      fam4 := false
      fam6 := false }
  else if i.inValid then
    { etypeHi :=
        if !s.l3Known && (i.inIdx == 12 || (s.vlan && i.inIdx == 16)) then i.inData
        else s.etypeHi
      vlan := if s.tagNow i then true else s.vlan
      l3Known := if s.etypeNow i && !s.tagNow i then true else s.l3Known
      l3Off :=
        if s.etypeNow i && !s.tagNow i then if s.vlan then 18 else 14
        else s.l3Off
      fam4 :=
        if s.inL3 && s.r i == 0 && s.fam4 && i.inData.extractLsb' 4 4 != 4 then false
        else if s.etypeNow i && !s.tagNow i then s.etype i == 0x0800
        else s.fam4
      fam6 :=
        if s.inL3 && s.r i == 0 && s.fam6 && i.inData.extractLsb' 4 4 != 6 then false
        else if s.etypeNow i && !s.tagNow i then s.etype i == 0x86DD
        else s.fam6 }
  else s.toCsumEther

/-- `ip_len` with one of its bytes replaced. -/
def ipLenHi (len : BitVec 16) (data : BitVec 8) : BitVec 16 :=
  data ++ len.extractLsb' 0 8

def ipLenLo (len : BitVec 16) (data : BitVec 8) : BitVec 16 :=
  len.extractLsb' 8 8 ++ data

def nextHeader : CsumHeader :=
  if newFrame i then { hdrLen := 20, ipLen := 0, frag := false, proto := 0 }
  else if i.inValid && s.inL3 then
    { hdrLen :=
        if s.r i == 0 && s.fam4 then i.inData.extractLsb' 0 4 ++ (0 : BitVec 2)
        else s.hdrLen
      ipLen :=
        if s.r i == (if s.fam4 then 2 else 4) then ipLenHi s.ipLen i.inData
        else if s.r i == (if s.fam4 then 3 else 5) then ipLenLo s.ipLen i.inData
        else s.ipLen
      frag :=
        if s.fam4 && s.r i == 6 then
          i.inData.getLsbD 5 || i.inData.extractLsb' 0 5 != 0
        else if s.fam4 && s.r i == 7 && i.inData != 0 then true
        else s.frag
      proto := if s.r i == (if s.fam4 then 9 else 6) then i.inData else s.proto }
  else s.toCsumHeader

def endOff : BitVec 17 :=
  if s.fam4 then s.l3Off.setWidth 17 + s.ipLen.setWidth 17
  else s.l3Off.setWidth 17 + 40 + s.ipLen.setWidth 17

def l4s : BitVec 17 :=
  if s.fam4 then s.l3Off.setWidth 17 + s.hdrLen.setWidth 17
  else s.l3Off.setWidth 17 + 40

/-- The lengths are in: the byte after them works out where things end. -/
def lengthsNow : Bool := (s.fam4 && s.r i == 4) || (s.fam6 && s.r i == 6)

/-- This byte is the second one of the UDP Length field. -/
def udpLenIn : Bool := s.isUdp && s.lenOk && i.inIdx == s.l4Start + 5

def nextBounds : CsumBounds :=
  if newFrame i then
    { s.toCsumBounds with
      lenOk := false
      l3End := 0
      l4Start := 0
      l4Len := 0
      l4End := 0
      l4CsumPos := 0x3FFF
      udpLen := 0 }
  else if i.inValid && s.inL3 then
    { lenOk := if s.lengthsNow i then s.endOff.ule 0x3FFF else s.lenOk
      l3End := if s.lengthsNow i then s.endOff.setWidth 14 else s.l3End
      l4Start := if s.lengthsNow i then s.l4s.setWidth 14 else s.l4Start
      l4Len :=
        if s.lengthsNow i then
          if s.fam4 then s.ipLen - s.hdrLen.setWidth 16 else s.ipLen
        else s.l4Len
      l4End :=
        if s.udpLenIn i && (8 : BitVec 16).ule (s.udpLenNow i) &&
            (s.udpLenNow i).ule s.l4Len then
          s.l4Start + (s.udpLenNow i).setWidth 14
        else if s.lengthsNow i then s.endOff.setWidth 14
        else s.l4End
      ipCsumPos :=
        if s.lengthsNow i then s.l3Off.setWidth 14 + 10 else s.ipCsumPos
      l4CsumPos :=
        if (s.fam4 && s.r i == 10) || (s.fam6 && s.r i == 7) then
          s.l4Start + s.l4Off.setWidth 14
        else s.l4CsumPos
      udpLenHi :=
        if s.isUdp && s.lenOk && i.inIdx == s.l4Start + 4 then i.inData
        else s.udpLenHi
      udpLen := if s.udpLenIn i then s.udpLenNow i else s.udpLen }
  else s.toCsumBounds

def nextOptions : CsumOptions :=
  if newFrame i then
    { optPos := 20, optLenNx := false, optEnd := false, optSkip := false }
  else if i.inValid && s.inL3 && s.fam4 && s.inOpt i then
    if s.optLenNx then
      if i.inData.ult 2 then
        { s.toCsumOptions with optLenNx := false, optEnd := true, optSkip := true }
      else
        { s.toCsumOptions with
          optLenNx := false
          optPos := s.optPos + i.inData.setWidth 9 }
    else if s.r i == s.optPos.setWidth 14 then
      if i.inData == 0x00 then { s.toCsumOptions with optEnd := true }
      else if i.inData == 0x01 then { s.toCsumOptions with optPos := s.optPos + 1 }
      else
        { s.toCsumOptions with
          optLenNx := true
          optSkip :=
            if i.inData == 0x83 || i.inData == 0x89 then true else s.optSkip }
    else s.toCsumOptions
  else s.toCsumOptions

def fieldHi (field : BitVec 16) (data : BitVec 8) : BitVec 16 :=
  data ++ field.extractLsb' 0 8

def fieldLo (field : BitVec 16) (data : BitVec 8) : BitVec 16 :=
  field.extractLsb' 8 8 ++ data

def nextSums : CsumSums :=
  if newFrame i then { ipAcc := 0, phAcc := 0, l4Acc := 0, l4Field := 0 }
  else if i.inValid then
    { ipAcc :=
        if s.inIp4h i && !(i.zeroFields && s.isIpf i) then
          s.ipAcc + (weight i).setWidth 24
        else s.ipAcc
      phAcc := if s.inPh i then s.phAcc + (weight i).setWidth 24 else s.phAcc
      l4Acc :=
        if s.inL4 i && !(i.zeroFields && s.isL4f i) then
          s.l4Acc + (weight i).setWidth 32
        else s.l4Acc
      l4Field :=
        if s.inL4 i && i.inIdx == s.l4CsumPos + 1 then fieldLo s.l4Field i.inData
        else if s.inL4 i && i.inIdx == s.l4CsumPos then fieldHi s.l4Field i.inData
        else s.l4Field }
  else s.toCsumSums

def nextPipes : CsumPipes where
  h1 := i.inValid && !newFrame i && s.hdrLast i
  h2 := s.h1
  ipF1R := if s.h1 then s.ipF1 else s.ipF1R
  p1 := i.inValid && !newFrame i && s.last i
  p2 := s.p1
  p3 := s.p2
  l4TotR :=
    if s.p1 then
      s.l4Acc +
        if s.usePh then
          s.phAcc.setWidth 32 + s.proto.setWidth 32 + s.phLen.setWidth 32
        else 0
    else s.l4TotR
  l4F1R :=
    if s.p2 then
      (s.l4TotR.extractLsb' 0 16).setWidth 17 +
        (s.l4TotR.extractLsb' 16 16).setWidth 17
    else s.l4F1R
  structOkR := if s.p1 then s.structOk else s.structOkR
  l4OkR := if s.p1 then s.l4Able else s.l4OkR

/-- The results of a frame, cleared by the next one's byte 0 unless the
pipelines set them in that very cycle. -/
def nextResult : CsumResult where
  done := if s.p3 then s.structOkR else if newFrame i then false else s.done
  ip4 := if s.h2 then s.struct4 else if newFrame i then false else s.ip4
  ipSum :=
    if s.h2 then
      s.ipF1R.extractLsb' 0 16 + (s.ipF1R.extractLsb' 16 1).setWidth 16
    else s.ipSum
  l4Ok := if s.p3 then s.structOkR && s.l4OkR else if newFrame i then false else s.l4Ok
  l4Udp := if s.p1 then s.isUdp else if newFrame i then false else s.l4Udp
  l4Sum :=
    if s.p3 then
      s.l4F1R.extractLsb' 0 16 + (s.l4F1R.extractLsb' 16 1).setWidth 16
    else s.l4Sum

/-- A rising edge of `clk`. -/
def clkEdge : CsumCalc where
  toCsumEther := s.nextEther i
  toCsumHeader := s.nextHeader i
  toCsumBounds := s.nextBounds i
  toCsumOptions := s.nextOptions i
  toCsumSums := s.nextSums i
  toCsumPipes := s.nextPipes i
  toCsumResult := s.nextResult i

end CsumCalc

end EmacZero
