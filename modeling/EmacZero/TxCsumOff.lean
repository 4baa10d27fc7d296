/-
`tx_csum_off`: an AXI-Stream stage that stores each frame, computes its checksums on
the way in and writes them into it on the way out.
-/
import EmacZero.CsumCalc
import EmacZero.SyncFifo

namespace EmacZero

/-- The parameters, with the limits that elaboration checks. -/
structure TxCsumParams where
  maxFrame : Nat
  bufAddrWidth : Nat
  metaAddrWidth : Nat
  max_pos : 1 ≤ maxFrame
  max_le : maxFrame ≤ 16382
  max_lt : maxFrame < 2 ^ bufAddrWidth

/-- The inputs in one cycle. -/
structure TxCsumIn where
  enable : Bool
  sTdata : BitVec 8
  sTvalid : Bool
  sTlast : Bool
  mTready : Bool
deriving Repr, DecidableEq

/-- `IN_DATA`, `IN_FLUSH` and `IN_DROP`. -/
inductive TxCsumState where
  | data
  | flush
  | drop
deriving Repr, DecidableEq

/-- The patch of a committed frame. -/
structure TxCsumMeta where
  ipPatch : Bool
  ipCsum : BitVec 16
  ipPos : BitVec 14
  l4Patch : Bool
  l4Csum : BitVec 16
  l4Pos : BitVec 14
deriving Repr, DecidableEq

/-- A byte of the frame on its way out. -/
def TxCsumMeta.patch (q : TxCsumMeta) (egPos : BitVec 14) (data : BitVec 8) : BitVec 8 :=
  if q.ipPatch && egPos == q.ipPos then q.ipCsum.extractLsb' 8 8
  else if q.ipPatch && egPos == q.ipPos + 1 then q.ipCsum.extractLsb' 0 8
  else if q.l4Patch && egPos == q.l4Pos then q.l4Csum.extractLsb' 8 8
  else if q.l4Patch && egPos == q.l4Pos + 1 then q.l4Csum.extractLsb' 0 8
  else data

/-- The registers of the ingest state machine. -/
structure TxCsumIngest where
  inState : TxCsumState
  inCnt : BitVec 14
  enFrame : Bool
  cut : Bool
  flushCnt : BitVec 3
deriving Repr, DecidableEq

structure TxCsumOff (params : TxCsumParams) extends TxCsumIngest where
  uCalc : CsumCalc
  uBuf : SyncFifo (Bool × BitVec 8) params.bufAddrWidth
  metaMem : BitVec params.metaAddrWidth → TxCsumMeta
  metaWr : BitVec (params.metaAddrWidth + 1)
  metaRd : BitVec (params.metaAddrWidth + 1)
  egPos : BitVec 14

namespace TxCsumOff

variable {params : TxCsumParams}

/-- The memories are not reset. -/
def reset (mem : BitVec params.bufAddrWidth → Bool × BitVec 8) (doutR : Bool × BitVec 8)
    (metaMem : BitVec params.metaAddrWidth → TxCsumMeta) : TxCsumOff params where
  inState := .data
  inCnt := 0
  enFrame := false
  cut := false
  flushCnt := 0
  uCalc := .reset
  uBuf := .reset mem doutR
  metaMem := metaMem
  metaWr := 0
  metaRd := 0
  egPos := 0

section Wires

variable (stage : TxCsumOff params) (i : TxCsumIn)

def sTready : Bool :=
  (stage.inState == .data && !stage.uBuf.full) || stage.inState == .drop

def inHs : Bool := i.sTvalid && stage.sTready && stage.inState == .data

def atMax : Bool := stage.inCnt.toNat == params.maxFrame - 1

/-- TLAST as written to the buffer. -/
def inLast : Bool := i.sTlast || stage.atMax

def calcIn : CsumIn := ⟨stage.inHs i, stage.inCnt, i.sTdata, true⟩

def ipCsum : BitVec 16 := ~~~stage.uCalc.ipSum

def l4CsumC : BitVec 16 := ~~~stage.uCalc.l4Sum

/-- A UDP checksum that computes to 0 is sent as all ones. -/
def l4Csum : BitVec 16 :=
  if stage.uCalc.l4Udp && stage.l4CsumC == 0 then 0xFFFF else stage.l4CsumC

def patchOk : Bool := stage.enFrame && !stage.cut && stage.uCalc.done

def metaIn : TxCsumMeta where
  ipPatch := stage.patchOk && stage.uCalc.ip4
  ipCsum := stage.ipCsum
  ipPos := stage.uCalc.ipCsumPos
  l4Patch := stage.patchOk && stage.uCalc.l4Ok
  l4Csum := stage.l4Csum
  l4Pos := stage.uCalc.l4CsumPos

def metaValid : Bool := stage.metaWr != stage.metaRd

def metaFull : Bool :=
  stage.metaWr - stage.metaRd ==
    BitVec.ofNat (params.metaAddrWidth + 1) (2 ^ params.metaAddrWidth)

def commit : Bool := stage.inState == .flush && stage.flushCnt == 0 && !stage.metaFull

def mTvalid : Bool := stage.uBuf.doutValidR && stage.metaValid

def mTlast : Bool := stage.uBuf.doutR.1

def bufPop : Bool := stage.mTvalid && i.mTready

def metaPop : Bool := stage.bufPop i && stage.uBuf.doutR.1

def metaQ : TxCsumMeta := stage.metaMem (stage.metaRd.setWidth params.metaAddrWidth)

def mTdata : BitVec 8 := stage.metaQ.patch stage.egPos stage.uBuf.doutR.2

def nextIngest : TxCsumIngest :=
  match stage.inState with
  | .data =>
      if stage.inHs i then
        let begun : TxCsumIngest :=
          { stage.toTxCsumIngest with
            enFrame := if stage.inCnt = 0 then i.enable else stage.enFrame }
        if stage.inLast i then
          { begun with
            inState := .flush
            flushCnt := 3
            cut := stage.atMax && !i.sTlast }
        else { begun with inCnt := stage.inCnt + 1 }
      else stage.toTxCsumIngest
  | .flush =>
      let settling : TxCsumIngest :=
        { stage.toTxCsumIngest with
          flushCnt := if stage.flushCnt = 0 then 0 else stage.flushCnt - 1 }
      if stage.commit then
        { settling with
          inCnt := 0
          inState := if stage.cut then .drop else .data
          cut := false }
      else settling
  | .drop =>
      if i.sTvalid && i.sTlast then { stage.toTxCsumIngest with inState := .data }
      else stage.toTxCsumIngest

end Wires

/-- A rising edge of `clk`. -/
def clkEdge (stage : TxCsumOff params) (i : TxCsumIn) : TxCsumOff params where
  toTxCsumIngest := stage.nextIngest i
  uCalc := stage.uCalc.clkEdge (stage.calcIn i)
  uBuf := stage.uBuf.clkEdge (stage.inHs i) (stage.inLast i, i.sTdata) (stage.bufPop i)
  metaMem :=
    if stage.commit then
      Function.update stage.metaMem (stage.metaWr.setWidth params.metaAddrWidth) stage.metaIn
    else stage.metaMem
  metaWr := if stage.commit then stage.metaWr + 1 else stage.metaWr
  metaRd := if stage.metaPop i then stage.metaRd + 1 else stage.metaRd
  egPos :=
    if stage.bufPop i then if stage.uBuf.doutR.1 then 0 else stage.egPos + 1
    else stage.egPos

end TxCsumOff

end EmacZero
