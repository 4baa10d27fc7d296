/-
`icmp_echo`: one buffered echo request, and the reply that is made of it.
-/
import EmacZero.FrameReplier
import EmacZero.NetFrames
import Mathlib.Data.Nat.Log

namespace EmacZero

/-- `MAX_LEN`, of a message that an IPv4 datagram can carry. -/
structure IcmpEchoParams where
  maxLen : Nat
  min_le : 8 ≤ maxLen
  le_max : maxLen ≤ 65515

namespace IcmpEchoParams

variable (params : IcmpEchoParams)

def lenW : Nat := Nat.clog 2 (params.maxLen + 1)

def lenMax : BitVec params.lenW := .ofNat _ params.maxLen

end IcmpEchoParams

/-- The inputs of `icmp_echo` in one cycle. -/
structure IcmpEchoIn where
  icmpRxData : BitVec 8
  icmpRxValid : Bool
  icmpRxLast : Bool
  icmpRxErr : Bool
  icmpRxSrcIp : BitVec 32
  rxSrcMac : BitVec 48
  txReady : Bool
deriving Repr, DecidableEq

/-- `new_csum_raw` and `new_csum`: type 8 is gone from the sum. -/
def icmpNewCsum (origCsum : BitVec 16) : BitVec 16 :=
  let newCsumRaw : BitVec 17 := origCsum.setWidth 17 + 0x0800
  newCsumRaw.extractLsb' 0 16 + (newCsumRaw.extractLsb' 16 1).setWidth 16

inductive IcmpTxState where
  | idle | ethHdr | ipHdr | icmp
deriving Repr, DecidableEq

/-- The registers of the receive blocks. -/
structure IcmpRx (params : IcmpEchoParams) where
  icmpBuf : BitVec params.lenW → BitVec 8
  origCsum : BitVec 16
  icmpLen : BitVec params.lenW
  rxCnt : BitVec params.lenW
  rxOvf : Bool
  rxInPkt : Bool
  rxDrop : Bool
  isEchoReq : Bool
  pktReady : Bool
  replyDstIp : BitVec 32
  replyDstMac : BitVec 48

/-- The registers of the transmit state machine. -/
structure IcmpTx (params : IcmpEchoParams) where
  txState : IcmpTxState
  txCnt : BitVec 6
  icmpTxCnt : BitVec params.lenW
  replyActive : Bool
  srcValid : Bool
  srcLast : Bool
  txStart : Bool
  ipIdCnt : BitVec 16
  ipCsumAcc : BitVec 32

structure IcmpEcho (params : IcmpEchoParams) where
  rx : IcmpRx params
  tx : IcmpTx params
  slice : OutSlice (BitVec 8)

namespace IcmpRx

variable {params : IcmpEchoParams} (rx : IcmpRx params) (replyActive : Bool) (i : IcmpEchoIn)

def reset : IcmpRx params := ⟨fun _ => 0, 0, 0, 0, false, false, false, false, false, 0, 0⟩

def rxBusy : Bool := rx.pktReady || replyActive

def rxSop : Bool := i.icmpRxValid && !rx.rxInPkt

def rxSkip : Bool := if rx.rxSop i then rx.rxBusy replyActive else rx.rxDrop

def rxStore : Bool := i.icmpRxValid && !rx.rxSkip replyActive i && rx.rxCnt != params.lenMax

def rxOvfNow : Bool :=
  rx.rxOvf || (i.icmpRxValid && !rx.rxSkip replyActive i && rx.rxCnt == params.lenMax)

/-- The last byte of a request that is to be answered. -/
def rxAccept : Bool :=
  i.icmpRxValid && i.icmpRxLast && !rx.rxSkip replyActive i && !rx.rxOvfNow replyActive i &&
    rx.isEchoReq && !i.icmpRxErr && 8 ≤ rx.rxCnt + 1

/-- The two receive blocks at a rising edge of `clk`. -/
def clkEdge : IcmpRx params where
  icmpBuf :=
    if rx.rxStore replyActive i then Function.update rx.icmpBuf rx.rxCnt i.icmpRxData
    else rx.icmpBuf
  origCsum :=
    if rx.rxStore replyActive i && rx.rxCnt == 2 then
      i.icmpRxData ++ (rx.origCsum.extractLsb' 0 8 : BitVec 8)
    else if rx.rxStore replyActive i && rx.rxCnt == 3 then
      (rx.origCsum.extractLsb' 8 8 : BitVec 8) ++ i.icmpRxData
    else rx.origCsum
  rxDrop := if rx.rxSop i then rx.rxBusy replyActive else rx.rxDrop
  rxInPkt := if i.icmpRxValid then !i.icmpRxLast else rx.rxInPkt
  rxCnt :=
    if i.icmpRxValid && i.icmpRxLast then 0
    else if rx.rxStore replyActive i then rx.rxCnt + 1
    else rx.rxCnt
  isEchoReq :=
    if rx.rxStore replyActive i then
      if rx.rxCnt = 0 then i.icmpRxData == 0x08
      else if rx.rxCnt = 1 then rx.isEchoReq && i.icmpRxData == 0x00
      else rx.isEchoReq
    else rx.isEchoReq
  rxOvf := if i.icmpRxValid then !i.icmpRxLast && rx.rxOvfNow replyActive i else rx.rxOvf
  icmpLen := if rx.rxAccept replyActive i then rx.rxCnt + 1 else rx.icmpLen
  pktReady := rx.rxAccept replyActive i
  replyDstIp := if rx.rxAccept replyActive i then i.icmpRxSrcIp else rx.replyDstIp
  replyDstMac := if rx.rxAccept replyActive i then i.rxSrcMac else rx.replyDstMac

def ipTotalLen : BitVec 16 := 20 + rx.icmpLen.setWidth 16

def newCsum : BitVec 16 := icmpNewCsum rx.origCsum

end IcmpRx

namespace IcmpEcho

variable {params : IcmpEchoParams}

def reset : IcmpEcho params :=
  ⟨.reset, ⟨.idle, 0, 0, false, false, false, false, 1000, 0⟩, ⟨0, false, false⟩⟩

section Edge

variable (our : NetOur) (echo : IcmpEcho params) (i : IcmpEchoIn)

def txDataMux : BitVec 8 :=
  let rx := echo.rx
  let tx := echo.tx
  match tx.txState with
  | .idle => 0
  | .ethHdr => (ethHeader rx.replyDstMac our.mac).getD tx.txCnt.toNat 0
  | .ipHdr =>
      (ipHeader rx.ipTotalLen tx.ipIdCnt 0x01 (ipHdrChecksum tx.ipCsumAcc) our.ip
        rx.replyDstIp).getD tx.txCnt.toNat 0
  | .icmp =>
      if tx.icmpTxCnt = 0 ∨ tx.icmpTxCnt = 1 then 0
      else if tx.icmpTxCnt = 2 then rx.newCsum.extractLsb' 8 8
      else if tx.icmpTxCnt = 3 then rx.newCsum.extractLsb' 0 8
      else rx.icmpBuf tx.icmpTxCnt

/-- The transmit state machine at a rising edge of `clk`. -/
def txEdge : IcmpTx params :=
  let rx := echo.rx
  let tx := echo.tx
  let srcReady := echo.slice.ready i.txReady
  let next :=
    { tx with
      txStart := if i.txReady && echo.slice.valid then false else tx.txStart
      srcLast := if srcReady then false else tx.srcLast }
  match tx.txState with
  | .idle =>
      if rx.pktReady && !tx.replyActive then
        { next with
          txState := .ethHdr
          txCnt := 0
          replyActive := true
          txStart := true
          srcValid := true
          ipIdCnt := tx.ipIdCnt + 1
          ipCsumAcc := ipCsumSum rx.ipTotalLen (tx.ipIdCnt + 1) 0x01 our.ip rx.replyDstIp }
      else { next with srcValid := false }
  | .ethHdr =>
      let next := { next with srcValid := true }
      if srcReady && tx.srcValid then
        if tx.txCnt = 13 then { next with txState := .ipHdr, txCnt := 0 }
        else { next with txCnt := tx.txCnt + 1 }
      else next
  | .ipHdr =>
      let next := { next with srcValid := true }
      if srcReady && tx.srcValid then
        if tx.txCnt = 19 then { next with txState := .icmp, txCnt := 0, icmpTxCnt := 0 }
        else { next with txCnt := tx.txCnt + 1 }
      else next
  | .icmp =>
      let next := { next with srcValid := true }
      if srcReady && tx.srcValid then
        let next :=
          { next with
            icmpTxCnt := tx.icmpTxCnt + 1
            srcLast := if tx.icmpTxCnt = rx.icmpLen - 2 then true else next.srcLast }
        if tx.icmpTxCnt = rx.icmpLen - 1 then
          { next with txState := .idle, replyActive := false, srcValid := false }
        else next
      else next

/-- What the state machine offers to the output register. -/
def offer : OutSlice (BitVec 8) := ⟨echo.txDataMux our, echo.tx.srcValid, echo.tx.srcLast⟩

/-- A rising edge of `clk`. -/
def clkEdge : IcmpEcho params where
  rx := echo.rx.clkEdge echo.tx.replyActive i
  tx := echo.txEdge our i
  slice := echo.slice.clkEdge (echo.offer our) i.txReady

end Edge

end IcmpEcho

/-! What an answer is. -/

/-- An echo request that is to be answered, with its sender. -/
structure IcmpRequest where
  bytes : List (BitVec 8)
  srcMac : BitVec 48
  srcIp : BitVec 32
deriving Repr, DecidableEq

/-- The frame answers the request: addressed to its sender, with the lengths and the
checksum of its IPv4 header, type 0, the request's other bytes, and a checksum that is
valid when the request's is. -/
structure IcmpAnswers (our : NetOur) (request : IcmpRequest) (frame : List (BitVec 8)) :
    Prop where
  length : frame.length = 34 + request.bytes.length
  ethernet : slice frame 0 14 = ethHeader request.srcMac our.mac
  version : slice frame 14 16 = [0x45, 0x00]
  total : (wordAt frame 16).toNat = 20 + request.bytes.length
  protocol : byteAt frame 23 = 0x01
  source : slice frame 26 30 = ipBytes our.ip
  destination : slice frame 30 34 = ipBytes request.srcIp
  header : onesFold 16 (wordSum (slice frame 14 34)) = 65535
  type : byteAt frame 34 = 0
  code : byteAt frame 35 = byteAt request.bytes 1
  rest : frame.drop 38 = request.bytes.drop 4
  checksum : onesFold 16 (wordSum request.bytes) = 65535 →
    onesFold 16 (wordSum (frame.drop 34)) = 65535

/-- The responder, the message that is arriving, whether it came while no reply was
pending or active, the requests that are to be answered and what is out. -/
structure IcmpEchoBench (params : IcmpEchoParams) where
  echo : IcmpEcho params
  current : List (BitVec 8)
  taken : Bool
  requests : List IcmpRequest
  sent : FrameLog (BitVec 8)

namespace IcmpEchoBench

variable {params : IcmpEchoParams}

def start : IcmpEchoBench params := ⟨.reset, [], false, [], .empty⟩

section Step

variable (our : NetOur) (bench : IcmpEchoBench params) (i : IcmpEchoIn)

/-- A reply is pending or active: not all of it has come into the output register. -/
def replying : Bool :=
  (bench.echo.slice.pour bench.sent).whole.length < bench.requests.length

def takenNow : Bool := if bench.current.isEmpty then !bench.replying else bench.taken

def arrived : List (BitVec 8) := bench.current ++ [i.icmpRxData]

/-- The last byte of an echo request that is to be answered. -/
def Requests : Prop :=
  i.icmpRxValid = true ∧ i.icmpRxLast = true ∧ bench.takenNow = true ∧ i.icmpRxErr = false ∧
    (bench.arrived i).take 2 = [0x08, 0x00] ∧
    8 ≤ (bench.arrived i).length ∧ (bench.arrived i).length ≤ params.maxLen

instance : Decidable (bench.Requests i) := inferInstanceAs (Decidable (_ ∧ _))

def step : IcmpEchoBench params where
  echo := bench.echo.clkEdge our i
  current :=
    if i.icmpRxValid then if i.icmpRxLast then [] else bench.arrived i else bench.current
  taken := if i.icmpRxValid then bench.takenNow else bench.taken
  requests :=
    if bench.Requests i then
      bench.requests ++ [⟨bench.arrived i, i.rxSrcMac, i.icmpRxSrcIp⟩]
    else bench.requests
  sent := bench.echo.slice.take bench.sent i.txReady

end Step

end IcmpEchoBench

end EmacZero
