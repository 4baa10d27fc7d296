/-
`udp_echo`: one buffered UDP payload, sent back to where it came from.
-/
import EmacZero.FrameReplier
import EmacZero.NetFrames
import EmacZero.UdpRx
import Mathlib.Data.Nat.Log

namespace EmacZero

/-- `BUF_SIZE`, of payloads that an IPv4 datagram can carry, and `LISTEN_PORT`. -/
structure UdpEchoParams where
  bufSize : Nat
  listenPort : BitVec 16
  one_lt : 1 < bufSize
  le_max : bufSize ≤ 65507

namespace UdpEchoParams

variable (params : UdpEchoParams)

def addrW : Nat := Nat.clog 2 params.bufSize

/-- `BUF_SIZE[ADDR_W:0]` -/
def bufMax : BitVec (params.addrW + 1) := .ofNat _ params.bufSize

/-- The port is the one that is listened to. -/
def listens (port : BitVec 16) : Bool := params.listenPort == 0 || port == params.listenPort

end UdpEchoParams

/-- The inputs of `udp_echo` in one cycle. -/
structure UdpEchoIn where
  rx : UdpRxIn
  txReady : Bool
deriving Repr, DecidableEq

inductive UdpEchoState where
  | idle | ethHdr | ipHdr | udpHdr | payload
deriving Repr, DecidableEq

/-- The registers of the receive block. -/
structure UdpEchoRx (params : UdpEchoParams) where
  udpBuf : BitVec params.addrW → BitVec 8
  payloadLen : BitVec (params.addrW + 1)
  rxCnt : BitVec (params.addrW + 1)
  pktReady : Bool
  rxAccept : Bool
  replyDstIp : BitVec 32
  replyDstMac : BitVec 48
  replyDstPort : BitVec 16
  replySrcPort : BitVec 16

/-- The registers of the transmit state machine. -/
structure UdpEchoTx (params : UdpEchoParams) where
  txState : UdpEchoState
  txCnt : BitVec 6
  payloadTxCnt : BitVec (params.addrW + 1)
  replyActive : Bool
  srcValid : Bool
  srcLast : Bool
  txStart : Bool
  ipIdCnt : BitVec 16
  ipCsumAcc : BitVec 32

structure UdpEcho (params : UdpEchoParams) where
  rx : UdpEchoRx params
  tx : UdpEchoTx params
  slice : OutSlice (BitVec 8)

namespace UdpEchoRx

variable {params : UdpEchoParams} (rx : UdpEchoRx params) (replyActive : Bool) (i : UdpRxIn)

def reset : UdpEchoRx params := ⟨fun _ => 0, 0, 0, false, false, 0, 0, 0, 0⟩

/-- The byte is dropped. -/
def drops : Bool :=
  replyActive || rx.pktReady ||
    (rx.rxCnt == 0 && params.listenPort != 0 && i.source.dstPort != params.listenPort) ||
    (rx.rxCnt != 0 && !rx.rxAccept)

/-- The last byte of a payload that is to be echoed. -/
def accepts : Bool :=
  i.valid && !rx.drops replyActive i && i.last && !i.err && rx.rxCnt + 1 ≤ params.bufMax

/-- The receive block at a rising edge of `clk`. -/
def clkEdge : UdpEchoRx params :=
  let next := { rx with pktReady := rx.accepts replyActive i }
  if i.valid then
    let next :=
      { next with
        rxAccept :=
          if i.last then false
          else if rx.rxCnt = 0 then params.listens i.source.dstPort
          else rx.rxAccept }
    if rx.drops replyActive i then { next with rxCnt := if i.last then 0 else rx.rxCnt }
    else
      let next :=
        { next with
          udpBuf :=
            if rx.rxCnt < params.bufMax then
              Function.update rx.udpBuf (rx.rxCnt.extractLsb' 0 params.addrW) i.data
            else rx.udpBuf
          rxCnt := if i.last then 0 else rx.rxCnt + 1
          payloadLen := if i.last then rx.rxCnt + 1 else rx.payloadLen }
      if rx.accepts replyActive i then
        { next with
          replyDstIp := i.source.srcIp
          replyDstMac := i.source.srcMac
          replyDstPort := i.source.srcPort
          replySrcPort := i.source.dstPort }
      else next
  else next

def ipTotalLen : BitVec 16 := 28 + rx.payloadLen.setWidth 16

def udpTotalLen : BitVec 16 := 8 + rx.payloadLen.setWidth 16

end UdpEchoRx

namespace UdpEcho

variable {params : UdpEchoParams}

def reset : UdpEcho params :=
  ⟨.reset, ⟨.idle, 0, 0, false, false, false, false, 2000, 0⟩, ⟨0, false, false⟩⟩

section Edge

variable (our : NetOur) (echo : UdpEcho params) (txReady : Bool)

def txDataMux : BitVec 8 :=
  let rx := echo.rx
  let tx := echo.tx
  match tx.txState with
  | .idle => 0
  | .ethHdr => (ethHeader rx.replyDstMac our.mac).getD tx.txCnt.toNat 0
  | .ipHdr =>
      (ipHeader rx.ipTotalLen tx.ipIdCnt 0x11 (ipHdrChecksum tx.ipCsumAcc) our.ip
        rx.replyDstIp).getD tx.txCnt.toNat 0
  | .udpHdr =>
      (udpHeader rx.replySrcPort rx.replyDstPort rx.udpTotalLen).getD tx.txCnt.toNat 0
  | .payload => rx.udpBuf (tx.payloadTxCnt.extractLsb' 0 params.addrW)

/-- The transmit state machine at a rising edge of `clk`. -/
def txEdge : UdpEchoTx params :=
  let rx := echo.rx
  let tx := echo.tx
  let srcReady := echo.slice.ready txReady
  let next :=
    { tx with
      txStart := if txReady && echo.slice.valid then false else tx.txStart
      srcLast := if srcReady then false else tx.srcLast }
  match tx.txState with
  | .idle =>
      if rx.pktReady && !tx.replyActive then
        { next with
          txState := .ethHdr
          txCnt := 0
          replyActive := true
          txStart := true
          srcValid := true
          ipIdCnt := tx.ipIdCnt + 1
          ipCsumAcc := ipCsumSum rx.ipTotalLen (tx.ipIdCnt + 1) 0x11 our.ip rx.replyDstIp }
      else { next with srcValid := false }
  | .ethHdr =>
      let next := { next with srcValid := true }
      if srcReady && tx.srcValid then
        if tx.txCnt = 13 then { next with txState := .ipHdr, txCnt := 0 }
        else { next with txCnt := tx.txCnt + 1 }
      else next
  | .ipHdr =>
      let next := { next with srcValid := true }
      if srcReady && tx.srcValid then
        if tx.txCnt = 19 then { next with txState := .udpHdr, txCnt := 0 }
        else { next with txCnt := tx.txCnt + 1 }
      else next
  | .udpHdr =>
      let next := { next with srcValid := true }
      if srcReady && tx.srcValid then
        if tx.txCnt = 7 then
          { next with
            srcLast := if rx.payloadLen = 1 then true else next.srcLast
            txState := .payload
            txCnt := 0
            payloadTxCnt := 0 }
        else { next with txCnt := tx.txCnt + 1 }
      else next
  | .payload =>
      let next := { next with srcValid := true }
      if srcReady && tx.srcValid then
        -- the comparisons are made in the 32 bits of an integer literal
        let next :=
          { next with
            payloadTxCnt := tx.payloadTxCnt + 1
            srcLast :=
              if tx.payloadTxCnt.setWidth 32 = rx.payloadLen.setWidth 32 - 2 then true
              else next.srcLast }
        if tx.payloadTxCnt.setWidth 32 = rx.payloadLen.setWidth 32 - 1 then
          { next with txState := .idle, replyActive := false, srcValid := false }
        else next
      else next

/-- What the state machine offers to the output register. -/
def offer : OutSlice (BitVec 8) := ⟨echo.txDataMux our, echo.tx.srcValid, echo.tx.srcLast⟩

/-- A rising edge of `clk`. -/
def clkEdge (i : UdpRxIn) : UdpEcho params where
  rx := echo.rx.clkEdge echo.tx.replyActive i
  tx := echo.txEdge our txReady
  slice := echo.slice.clkEdge (echo.offer our) txReady

end Edge

end UdpEcho

/-! What an echo is. -/

/-- A payload that is to be echoed, with where it came from. -/
structure UdpDatagram where
  payload : List (BitVec 8)
  source : UdpSource
deriving Repr, DecidableEq

/-- The frame carries the datagram's payload back to its sender. -/
def UdpEchoes (our : NetOur) (datagram : UdpDatagram) (frame : List (BitVec 8)) : Prop :=
  CarriesUdp our datagram.source.srcMac datagram.source.srcIp datagram.source.dstPort
    datagram.source.srcPort datagram.payload frame

/-- The responder, the datagram that is arriving, what of it has come while no reply was
pending or active, the datagrams that are to be echoed and what is out. -/
structure UdpEchoBench (params : UdpEchoParams) where
  echo : UdpEcho params
  feed : UdpFeed
  heard : List (BitVec 8)
  requests : List UdpDatagram
  sent : FrameLog (BitVec 8)

namespace UdpEchoBench

variable {params : UdpEchoParams}

def start : UdpEchoBench params := ⟨.reset, ⟨⟨0, 0, 0, 0, 0⟩, []⟩, [], [], .empty⟩

section Step

variable (our : NetOur) (bench : UdpEchoBench params) (i : UdpEchoIn)

/-- A reply is pending or active: not all of it has come into the output register. -/
def replying : Bool :=
  (bench.echo.slice.pour bench.sent).whole.length < bench.requests.length

def heardNow : List (BitVec 8) :=
  if bench.replying then bench.heard else bench.heard ++ [i.rx.data]

/-- The last byte of a datagram for the port, without an error. -/
def Ends : Prop :=
  i.rx.valid = true ∧ i.rx.last = true ∧ i.rx.err = false ∧
    params.listens (bench.feed.drive i.rx).source.dstPort = true

instance : Decidable (bench.Ends i) := inferInstanceAs (Decidable (_ ∧ _))

/-- The last byte of a datagram that is to be echoed: it fits, and all of it came while
no reply was pending or active. -/
def Requests : Prop :=
  bench.Ends i ∧ (bench.heardNow i).length = (bench.feed.arrived i.rx).length ∧
    (bench.feed.arrived i.rx).length ≤ params.bufSize

instance : Decidable (bench.Requests i) := inferInstanceAs (Decidable (_ ∧ _))

def step : UdpEchoBench params where
  echo := bench.echo.clkEdge our i.txReady (bench.feed.drive i.rx)
  feed := bench.feed.next i.rx
  heard := if i.rx.valid then if i.rx.last then [] else bench.heardNow i else bench.heard
  requests :=
    if bench.Requests i then
      bench.requests ++ [⟨bench.feed.arrived i.rx, (bench.feed.drive i.rx).source⟩]
    else bench.requests
  sent := bench.echo.slice.take bench.sent i.txReady

/-- A datagram for the port that ends without an error while no reply is pending or active,
and of which so many bytes came since the last reply that their number fits the buffer
modulo the count's range, fits the buffer and came since then as a whole. -/
def Fits : Prop :=
  bench.Ends i → bench.replying = false →
    (bench.heardNow i).length % 2 ^ (params.addrW + 1) ≤ params.bufSize →
    (bench.heardNow i).length = (bench.feed.arrived i.rx).length ∧
      (bench.feed.arrived i.rx).length ≤ params.bufSize

instance : Decidable (bench.Fits i) := inferInstanceAs (Decidable (_ → _))

end Step

end UdpEchoBench

end EmacZero
