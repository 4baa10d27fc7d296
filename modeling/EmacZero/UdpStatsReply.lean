/-
`udp_stats_reply`: queries for the statistics of the UDP sink, the reply with a snapshot
of them, and the command that clears them.
-/
import EmacZero.FrameReplier
import EmacZero.NetFrames
import EmacZero.UdpRx

namespace EmacZero

/-- The `stat_*` inputs. -/
structure UdpStats where
  packets : BitVec 32
  bytes : BitVec 32
  firstSeq : BitVec 32
  lastSeq : BitVec 32
  seqGaps : BitVec 32
  outOfOrder : BitVec 32
  finalPackets : BitVec 32
  lastSrcIp : BitVec 32
  lastSrcPort : BitVec 16
deriving Repr, DecidableEq

/-- The payload of a reply: "IPS0", the statistics, two reserved bytes and "DONE". -/
def statsPayload (stats : UdpStats) : List (BitVec 8) :=
  [0x49, 0x50, 0x53, 0x30] ++ ipBytes stats.packets ++ ipBytes stats.bytes ++
    ipBytes stats.firstSeq ++ ipBytes stats.lastSeq ++ ipBytes stats.seqGaps ++
    ipBytes stats.outOfOrder ++ ipBytes stats.finalPackets ++ ipBytes stats.lastSrcIp ++
    wordBytes stats.lastSrcPort ++ [0x00, 0x00] ++ [0x44, 0x4f, 0x4e, 0x45]

/-- The inputs of `udp_stats_reply` in one cycle. -/
structure StatsReplyIn where
  rx : UdpRxIn
  stats : UdpStats
  txReady : Bool
deriving Repr, DecidableEq

inductive StatsRxState where
  | idle | drain | capture
deriving Repr, DecidableEq

inductive StatsTxState where
  | idle | ethHdr | ipHdr | udp
deriving Repr, DecidableEq

/-- The registers of the query parser. -/
structure StatsReplyRx where
  pktReady : Bool
  queryIsClear : Bool
  replyDstIp : BitVec 32
  replyDstMac : BitVec 48
  replyDstPort : BitVec 16
  rxState : StatsRxState
  clearStats : Bool
  lat : UdpStats
deriving Repr, DecidableEq

/-- The registers of the transmit state machine. -/
structure StatsReplyTx where
  txState : StatsTxState
  txCnt : BitVec 6
  replyActive : Bool
  srcValid : Bool
  srcLast : Bool
  txStart : Bool
  ipIdCnt : BitVec 16
  ipCsumAcc : BitVec 32
deriving Repr, DecidableEq

structure StatsReply where
  rx : StatsReplyRx
  tx : StatsReplyTx
  slice : OutSlice (BitVec 8)

namespace StatsReplyRx

variable (statsPort : BitVec 16) (rx : StatsReplyRx) (replyActive replyTake : Bool)
  (i : UdpRxIn) (stats : UdpStats)

def reset : StatsReplyRx := ⟨false, false, 0, 0, 0, .idle, false, ⟨0, 0, 0, 0, 0, 0, 0, 0, 0⟩⟩

def queryClearNext : Bool :=
  if rx.rxState = .idle then i.data == 0x43 else rx.queryIsClear

def doLatchQuery : Bool :=
  i.valid && !i.err &&
    ((rx.rxState == .idle && i.source.dstPort == statsPort && i.last) ||
      (rx.rxState == .capture && i.last))

/-- The last byte of a query that is taken. -/
def accepts : Bool :=
  !replyTake && (i.valid && !replyActive && !rx.pktReady) && rx.doLatchQuery statsPort i

/-- The query parser at a rising edge of `clk`. -/
def clkEdge : StatsReplyRx :=
  let next := { rx with clearStats := false }
  let next :=
    if replyTake then { next with pktReady := false }
    else if i.valid && !replyActive && !rx.pktReady then
      if rx.doLatchQuery statsPort i then
        { next with
          pktReady := true
          replyDstIp := i.source.srcIp
          replyDstMac := i.source.srcMac
          replyDstPort := i.source.srcPort
          lat := stats
          clearStats := rx.queryClearNext i
          queryIsClear := false
          rxState := .idle }
      else
        match rx.rxState with
        | .idle =>
            if i.source.dstPort = statsPort then
              { next with queryIsClear := i.data == 0x43, rxState := .capture }
            else { next with rxState := if i.last then .idle else .drain }
        | .capture => next
        | .drain => if i.last then { next with rxState := .idle } else next
    else if i.valid && i.last then { next with rxState := .idle, queryIsClear := false }
    else next
  if i.valid && i.last && i.err then { next with rxState := .idle, queryIsClear := false }
  else next

end StatsReplyRx

namespace StatsReply

/-- `IP_TOTAL_LEN` -/
def ipTotalLen : BitVec 16 := 72

/-- `UDP_TOTAL_LEN` -/
def udpTotalLen : BitVec 16 := 52

def reset : StatsReply where
  rx := .reset
  tx := ⟨.idle, 0, false, false, false, false, 5000, 0⟩
  slice := ⟨0, false, false⟩

section Edge

variable (our : NetOur) (statsPort : BitVec 16) (reply : StatsReply) (txReady : Bool)

def replyTake : Bool :=
  reply.tx.txState == .idle && reply.rx.pktReady && !reply.tx.replyActive

def txDataMux : BitVec 8 :=
  let rx := reply.rx
  let tx := reply.tx
  match tx.txState with
  | .idle => 0
  | .ethHdr => (ethHeader rx.replyDstMac our.mac).getD tx.txCnt.toNat 0
  | .ipHdr =>
      (ipHeader ipTotalLen tx.ipIdCnt 0x11 (ipHdrChecksum tx.ipCsumAcc) our.ip
        rx.replyDstIp).getD tx.txCnt.toNat 0
  | .udp =>
      (udpHeader statsPort rx.replyDstPort udpTotalLen ++ statsPayload rx.lat).getD
        tx.txCnt.toNat 0

/-- The transmit state machine at a rising edge of `clk`. -/
def txEdge : StatsReplyTx :=
  let rx := reply.rx
  let tx := reply.tx
  let srcReady := reply.slice.ready txReady
  let next :=
    { tx with
      txStart := if txReady && reply.slice.valid then false else tx.txStart
      srcLast := if srcReady then false else tx.srcLast }
  match tx.txState with
  | .idle =>
      let next := { next with srcValid := false }
      if reply.replyTake then
        { next with
          txState := .ethHdr
          txCnt := 0
          replyActive := true
          srcValid := true
          txStart := true
          ipIdCnt := tx.ipIdCnt + 1
          ipCsumAcc := ipCsumSum ipTotalLen (tx.ipIdCnt + 1) 0x11 our.ip rx.replyDstIp }
      else next
  | .ethHdr =>
      let next := { next with srcValid := true }
      if srcReady && tx.srcValid then
        if tx.txCnt = 13 then { next with txState := .ipHdr, txCnt := 0 }
        else { next with txCnt := tx.txCnt + 1 }
      else next
  | .ipHdr =>
      let next := { next with srcValid := true }
      if srcReady && tx.srcValid then
        if tx.txCnt = 19 then { next with txState := .udp, txCnt := 0 }
        else { next with txCnt := tx.txCnt + 1 }
      else next
  | .udp =>
      let next := { next with srcValid := true }
      if srcReady && tx.srcValid then
        let next :=
          { next with
            txCnt := tx.txCnt + 1
            srcLast := if tx.txCnt = 50 then true else next.srcLast }
        if tx.txCnt = 51 then
          { next with txState := .idle, replyActive := false, srcValid := false }
        else next
      else next

/-- What the state machine offers to the output register. -/
def offer : OutSlice (BitVec 8) :=
  ⟨reply.txDataMux our statsPort, reply.tx.srcValid, reply.tx.srcLast⟩

/-- A rising edge of `clk`. -/
def clkEdge (i : UdpRxIn) (stats : UdpStats) : StatsReply where
  rx := reply.rx.clkEdge statsPort reply.tx.replyActive reply.replyTake i stats
  tx := reply.txEdge our txReady
  slice := reply.slice.clkEdge (reply.offer our statsPort) txReady

end Edge

end StatsReply

/-! What a reply is. -/

/-- A query that is to be answered, with where it came from and the statistics as they were
at its last byte. -/
structure StatsQuery where
  payload : List (BitVec 8)
  source : UdpSource
  stats : UdpStats
deriving Repr, DecidableEq

/-- The command to clear the statistics. -/
def StatsQuery.clears (query : StatsQuery) : Bool := query.payload.head? == some 0x43

/-- The frame carries the statistics to the sender of the query. -/
def StatsAnswers (our : NetOur) (statsPort : BitVec 16) (query : StatsQuery)
    (frame : List (BitVec 8)) : Prop :=
  CarriesUdp our query.source.srcMac query.source.srcIp statsPort query.source.srcPort
    (statsPayload query.stats) frame

/-- The responder, the datagram that is arriving, what of it has come while no reply was
pending or active, the queries that are to be answered, what is out, and the cycles in
which `clear_stats` was high. -/
structure StatsBench where
  reply : StatsReply
  feed : UdpFeed
  heard : List (BitVec 8)
  requests : List StatsQuery
  sent : FrameLog (BitVec 8)
  cleared : Nat

namespace StatsBench

def start : StatsBench := ⟨.reset, ⟨⟨0, 0, 0, 0, 0⟩, []⟩, [], [], .empty, 0⟩

section Step

variable (our : NetOur) (statsPort : BitVec 16) (bench : StatsBench) (i : StatsReplyIn)

/-- A reply is pending or active: not all of it has come into the output register. -/
def replying : Bool :=
  (bench.reply.slice.pour bench.sent).whole.length < bench.requests.length

def heardNow : List (BitVec 8) :=
  if bench.replying then bench.heard else bench.heard ++ [i.rx.data]

/-- The last byte of a datagram for the port, without an error. -/
def Ends : Prop :=
  i.rx.valid = true ∧ i.rx.last = true ∧ i.rx.err = false ∧
    (bench.feed.drive i.rx).source.dstPort = statsPort

instance : Decidable (bench.Ends statsPort i) := inferInstanceAs (Decidable (_ ∧ _))

/-- The last byte of a query that is to be answered: all of it came while no reply was
pending or active. -/
def Requests : Prop :=
  bench.Ends statsPort i ∧ (bench.heardNow i).length = (bench.feed.arrived i.rx).length

instance : Decidable (bench.Requests statsPort i) := inferInstanceAs (Decidable (_ ∧ _))

def step : StatsBench :=
  let reply := bench.reply.clkEdge our statsPort i.txReady (bench.feed.drive i.rx) i.stats
  { reply := reply
    feed := bench.feed.next i.rx
    heard := if i.rx.valid then if i.rx.last then [] else bench.heardNow i else bench.heard
    requests :=
      if bench.Requests statsPort i then
        bench.requests ++ [⟨bench.feed.arrived i.rx, (bench.feed.drive i.rx).source, i.stats⟩]
      else bench.requests
    sent := bench.reply.slice.take bench.sent i.txReady
    cleared := if reply.rx.clearStats then bench.cleared + 1 else bench.cleared }

/-- A datagram for the port that ends without an error while no reply is pending or active
came as a whole since the last reply. -/
def Whole : Prop :=
  bench.Ends statsPort i → bench.replying = false →
    (bench.heardNow i).length = (bench.feed.arrived i.rx).length

instance : Decidable (bench.Whole statsPort i) := inferInstanceAs (Decidable (_ → _))

end Step

end StatsBench

end EmacZero
