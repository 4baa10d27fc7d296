/-
`udp_blast`: a generator of UDP datagrams with the header that iperf2 gives its own,
frame after frame while it is enabled.
-/
import EmacZero.FrameSender
import EmacZero.NetFrames

namespace EmacZero

/-- `START_DELAY_CYCLES` and `USEC_TICK_CYCLES`. -/
structure UdpBlastParams where
  startDelayCycles : BitVec 32
  usecTickCycles : BitVec 7

/-- The addresses and ports. -/
structure BlastTarget where
  our : NetOur
  dstMac : BitVec 48
  dstIp : BitVec 32
  dstPort : BitVec 16
  srcPort : BitVec 16
deriving Repr, DecidableEq

/-- The inputs of `udp_blast` in one cycle. -/
structure UdpBlastIn where
  target : BlastTarget
  payloadSize : BitVec 14
  enable : Bool
  interFrameDelay : BitVec 24
  txReady : Bool
deriving Repr, DecidableEq

inductive BlastTxState where
  | idle | ethHdr | ipHdr | udpHdr | iperfHdr | payload
deriving Repr, DecidableEq

/-- The registers of the transmit state machine that belong to a frame. -/
structure UdpBlastTx where
  txState : BlastTxState
  hdrCnt : BitVec 6
  bodyCnt : BitVec 14
  payloadLat : BitVec 14
  ipIdLat : BitVec 16
  ipCsumAcc : BitVec 32
  tsSecLat : BitVec 32
  tsUsecLat : BitVec 32
  srcValid : Bool
  srcLast : Bool
  txStart : Bool
deriving Repr, DecidableEq

/-- The registers that go on from frame to frame. -/
structure UdpBlastCnt where
  gapCnt : BitVec 24
  startDelayCnt : BitVec 32
  enableD : Bool
  ipIdCnt : BitVec 16
  seqCnt : BitVec 32
  usecTickCnt : BitVec 7
  tsSecCnt : BitVec 32
  tsUsecCnt : BitVec 32
  pktsSent : BitVec 32
  pktDonePulse : Bool
deriving Repr, DecidableEq

structure UdpBlast where
  tx : UdpBlastTx
  cnt : UdpBlastCnt
  slice : OutSlice (BitVec 8)

namespace UdpBlast

def reset : UdpBlast where
  tx := ⟨.idle, 0, 0, 0, 1, 0, 0, 0, false, false, false⟩
  cnt := ⟨0, 0, false, 1, 0, 0, 0, 0, 0, false⟩
  slice := ⟨0, false, false⟩

section Edge

variable (params : UdpBlastParams) (blast : UdpBlast) (i : UdpBlastIn)

/-- `src_ready` -/
def srcReady : Bool := blast.slice.ready i.txReady

/-- `ip_total_len` -/
def ipTotalLen (payload : BitVec 14) : BitVec 16 := 28 + payload.setWidth 16

/-- `udp_total_len` -/
def udpTotalLen (payload : BitVec 14) : BitVec 16 := 8 + payload.setWidth 16

/-- A burst begins. -/
def enableRises : Bool := i.enable && !blast.cnt.enableD

/-- The start delay of a new burst is only latched in this cycle. -/
def latchesDelay : Bool := blast.enableRises i && params.startDelayCycles != 0

/-- A frame is begun. -/
def starts : Bool :=
  blast.tx.txState == .idle && blast.cnt.gapCnt == 0 && !blast.latchesDelay params i &&
    blast.cnt.startDelayCnt == 0 && i.enable

/-- The output register takes the last byte of a frame. -/
def ends : Bool :=
  blast.tx.txState == .payload && (blast.srcReady i && blast.tx.srcValid) &&
    blast.tx.bodyCnt == blast.tx.payloadLat - 1

def txDataMux : BitVec 8 :=
  let tx := blast.tx
  match tx.txState with
  | .idle => 0
  | .ethHdr => (ethHeader i.target.dstMac i.target.our.mac).getD tx.hdrCnt.toNat 0
  | .ipHdr =>
      (ipHeader (ipTotalLen tx.payloadLat) tx.ipIdLat 0x11 (ipHdrChecksum tx.ipCsumAcc)
        i.target.our.ip i.target.dstIp).getD tx.hdrCnt.toNat 0
  | .udpHdr =>
      (udpHeader i.target.srcPort i.target.dstPort (udpTotalLen tx.payloadLat)).getD
        tx.hdrCnt.toNat 0
  | .iperfHdr =>
      (ipBytes blast.cnt.seqCnt ++ ipBytes tx.tsSecLat ++ ipBytes tx.tsUsecLat).getD
        tx.hdrCnt.toNat 0
  | .payload => tx.bodyCnt.setWidth 8

/-- A header of `len` bytes; the state after it. -/
def headerEdge (next : UdpBlastTx) (len : BitVec 6) (after : UdpBlastTx) : UdpBlastTx :=
  if blast.srcReady i && blast.tx.srcValid then
    if blast.tx.hdrCnt = len - 1 then after else { next with hdrCnt := blast.tx.hdrCnt + 1 }
  else next

/-- The transmit state machine at a rising edge of `clk`. -/
def txEdge : UdpBlastTx :=
  let tx := blast.tx
  let next :=
    { tx with
      txStart := if i.txReady && blast.slice.valid then false else tx.txStart
      srcLast := if blast.srcReady i then false else tx.srcLast }
  match tx.txState with
  | .idle =>
      if blast.starts params i then
        { next with
          txState := .ethHdr
          hdrCnt := 0
          payloadLat := i.payloadSize
          ipIdLat := blast.cnt.ipIdCnt
          tsSecLat := blast.cnt.tsSecCnt
          tsUsecLat := blast.cnt.tsUsecCnt
          ipCsumAcc := ipCsumSum (ipTotalLen i.payloadSize) blast.cnt.ipIdCnt 0x11
            i.target.our.ip i.target.dstIp
          txStart := true
          srcValid := true }
      else { next with srcValid := false }
  | .ethHdr =>
      let next := { next with srcValid := true }
      blast.headerEdge i next 14 { next with txState := .ipHdr, hdrCnt := 0 }
  | .ipHdr =>
      let next := { next with srcValid := true }
      blast.headerEdge i next 20 { next with txState := .udpHdr, hdrCnt := 0 }
  | .udpHdr =>
      let next := { next with srcValid := true }
      blast.headerEdge i next 8 { next with txState := .iperfHdr, hdrCnt := 0 }
  | .iperfHdr =>
      let next := { next with srcValid := true }
      blast.headerEdge i next 12
        { next with txState := .payload, hdrCnt := tx.hdrCnt + 1, bodyCnt := 12 }
  | .payload =>
      let next := { next with srcValid := true }
      if blast.srcReady i && tx.srcValid then
        let next :=
          { next with
            bodyCnt := tx.bodyCnt + 1
            srcLast := if tx.bodyCnt = tx.payloadLat - 2 then true else next.srcLast }
        if tx.bodyCnt = tx.payloadLat - 1 then { next with txState := .idle, srcValid := false }
        else next
      else next

/-- The counters at a rising edge of `clk`. -/
def cntEdge : UdpBlastCnt :=
  let cnt := blast.cnt
  let idle := blast.tx.txState == .idle && cnt.gapCnt == 0 && !blast.latchesDelay params i
  let tick := cnt.usecTickCnt == params.usecTickCycles - 1
  let second := cnt.tsUsecCnt == 999999
  { gapCnt :=
      if blast.ends i then i.interFrameDelay
      else if blast.tx.txState == .idle && cnt.gapCnt != 0 then cnt.gapCnt - 1
      else cnt.gapCnt
    -- the countdown in the idle state comes last and overrides a burst that ends
    startDelayCnt :=
      if idle && cnt.startDelayCnt != 0 then cnt.startDelayCnt - 1
      else if !i.enable then 0
      else if !cnt.enableD then params.startDelayCycles
      else cnt.startDelayCnt
    enableD := i.enable
    ipIdCnt := if blast.starts params i then cnt.ipIdCnt + 1 else cnt.ipIdCnt
    seqCnt :=
      if blast.ends i then cnt.seqCnt + 1
      else if blast.enableRises i then 0
      else cnt.seqCnt
    usecTickCnt := if tick then 0 else cnt.usecTickCnt + 1
    tsSecCnt := if tick && second then cnt.tsSecCnt + 1 else cnt.tsSecCnt
    tsUsecCnt :=
      if tick then if second then 0 else cnt.tsUsecCnt + 1
      else cnt.tsUsecCnt
    pktsSent :=
      if blast.ends i then cnt.pktsSent + 1
      else if blast.enableRises i then 0
      else cnt.pktsSent
    pktDonePulse := blast.ends i }

/-- What the state machine offers to the output register. -/
def offer : OutSlice (BitVec 8) := ⟨blast.txDataMux i, blast.tx.srcValid, blast.tx.srcLast⟩

/-- A rising edge of `clk`. -/
def clkEdge : UdpBlast where
  tx := blast.txEdge params i
  cnt := blast.cntEdge params i
  slice := blast.slice.clkEdge (blast.offer i) i.txReady

end Edge

end UdpBlast

/-! What a frame is. -/

/-- A datagram as it was begun: the inputs of that cycle, and the counters that it carries. -/
structure BlastFrame where
  target : BlastTarget
  size : BitVec 14
  id : BitVec 16
  seq : BitVec 32
  sec : BitVec 32
  usec : BitVec 32
deriving Repr, DecidableEq

namespace BlastFrame

variable (frame : BlastFrame) (seq : BitVec 32)

/-- The iperf2 header with a sequence number, and a ramp. -/
def payload : List (BitVec 8) :=
  ipBytes seq ++ ipBytes frame.sec ++ ipBytes frame.usec ++
    (List.range (frame.size.toNat - 12)).map fun k => .ofNat 8 (12 + k)

def bytes : List (BitVec 8) :=
  udpFrame frame.target.our frame.id frame.target.dstMac frame.target.dstIp
    frame.target.srcPort frame.target.dstPort (frame.payload seq)

end BlastFrame

/-- The frame that is begun. -/
def UdpBlast.begins (blast : UdpBlast) (i : UdpBlastIn) : BlastFrame where
  target := i.target
  size := i.payloadSize
  id := blast.cnt.ipIdCnt
  seq := if blast.enableRises i then 0 else blast.cnt.seqCnt
  sec := blast.cnt.tsSecCnt
  usec := blast.cnt.tsUsecCnt

/-- The generator, the addresses and ports of the last cycle, the frames begun and what is
out. -/
structure UdpBlastBench where
  blast : UdpBlast
  held : BlastTarget
  started : List BlastFrame
  sent : FrameLog (BitVec 8)

namespace UdpBlastBench

def start : UdpBlastBench := ⟨.reset, ⟨⟨0, 0⟩, 0, 0, 0, 0⟩, [], .empty⟩

section Step

variable (params : UdpBlastParams) (bench : UdpBlastBench) (i : UdpBlastIn)

def step : UdpBlastBench where
  blast := bench.blast.clkEdge params i
  held := i.target
  started :=
    if bench.blast.starts params i then bench.started ++ [bench.blast.begins i]
    else bench.started
  sent := bench.blast.slice.take bench.sent i.txReady

/-- A frame is begun with at least 14 bytes of payload, and the addresses and ports do not
change during it. -/
def Steady : Prop :=
  (bench.blast.starts params i = true → 14 ≤ i.payloadSize.toNat) ∧
    (bench.blast.tx.txState ≠ .idle → i.target = bench.held)

instance : Decidable (bench.Steady params i) := inferInstanceAs (Decidable (_ ∧ _))

end Step

end UdpBlastBench

end EmacZero
