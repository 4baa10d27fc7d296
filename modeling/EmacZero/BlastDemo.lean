/-
The line-rate test of `zcu106_eth_demo`: the trigger, the latches of a burst and the
generator.
-/
import EmacZero.UdpBlastRun
import EmacZero.UdpBlastTrigger

namespace EmacZero

/-- The inputs of one cycle. -/
structure BlastDemoIn where
  rx : UdpRxIn
  txReady : Bool
deriving Repr, DecidableEq

/-- What is latched of a trigger. -/
structure BlastLatch where
  dstMac : BitVec 48
  dstIp : BitVec 32
  dstPort : BitVec 16
  srcPort : BitVec 16
  payload : BitVec 14
  ifgDelay : BitVec 24
deriving Repr, DecidableEq

structure BlastDemo where
  trigger : UdpBlastTrigger
  latch : BlastLatch
  remaining : BitVec 32
  txStartD : Bool
  inFrame : Bool
  blast : UdpBlast

namespace BlastDemo

/-- `u_blast_trigger` -/
def triggerParams : TriggerParams := ⟨9997, 5001, 1000000, 1472⟩

/-- `u_blast` -/
def blastParams (blastStartDelay : BitVec 32) : UdpBlastParams := ⟨blastStartDelay, 125⟩

def reset : BlastDemo :=
  ⟨.reset triggerParams, ⟨0, 0, 0, 0, 1472, 0⟩, 0, false, false, .reset⟩

section Edge

variable (our : NetOur) (blastStartDelay : BitVec 32) (demo : BlastDemo) (rx : UdpRxIn)
  (txReady : Bool)

/-- `blast_enable` -/
def enable : Bool := demo.remaining != 0

/-- `blast_busy` -/
def busy : Bool := demo.enable || demo.inFrame

/-- `blast_tx_start` rises. -/
def txStarts : Bool := demo.blast.tx.txStart && !demo.txStartD

def blastIn : UdpBlastIn where
  target := ⟨our, demo.latch.dstMac, demo.latch.dstIp, demo.latch.dstPort, demo.latch.srcPort⟩
  payloadSize := demo.latch.payload
  enable := demo.enable
  interFrameDelay := demo.latch.ifgDelay
  txReady := txReady

/-- A payload size that the generator takes, or 1472. -/
def clampPayload (payloadSize : BitVec 16) : BitVec 14 :=
  if payloadSize ≥ 18 && payloadSize ≤ 1472 then payloadSize.setWidth 14 else 1472

/-- A rising edge of `clk`. -/
def clkEdge : BlastDemo :=
  let ask := demo.trigger.ask
  let taken := demo.trigger.start && !demo.busy
  { trigger := demo.trigger.clkEdge triggerParams rx demo.busy
    latch :=
      if taken then
        { dstMac := ask.dstMac
          dstIp := ask.dstIp
          dstPort := ask.dstPort
          srcPort := ask.srcPort
          payload := clampPayload ask.payloadSize
          ifgDelay := ask.ifgDelay }
      else demo.latch
    remaining :=
      if taken then ask.packetCount
      else if demo.txStarts && demo.enable then demo.remaining - 1
      else demo.remaining
    txStartD := demo.blast.tx.txStart
    inFrame :=
      if demo.txStarts then true
      else if demo.blast.cnt.pktDonePulse then false
      else demo.inFrame
    blast := demo.blast.clkEdge (blastParams blastStartDelay) (demo.blastIn our txReady) }

end Edge

end BlastDemo

/-! What is to come out. -/

/-- A frame that is asked for. -/
structure WantedFrame where
  target : BlastTarget
  size : BitVec 14
  seq : BitVec 32
deriving Repr, DecidableEq

namespace BlastRequest

variable (our : NetOur) (request : BlastRequest)

/-- The number of frames: the packet count of the datagram, or 1000000. -/
def count : Nat := if request.field 3 7 = 0 then 1000000 else request.field 3 7

/-- The payload size of the datagram, or 1472. -/
def size : Nat :=
  if 18 ≤ request.field 9 11 ∧ request.field 9 11 ≤ 1472 then request.field 9 11 else 1472

/-- From the port that the datagram came to, to where it came from, on the port that it asks
for if it does. -/
def target : BlastTarget where
  our := our
  dstMac := request.source.srcMac
  dstIp := request.source.srcIp
  dstPort :=
    if request.field 7 9 = 0 then request.source.srcPort else .ofNat 16 (request.field 7 9)
  srcPort := request.source.dstPort

/-- The frame with this number. -/
def frame (number : Nat) : WantedFrame :=
  ⟨request.target our, .ofNat 14 request.size, .ofNat 32 number⟩

/-- The frames of the burst. -/
def wanted : List WantedFrame := (List.range request.count).map (request.frame our)

end BlastRequest

/-- The demo, the datagram that is arriving, the requests taken, and the frames of the
generator. -/
structure BlastDemoBench where
  demo : BlastDemo
  feed : UdpFeed
  /-- Cycles without a byte since the last datagram. -/
  gap : Nat
  /-- No burst was in progress at the first byte of the datagram that is arriving. -/
  free : Bool
  requests : List BlastRequest
  held : BlastTarget
  started : List BlastFrame
  /-- The frames that the generator has reported as done. -/
  done : Nat
  sent : FrameLog (BitVec 8)

namespace BlastDemoBench

def start : BlastDemoBench where
  demo := .reset
  feed := ⟨⟨0, 0, 0, 0, 0⟩, []⟩
  gap := 2
  free := false
  requests := []
  held := ⟨⟨0, 0⟩, 0, 0, 0, 0⟩
  started := []
  done := 0
  sent := .empty

section Step

variable (our : NetOur) (blastStartDelay : BitVec 32) (bench : BlastDemoBench) (i : BlastDemoIn)

/-- A burst is in progress: not all frames of the requests taken are done. -/
def bursting : Bool := bench.done < (bench.requests.map BlastRequest.count).sum

/-- Whether the datagram of this cycle began while no burst was in progress. -/
def freeNow : Bool := if bench.feed.between then !bench.bursting else bench.free

/-- The last byte of a datagram for the trigger, without an error, which began while no burst
was in progress. -/
def Requests : Prop :=
  i.rx.valid = true ∧ i.rx.last = true ∧ i.rx.err = false ∧
    (bench.feed.drive i.rx).source.dstPort = 9997 ∧
    (bench.feed.drive i.rx).source.srcPort ≠ 5001 ∧ bench.freeNow = true

instance : Decidable (bench.Requests i) := inferInstanceAs (Decidable (_ ∧ _))

def step : BlastDemoBench where
  demo := bench.demo.clkEdge our blastStartDelay (bench.feed.drive i.rx) i.txReady
  feed := bench.feed.next i.rx
  gap := if i.rx.valid then 0 else bench.gap + 1
  free := if i.rx.valid then bench.freeNow else bench.free
  requests :=
    if bench.Requests i then
      bench.requests ++ [⟨bench.feed.arrived i.rx, (bench.feed.drive i.rx).source⟩]
    else bench.requests
  held := (bench.demo.blastIn our i.txReady).target
  started :=
    if bench.demo.blast.starts (BlastDemo.blastParams blastStartDelay)
        (bench.demo.blastIn our i.txReady) then
      bench.started ++ [bench.demo.blast.begins (bench.demo.blastIn our i.txReady)]
    else bench.started
  done := if bench.demo.blast.cnt.pktDonePulse then bench.done + 1 else bench.done
  sent := bench.demo.blast.slice.take bench.sent i.txReady

/-- There are at least two idle cycles between datagrams. -/
def Spaced : Prop := i.rx.valid = true → bench.feed.between = true → 2 ≤ bench.gap

instance : Decidable (bench.Spaced i) := inferInstanceAs (Decidable (_ → _))

end Step

end BlastDemoBench

end EmacZero
