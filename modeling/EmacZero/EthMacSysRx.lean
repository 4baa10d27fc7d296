/-
The receive side of `eth_mac_sys` in its GMII and RGMII branches: `gmii_cdc` carries the
frames from the clock of the PHY to `clk`, and `eth_mac_rx` judges them there.
-/
import EmacZero.EthMacRxStream
import EmacZero.GmiiCdcRxDelivery

namespace EmacZero

/-- One rising edge of `media_rx_clk`, with the receive pins of the PHY interface, or of
`clk`, with the settings of the station and `m_axis_tready`. -/
inductive SysRxEdge where
  | media (gmii : GmiiRxIn) (skew : Skew)
  | clk (skew : Skew) (late : Bool) (station : EthMacRxIn)

/-- The edge as `gmii_cdc` sees it. -/
def SysRxEdge.cdc : SysRxEdge → RxEdge
  | .media gmii skew => .media gmii skew
  | .clk skew late _ => .sys skew late

/-- The settings at the edge are among those of the policy. -/
def SysRxEdge.Covered (policy : RxPolicy) (params : EthMacRxParams) : SysRxEdge → Prop
  | .media _ _ => True
  | .clk _ _ station => policy.Covers params station

variable {addrWidth : Nat} {ramStyle : RamStyle} {params : EthMacRxParams}

/-- `gmii_rxd`, `gmii_rx_dv` and `gmii_rx_er` of `eth_mac_rx`. -/
def GmiiCdcRx.macPins (rx : GmiiCdcRx addrWidth ramStyle) (station : EthMacRxIn) : EthMacRxIn :=
  { station with
    gmiiRxd := rx.gmiiRxdOut
    gmiiRxDv := rx.gmiiRxDvOut
    gmiiRxEr := rx.gmiiRxErOut }

structure EthMacSysRx (addrWidth : Nat) (ramStyle : RamStyle) (params : EthMacRxParams) where
  cdc : RxBench addrWidth ramStyle
  mac : MacRxBench params

/-- The frame of a received envelope, if `rx_er` came neither in nor between its bytes. -/
def soundReceived (params : EthMacRxParams) (policy : RxPolicy) (frame : List GmiiRxIn) :
    Option (List (BitVec 8)) :=
  if strayError frame then none else soundFrame params policy (bytesOf frame)

namespace EthMacSysRx

def start (cdcMem : BitVec addrWidth → RxWord) (headQ : RxWord)
    (mem : BitVec params.axisFifoAddrWidth → MacWord) (doutR : MacWord) :
    EthMacSysRx addrWidth ramStyle params where
  cdc := .start cdcMem headQ
  mac := .start mem doutR

def step (sys : EthMacSysRx addrWidth ramStyle params) (edge : SysRxEdge) :
    EthMacSysRx addrWidth ramStyle params where
  cdc := sys.cdc.step edge.cdc
  mac :=
    match edge with
    | .media _ _ => sys.mac
    | .clk _ _ station => sys.mac.step (sys.cdc.rx.macPins station)

/-- `clk` sees every frame toggle of `gmii_cdc`. -/
def Paced (sys : EthMacSysRx addrWidth ramStyle params) (edge : SysRxEdge) : Prop :=
  sys.cdc.TogglePaced edge.cdc

instance (sys : EthMacSysRx addrWidth ramStyle params) (edge : SysRxEdge) :
    Decidable (sys.Paced edge) :=
  inferInstanceAs (Decidable (sys.cdc.TogglePaced edge.cdc))

end EthMacSysRx

/-- An envelope with a marked byte is not sound. -/
theorem soundFrame_marked {policy : RxPolicy} {wire : List RxByte}
    (hmarked : ∃ byte ∈ wire, byte.2 = true) : soundFrame params policy wire = none := by
  have hany : wire.any Prod.snd = true := List.any_eq_true.mpr hmarked
  rw [soundFrame]
  cases frameOf (wire.map Prod.fst) with
  | none => rfl
  | some body =>
      simp only [hany]
      rfl

theorem soundFrame_flagLast (policy : RxPolicy) (wire : List RxByte) :
    soundFrame params policy (flagLast wire true) = none := by
  by_cases hnil : wire = []
  · rw [hnil, flagLast_nil, soundFrame_nil]
  · exact soundFrame_marked (exists_flagged hnil)

/-- A frame that was cut or marked on its way is not sound any more. -/
theorem soundReceived_of_replays {policy : RxPolicy} {frame : List GmiiRxIn}
    {image : List RxByte} (hreplays : Replays frame image) {data : List (BitVec 8)}
    (hsound : soundFrame params policy image = some data) :
    soundReceived params policy frame = some data := by
  rcases hreplays with rfl | rfl | ⟨count, -, rfl⟩
  · exact absurd hsound (Option.some_ne_none data).symm
  · cases hstray : strayError frame with
    | true =>
        rw [hstray, soundFrame_flagLast] at hsound
        exact absurd hsound (Option.some_ne_none data).symm
    | false =>
        rw [hstray, flagLast_false] at hsound
        rw [soundReceived, hstray, if_neg Bool.false_ne_true, hsound]
  · rw [soundFrame_flagLast] at hsound
    exact absurd hsound (Option.some_ne_none data).symm

namespace EthMacSysRx

variable {policy : RxPolicy} {sys : EthMacSysRx addrWidth ramStyle params}

/-- `eth_mac_rx` has seen what has come out of `gmii_cdc`, but for the beat that is on the
pins now. -/
structure Feeds (ok : EthMacRxIn → Prop) (sys : EthMacSysRx addrWidth ramStyle params)
    (wire : Envelopes RxByte) : Prop where
  heard : sys.mac.Heard ok wire
  delivered : sys.cdc.delivered = wire.observe sys.cdc.rx.gmiiRxOut

theorem Feeds.media {ok : EthMacRxIn → Prop} {wire : Envelopes RxByte}
    (hfeeds : sys.Feeds ok wire) (gmii : GmiiRxIn) (skew : Skew) :
    (sys.step (.media gmii skew)).Feeds ok wire :=
  ⟨hfeeds.heard, hfeeds.delivered⟩

theorem Feeds.clk {ok : EthMacRxIn → Prop} {wire : Envelopes RxByte}
    (hfeeds : sys.Feeds ok wire) (skew : Skew) (late : Bool) {station : EthMacRxIn}
    (hok : ok (sys.cdc.rx.macPins station)) :
    (sys.step (.clk skew late station)).Feeds ok sys.cdc.delivered := by
  have hbeat : (sys.cdc.rx.macPins station).beat = sys.cdc.rx.gmiiRxOut := rfl
  refine ⟨?_, rfl⟩
  rw [hfeeds.delivered, ← hbeat]
  exact hfeeds.heard.step hok

/-- What holds of every run. -/
structure Sound (policy : RxPolicy) (sys : EthMacSysRx addrWidth ramStyle params) : Prop where
  tracked : sys.cdc.Tracked
  reserved : sys.mac.rx.Reserved
  follows : sys.mac.Follows
  feeds : ∃ wire, sys.Feeds (policy.Covers params) wire

theorem sound_start (haddr : 2 ≤ addrWidth) (hmac : 2 ≤ params.axisFifoAddrWidth)
    (policy : RxPolicy) (cdcMem : BitVec addrWidth → RxWord) (headQ : RxWord)
    (mem : BitVec params.axisFifoAddrWidth → MacWord) (doutR : MacWord) :
    (start cdcMem headQ mem doutR : EthMacSysRx addrWidth ramStyle params).Sound policy where
  tracked := RxBench.tracked_start haddr cdcMem headQ
  reserved := EthMacRx.reserved_reset hmac mem doutR
  follows := MacRxBench.follows_start mem doutR
  feeds := ⟨.unseen, MacRxBench.heard_start _ mem doutR, rfl⟩

theorem sound_step (haddr : 2 ≤ addrWidth) (hmac : 2 ≤ params.axisFifoAddrWidth)
    (sys : EthMacSysRx addrWidth ramStyle params) (edge : SysRxEdge)
    (hok : sys.Paced edge ∧ edge.Covered policy params) (hsound : sys.Sound policy) :
    (sys.step edge).Sound policy := by
  obtain ⟨wire, hfeeds⟩ := hsound.feeds
  have htracked := RxBench.tracked_step haddr sys.cdc edge.cdc hok.1 hsound.tracked
  cases edge with
  | media gmii skew =>
      exact ⟨htracked, hsound.reserved, hsound.follows, wire, hfeeds.media gmii skew⟩
  | clk skew late station =>
      exact ⟨htracked, hsound.reserved.clkEdge hmac _,
        hsound.follows.step hsound.reserved.occ_lt _, _, hfeeds.clk skew late hok.2⟩

/-- Over every run, whatever overflows on the way and however the sink stalls: the stream
is a sequence of well-formed frames, and those without the error flag are, in order and
each at most once, frames that were received whole, with the right FCS, without `rx_er`,
of a length within the limits and for an address that a setting lets through. -/
theorem sysRx_accepts (haddr : 2 ≤ addrWidth) (hmac : 2 ≤ params.axisFifoAddrWidth)
    (cdcMem : BitVec addrWidth → RxWord) (headQ : RxWord)
    (mem : BitVec params.axisFifoAddrWidth → MacWord) (doutR : MacWord)
    (edges : List SysRxEdge) (hcovered : ∀ edge ∈ edges, edge.Covered policy params)
    (hpaced : Along step Paced
      (start cdcMem headQ mem doutR : EthMacSysRx addrWidth ramStyle params) edges) :
    let sys : EthMacSysRx addrWidth ramStyle params :=
      runFrom step (start cdcMem headQ mem doutR) edges
    Framed sys.mac.taken ∧
      (acceptedFrames sys.mac.taken).Sublist
        (sys.cdc.received.closed.filterMap (soundReceived params policy)) := by
  intro sys
  have hsound : sys.Sound policy :=
    invariant_along (sound_step haddr hmac)
      (sound_start haddr hmac policy cdcMem headQ mem doutR)
      (along_and hpaced (along_of_mem hcovered _))
  obtain ⟨packet, ledger, counted, retired, part, htracks⟩ := hsound.tracked
  obtain ⟨wire, hheard, hdelivered⟩ := hsound.feeds
  constructor
  · have hframed : Framed sys.mac.sent := by
      rw [hsound.follows.sent]
      exact framed_envelopes sys.mac.closed sys.mac.begins_queuing
    exact hframed.of_prefix sys.mac.taken_prefix
  · refine (hheard.accepted_sublist (fun _ hcovers => hcovers) hsound.follows).trans
      (List.Sublist.trans ?_ (htracks.delivers.sublist (soundFrame_nil policy)
        fun _ _ hreplays _ => soundReceived_of_replays hreplays))
    rw [hdelivered]
    exact (wire.closed_prefix_observe _).sublist.filterMap _

/-- The parameters of a small receiver. -/
def smallParams : EthMacRxParams := ⟨false, 4, 1536, 9216, false, by decide, by decide⟩

/-- These bytes come in behind a preamble of one byte and the SFD. -/
def frameEdges (bytes : List (BitVec 8)) : List SysRxEdge :=
  ((0x55 :: 0xD5 :: bytes).map fun byte => .media ⟨true, true, false, byte⟩ ⟨false, false⟩) ++
    List.replicate 3 (.media ⟨false, false, false, 0⟩ ⟨false, false⟩)

/-- `clk` runs and the media clock stands still. -/
def clkEdges (count : Nat) : List SysRxEdge :=
  List.replicate count (.clk ⟨false, false⟩ false (quietPins true))

/-- A broadcast of the least length. -/
def broadcastOf (byte : BitVec 8) : List (BitVec 8) :=
  List.replicate 6 0xFF ++ List.replicate 54 byte

def soundEdges (data : List (BitVec 8)) : List SysRxEdge := frameEdges (data ++ fcsOf data)

theorem covered_all (edge : SysRxEdge) : edge.Covered ⟨fun _ => true, true⟩ smallParams :=
  match edge with
  | .media _ _ => trivial
  | .clk _ _ _ => ⟨fun _ _ => rfl, fun _ => rfl⟩

/-- Two sound frames, the second of them too soon for a FIFO of 128 words. -/
def crowded : List SysRxEdge :=
  soundEdges (broadcastOf 0x11) ++ clkEdges 6 ++ soundEdges (broadcastOf 0x22) ++ clkEdges 150

theorem sysRx_accepts_crowded :
    let sys : EthMacSysRx 7 .distributed smallParams :=
      runFrom step (start (fun _ => ⟨false, false, 0⟩) ⟨false, false, 0⟩
        (fun _ => plainWord 0) (plainWord 0)) crowded
    let sound := sys.cdc.received.closed.filterMap
      (soundReceived smallParams ⟨fun _ => true, true⟩)
    (sound = [broadcastOf 0x11, broadcastOf 0x22] ∧
        acceptedFrames sys.mac.taken = [broadcastOf 0x11]) ∧
      Framed sys.mac.taken ∧ (acceptedFrames sys.mac.taken).Sublist sound := by
  have hpaced : Along step Paced
      (start (fun _ => ⟨false, false, 0⟩) ⟨false, false, 0⟩ (fun _ => plainWord 0)
        (plainWord 0) : EthMacSysRx 7 .distributed smallParams) crowded := by decide +kernel
  have haccepts := sysRx_accepts (by decide) (by decide) _ _ _ _ _
    (fun edge _ => covered_all edge) hpaced
  exact ⟨by decide +kernel, haccepts⟩

end EthMacSysRx

end EmacZero
