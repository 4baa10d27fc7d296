/-
The receive side of `eth_mac_sys` while both of its FIFOs have room: every sound frame
that is received for the station is accepted, and in the end all of them are.
-/
import EmacZero.EthMacSysRx
import EmacZero.GmiiCdcRxWhole

namespace EmacZero

variable {addrWidth : Nat} {ramStyle : RamStyle} {params : EthMacRxParams}

/-- The settings at the edge are just those of the policy. -/
def SysRxEdge.Exact (policy : RxPolicy) (params : EthMacRxParams) : SysRxEdge → Prop
  | .media _ _ => True
  | .clk _ _ station => policy.Exact params station

def SysRxEdge.isClk : SysRxEdge → Bool
  | .media _ _ => false
  | .clk _ _ _ => true

/-- An edge that brings no beat. -/
def SysRxEdge.Quiet (edge : SysRxEdge) : Prop := RxBench.Quiet edge.cdc

/-- The sound frames are those whose images are sound. -/
theorem soundFrame_wholeImage (policy : RxPolicy) (frame : List GmiiRxIn) :
    soundFrame params policy (wholeImage frame) = soundReceived params policy frame := by
  rw [soundReceived, wholeImage]
  cases strayError frame with
  | true => exact soundFrame_flagLast policy _
  | false =>
      rw [flagLast_false]
      rfl

theorem filterMap_wholeImages (policy : RxPolicy) (frames : List (List GmiiRxIn)) :
    (shown (frames.map wholeImage)).filterMap (soundFrame params policy) =
      frames.filterMap (soundReceived params policy) := by
  have hsame (image : List RxByte) : (if !image.isEmpty then soundFrame params policy image
      else none) = soundFrame params policy image := by
    cases image <;> rfl
  rw [shown, List.filterMap_filter, List.filterMap_map]
  refine List.filterMap_congr fun frame _ => ?_
  rw [← soundFrame_wholeImage]
  exact hsame _

namespace EthMacSysRx

variable {policy : RxPolicy} {sys : EthMacSysRx addrWidth ramStyle params}

/-- Neither FIFO refuses anything, and no checksum is judged. -/
def HasRoom (sys : EthMacSysRx addrWidth ramStyle params) : SysRxEdge → Prop
  | .media gmii skew => sys.cdc.HasRoom (.media gmii skew)
  | .clk _ _ station => sys.mac.Plain (sys.cdc.rx.macPins station)

instance (sys : EthMacSysRx addrWidth ramStyle params) (edge : SysRxEdge) :
    Decidable (sys.HasRoom edge) :=
  match edge with
  | .media gmii skew => inferInstanceAs (Decidable (sys.cdc.HasRoom (.media gmii skew)))
  | .clk _ _ station => inferInstanceAs (Decidable (sys.mac.Plain (sys.cdc.rx.macPins station)))

/-- Pins with the settings of the policy, and `gmii_rx_er` low between frames. -/
def Clean (policy : RxPolicy) (params : EthMacRxParams) (pins : EthMacRxIn) : Prop :=
  policy.Exact params pins ∧ (pins.gmiiRxDv = false → pins.gmiiRxEr = false)

theorem quietEr_readout (rx : GmiiCdcRx addrWidth ramStyle)
    (hdv : rx.readout.gmiiRxDvOut = false) : rx.readout.gmiiRxErOut = false := by
  revert hdv
  unfold GmiiCdcRx.readout
  dsimp only
  repeat' split
  all_goals simp

/-- What holds as long as there is room. -/
structure Carries (policy : RxPolicy) (sys : EthMacSysRx addrWidth ramStyle params) : Prop where
  lossless : sys.cdc.Lossless
  reserved : sys.mac.rx.Reserved
  follows : sys.mac.Follows
  roomy : sys.mac.AllRoomy
  csumOff : sys.mac.CsumOff
  quietEr : sys.cdc.rx.gmiiRxDvOut = false → sys.cdc.rx.gmiiRxErOut = false
  feeds : ∃ wire, sys.Feeds (Clean policy params) wire

theorem carries_start (haddr : 2 ≤ addrWidth) (hmac : 2 ≤ params.axisFifoAddrWidth)
    (policy : RxPolicy) (cdcMem : BitVec addrWidth → RxWord) (headQ : RxWord)
    (mem : BitVec params.axisFifoAddrWidth → MacWord) (doutR : MacWord) :
    (start cdcMem headQ mem doutR : EthMacSysRx addrWidth ramStyle params).Carries policy where
  lossless := RxBench.lossless_start haddr cdcMem headQ
  reserved := EthMacRx.reserved_reset hmac mem doutR
  follows := MacRxBench.follows_start mem doutR
  roomy := MacRxBench.allRoomy_start mem doutR
  csumOff := MacRxBench.csumOff_start mem doutR
  quietEr := fun _ => rfl
  feeds := ⟨.unseen, MacRxBench.heard_start _ mem doutR, rfl⟩

/-- The demands on an edge. -/
def Eased (policy : RxPolicy) (sys : EthMacSysRx addrWidth ramStyle params) (edge : SysRxEdge) :
    Prop :=
  sys.Paced edge ∧ sys.HasRoom edge ∧ edge.Exact policy params

theorem carries_step (haddr : 2 ≤ addrWidth) (hmac : 2 ≤ params.axisFifoAddrWidth)
    (sys : EthMacSysRx addrWidth ramStyle params) (edge : SysRxEdge)
    (hok : sys.Eased policy edge) (hcarries : sys.Carries policy) :
    (sys.step edge).Carries policy := by
  obtain ⟨hpaced, hroom, hexact⟩ := hok
  obtain ⟨wire, hfeeds⟩ := hcarries.feeds
  cases edge with
  | media gmii skew =>
      exact ⟨RxBench.lossless_step haddr sys.cdc _ ⟨hpaced, hroom⟩ hcarries.lossless,
        hcarries.reserved, hcarries.follows, hcarries.roomy, hcarries.csumOff, hcarries.quietEr,
        wire, hfeeds.media gmii skew⟩
  | clk skew late station =>
      exact ⟨RxBench.lossless_step haddr sys.cdc _ ⟨hpaced, trivial⟩ hcarries.lossless,
        hcarries.reserved.clkEdge hmac _, hcarries.follows.step hcarries.reserved.occ_lt _,
        hcarries.roomy.step _ hroom.1, hcarries.csumOff.step _ hroom.2,
        quietEr_readout sys.cdc.rx, _, hfeeds.clk skew late ⟨hexact, hcarries.quietEr⟩⟩

/-- The input has stopped, and nothing is on its way between the pins and the queue of
`eth_mac_rx`. -/
structure AtRest (sys : EthMacSysRx addrWidth ramStyle params) : Prop where
  stopped : sys.cdc.Stopped
  drained : sys.cdc.Drained
  dvOut : sys.cdc.rx.gmiiRxDvOut = false
  opened : sys.mac.opened = []
  ended : sys.mac.ended = none

theorem Carries.accepted_prefix (hcarries : sys.Carries policy) :
    acceptedFrames sys.mac.sent <+:
      sys.cdc.received.closed.filterMap (soundReceived params policy) := by
  obtain ⟨wire, hheard, hdelivered⟩ := hcarries.feeds
  obtain ⟨packet, ledger, counted, retired, part, htracks, hwhole⟩ := hcarries.lossless
  rw [hcarries.follows.accepted,
    hheard.accepted_eq (fun _ hclean => hclean) hcarries.roomy hcarries.csumOff,
    ← filterMap_wholeImages]
  refine List.IsPrefix.filterMap _ (List.IsPrefix.trans ?_ (hwhole.closed_prefix htracks))
  rw [hdelivered]
  refine List.IsPrefix.trans ?_ (wire.closed_prefix_observe _)
  rw [← hheard.closed]
  exact List.prefix_append _ _

theorem Carries.accepted_all (hcarries : sys.Carries policy) (hrest : sys.AtRest) :
    acceptedFrames sys.mac.sent =
      sys.cdc.received.closed.filterMap (soundReceived params policy) := by
  obtain ⟨wire, hheard, hdelivered⟩ := hcarries.feeds
  obtain ⟨packet, ledger, counted, retired, part, htracks, hwhole⟩ := hcarries.lossless
  have hall := hwhole.all_of_drained htracks hrest.stopped hrest.drained
  have hout : sys.cdc.rx.gmiiRxOut = none := by
    rw [GmiiCdcRx.gmiiRxOut, hrest.dvOut, if_neg Bool.false_ne_true]
  have hopened : wire.opened = [] := by
    rw [← hheard.opened, hrest.opened]
    rfl
  have hclosed : (sys.mac.closed.map fun envelope => onWire envelope.beats) =
      shown (sys.cdc.received.closed.map wholeImage) := by
    rw [← hall, hdelivered, hout, Envelopes.all_of_idle (Envelopes.observe_none_opened wire),
      Envelopes.observe_none_closed, Envelopes.all_of_idle hopened, ← hheard.closed,
      MacRxBench.onHand, hrest.ended]
    exact (List.append_nil _).symm
  rw [hcarries.follows.accepted,
    hheard.accepted_eq (fun _ hclean => hclean) hcarries.roomy hcarries.csumOff, hclosed,
    filterMap_wholeImages]

/-- The readout has come to rest, `count` edges of `clk` ago. -/
structure Calm (sys : EthMacSysRx addrWidth ramStyle params) (count : Nat) : Prop where
  stopped : sys.cdc.Stopped
  read : ∃ packet ledger counted retired part,
    sys.cdc.Tracks packet ledger counted retired part ∧
      packet.frames.flatten.length ≤ packet.queue.popped
  dvOut : 1 ≤ count → sys.cdc.rx.gmiiRxDvOut = false
  opened : 2 ≤ count → sys.mac.opened = []
  ended : 3 ≤ count → sys.mac.ended = none

theorem Calm.clk (haddr : 2 ≤ addrWidth) {count : Nat} (hcalm : sys.Calm count) (skew : Skew)
    (late : Bool) (station : EthMacRxIn) :
    (sys.step (.clk skew late station)).Calm (count + 1) := by
  obtain ⟨packet, ledger, counted, retired, part, htracks, hpopped⟩ := hcalm.read
  obtain ⟨part', hnext⟩ := htracks.sys haddr skew late
  have hidle := (htracks.at_rest hpopped).1
  refine ⟨hcalm.stopped, ⟨_, _, _, _, part', hnext, ?_⟩, fun _ => ?_, fun hcount => ?_,
    fun hcount => ?_⟩
  · rw [PacketQueue.rdEdge_frames, PacketQueue.rdEdge_queue, CrossingQueue.rdEdge_popped]
    omega
  · change sys.cdc.rx.readout.gmiiRxDvOut = false
    rw [GmiiCdcRx.readout_quiet hidle]
  · have hlow : (sys.cdc.rx.macPins station).gmiiRxDv = false := hcalm.dvOut (by omega)
    simp [step, MacRxBench.step, hlow]
  · have hshut := hcalm.opened (by omega)
    simp [step, MacRxBench.step, hshut]

theorem Calm.media (haddr : 2 ≤ addrWidth) {count : Nat} (hcalm : sys.Calm count)
    {gmii : GmiiRxIn} (skew : Skew) (hquiet : gmii.dv = false) :
    (sys.step (.media gmii skew)).Calm count := by
  obtain ⟨packet, ledger, counted, retired, part, htracks, hpopped⟩ := hcalm.read
  obtain ⟨hopened, hwrEn⟩ := hcalm.stopped
  have haccept : sys.cdc.rx.rxWrAccept = false := by
    simp [GmiiCdcRx.rxWrAccept, hwrEn]
  have hpaced : sys.cdc.TogglePaced (.media gmii skew) := by
    intro hflips
    simp [RxBench.flips, haccept] at hflips
  obtain ⟨next, hnext⟩ := htracks.media haddr gmii skew hpaced
  rw [haccept] at hnext
  refine ⟨⟨?_, ?_⟩, ⟨_, next, _, _, _, hnext, ?_⟩, hcalm.dvOut, hcalm.opened, hcalm.ended⟩
  · simp [step, SysRxEdge.cdc, RxBench.step, hquiet]
  · have hd1 := htracks.write.dv
    simp [step, SysRxEdge.cdc, RxBench.step, GmiiCdcRx.mediaEdge, hquiet, hd1, hopened]
  · rw [PacketQueue.wrEdge_frames]
    simpa using hpopped

theorem Calm.run (haddr : 2 ≤ addrWidth) {count : Nat} (hcalm : sys.Calm count)
    {edges : List SysRxEdge} (hquiet : ∀ edge ∈ edges, edge.Quiet) :
    (runFrom step sys edges).Calm (count + edges.countP SysRxEdge.isClk) := by
  induction edges generalizing sys count with
  | nil => exact hcalm
  | cons edge rest ih =>
      have hrest := fun other hother => hquiet other (List.mem_cons_of_mem edge hother)
      cases edge with
      | media gmii skew =>
          exact ih (hcalm.media haddr skew (hquiet _ List.mem_cons_self)) hrest
      | clk skew late station =>
          have hnext := ih (hcalm.clk haddr skew late station) hrest
          have hclk : SysRxEdge.isClk (.clk skew late station) = true := rfl
          rw [List.countP_cons_of_pos hclk, Nat.add_comm (rest.countP SysRxEdge.isClk),
            ← Nat.add_assoc]
          exact hnext

theorem cdc_runFrom (sys : EthMacSysRx addrWidth ramStyle params) (edges : List SysRxEdge) :
    (runFrom step sys edges).cdc = runFrom RxBench.step sys.cdc (edges.map SysRxEdge.cdc) := by
  induction edges generalizing sys with
  | nil => rfl
  | cons edge rest ih => exact ih (sys.step edge)

theorem countP_isClk (edges : List SysRxEdge) :
    (edges.map SysRxEdge.cdc).countP RxBench.isSys = edges.countP SysRxEdge.isClk := by
  rw [List.countP_map]
  refine List.countP_congr fun edge _ => ?_
  cases edge <;> exact Iff.rfl

/-- Without input everything comes to rest. -/
theorem atRest_of_quiet (haddr : 2 ≤ addrWidth) (htracked : sys.cdc.Tracked)
    (hstopped : sys.cdc.Stopped) {edges : List SysRxEdge} (hquiet : ∀ edge ∈ edges, edge.Quiet)
    (hlong : 3 * 2 ^ addrWidth + 20 ≤ edges.countP SysRxEdge.isClk) :
    (runFrom step sys edges).AtRest := by
  obtain ⟨packet, ledger, counted, retired, part, htracks⟩ := htracked
  have hquiets {some : List SysRxEdge} (hsome : ∀ edge ∈ some, edge.Quiet) :
      ∀ edge ∈ some.map SysRxEdge.cdc, RxBench.Quiet edge := by
    intro edge hedge
    obtain ⟨other, hother, rfl⟩ := List.mem_map.mp hedge
    exact hsome other hother
  have hdrained {some : List SysRxEdge} (hsome : ∀ edge ∈ some, edge.Quiet)
      (hcount : 3 * 2 ^ addrWidth + 17 ≤ some.countP SysRxEdge.isClk) :
      (runFrom step sys some).cdc.Drained := by
    rw [cdc_runFrom]
    exact htracks.drains haddr hstopped (hquiets hsome) (by rwa [countP_isClk])
  obtain ⟨before, after, rfl, hbefore, hafter⟩ := split_countP
    (show 3 * 2 ^ addrWidth + 17 + 3 ≤ edges.countP SysRxEdge.isClk from hlong)
  have hearly := fun edge hedge => hquiet edge (List.mem_append_left after hedge)
  have hlate := fun edge hedge => hquiet edge (List.mem_append_right before hedge)
  have hstart : sys.cdc.Draining packet 0 (3 * 2 ^ addrWidth + 17) :=
    ⟨hstopped, ⟨_, _, _, _, htracks⟩, packet.settled_zero, fun i hi => by omega,
      fun _ => by omega, fun hlater => by omega⟩
  obtain ⟨next, hmiddle⟩ := hstart.run haddr (hquiets hearly)
  rw [← cdc_runFrom] at hmiddle
  obtain ⟨ledger', counted', retired', part', hnext⟩ := hmiddle.tracks
  have hpopped := hnext.popped_of_drained (hdrained hearly hbefore)
  have hcalm : (runFrom step sys before).Calm 0 :=
    ⟨hmiddle.stopped, ⟨_, _, _, _, _, hnext, by simp [hpopped, next.words_eq]⟩,
      fun hcount => by omega, fun hcount => by omega, fun hcount => by omega⟩
  have hend := hcalm.run haddr hlate
  rw [Nat.zero_add, ← runFrom_append] at hend
  exact ⟨hend.stopped, hdrained hquiet (by omega), hend.dvOut (by omega), hend.opened (by omega),
    hend.ended (by omega)⟩

/-- The input has been low at `count` edges of the media clock. -/
structure Hushed (sys : EthMacSysRx addrWidth ramStyle params) (count : Nat) : Prop where
  opened : 1 ≤ count → sys.cdc.received.opened = []
  dvD1 : 1 ≤ count → sys.cdc.rx.rxDvD1 = false
  wrEn : 2 ≤ count → sys.cdc.rx.rxWrEn = false

theorem Hushed.run {count : Nat} (hhushed : sys.Hushed count) {edges : List SysRxEdge}
    (hquiet : ∀ edge ∈ edges, edge.Quiet) :
    (runFrom step sys edges).Hushed (count + edges.countP fun edge => !edge.isClk) := by
  induction edges generalizing sys count with
  | nil => exact hhushed
  | cons edge rest ih =>
      have hrest := fun other hother => hquiet other (List.mem_cons_of_mem edge hother)
      rw [List.countP_cons, runFrom_cons]
      cases edge with
      | media gmii skew =>
          have hlow : gmii.dv = false := hquiet _ List.mem_cons_self
          have hnext : (sys.step (.media gmii skew)).Hushed (count + 1) := by
            refine ⟨fun _ => ?_, fun _ => hlow, fun hcount => ?_⟩
            · simp [step, SysRxEdge.cdc, RxBench.step, hlow]
            · have hd1 := hhushed.dvD1 (by omega)
              simp [step, SysRxEdge.cdc, RxBench.step, GmiiCdcRx.mediaEdge, hlow, hd1]
          have hall := ih hnext hrest
          rwa [Nat.add_assoc, Nat.add_comm 1] at hall
      | clk skew late station =>
          exact ih ⟨hhushed.opened, hhushed.dvD1, hhushed.wrEn⟩ hrest

theorem stopped_of_quiet {edges : List SysRxEdge} (hquiet : ∀ edge ∈ edges, edge.Quiet)
    (htwo : 2 ≤ edges.countP fun edge => !edge.isClk) : (runFrom step sys edges).cdc.Stopped := by
  have hnone : sys.Hushed 0 :=
    ⟨fun hcount => by omega, fun hcount => by omega, fun hcount => by omega⟩
  have hend := hnone.run hquiet
  rw [Nat.zero_add] at hend
  exact ⟨hend.opened (by omega), hend.wrEn htwo⟩

/-- While the input is quiet, nothing more is received. -/
theorem received_quiet (hopened : sys.cdc.received.opened = []) {edges : List SysRxEdge}
    (hquiet : ∀ edge ∈ edges, edge.Quiet) :
    (runFrom step sys edges).cdc.received = sys.cdc.received := by
  induction edges generalizing sys with
  | nil => rfl
  | cons edge rest ih =>
      have hrest := fun other hother => hquiet other (List.mem_cons_of_mem edge hother)
      have hsame : (sys.step edge).cdc.received = sys.cdc.received := by
        cases edge with
        | media gmii skew =>
            have hlow : gmii.dv = false := hquiet _ List.mem_cons_self
            simp [step, SysRxEdge.cdc, RxBench.step, hlow, Envelopes.observe, hopened]
        | clk skew late station => rfl
      rw [runFrom_cons, ih (by rw [hsame]; exact hopened) hrest, hsame]

/-- Over every run in which neither FIFO fills up and the settings stay the same: the
frames that `eth_mac_rx` queues without the error flag are just the sound frames that were
received for the station, each once and in order; and `3 * 2 ^ addrWidth + 20` edges of
`clk` after the input has stopped none of them is missing. -/
theorem sysRx_whole (haddr : 2 ≤ addrWidth) (hmac : 2 ≤ params.axisFifoAddrWidth)
    (cdcMem : BitVec addrWidth → RxWord) (headQ : RxWord)
    (mem : BitVec params.axisFifoAddrWidth → MacWord) (doutR : MacWord)
    (edges : List SysRxEdge) (hexact : ∀ edge ∈ edges, edge.Exact policy params)
    (hok : Along step (fun sys edge => sys.Paced edge ∧ sys.HasRoom edge)
      (start cdcMem headQ mem doutR : EthMacSysRx addrWidth ramStyle params) edges) :
    let sys : EthMacSysRx addrWidth ramStyle params :=
      runFrom step (start cdcMem headQ mem doutR) edges
    acceptedFrames sys.mac.sent <+:
        sys.cdc.received.closed.filterMap (soundReceived params policy) ∧
      (sys.AtRest → acceptedFrames sys.mac.sent =
        sys.cdc.received.closed.filterMap (soundReceived params policy)) ∧
      (sys.cdc.Stopped → ∀ more, (∀ edge ∈ more, edge.Quiet) →
        3 * 2 ^ addrWidth + 20 ≤ more.countP SysRxEdge.isClk →
          (runFrom step sys more).AtRest ∧
            (runFrom step sys more).cdc.received = sys.cdc.received) := by
  intro sys
  have hcarries : sys.Carries policy :=
    invariant_along (carries_step haddr hmac)
      (carries_start haddr hmac policy cdcMem headQ mem doutR)
      (along_mono (fun _ _ hboth => ⟨hboth.1.1, hboth.1.2, hboth.2⟩)
        (along_and hok (along_of_mem hexact _)))
  obtain ⟨packet, ledger, counted, retired, part, htracks, hwhole⟩ := hcarries.lossless
  exact ⟨hcarries.accepted_prefix, hcarries.accepted_all, fun hstopped more hquiet hlong =>
    ⟨atRest_of_quiet haddr ⟨packet, ledger, counted, retired, part, htracks⟩ hstopped hquiet hlong,
      received_quiet hstopped.1 hquiet⟩⟩

/-- An edge of a station that takes broadcasts and is always ready. -/
def ofStation : SysRxEdge → Bool
  | .media _ _ => true
  | .clk _ _ station => station == quietPins true

theorem exact_of_station {edges : List SysRxEdge} (hstation : edges.all ofStation = true) :
    ∀ edge ∈ edges, edge.Exact (.of smallParams (quietPins true)) smallParams := by
  intro edge hedge
  have hsame := List.all_eq_true.mp hstation edge hedge
  cases edge with
  | media gmii skew => trivial
  | clk skew late station =>
      rw [show station = quietPins true from beq_iff_eq.mp hsame]
      exact ⟨fun _ => rfl, rfl⟩

/-- A sound frame, one with a wrong FCS, and another sound one. -/
def spaced : List SysRxEdge :=
  soundEdges (broadcastOf 0x11) ++ clkEdges 90 ++ frameEdges (List.replicate 9 0xFF) ++
    clkEdges 6 ++ soundEdges (broadcastOf 0x22) ++ clkEdges 100

theorem sysRx_whole_spaced :
    let sys : EthMacSysRx 8 .distributed smallParams :=
      runFrom step (start (fun _ => ⟨false, false, 0⟩) ⟨false, false, 0⟩
        (fun _ => plainWord 0) (plainWord 0)) spaced
    let sound := sys.cdc.received.closed.filterMap
      (soundReceived smallParams (.of smallParams (quietPins true)))
    (sys.cdc.received.closed.length = 3 ∧
        acceptedFrames sys.mac.taken = [broadcastOf 0x11, broadcastOf 0x22]) ∧
      acceptedFrames sys.mac.sent = sound ∧
      ∀ more, (∀ edge ∈ more, edge.Quiet) → 3 * 2 ^ 8 + 20 ≤ more.countP SysRxEdge.isClk →
        (runFrom step sys more).AtRest ∧
          (runFrom step sys more).cdc.received = sys.cdc.received := by
  have hok : Along step (fun sys edge => sys.Paced edge ∧ sys.HasRoom edge)
      (start (fun _ => ⟨false, false, 0⟩) ⟨false, false, 0⟩ (fun _ => plainWord 0)
        (plainWord 0) : EthMacSysRx 8 .distributed smallParams) spaced := by decide +kernel
  obtain ⟨-, hall, hlater⟩ := sysRx_whole (by decide) (by decide) _ _ _ _ _
    (exact_of_station (by decide +kernel)) hok
  intro sys sound
  obtain ⟨htaken, hstopped, hdrained, hdvOut, hopened, hended⟩ :
      (sys.cdc.received.closed.length = 3 ∧
        acceptedFrames sys.mac.taken = [broadcastOf 0x11, broadcastOf 0x22]) ∧
      (sys.cdc.received.opened = [] ∧ sys.cdc.rx.rxWrEn = false) ∧
      (sys.cdc.rx.rxFifo.stored = [] ∧ sys.cdc.rx.rxFifo.head = []) ∧
      sys.cdc.rx.gmiiRxDvOut = false ∧ sys.mac.opened = [] ∧ sys.mac.ended = none := by
    decide +kernel
  exact ⟨htaken, hall ⟨hstopped, hdrained, hdvOut, hopened, hended⟩, hlater hstopped⟩

end EthMacSysRx

end EmacZero
