/-
Over every run of two stations on a GMII the frames that were handed to the sender come out
of the receiver, in order, and in the end all of them.
-/
import EmacZero.EthGmiiLink

namespace EmacZero

variable {txStyle : RamStyle} {addrWidth : Nat} {rxStyle : RamStyle} {params : EthMacRxParams}

/-- Where every cycle carries a byte, the bytes of an envelope are its cycles. -/
theorem soundReceived_of_ce {policy : RxPolicy} {frame : List GmiiRxIn}
    (hce : ∀ beat ∈ frame, beat.ce = true) :
    soundReceived params policy frame = soundFrame params policy (frame.map GmiiRxIn.byte) := by
  have hstray : strayError frame = false := by
    rw [strayError, List.any_eq_false]
    intro beat hbeat
    simp [hce beat hbeat]
  have hbytes : bytesOf frame = frame.map GmiiRxIn.byte := by
    rw [bytesOf, ← List.filterMap_eq_map]
    refine List.filterMap_congr fun beat hbeat => ?_
    rw [hce beat hbeat]
    rfl
  rw [soundReceived, hstray, if_neg Bool.false_ne_true, hbytes]

namespace EthGmiiLink

variable {maxFrame : Nat} {policy : RxPolicy} {link : EthGmiiLink txStyle addrWidth rxStyle params}

/-- The frames of the user and the PAUSE frames that were asked for, in an order. -/
def frames (link : EthGmiiLink txStyle addrWidth rxStyle params) (order : List Bool) :
    List (List (BitVec 8)) :=
  merge order (link.tx.mac.source.offered.map SourceFrame.bytes)
    (link.tx.asked.map fun request => pauseFrame request.1 request.2)

/-- What holds of every run. -/
structure Works (maxFrame : Nat) (policy : RxPolicy)
    (link : EthGmiiLink txStyle addrWidth rxStyle params) : Prop where
  sends : EthMacSysTx.Sends maxFrame 0 link.tx
  carries : link.rx.Carries policy
  linked : link.Linked

/-- The sender's part of an edge: a beat of the user source within its rules, or none. -/
theorem sends_step (hmin : 1 ≤ maxFrame) (hmax : maxFrame ≤ 16370)
    (hsends : EthMacSysTx.Sends maxFrame 0 link.tx) {edge : GmiiLinkEdge}
    (hkeeps : ∀ i, edge = .txClk i →
      MacTxLine.KeepsValid maxFrame link.tx.mac (link.tx.macIn maxFrame i)) :
    EthMacSysTx.Sends maxFrame 0 (link.step maxFrame edge).tx := by
  cases edge with
  | txClk i =>
      have hfits : link.tx.Fitting maxFrame 0 (.clk i) := hkeeps i rfl
      exact EthMacSysTx.sends_step hmin hmax hsends hfits
  | line caught skew =>
      have hfits : link.tx.Fitting maxFrame 0 (.media { caught with cfgSpeed := 0 }) := rfl
      exact EthMacSysTx.sends_step hmin hmax hsends hfits
  | rxClk skew late station => exact hsends

theorem works_step (hmin : 1 ≤ maxFrame) (hmax : maxFrame ≤ 16370) (haddr : 2 ≤ addrWidth)
    (hmac : 2 ≤ params.axisFifoAddrWidth) (link : EthGmiiLink txStyle addrWidth rxStyle params)
    (edge : GmiiLinkEdge) (hok : link.Eased maxFrame edge ∧ edge.Exact policy params)
    (hworks : link.Works maxFrame policy) : (link.step maxFrame edge).Works maxFrame policy := by
  obtain ⟨hsends, hcarries, hlinked⟩ := hworks
  have hkeeps (i : SysTxClk) (hedge : edge = .txClk i) :
      MacTxLine.KeepsValid maxFrame link.tx.mac (link.tx.macIn maxFrame i) := by
    rw [hedge] at hok
    exact hok.1
  refine ⟨sends_step hmin hmax hsends hkeeps, ?_, hlinked.step hsends.relays.encodes edge⟩
  cases edge with
  | txClk i => exact hcarries
  | line caught skew =>
      exact EthMacSysRx.carries_step haddr hmac link.rx _ ⟨hok.1.1, hok.1.2, trivial⟩ hcarries
  | rxClk skew late station =>
      exact EthMacSysRx.carries_step haddr hmac link.rx _ ⟨trivial, hok.1, hok.2⟩ hcarries

/-- The images on the wire are those of the frames. -/
theorem shown_frames (link : EthGmiiLink txStyle addrWidth rxStyle params) (order : List Bool) :
    (merge order link.tx.userImages link.tx.pauseImages).map (heldFor (byteCycles 0)) =
      (link.frames order).map wireFrame := by
  have hone : byteCycles 0 = 1 := by decide
  have hsame : (heldFor 1 : List RxByte → List RxByte) = id := funext heldFor_one
  have husers : link.tx.userImages =
      (link.tx.mac.source.offered.map SourceFrame.bytes).map wireFrame := by
    rw [List.map_map]
    rfl
  have hpauses : link.tx.pauseImages =
      (link.tx.asked.map fun request => pauseFrame request.1 request.2).map wireFrame := by
    rw [List.map_map]
    rfl
  rw [hone, hsame, List.map_id, husers, hpauses, merge_map]
  rfl

/-- What the receiver accepts is what has come over the wire. -/
theorem Linked.sound_received (hlinked : link.Linked) :
    link.rx.cdc.received.closed.filterMap (soundReceived params policy) =
      (link.rx.cdc.received.map GmiiRxIn.byte).closed.filterMap (soundFrame params policy) := by
  rw [Envelopes.map, List.filterMap_map]
  exact List.filterMap_congr fun frame hframe =>
    soundReceived_of_ce (hlinked.ce frame (List.mem_cons_of_mem _ hframe))

theorem filterMap_wireFrames (frames : List (List (BitVec 8))) :
    (frames.map wireFrame).filterMap (soundFrame params policy) =
      frames.filterMap (arrives params policy) := by
  rw [List.filterMap_map]
  exact List.filterMap_congr fun data _ => soundFrame_wireFrame policy data

theorem Works.accepted (hmax : maxFrame ≤ 16370) (hworks : link.Works maxFrame policy) :
    acceptedFrames link.rx.mac.sent <+:
      (link.frames link.tx.cdc.started).filterMap (arrives params policy) := by
  have hheard : (link.rx.cdc.received.map GmiiRxIn.byte).closed <+: link.tx.cdc.wire.closed := by
    rw [hworks.linked.follows]
    exact Envelopes.closed_prefix_observe _ _
  obtain ⟨rest, hshown, -⟩ := (hworks.sends.shows hmax).1
  have hrest := (shown_frames link _).symm.trans hshown
  refine hworks.carries.accepted_prefix.trans ?_
  rw [hworks.linked.sound_received, ← filterMap_wireFrames, hrest]
  exact (hheard.trans (List.prefix_append _ _)).filterMap _

theorem tx_idle {edges : List GmiiLinkEdge} (hidle : ∀ edge ∈ edges, edge.Idle) :
    (runFrom (step maxFrame) link edges).tx =
      runFrom (EthMacSysTx.step maxFrame) link.tx
        ((edges.filterMap GmiiLinkEdge.catches).map .media) := by
  induction edges generalizing link with
  | nil => rfl
  | cons edge rest ih =>
      have hrest := fun other hother => hidle other (List.mem_cons_of_mem edge hother)
      cases edge with
      | txClk i => exact (hidle _ List.mem_cons_self).elim
      | line caught skew => exact ih hrest
      | rxClk skew late station => exact ih hrest

theorem catches_idle {edges : List GmiiLinkEdge} (hidle : ∀ edge ∈ edges, edge.Idle) :
    ∀ caught ∈ edges.filterMap GmiiLinkEdge.catches,
      caught.cfgSpeed = 0 ∧ caught.txHold = false := by
  intro caught hcaught
  obtain ⟨edge, hedge, hcatches⟩ := List.mem_filterMap.mp hcaught
  have hhold := hidle edge hedge
  cases edge with
  | txClk i => exact hhold.elim
  | line other skew =>
      obtain rfl := Option.some.inj hcatches
      exact ⟨rfl, hhold⟩
  | rxClk skew late station => exact absurd hcatches (Option.some_ne_none caught).symm

theorem length_catches (edges : List GmiiLinkEdge) :
    (edges.filterMap GmiiLinkEdge.catches).length = edges.countP GmiiLinkEdge.isLine :=
  List.length_filterMap_eq_countP

theorem rx_runFrom (link : EthGmiiLink txStyle addrWidth rxStyle params)
    (edges : List GmiiLinkEdge) :
    (runFrom (step maxFrame) link edges).rx =
      runFrom EthMacSysRx.step link.rx (link.rxEdges maxFrame edges) := by
  induction edges generalizing link with
  | nil => rfl
  | cons edge rest ih =>
      rw [runFrom_cons, ih, rxEdges, runFrom_append]
      cases edge <;> rfl

theorem countP_rxEdges (link : EthGmiiLink txStyle addrWidth rxStyle params)
    (edges : List GmiiLinkEdge) :
    (link.rxEdges maxFrame edges).countP SysRxEdge.isClk =
      edges.countP GmiiLinkEdge.isRxClk := by
  induction edges generalizing link with
  | nil => rfl
  | cons edge rest ih =>
      rw [rxEdges, List.countP_append, ih, List.countP_cons, Nat.add_comm]
      cases edge <;> rfl

/-- From here on the wire stays low while the sender gets nothing more to send. -/
def Silent (maxFrame : Nat) (link : EthGmiiLink txStyle addrWidth rxStyle params) : Prop :=
  ∀ edges : List GmiiLinkEdge, (∀ edge ∈ edges, edge.Idle) →
    (runFrom (step maxFrame) link edges).tx.cdc.wire.opened = []

theorem Silent.step (hsilent : link.Silent maxFrame) {edge : GmiiLinkEdge} (hidle : edge.Idle) :
    (link.step maxFrame edge).Silent maxFrame :=
  fun edges hedges => hsilent (edge :: edges) (List.forall_mem_cons.mpr ⟨hidle, hedges⟩)

theorem Silent.run (hsilent : link.Silent maxFrame) {edges : List GmiiLinkEdge}
    (hidle : ∀ edge ∈ edges, edge.Idle) :
    (runFrom (EthGmiiLink.step maxFrame) link edges).Silent maxFrame := by
  intro more hmore
  rw [← runFrom_append]
  exact hsilent _ fun edge hedge => (List.mem_append.mp hedge).elim (hidle edge) (hmore edge)

/-- No byte is on its way. -/
theorem Silent.low (hsilent : link.Silent maxFrame) (hlinked : link.Linked) :
    link.receiving.gmiiRxDvInt = false := by
  by_contra hdv
  have hopened : link.tx.cdc.wire.toEnvelopes.opened = [] :=
    hsilent [] fun _ hnone => absurd hnone List.not_mem_nil
  rw [hlinked.follows, if_pos (by simpa using hdv)] at hopened
  exact absurd hopened (List.append_ne_nil_of_right_ne_nil _ (List.cons_ne_nil _ _))

/-- What holds also after the last frame was handed over. -/
theorem idle_step (hmin : 1 ≤ maxFrame) (hmax : maxFrame ≤ 16370)
    (link : EthGmiiLink txStyle addrWidth rxStyle params) (edge : GmiiLinkEdge)
    (hidle : edge.Idle) (hholds : EthMacSysTx.Sends maxFrame 0 link.tx ∧ link.Linked) :
    EthMacSysTx.Sends maxFrame 0 (link.step maxFrame edge).tx ∧
      (link.step maxFrame edge).Linked := by
  have hkeeps (i : SysTxClk) (hedge : edge = .txClk i) :
      MacTxLine.KeepsValid maxFrame link.tx.mac (link.tx.macIn maxFrame i) := by
    rw [hedge] at hidle
    exact hidle.elim
  exact ⟨sends_step hmin hmax hholds.1 hkeeps, hholds.2.step hholds.1.relays.encodes edge⟩

/-- Once the wire is silent the receiver gets nothing more. -/
theorem Silent.quiet (hmin : 1 ≤ maxFrame) (hmax : maxFrame ≤ 16370)
    (hsilent : link.Silent maxFrame) (hsends : EthMacSysTx.Sends maxFrame 0 link.tx)
    (hlinked : link.Linked) {edges : List GmiiLinkEdge} (hidle : ∀ edge ∈ edges, edge.Idle) :
    ∀ edge ∈ link.rxEdges maxFrame edges, edge.Quiet := by
  induction edges generalizing link with
  | nil => exact fun _ hnone => absurd hnone List.not_mem_nil
  | cons edge rest ih =>
      have hfirst := hidle edge List.mem_cons_self
      obtain ⟨hsends', hlinked'⟩ := idle_step hmin hmax link edge hfirst ⟨hsends, hlinked⟩
      have hrest := ih (hsilent.step hfirst) hsends' hlinked'
        fun other hother => hidle other (List.mem_cons_of_mem edge hother)
      intro heard hheard
      rcases List.mem_append.mp hheard with hnow | hlater
      · cases edge with
        | txClk i => exact hfirst.elim
        | line caught skew =>
            obtain rfl := List.mem_singleton.mp hnow
            exact hsilent.low hlinked
        | rxClk skew late station =>
            obtain rfl := List.mem_singleton.mp hnow
            trivial
      · exact hrest heard hlater

theorem countP_media_rxEdges {edges : List GmiiLinkEdge} (hidle : ∀ edge ∈ edges, edge.Idle) :
    (link.rxEdges maxFrame edges).countP (fun edge => !edge.isClk) =
      edges.countP GmiiLinkEdge.isLine := by
  induction edges generalizing link with
  | nil => rfl
  | cons edge rest ih =>
      have hrest := fun other hother => hidle other (List.mem_cons_of_mem edge hother)
      cases edge with
      | txClk i => exact (hidle _ List.mem_cons_self).elim
      | line caught skew =>
          rw [rxEdges, List.countP_append, ih hrest, List.countP_cons, Nat.add_comm]
          rfl
      | rxClk skew late station => exact ih hrest

/-- Two edges of the silent line later the receiver has nothing more to write. -/
theorem Silent.stopped (hmin : 1 ≤ maxFrame) (hmax : maxFrame ≤ 16370)
    (hsilent : link.Silent maxFrame) (hsends : EthMacSysTx.Sends maxFrame 0 link.tx)
    (hlinked : link.Linked) {edges : List GmiiLinkEdge} (hidle : ∀ edge ∈ edges, edge.Idle)
    (htwo : 2 ≤ edges.countP GmiiLinkEdge.isLine) :
    (runFrom (EthGmiiLink.step maxFrame) link edges).rx.cdc.Stopped := by
  have hquiet := hsilent.quiet hmin hmax hsends hlinked hidle
  rw [rx_runFrom]
  exact EthMacSysRx.stopped_of_quiet hquiet (by rwa [countP_media_rxEdges hidle])

theorem Silent.rests (hmin : 1 ≤ maxFrame) (hmax : maxFrame ≤ 16370) (haddr : 2 ≤ addrWidth)
    (hsilent : link.Silent maxFrame) (hworks : link.Works maxFrame policy)
    (hstopped : link.rx.cdc.Stopped) {edges : List GmiiLinkEdge}
    (hidle : ∀ edge ∈ edges, edge.Idle)
    (hlong : 3 * 2 ^ addrWidth + 20 ≤ edges.countP GmiiLinkEdge.isRxClk) :
    (runFrom (EthGmiiLink.step maxFrame) link edges).rx.AtRest := by
  obtain ⟨packet, ledger, counted, retired, part, htracks, -⟩ := hworks.carries.lossless
  have hquiet := hsilent.quiet hmin hmax hworks.sends hworks.linked hidle
  rw [rx_runFrom]
  exact EthMacSysRx.atRest_of_quiet haddr ⟨packet, ledger, counted, retired, part, htracks⟩
    hstopped hquiet (by rwa [countP_rxEdges])

/-- When the sender has sent everything the wire is silent. -/
theorem silent_of_finished {enough : Nat} {edges : List GmiiLinkEdge}
    (hfinished : ∀ last : List GmiiTxCatch,
      (∀ caught ∈ last, caught.cfgSpeed = 0 ∧ caught.txHold = false) → enough ≤ last.length →
        (runFrom (EthMacSysTx.step maxFrame) link.tx (last.map .media)).cdc.wire.opened = [])
    (hidle : ∀ edge ∈ edges, edge.Idle)
    (henough : enough ≤ edges.countP GmiiLinkEdge.isLine) :
    (runFrom (step maxFrame) link edges).Silent maxFrame := by
  intro more hmore
  have hboth : ∀ edge ∈ edges ++ more, edge.Idle := by
    intro edge hedge
    rcases List.mem_append.mp hedge with hnow | hlater
    · exact hidle edge hnow
    · exact hmore edge hlater
  rw [← runFrom_append, tx_idle hboth]
  refine hfinished _ (catches_idle hboth) ?_
  rw [length_catches, List.countP_append]
  omega

/-- When all is at rest the receiver has taken every frame. -/
theorem Works.accepted_all (hworks : link.Works maxFrame policy) (hrest : link.rx.AtRest)
    (hlow : link.receiving.gmiiRxDvInt = false)
    (hclosed : link.tx.cdc.wire.closed = (link.frames link.tx.cdc.started).map wireFrame) :
    acceptedFrames link.rx.mac.sent =
      (link.frames link.tx.cdc.started).filterMap (arrives params policy) := by
  have hheard := hworks.linked.follows
  rw [hlow, if_neg Bool.false_ne_true] at hheard
  have hidle : (link.rx.cdc.received.map GmiiRxIn.byte).opened = [] := by
    rw [Envelopes.map, hrest.stopped.1, List.map_nil]
  have hsame : link.tx.cdc.wire.closed = (link.rx.cdc.received.map GmiiRxIn.byte).closed := by
    rw [hheard, Envelopes.observe_none_closed, Envelopes.all_of_idle hidle]
  rw [hworks.carries.accepted_all hrest, hworks.linked.sound_received, ← hsame, hclosed,
    filterMap_wireFrames]

/-- Once the sender has stopped, every frame arrives. -/
theorem Works.arrive (hmin : 1 ≤ maxFrame) (hmax : maxFrame ≤ 16370) (haddr : 2 ≤ addrWidth)
    (hmac : 2 ≤ params.axisFifoAddrWidth) (hworks : link.Works maxFrame policy)
    (hrested : link.tx.Rested) :
    ∃ enough, ∀ more last : List GmiiLinkEdge, (∀ edge ∈ more ++ last, edge.Idle) →
      enough ≤ more.countP GmiiLinkEdge.isLine →
      3 * 2 ^ addrWidth + 20 ≤ last.countP GmiiLinkEdge.isRxClk →
      Along (step maxFrame)
        (fun link edge => link.Eased maxFrame edge ∧ edge.Exact policy params) link
        (more ++ last) →
      let later : EthGmiiLink txStyle addrWidth rxStyle params :=
        runFrom (step maxFrame) link (more ++ last)
      acceptedFrames later.rx.mac.sent =
          (link.frames later.tx.cdc.started).filterMap (arrives params policy) ∧
        later.tx.cdc.started.count false = link.tx.mac.source.offered.length ∧
        later.tx.cdc.started.count true = link.tx.asked.length := by
  obtain ⟨enough, hfinishes⟩ := hworks.sends.finishes hmin hmax hrested
  refine ⟨enough + 2, fun more last hidle hmore hlast hok => ?_⟩
  intro later
  obtain ⟨before, after, rfl, hbefore, hafter⟩ := split_countP hmore
  have hearly := fun edge hedge =>
    hidle edge (List.mem_append_left last (List.mem_append_left after hedge))
  have hmiddle := fun edge hedge =>
    hidle edge (List.mem_append_left last (List.mem_append_right before hedge))
  have hlate := fun edge hedge => hidle edge (List.mem_append_right (before ++ after) hedge)
  have hstep := @works_step txStyle addrWidth rxStyle params maxFrame policy hmin hmax haddr hmac
  obtain ⟨hoksent, -⟩ := along_append.mp hok
  obtain ⟨hokbefore, -⟩ := along_append.mp hoksent
  have hworks₁ := invariant_along hstep hworks hokbefore
  have hworks₂ := invariant_along hstep hworks hoksent
  have hlater : later.Works maxFrame policy := invariant_along hstep hworks hok
  -- the wire is silent after the first edges, the receiver stopped two edges later
  have hsilent₁ : (runFrom (step maxFrame) link before).Silent maxFrame :=
    silent_of_finished (fun last hlast henough => (hfinishes last hlast henough).1) hearly hbefore
  have hsilent₂ := hsilent₁.run hmiddle
  have hstopped := hsilent₁.stopped hmin hmax hworks₁.sends hworks₁.linked hmiddle hafter
  rw [← runFrom_append] at hsilent₂ hstopped
  have hsilent₃ := hsilent₂.run hlate
  have hrest := hsilent₂.rests hmin hmax haddr hworks₂ hstopped hlate hlast
  rw [← runFrom_append] at hsilent₃ hrest
  have htx : later.tx = runFrom (EthMacSysTx.step maxFrame) link.tx
      (((before ++ after ++ last).filterMap GmiiLinkEdge.catches).map .media) := tx_idle hidle
  obtain ⟨-, hclosed, hdat, hctl⟩ := hfinishes _ (catches_idle hidle) (by
    rw [length_catches, List.countP_append, List.countP_append]
    omega)
  rw [← htx] at hclosed hdat hctl
  have hframes (order : List Bool) : later.frames order = link.frames order := by
    obtain ⟨hsource, hasked⟩ := EthMacSysTx.run_media_sources link.tx _
    rw [frames, frames, htx, hsource, hasked]
  refine ⟨?_, hdat, hctl⟩
  rw [← hframes]
  refine hlater.accepted_all hrest (hsilent₃.low hlater.linked) (hclosed.trans ?_)
  rw [shown_frames, hframes]

/-- Over every run of two stations on a GMII whose user source keeps `tvalid` high within a
frame of at most `MAX_FRAME` bytes and whose receiver has room: the receiver's output is the
user frames and the PAUSE frames that were asked for, each padded, those that are for the
station, each once and in order; and when the sender has come to rest all of them come out. -/
theorem gmiiLink_run (hmin : 1 ≤ maxFrame) (hmax : maxFrame ≤ 16370) (haddr : 2 ≤ addrWidth)
    (hmac : 2 ≤ params.axisFifoAddrWidth) (datMem : BitVec 14 → GmiiTxWord)
    (ctlMem : BitVec 7 → GmiiTxWord) (txHeadQ : GmiiTxWord) (cdcMem : BitVec addrWidth → RxWord)
    (rxHeadQ : RxWord) (mem : BitVec params.axisFifoAddrWidth → MacWord) (doutR : MacWord)
    (edges : List GmiiLinkEdge)
    (hok : Along (step maxFrame)
      (fun link edge => link.Eased maxFrame edge ∧ edge.Exact policy params)
      (start datMem ctlMem txHeadQ cdcMem rxHeadQ mem doutR :
        EthGmiiLink txStyle addrWidth rxStyle params) edges) :
    let link : EthGmiiLink txStyle addrWidth rxStyle params :=
      runFrom (step maxFrame) (start datMem ctlMem txHeadQ cdcMem rxHeadQ mem doutR) edges
    acceptedFrames link.rx.mac.sent <+:
        (link.frames link.tx.cdc.started).filterMap (arrives params policy) ∧
      (link.tx.cdc.started.count false ≤ link.tx.mac.source.offered.length ∧
        link.tx.cdc.started.count true ≤ link.tx.asked.length) ∧
      (link.tx.Rested → ∃ enough, ∀ more last : List GmiiLinkEdge,
        (∀ edge ∈ more ++ last, edge.Idle) →
        enough ≤ more.countP GmiiLinkEdge.isLine →
        3 * 2 ^ addrWidth + 20 ≤ last.countP GmiiLinkEdge.isRxClk →
        Along (step maxFrame)
          (fun link edge => link.Eased maxFrame edge ∧ edge.Exact policy params) link
          (more ++ last) →
        let later : EthGmiiLink txStyle addrWidth rxStyle params :=
          runFrom (step maxFrame) link (more ++ last)
        acceptedFrames later.rx.mac.sent =
            (link.frames later.tx.cdc.started).filterMap (arrives params policy) ∧
          later.tx.cdc.started.count false = link.tx.mac.source.offered.length ∧
          later.tx.cdc.started.count true = link.tx.asked.length) := by
  intro link
  have hworks : link.Works maxFrame policy :=
    invariant_along (works_step hmin hmax haddr hmac)
      ⟨⟨EthMacSysTx.relays_start hmin 0 datMem ctlMem txHeadQ, MacTxBench.fed_start maxFrame⟩,
        EthMacSysRx.carries_start haddr hmac policy cdcMem rxHeadQ mem doutR,
        linked_start datMem ctlMem txHeadQ cdcMem rxHeadQ mem doutR⟩ hok
  exact ⟨hworks.accepted hmax, (hworks.sends.shows hmax).2.2.1,
    fun hrested => hworks.arrive hmin hmax haddr hmac hrested⟩

/-- A station that takes every frame. -/
def promiscPins : EthMacRxIn := { quietPins true with promisc := true }

/-- The line clock and the receiver's clock tick once. -/
def linkTick : List GmiiLinkEdge :=
  [.line ⟨0, false, ⟨false, false⟩, false, ⟨false, false⟩, false⟩ ⟨false, false⟩,
    .rxClk ⟨false, false⟩ false promiscPins]

def linkTicks (count : Nat) : List GmiiLinkEdge := (List.replicate count linkTick).flatten

/-- A user frame and a PAUSE frame go through the framers. -/
def sendEdges : List GmiiLinkEdge :=
  (EthMacSysTx.twoBytes ++ [EthMacSysTx.userCycle 0x33 true true false] ++
    EthMacSysTx.restCycles).flatMap fun i => .txClk i :: linkTick

/-- The frames are on their way to the receiver. -/
def lateEdges : List GmiiLinkEdge := sendEdges ++ linkTicks 90

def linkEdges : List GmiiLinkEdge := lateEdges ++ linkTicks 90 ++ linkTicks 80

/-- An edge of that station, or of the sender. -/
def ofPromisc : GmiiLinkEdge → Bool
  | .rxClk _ _ station => station == promiscPins
  | _ => true

theorem exact_of_promisc {edges : List GmiiLinkEdge} (hstation : edges.all ofPromisc = true) :
    ∀ edge ∈ edges, edge.Exact (.of EthMacSysRx.smallParams promiscPins)
      EthMacSysRx.smallParams := by
  intro edge hedge
  have hsame := List.all_eq_true.mp hstation edge hedge
  cases edge with
  | txClk i => trivial
  | line caught skew => trivial
  | rxClk skew late station =>
      rw [show station = promiscPins from beq_iff_eq.mp hsame]
      exact ⟨fun _ => rfl, rfl⟩

/-- The PAUSE frame and the user frame come out one behind the other, and the sender has come
to rest. -/
theorem gmiiLink_run_delivers :
    let start : EthGmiiLink .block 8 .distributed EthMacSysRx.smallParams :=
      start (fun _ => ⟨false, false, 0⟩) (fun _ => ⟨false, false, 0⟩) ⟨false, false, 0⟩
        (fun _ => ⟨false, false, 0⟩) ⟨false, false, 0⟩ (fun _ => plainWord 0) (plainWord 0)
    let send := runFrom (step 1518) start sendEdges
    let late := runFrom (step 1518) start lateEdges
    let next := runFrom (step 1518) start (lateEdges ++ linkTicks 90)
    let link := runFrom (step 1518) start linkEdges
    let policy : RxPolicy := .of EthMacSysRx.smallParams promiscPins
    (send.tx.cdc.started = [true] ∧ late.tx.cdc.started = [true, false] ∧
        acceptedFrames next.rx.mac.sent = [pauseFrame 0x020000000001 0xFFFF] ∧
        acceptedFrames link.rx.mac.sent =
          [pauseFrame 0x020000000001 0xFFFF, [0x11, 0x22, 0x33] ++ List.replicate 57 0]) ∧
      acceptedFrames link.rx.mac.sent <+:
        (link.frames link.tx.cdc.started).filterMap (arrives EthMacSysRx.smallParams policy) ∧
      (link.tx.cdc.started.count false ≤ link.tx.mac.source.offered.length ∧
        link.tx.cdc.started.count true ≤ link.tx.asked.length) ∧
      ∃ enough, ∀ more last : List GmiiLinkEdge,
        (∀ edge ∈ more ++ last, edge.Idle) →
        enough ≤ more.countP GmiiLinkEdge.isLine →
        3 * 2 ^ 8 + 20 ≤ last.countP GmiiLinkEdge.isRxClk →
        Along (step 1518)
          (fun link edge => link.Eased 1518 edge ∧
            edge.Exact policy EthMacSysRx.smallParams) link (more ++ last) →
        let later : EthGmiiLink .block 8 .distributed EthMacSysRx.smallParams :=
          runFrom (step 1518) link (more ++ last)
        acceptedFrames later.rx.mac.sent =
            (link.frames later.tx.cdc.started).filterMap
              (arrives EthMacSysRx.smallParams policy) ∧
          later.tx.cdc.started.count false = link.tx.mac.source.offered.length ∧
          later.tx.cdc.started.count true = link.tx.asked.length := by
  have heased : Along (step 1518) (fun link edge => link.Eased 1518 edge)
      (start (fun _ => ⟨false, false, 0⟩) (fun _ => ⟨false, false, 0⟩) ⟨false, false, 0⟩
        (fun _ => ⟨false, false, 0⟩) ⟨false, false, 0⟩ (fun _ => plainWord 0) (plainWord 0) :
          EthGmiiLink .block 8 .distributed EthMacSysRx.smallParams) linkEdges := by
    decide +kernel
  obtain ⟨haccepted, hcounts, harrive⟩ := gmiiLink_run (by decide) (by decide) (by decide)
    (by decide) _ _ _ _ _ _ _ _
    (along_and heased (along_of_mem (exact_of_promisc (by decide +kernel)) _))
  exact ⟨by decide +kernel, haccepted, hcounts, harrive (by decide +kernel)⟩

end EthGmiiLink

end EmacZero
