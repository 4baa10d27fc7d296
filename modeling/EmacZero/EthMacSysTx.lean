/-
The transmit side of `eth_mac_sys` with a GMII or RGMII: user frames and the PAUSE frames of
`eth_pause` each go through a framer of their own into `gmii_cdc`.
-/
import EmacZero.EthMacTxBursts
import EmacZero.EthMacTxLength
import EmacZero.EthPauseSend
import EmacZero.GmiiCdcTxDrain

namespace EmacZero

/-- One cycle of `clk`: the user stream, the hold of a received PAUSE frame, and the request
to send one. -/
structure SysTxClk where
  userTxTdata : BitVec 8
  userTxTvalid : Bool
  userTxTlast : Bool
  txPaused : Bool
  ourMac : BitVec 48
  cfgPauseTxSend : Bool
  cfgPauseTxQuanta : BitVec 16
  statClr : Bool
  datSkew : Skew
  ctlSkew : Skew
deriving Repr, DecidableEq

/-- A rising edge of `clk` or of `media_clk`. -/
inductive SysTxEdge where
  | clk (i : SysTxClk)
  | media (caught : GmiiTxCatch)
deriving Repr, DecidableEq

/-- The generator of PAUSE frames with the requests that it has taken up, the two framers,
the filler of the user frame under way, and `gmii_cdc`. -/
structure EthMacSysTx (ramStyle : RamStyle) where
  pause : EthPauseTx
  asked : List (BitVec 48 × BitVec 16)
  mac : MacTxBench
  ctl : MacTxBench
  filler : Nat
  cdc : GmiiTxBench ramStyle

namespace EthMacSysTx

variable {ramStyle : RamStyle}

def start (datMem : BitVec 14 → GmiiTxWord) (ctlMem : BitVec 7 → GmiiTxWord)
    (headQ : GmiiTxWord) : EthMacSysTx ramStyle where
  pause := .reset
  asked := []
  mac := .start
  ctl := .start
  filler := 0
  cdc := .start datMem ctlMem headQ

section Wires

variable (maxFrame : Nat) (sys : EthMacSysTx ramStyle) (i : SysTxClk)

def macIn : EthMacTxIn where
  sAxisTdata := i.userTxTdata
  sAxisTvalid := i.userTxTvalid
  sAxisTlast := i.userTxTlast
  txStartOk := !sys.cdc.tx.txBusy maxFrame && !i.txPaused

def ctlIn : EthMacTxIn where
  sAxisTdata := sys.pause.pauseTdata
  sAxisTvalid := sys.pause.pauseTvalid
  sAxisTlast := sys.pause.pauseTlast
  txStartOk := !sys.cdc.tx.txCtlBusy

def pauseIn : PauseTxIn where
  ourMac := i.ourMac
  cfgPauseTxSend := i.cfgPauseTxSend
  cfgPauseTxQuanta := i.cfgPauseTxQuanta
  pauseTready := sys.ctl.tx.sAxisTready
  statClr := i.statClr

/-- A rising edge of `clk`.  The framer of the PAUSE frames has `MAX_FRAME` 60. -/
def clkEdge : EthMacSysTx ramStyle where
  pause := sys.pause.clkEdge (sys.pauseIn i)
  asked :=
    if sys.pause.txState = .idle ∧ i.cfgPauseTxSend = true then
      sys.asked ++ [(i.ourMac, i.cfgPauseTxQuanta)]
    else sys.asked
  mac := sys.mac.step maxFrame (sys.macIn maxFrame i)
  ctl := sys.ctl.step 60 sys.ctlIn
  filler := sys.mac.tx.fillerEdge (sys.macIn maxFrame i) sys.filler
  cdc := sys.cdc.sysEdge maxFrame sys.mac.tx.gmiiIn sys.ctl.tx.gmiiIn i.datSkew i.ctlSkew

def mediaEdge (caught : GmiiTxCatch) : EthMacSysTx ramStyle :=
  { sys with cdc := sys.cdc.mediaEdge caught }

def step : SysTxEdge → EthMacSysTx ramStyle
  | .clk i => sys.clkEdge maxFrame i
  | .media caught => sys.mediaEdge caught

end Wires

end EthMacSysTx

namespace MacTxBench

variable {maxFrame : Nat} {bench : MacTxBench} {i : EthMacTxIn}

/-- What is known of a framer whose source leaves no gap. -/
structure Fed (maxFrame : Nat) (bench : MacTxBench) : Prop where
  settled : bench.tx.Settled
  traced : bench.Traced maxFrame
  clean : bench.source.Clean maxFrame

theorem fed_start (maxFrame : Nat) : Fed maxFrame start :=
  ⟨EthMacTx.settled_reset, traced_start, clean_start⟩

theorem Fed.step (hfed : Fed maxFrame bench) (hgapless : Gapless maxFrame bench i) :
    Fed maxFrame (bench.step maxFrame i) :=
  ⟨hfed.settled.clkEdge, hfed.traced.step hfed.settled, clean_step hfed.clean hgapless⟩

/-- Without gaps there is no filler. -/
theorem Fed.not_stalls (hmax : maxFrame ≤ 16383) (hfed : Fed maxFrame bench)
    (hgapless : Gapless maxFrame bench i) : bench.tx.stalls i = false := by
  by_contra hstalls
  rw [Bool.not_eq_false, EthMacTx.stalls, Bool.and_eq_true, Bool.and_eq_true, Bool.and_eq_true,
    beq_iff_eq, Bool.not_eq_true', Bool.not_eq_true', Bool.not_eq_true'] at hstalls
  obtain ⟨⟨⟨hstate, hended⟩, hnone⟩, hvalid⟩ := hstalls
  obtain ⟨groups, lost, -, -, hprogress⟩ := hfed.traced
  cases hprogress with
  | between _ hidle =>
      rw [EthMacTx.inProgress, hnone, hstate, hended] at hidle
      cases hidle
  | first _ hfirst => exact absurd (hnone.symm.trans hfirst) (by decide)
  | body hcurrent hbytes _ _ hready =>
      have hbusy := (hgapless hready).1 (by rwa [hcurrent])
      exact absurd (hvalid.symm.trans hbusy) (by decide)
  | astray hbytes hastray => exact absurd hastray (not_astray hmax hfed.clean hbytes)

end MacTxBench

/-! The PAUSE frames. -/

/-- The generator has handed over the frames that were asked for, up to the byte it is at. -/
structure Feeds (gen : EthPauseTx) (asked : List (BitVec 48 × BitVec 16))
    (source : AxisSource) : Prop where
  running : gen.txState = .run → gen.txIdx.toNat < 60 ∧
    source.current.bytes =
      (pauseFrame gen.txSrcLat gen.txQuantaLat).take gen.txIdx.toNat ∧
    asked.map (fun request => pauseFrame request.1 request.2) =
      source.offered.map SourceFrame.bytes ++ [pauseFrame gen.txSrcLat gen.txQuantaLat]
  resting : gen.txState ≠ .run → source.current.bytes = [] ∧
    asked.map (fun request => pauseFrame request.1 request.2) =
      source.offered.map SourceFrame.bytes

namespace EthMacSysTx

variable {ramStyle : RamStyle} {maxFrame : Nat} {sys : EthMacSysTx ramStyle} {i : SysTxClk}

open PauseSendBench (length_pauseFrame bytes_taken gen_step)

theorem feeds_start : Feeds .reset [] .start :=
  ⟨fun hrun => (by cases hrun), fun _ => ⟨rfl, rfl⟩⟩

/-- The generator leaves no gap in a frame. -/
theorem ctl_gapless (hfeeds : Feeds sys.pause sys.asked sys.ctl.source) :
    MacTxBench.Gapless 60 sys.ctl sys.ctlIn := by
  intro _
  by_cases hstate : sys.pause.txState = .run
  · obtain ⟨hidx, hbytes, -⟩ := hfeeds.running hstate
    have hlength : sys.ctl.source.current.bytes.length = sys.pause.txIdx.toNat := by
      rw [hbytes, List.length_take, length_pauseFrame]
      omega
    refine ⟨fun _ => ?_, fun _ => ?_⟩
    · rw [ctlIn, EthPauseTx.pauseTvalid, hstate]
      rfl
    · have hlast : sys.ctlIn.sAxisTlast = (sys.pause.txIdx == 59) := by
        rw [ctlIn, EthPauseTx.pauseTlast, hstate]
        rfl
      rw [hlength, hlast]
      by_cases hend : sys.pause.txIdx = 59
      · rw [hend]
        decide
      · have hshort : sys.pause.txIdx.toNat ≠ 59 :=
          fun heq => hend (BitVec.eq_of_toNat_eq heq)
        rw [beq_eq_false_iff_ne.mpr hend, if_neg Bool.false_ne_true]
        omega
  · have hvalid : sys.ctlIn.sAxisTvalid = false := by
      rw [ctlIn, EthPauseTx.pauseTvalid]
      exact beq_eq_false_iff_ne.mpr hstate
    refine ⟨fun hne => absurd (hfeeds.resting hstate).1 hne, fun hbusy => ?_⟩
    exact absurd (hvalid.symm.trans hbusy) (by decide)

theorem txSrcLat_of_send {gen : EthPauseTx} {i : PauseTxIn} (hidle : gen.txState = .idle)
    (hsend : i.cfgPauseTxSend = true) : (gen.clkEdge i).txSrcLat = i.ourMac := by
  simp only [EthPauseTx.clkEdge, hidle, hsend, if_true]
  split <;> rfl

/-- One cycle of the generator and its framer. -/
theorem feeds_clkEdge (hfeeds : Feeds sys.pause sys.asked sys.ctl.source) :
    Feeds (sys.clkEdge maxFrame i).pause (sys.clkEdge maxFrame i).asked
      (sys.clkEdge maxFrame i).ctl.source := by
  have hasked : sys.pause.txState ≠ .idle ∨ i.cfgPauseTxSend = false →
      (sys.clkEdge maxFrame i).asked = sys.asked := fun hnone => if_neg fun hboth => by
    rcases hnone with hbusy | hquiet
    · exact hbusy hboth.1
    · exact absurd (hquiet.symm.trans hboth.2) (by decide)
  have hquiet : sys.pause.txState ≠ .run →
      (sys.ctl.tx.sAxisTready && sys.ctlIn.sAxisTvalid) = false := fun hstate => by
    rw [ctlIn, EthPauseTx.pauseTvalid, beq_eq_false_iff_ne.mpr hstate, Bool.and_false]
  have hstill : (sys.ctl.tx.sAxisTready && sys.ctlIn.sAxisTvalid) = false →
      (sys.clkEdge maxFrame i).ctl.source.offered = sys.ctl.source.offered ∧
        (sys.clkEdge maxFrame i).ctl.source.current.bytes = sys.ctl.source.current.bytes :=
    fun hnone => by
      have hquiet := @MacTxBench.source_quiet 60 sys.ctl sys.ctlIn hnone
      change (sys.ctl.step 60 sys.ctlIn).source.offered = _ ∧
        (sys.ctl.step 60 sys.ctlIn).source.current.bytes = _
      rw [hquiet]
      exact ⟨rfl, rfl⟩
  rcases gen_step sys.pause (sys.pauseIn i) with
    ⟨hidle, hsend, hnext⟩ | ⟨hidle, hsend, hnext, hidx, hquanta⟩ |
    ⟨hrun, hready, hnext, hidx, hquanta, hsrc⟩ |
    ⟨hrun, hready, hlast, hnext, hidx, hquanta, hsrc⟩ | ⟨hrun, hready, hlast, hnext⟩ |
    ⟨hdone, hnext⟩
  · have hnot : sys.pause.txState ≠ .run := by rw [hidle]; decide
    obtain ⟨hbytes, hall⟩ := hfeeds.resting hnot
    obtain ⟨hoffered, hcurrent⟩ := hstill (hquiet hnot)
    refine ⟨fun hrun => absurd (hnext.symm.trans hrun) (by decide), fun _ => ?_⟩
    rw [hasked (.inr hsend), hoffered, hcurrent]
    exact ⟨hbytes, hall⟩
  · have hnot : sys.pause.txState ≠ .run := by rw [hidle]; decide
    obtain ⟨hbytes, hall⟩ := hfeeds.resting hnot
    obtain ⟨hoffered, hcurrent⟩ := hstill (hquiet hnot)
    have hmore : (sys.clkEdge maxFrame i).asked =
        sys.asked ++ [(i.ourMac, i.cfgPauseTxQuanta)] := if_pos ⟨hidle, hsend⟩
    have hsrc : (sys.clkEdge maxFrame i).pause.txSrcLat = i.ourMac :=
      txSrcLat_of_send hidle hsend
    have hquanta' : (sys.clkEdge maxFrame i).pause.txQuantaLat = i.cfgPauseTxQuanta := hquanta
    have hidx' : (sys.clkEdge maxFrame i).pause.txIdx = 0 := hidx
    refine ⟨fun _ => ⟨?_, ?_, ?_⟩, fun hnot => absurd hnext hnot⟩
    · rw [hidx']
      decide
    · rw [hcurrent, hbytes, hidx']
      rfl
    · rw [hmore, hoffered, hsrc, hquanta', List.map_append, hall]
      rfl
  · obtain ⟨hbound, hbytes, hall⟩ := hfeeds.running hrun
    have hnone : (sys.ctl.tx.sAxisTready && sys.ctlIn.sAxisTvalid) = false := by
      rw [show sys.ctl.tx.sAxisTready = false from hready, Bool.false_and]
    obtain ⟨hoffered, hcurrent⟩ := hstill hnone
    have hidx' : (sys.clkEdge maxFrame i).pause.txIdx = sys.pause.txIdx := hidx
    have hquanta' : (sys.clkEdge maxFrame i).pause.txQuantaLat = sys.pause.txQuantaLat := hquanta
    have hsrc' : (sys.clkEdge maxFrame i).pause.txSrcLat = sys.pause.txSrcLat := hsrc
    refine ⟨fun _ => ?_, fun hnot => absurd hnext hnot⟩
    rw [hidx', hquanta', hsrc', hasked (.inl (by rw [hrun]; decide)), hoffered, hcurrent]
    exact ⟨hbound, hbytes, hall⟩
  · obtain ⟨hbound, hbytes, hall⟩ := hfeeds.running hrun
    have hvalid : sys.ctlIn.sAxisTvalid = true := by
      rw [ctlIn, EthPauseTx.pauseTvalid, hrun]
      rfl
    have htlast : sys.ctlIn.sAxisTlast = false := by
      rw [ctlIn, EthPauseTx.pauseTlast, hrun, beq_eq_false_iff_ne.mpr hlast, Bool.and_false]
    have hsource := @MacTxBench.source_more 60 sys.ctl sys.ctlIn hready hvalid htlast
    have hlt : sys.pause.txIdx.toNat ≠ 59 := fun heq => hlast (BitVec.eq_of_toNat_eq heq)
    have hsucc : (sys.pause.txIdx + 1).toNat = sys.pause.txIdx.toNat + 1 := by
      rw [BitVec.toNat_add_of_lt (by simp; omega)]
      rfl
    have hidx' : (sys.clkEdge maxFrame i).pause.txIdx = sys.pause.txIdx + 1 := hidx
    have hquanta' : (sys.clkEdge maxFrame i).pause.txQuantaLat = sys.pause.txQuantaLat := hquanta
    have hsrc' : (sys.clkEdge maxFrame i).pause.txSrcLat = sys.pause.txSrcLat := hsrc
    refine ⟨fun _ => ?_, fun hnot => absurd hnext hnot⟩
    rw [hidx', hquanta', hsrc', hasked (.inl (by rw [hrun]; decide)), hsucc]
    change _ ∧ (sys.ctl.step 60 sys.ctlIn).source.current.bytes = _ ∧
      _ = (sys.ctl.step 60 sys.ctlIn).source.offered.map SourceFrame.bytes ++ _
    rw [hsource]
    refine ⟨by omega, ?_, hall⟩
    rw [← bytes_taken hbound, ← hbytes]
    rfl
  · obtain ⟨hbound, hbytes, hall⟩ := hfeeds.running hrun
    have hvalid : sys.ctlIn.sAxisTvalid = true := by
      rw [ctlIn, EthPauseTx.pauseTvalid, hrun]
      rfl
    have htlast : sys.ctlIn.sAxisTlast = true := by
      rw [ctlIn, EthPauseTx.pauseTlast, hrun, hlast]
      rfl
    have hsource := @MacTxBench.source_last 60 sys.ctl sys.ctlIn hready hvalid htlast
    refine ⟨fun hagain => absurd (hnext.symm.trans hagain) (by decide), fun _ => ?_⟩
    rw [hasked (.inl (by rw [hrun]; decide))]
    change (sys.ctl.step 60 sys.ctlIn).source.current.bytes = _ ∧
      _ = (sys.ctl.step 60 sys.ctlIn).source.offered.map SourceFrame.bytes
    rw [hsource, List.map_append, List.map_singleton, hall]
    refine ⟨rfl, ?_⟩
    change _ = _ ++ [sys.ctl.source.current.bytes ++ [sys.pause.pauseTdata]]
    rw [hbytes, bytes_taken hbound, hlast]
    rfl
  · have hnot : sys.pause.txState ≠ .run := by rw [hdone]; decide
    obtain ⟨hbytes, hall⟩ := hfeeds.resting hnot
    obtain ⟨hoffered, hcurrent⟩ := hstill (hquiet hnot)
    refine ⟨fun hrun => absurd (hnext.symm.trans hrun) (by decide), fun _ => ?_⟩
    rw [hasked (.inl (by rw [hdone]; decide)), hoffered, hcurrent]
    exact ⟨hbytes, hall⟩

/-! The whole side. -/

/-- What holds of every run whose user frames are in time. -/
structure Relays (maxFrame : Nat) (speed : BitVec 2) (sys : EthMacSysTx ramStyle) : Prop where
  encodes : ∃ dat ctl, GmiiTxBench.Encodes maxFrame speed sys.cdc dat ctl
  mac : Leads maxFrame (GmiiTxBench.longestData maxFrame) sys.mac sys.filler sys.cdc.dat
  ctl : Leads 60 GmiiTxBench.longestCtl sys.ctl 0 sys.cdc.ctl
  fed : sys.ctl.Fed 60
  feeds : Feeds sys.pause sys.asked sys.ctl.source

/-- The speed is constant, and the filler of a user frame leaves it short enough. -/
def Timely (maxFrame : Nat) (speed : BitVec 2) (sys : EthMacSysTx ramStyle) :
    SysTxEdge → Prop
  | .clk i =>
      InTime maxFrame (GmiiTxBench.longestData maxFrame) sys.mac.tx sys.filler
        (sys.macIn maxFrame i)
  | .media caught => caught.cfgSpeed = speed

instance (speed : BitVec 2) (sys : EthMacSysTx ramStyle) (edge : SysTxEdge) :
    Decidable (sys.Timely maxFrame speed edge) := by
  cases edge <;> unfold Timely <;> infer_instance

theorem fullLength_le_longestData (hmin : 1 ≤ maxFrame) :
    EthMacTx.fullLength maxFrame ≤ GmiiTxBench.longestData maxFrame := by
  have hpad : EthMacTx.minFrame = 60 := rfl
  rw [EthMacTx.fullLength, GmiiTxBench.longestData, GmiiCdcTx.txMaxFrameBytes]
  split <;> omega

theorem relays_start (hmin : 1 ≤ maxFrame) (speed : BitVec 2) (datMem : BitVec 14 → GmiiTxWord)
    (ctlMem : BitVec 7 → GmiiTxWord) (headQ : GmiiTxWord) :
    Relays maxFrame speed (start datMem ctlMem headQ : EthMacSysTx ramStyle) where
  encodes := ⟨_, _, GmiiTxBench.encodes_start maxFrame speed datMem ctlMem headQ⟩
  mac := leads_start (fullLength_le_longestData hmin)
  ctl := leads_start (by decide)
  fed := MacTxBench.fed_start 60
  feeds := feeds_start

theorem relays_step (hmin : 1 ≤ maxFrame) (hmax : maxFrame ≤ 16370) {speed : BitVec 2}
    (hrelays : Relays maxFrame speed sys) {edge : SysTxEdge}
    (hok : sys.Timely maxFrame speed edge) :
    Relays maxFrame speed (sys.step maxFrame edge) := by
  obtain ⟨hencodes, hmac, hctl, hfed, hfeeds⟩ := hrelays
  cases edge with
  | media caught =>
      exact ⟨GmiiTxBench.encodes_step hmax sys.cdc (.media caught) hok hencodes, hmac, hctl, hfed,
        hfeeds⟩
  | clk i =>
      have hgapless := ctl_gapless hfeeds
      have hstill := hfed.not_stalls (by decide) hgapless
      have hnone : sys.ctl.tx.fillerEdge sys.ctlIn 0 = 0 := by
        rw [EthMacTx.fillerEdge, hstill]
        exact ite_self _
      have hctlOk : InTime 60 GmiiTxBench.longestCtl sys.ctl.tx 0 sys.ctlIn :=
        fun hstalls => absurd (hstill.symm.trans hstalls) (by decide)
      have hwell : sys.cdc.WellBehaved maxFrame speed
          (.sys sys.mac.tx.gmiiIn sys.ctl.tx.gmiiIn i.datSkew i.ctlSkew) :=
        ⟨hmac.honours hmin speed _, hctl.honours (by decide) speed _⟩
      have hfree : sys.ctlIn.txStartOk = true → sys.cdc.tx.txCtlBusy = false :=
        (Bool.not_eq_true' _).mp
      have hctl' := hctl.step (by decide) (by decide) hctlOk sys.cdc.tx.ctl hfree
      rw [hnone] at hctl'
      refine ⟨GmiiTxBench.encodes_step hmax sys.cdc _ hwell hencodes, ?_, hctl',
        hfed.step hgapless, feeds_clkEdge hfeeds⟩
      refine hmac.step hmin (by omega) hok sys.cdc.tx.dat fun hstart => ?_
      rw [macIn, Bool.and_eq_true, Bool.not_eq_true'] at hstart
      exact hstart.1

/-- What the wire is to show of the PAUSE frames that were asked for. -/
def pauseImages (sys : EthMacSysTx ramStyle) : List (List (BitVec 8 × Bool)) :=
  sys.asked.map fun request => wireFrame (pauseFrame request.1 request.2)

/-- What the wire is to show of the user frames. -/
def userImages (sys : EthMacSysTx ramStyle) : List (List (BitVec 8 × Bool)) :=
  sys.mac.source.offered.map fun frame => wireFrame frame.bytes

/-- The envelopes of the framer of the PAUSE frames are those that were asked for. -/
theorem Relays.pauses {speed : BitVec 2} (hrelays : Relays maxFrame speed sys) :
    sys.ctl.wire.closed <+: sys.pauseImages := by
  obtain ⟨-, -, -, hfed, hfeeds⟩ := hrelays
  have hwhole := (MacTxBench.encoded_of_clean (by decide) hfed.settled hfed.traced
    hfed.clean).whole
  have hoffered : sys.ctl.source.offered.map (fun frame => wireFrame frame.bytes) <+:
      sys.pauseImages := by
    have hall : sys.ctl.source.offered.map SourceFrame.bytes <+:
        sys.asked.map fun request => pauseFrame request.1 request.2 := by
      by_cases hstate : sys.pause.txState = .run
      · rw [(hfeeds.running hstate).2.2]
        exact List.prefix_append _ _
      · rw [(hfeeds.resting hstate).2]
    have himages := hall.map wireFrame
    rw [List.map_map, List.map_map] at himages
    exact himages
  exact ((sys.ctl.wire.closed_prefix_observe sys.ctl.tx.beat).trans hwhole).trans hoffered

theorem run_media (sys : EthMacSysTx ramStyle) (last : List GmiiTxCatch) :
    (runFrom (step maxFrame) sys (last.map .media)).cdc =
      runFrom GmiiTxBench.mediaEdge sys.cdc last := by
  induction last generalizing sys with
  | nil => rfl
  | cons caught rest ih => exact ih (sys.mediaEdge caught)

/-- What comes out of `gmii_cdc` is what the framers have sent whole. -/
theorem relays_wire {speed : BitVec 2} (hrelays : Relays maxFrame speed sys) :
    (sys.cdc.dat.stored.whole = sys.mac.wire.closed ∧
        sys.cdc.ctl.stored.whole = sys.ctl.wire.closed) ∧
      sys.cdc.wire.Shows ((merge sys.cdc.started sys.mac.wire.closed sys.ctl.wire.closed).map
        (heldFor (byteCycles speed))) ∧
      (∀ gap ∈ sys.cdc.wire.gaps, gapCycles speed ≤ gap) ∧
      ∃ enough, ∀ last : List GmiiTxCatch,
        (∀ caught ∈ last, caught.cfgSpeed = speed ∧ caught.txHold = false) →
        enough ≤ last.length →
          let later : EthMacSysTx ramStyle :=
            runFrom (step maxFrame) sys (last.map .media)
          later.cdc.wire.closed =
              (merge later.cdc.started sys.mac.wire.closed sys.ctl.wire.closed).map
                (heldFor (byteCycles speed)) ∧
            later.cdc.started.count false = sys.mac.wire.closed.length ∧
            later.cdc.started.count true = sys.ctl.wire.closed.length := by
  obtain ⟨hencodesAt, hmac, hctl, -, -⟩ := hrelays
  obtain ⟨dat, ctl, hencodes⟩ := hencodesAt
  have hdatWhole : sys.cdc.dat.stored.whole = sys.mac.wire.closed := by
    rw [hencodes.datKept.whole, hmac.same]
  have hctlWhole : sys.cdc.ctl.stored.whole = sys.ctl.wire.closed := by
    rw [hencodes.ctlKept.whole, hctl.same]
  obtain ⟨hshows, hgaps⟩ := hencodes.wired.shows
  refine ⟨⟨hdatWhole, hctlWhole⟩, ?_, hgaps, ?_⟩
  · rw [← hdatWhole, ← hctlWhole]
    exact hshows
  · refine ⟨GmiiTxBench.enough false speed sys.cdc, fun last hlast henough => ?_⟩
    intro later
    have hlater : later.cdc = runFrom GmiiTxBench.mediaEdge sys.cdc last := run_media sys last
    rw [hlater, ← hdatWhole, ← hctlWhole]
    exact GmiiTxBench.encodes_drains ⟨dat, ctl, hencodes⟩ hlast henough

/-- A cycle with this on the user stream, and a request to send a PAUSE frame. -/
def userCycle (data : BitVec 8) (valid last send : Bool) : SysTxClk where
  userTxTdata := data
  userTxTvalid := valid
  userTxTlast := last
  txPaused := false
  ourMac := 0x020000000001
  cfgPauseTxSend := send
  cfgPauseTxQuanta := 0xFFFF
  statClr := false
  datSkew := ⟨false, false⟩
  ctlSkew := ⟨false, false⟩

/-- An edge of `media_clk` at 1 Gbit/s. -/
def mediaTick : SysTxEdge := .media ⟨0, false, ⟨false, false⟩, false, ⟨false, false⟩, false⟩

/-- The first two bytes of a user frame behind a request for a PAUSE frame. -/
def twoBytes : List SysTxClk :=
  [userCycle 0x11 true false true, userCycle 0x11 true false false] ++
    List.replicate 10 (userCycle 0x22 true false false)

/-- The user stream at rest. -/
def restCycles : List SysTxClk := List.replicate 80 (userCycle 0 false false false)

/-- Both clocks run at one speed. -/
def ticking (cycles : List SysTxClk) : List SysTxEdge :=
  cycles.flatMap fun i => [.clk i, mediaTick]

/-- The user source keeps `tvalid` high within a frame and no frame is longer than
`MAX_FRAME`, at a constant speed. -/
def Fitting (maxFrame : Nat) (speed : BitVec 2) (sys : EthMacSysTx ramStyle) :
    SysTxEdge → Prop
  | .clk i => MacTxLine.KeepsValid maxFrame sys.mac (sys.macIn maxFrame i)
  | .media caught => caught.cfgSpeed = speed

instance (speed : BitVec 2) (sys : EthMacSysTx ramStyle) (edge : SysTxEdge) :
    Decidable (sys.Fitting maxFrame speed edge) := by
  cases edge <;> unfold Fitting <;> infer_instance

/-- A framer that has sent all it was handed. -/
def AtRest (bench : MacTxBench) : Prop :=
  bench.tx.state = .idle ∧ bench.tx.haveFirst = false ∧ bench.source.current.bytes = [] ∧
    bench.wire.opened = []

/-- Both framers have sent all they were handed, and no PAUSE frame is under way. -/
def Rested (sys : EthMacSysTx ramStyle) : Prop :=
  AtRest sys.mac ∧ AtRest sys.ctl ∧ sys.pause.txState ≠ .run

instance (sys : EthMacSysTx ramStyle) : Decidable sys.Rested :=
  inferInstanceAs (Decidable ((_ ∧ _ ∧ _ ∧ _) ∧ (_ ∧ _ ∧ _ ∧ _) ∧ _))

theorem closed_of_rest {limit : Nat} {bench : MacTxBench} (hmax : limit ≤ 16383)
    (hfed : bench.Fed limit) (hrest : AtRest bench) :
    bench.wire.closed = bench.source.offered.map fun frame => wireFrame frame.bytes := by
  obtain ⟨hidle, hnone, hempty, hopened⟩ := hrest
  have hall := MacTxBench.closed_of_idle hmax hfed.traced hfed.clean hidle hnone hempty
  have hlow : bench.tx.gmiiTxEn = false := by
    have hsettled := hfed.settled
    simp only [EthMacTx.Settled, hidle] at hsettled
    exact hsettled.1
  rw [← hall, MacTxBench.now, EthMacTx.beat_eq_none.mpr hlow, Envelopes.observe_none_closed,
    Envelopes.all_of_idle hopened]

theorem prefix_merge {α : Type} {order : List Bool} {first second first' second' : List α}
    (hfirst : first <+: first') (hsecond : second <+: second')
    (hshort : order.count false ≤ first.length) (hshort' : order.count true ≤ second.length) :
    merge order first' second' = merge order first second := by
  obtain ⟨more, rfl⟩ := hfirst
  obtain ⟨later, rfl⟩ := hsecond
  exact merge_append hshort hshort' more later

/-- What also holds of every run whose user source keeps to those rules. -/
structure Sends (maxFrame : Nat) (speed : BitVec 2) (sys : EthMacSysTx ramStyle) : Prop where
  relays : Relays maxFrame speed sys
  fed : sys.mac.Fed maxFrame

theorem sends_step (hmin : 1 ≤ maxFrame) (hmax : maxFrame ≤ 16370) {speed : BitVec 2}
    (hsends : Sends maxFrame speed sys) {edge : SysTxEdge}
    (hok : sys.Fitting maxFrame speed edge) :
    Sends maxFrame speed (sys.step maxFrame edge) := by
  obtain ⟨hrelays, hfed⟩ := hsends
  cases edge with
  | media caught => exact ⟨relays_step hmin hmax hrelays hok, hfed⟩
  | clk i =>
      have hgapless := MacTxLine.gapless_of_keepsValid hok
      have hstill := hfed.not_stalls (by omega) hgapless
      refine ⟨relays_step hmin hmax hrelays ?_, hfed.step hgapless⟩
      exact fun hstalls => absurd (hstill.symm.trans hstalls) (by decide)

theorem Sends.users {speed : BitVec 2} (hmax : maxFrame ≤ 16383)
    (hsends : Sends maxFrame speed sys) : sys.mac.wire.closed <+: sys.userImages :=
  (sys.mac.wire.closed_prefix_observe sys.mac.tx.beat).trans
    (MacTxBench.encoded_of_clean hmax hsends.fed.settled hsends.fed.traced
      hsends.fed.clean).whole

/-- What the wire shows and will show of the frames that were handed over. -/
theorem Sends.shows (hmax : maxFrame ≤ 16370) {speed : BitVec 2}
    (hsends : Sends maxFrame speed sys) :
    let shown (order : List Bool) :=
      (merge order sys.userImages sys.pauseImages).map (heldFor (byteCycles speed))
    sys.cdc.wire.Shows (shown sys.cdc.started) ∧
      (∀ gap ∈ sys.cdc.wire.gaps, 12 * byteCycles speed ≤ gap) ∧
      (sys.cdc.started.count false ≤ sys.mac.source.offered.length ∧
        sys.cdc.started.count true ≤ sys.asked.length) ∧
      (sys.Rested → ∃ enough, ∀ last : List GmiiTxCatch,
        (∀ caught ∈ last, caught.cfgSpeed = speed ∧ caught.txHold = false) →
        enough ≤ last.length →
          let later : EthMacSysTx ramStyle :=
            runFrom (step maxFrame) sys (last.map .media)
          later.cdc.wire.closed = shown later.cdc.started ∧
            later.cdc.started.count false = sys.mac.source.offered.length ∧
            later.cdc.started.count true = sys.asked.length) := by
  intro shown
  have husers := hsends.users (by omega)
  have hpauses := hsends.relays.pauses
  obtain ⟨⟨hdatWhole, hctlWhole⟩, hshows, hgaps, enough, hdrains⟩ := relays_wire hsends.relays
  obtain ⟨dat, ctl, hencodes⟩ := hsends.relays.encodes
  have hstarted := hencodes.wired.started_le hencodes.holds
  rw [hdatWhole, hctlWhole] at hstarted
  have huserLength : sys.userImages.length = sys.mac.source.offered.length := List.length_map _
  have hpauseLength : sys.pauseImages.length = sys.asked.length := List.length_map _
  have hmerged : shown sys.cdc.started =
      (merge sys.cdc.started sys.mac.wire.closed sys.ctl.wire.closed).map
        (heldFor (byteCycles speed)) :=
    congrArg _ (prefix_merge husers hpauses hstarted.1 hstarted.2)
  refine ⟨hmerged ▸ hshows, fun gap hgap => (twelve_le_gapCycles speed).trans (hgaps gap hgap),
    ⟨?_, ?_⟩, fun hrest => ⟨enough, fun last hlast henough => ?_⟩⟩
  · exact (hstarted.1.trans husers.length_le).trans_eq huserLength
  · exact (hstarted.2.trans hpauses.length_le).trans_eq hpauseLength
  · obtain ⟨hclosed, hdat, hctl⟩ := hdrains last hlast henough
    obtain ⟨hmacRest, hctlRest, hidle⟩ := hrest
    have hmacAll : sys.mac.wire.closed = sys.userImages :=
      closed_of_rest (by omega) hsends.fed hmacRest
    have hctlAll : sys.ctl.wire.closed = sys.pauseImages := by
      have hall := congrArg (List.map wireFrame) (hsends.relays.feeds.resting hidle).2
      rw [List.map_map, List.map_map] at hall
      rw [closed_of_rest (by decide) hsends.relays.fed hctlRest]
      exact hall.symm
    rw [hmacAll, hctlAll] at hclosed
    rw [hmacAll, huserLength] at hdat
    rw [hctlAll, hpauseLength] at hctl
    exact ⟨hclosed, hdat, hctl⟩

theorem run_media_sources (sys : EthMacSysTx ramStyle) (last : List GmiiTxCatch) :
    (runFrom (step maxFrame) sys (last.map .media)).mac = sys.mac ∧
      (runFrom (step maxFrame) sys (last.map .media)).asked = sys.asked := by
  induction last generalizing sys with
  | nil => exact ⟨rfl, rfl⟩
  | cons caught rest ih => exact ih (sys.mediaEdge caught)

theorem fitting_media {speed : BitVec 2} {last : List GmiiTxCatch}
    (hlast : ∀ caught ∈ last, caught.cfgSpeed = speed) :
    Along (step maxFrame) (Fitting maxFrame speed) sys (last.map .media) := by
  induction last generalizing sys with
  | nil => trivial
  | cons caught rest ih =>
      exact ⟨hlast caught List.mem_cons_self,
        ih fun other hother => hlast other (List.mem_cons_of_mem caught hother)⟩

/-- When all has come the wire is low. -/
theorem Sends.finishes (hmin : 1 ≤ maxFrame) (hmax : maxFrame ≤ 16370) {speed : BitVec 2}
    (hsends : Sends maxFrame speed sys) (hrested : sys.Rested) :
    ∃ enough, ∀ last : List GmiiTxCatch,
      (∀ caught ∈ last, caught.cfgSpeed = speed ∧ caught.txHold = false) →
      enough ≤ last.length →
        let later : EthMacSysTx ramStyle := runFrom (step maxFrame) sys (last.map .media)
        later.cdc.wire.opened = [] ∧
          later.cdc.wire.closed = (merge later.cdc.started sys.userImages sys.pauseImages).map
            (heldFor (byteCycles speed)) ∧
          later.cdc.started.count false = sys.mac.source.offered.length ∧
          later.cdc.started.count true = sys.asked.length := by
  obtain ⟨enough, hdrains⟩ := (hsends.shows hmax).2.2.2 hrested
  refine ⟨enough, fun last hlast henough => ?_⟩
  intro later
  obtain ⟨hclosed, hdat, hctl⟩ := hdrains last hlast henough
  have hstep (sys : EthMacSysTx ramStyle) (edge : SysTxEdge)
      (hedge : sys.Fitting maxFrame speed edge) (hsends : Sends maxFrame speed sys) :
      Sends maxFrame speed (sys.step maxFrame edge) :=
    sends_step hmin hmax hsends hedge
  have hlater : Sends maxFrame speed later :=
    invariant_along hstep hsends
      (fitting_media fun caught hcaught => (hlast caught hcaught).1)
  obtain ⟨hmac, hasked⟩ := @run_media_sources _ maxFrame sys last
  have hsame (order : List Bool) : (merge order later.userImages later.pauseImages).map
      (heldFor (byteCycles speed)) =
        (merge order sys.userImages sys.pauseImages).map (heldFor (byteCycles speed)) := by
    rw [userImages, pauseImages, userImages, pauseImages, hmac, hasked]
  have hall : later.cdc.wire.closed = (merge later.cdc.started sys.userImages sys.pauseImages).map
      (heldFor (byteCycles speed)) := hclosed
  obtain ⟨rest, hrest, hopened⟩ := (hlater.shows hmax).1
  have hnone : later.cdc.wire.closed ++ [] = later.cdc.wire.closed ++ rest :=
    (List.append_nil _).trans ((hall.trans (hsame _).symm).trans hrest)
  rw [← List.append_cancel_left hnone] at hopened
  exact ⟨List.prefix_nil.mp hopened, hclosed, hdat, hctl⟩

end EthMacSysTx

end EmacZero
