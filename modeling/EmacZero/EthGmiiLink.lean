/-
Two stations on a GMII: the transmit side of one `eth_mac_sys` sends, and the receive side of
another takes the frames.
-/
import EmacZero.EthMacSysRxWhole
import EmacZero.EthMacSysTx
import EmacZero.GmiiIf
import EmacZero.LinkFrames

namespace EmacZero

/-- A rising edge of the sender's `clk`; of its `clk_125`, with the edge of the clock that it
forwards half a cycle behind it; or of the receiver's `clk`. -/
inductive GmiiLinkEdge where
  | txClk (i : SysTxClk)
  | line (caught : GmiiTxCatch) (skew : Skew)
  | rxClk (skew : Skew) (late : Bool) (station : EthMacRxIn)

structure EthGmiiLink (txStyle : RamStyle) (addrWidth : Nat) (rxStyle : RamStyle)
    (params : EthMacRxParams) where
  tx : EthMacSysTx txStyle
  sending : GmiiIf
  receiving : GmiiIf
  rx : EthMacSysRx addrWidth rxStyle params

variable {txStyle : RamStyle} {addrWidth : Nat} {rxStyle : RamStyle} {params : EthMacRxParams}

/-- The byte on the receive inputs of `gmii_cdc` in one cycle. -/
def GmiiRxIn.byte (gmii : GmiiRxIn) : RxByte := (gmii.rxd, gmii.er)

namespace GmiiTxBench

/-- A frame begins only when the gap before it has gone by, the first one also. -/
def Due (speed : BitVec 2) (bench : GmiiTxBench txStyle) : Prop :=
  bench.tx.gmiiTxEnOut = true → bench.wire.opened = [] → gapCycles speed ≤ bench.wire.low

theorem due_mediaEdge {maxFrame : Nat} {speed : BitVec 2} {bench : GmiiTxBench txStyle}
    (hencodes : ∃ dat ctl, Encodes maxFrame speed bench dat ctl) (caught : GmiiTxCatch) :
    (bench.mediaEdge caught).Due speed := by
  obtain ⟨dat, ctl, hencodes⟩ := hencodes
  exact fun hen hopened => hencodes.wired.low_of_beat hencodes.holds hen hopened

end GmiiTxBench

namespace EthGmiiLink

def start (datMem : BitVec 14 → GmiiTxWord) (ctlMem : BitVec 7 → GmiiTxWord)
    (txHeadQ : GmiiTxWord) (cdcMem : BitVec addrWidth → RxWord) (rxHeadQ : RxWord)
    (mem : BitVec params.axisFifoAddrWidth → MacWord) (doutR : MacWord) :
    EthGmiiLink txStyle addrWidth rxStyle params where
  tx := .start datMem ctlMem txHeadQ
  sending := .reset
  receiving := .reset
  rx := .start cdcMem rxHeadQ mem doutR

section Steps

variable (maxFrame : Nat) (link : EthGmiiLink txStyle addrWidth rxStyle params)

/-- The line clock: `cfg_speed` of `gmii_cdc` is tied to 00. -/
def lineEdge (caught : GmiiTxCatch) (skew : Skew) :
    EthGmiiLink txStyle addrWidth rxStyle params :=
  let sending := link.sending.txEdge link.tx.cdc.tx.mediaPins
  { tx := link.tx.mediaEdge { caught with cfgSpeed := 0 }
    sending := sending
    receiving := link.receiving.rxEdge sending.txPins
    rx := link.rx.step (.media link.receiving.gmiiRx skew) }

def step : GmiiLinkEdge → EthGmiiLink txStyle addrWidth rxStyle params
  | .txClk i => { link with tx := link.tx.clkEdge maxFrame i }
  | .line caught skew => link.lineEdge caught skew
  | .rxClk skew late station => { link with rx := link.rx.step (.clk skew late station) }

/-- What each edge is to the receiver. -/
def rxEdge : GmiiLinkEdge → Option SysRxEdge
  | .txClk _ => none
  | .line _ skew => some (.media link.receiving.gmiiRx skew)
  | .rxClk skew late station => some (.clk skew late station)

def rxEdges (link : EthGmiiLink txStyle addrWidth rxStyle params) :
    List GmiiLinkEdge → List SysRxEdge
  | [] => []
  | edge :: rest => (link.rxEdge edge).toList ++ rxEdges (link.step maxFrame edge) rest

/-- The user source keeps `tvalid` high within a frame of at most `MAX_FRAME` bytes, and the
receiver has room. -/
def Eased : GmiiLinkEdge → Prop
  | .txClk i => MacTxLine.KeepsValid maxFrame link.tx.mac (link.tx.macIn maxFrame i)
  | .line _ skew =>
      link.rx.Paced (.media link.receiving.gmiiRx skew) ∧
        link.rx.HasRoom (.media link.receiving.gmiiRx skew)
  | .rxClk skew late station => link.rx.HasRoom (.clk skew late station)

instance (edge : GmiiLinkEdge) : Decidable (link.Eased maxFrame edge) :=
  match edge with
  | .txClk i =>
      inferInstanceAs (Decidable (MacTxLine.KeepsValid maxFrame link.tx.mac
        (link.tx.macIn maxFrame i)))
  | .line _ _ => inferInstanceAs (Decidable (_ ∧ _))
  | .rxClk skew late station =>
      inferInstanceAs (Decidable (link.rx.HasRoom (.clk skew late station)))

end Steps

end EthGmiiLink

/-- The settings of the receiver at the edge are just those of the policy. -/
def GmiiLinkEdge.Exact (policy : RxPolicy) (params : EthMacRxParams) : GmiiLinkEdge → Prop
  | .rxClk _ _ station => policy.Exact params station
  | _ => True

/-- The sender gets nothing more to send, and does not hold back what it has. -/
def GmiiLinkEdge.Idle : GmiiLinkEdge → Prop
  | .txClk _ => False
  | .line caught _ => caught.txHold = false
  | .rxClk _ _ _ => True

/-- What the edge is to `gmii_cdc` of the sender. -/
def GmiiLinkEdge.catches : GmiiLinkEdge → Option GmiiTxCatch
  | .line caught _ => some { caught with cfgSpeed := 0 }
  | _ => none

def GmiiLinkEdge.isLine (edge : GmiiLinkEdge) : Bool := edge.catches.isSome

def GmiiLinkEdge.isRxClk : GmiiLinkEdge → Bool
  | .rxClk _ _ _ => true
  | _ => false

namespace EthGmiiLink

variable {maxFrame : Nat} {link : EthGmiiLink txStyle addrWidth rxStyle params}

/-- The receiver has seen the wire, but for the byte that is on the pins now. -/
structure Linked (link : EthGmiiLink txStyle addrWidth rxStyle params) : Prop where
  due : link.tx.cdc.Due 0
  warm1 : link.sending.txRstNS1 = true ∨
    link.tx.cdc.wire.opened = [] ∧ link.tx.cdc.wire.low = 0
  warm2 : link.sending.txRstNS2 = true ∨
    link.tx.cdc.wire.opened = [] ∧ link.tx.cdc.wire.low ≤ 1
  released : link.receiving.rxRstNS1 = link.sending.txRstNS1 ∧
    link.receiving.rxRstNS2 = link.sending.txRstNS2
  follows : link.tx.cdc.wire.toEnvelopes =
    (link.rx.cdc.received.map GmiiRxIn.byte).observe
      (if link.receiving.gmiiRxDvInt then some link.receiving.gmiiRx.byte else none)
  ce : ∀ frame ∈ link.rx.cdc.received.opened :: link.rx.cdc.received.closed,
    ∀ beat ∈ frame, beat.ce = true

theorem linked_start (datMem : BitVec 14 → GmiiTxWord) (ctlMem : BitVec 7 → GmiiTxWord)
    (txHeadQ : GmiiTxWord) (cdcMem : BitVec addrWidth → RxWord) (rxHeadQ : RxWord)
    (mem : BitVec params.axisFifoAddrWidth → MacWord) (doutR : MacWord) :
    Linked (start datMem ctlMem txHeadQ cdcMem rxHeadQ mem doutR :
      EthGmiiLink txStyle addrWidth rxStyle params) where
  due := fun hen => absurd hen Bool.false_ne_true
  warm1 := .inr ⟨rfl, rfl⟩
  warm2 := .inr ⟨rfl, Nat.zero_le 1⟩
  released := ⟨rfl, rfl⟩
  follows := rfl
  ce := by
    intro frame hframe
    rw [List.mem_singleton.mp hframe]
    exact fun _ hbeat => absurd hbeat List.not_mem_nil

/-- So soon after the start no frame has begun. -/
theorem Linked.quiet (hlinked : link.Linked) (hopened : link.tx.cdc.wire.opened = [])
    (hlow : link.tx.cdc.wire.low ≤ 1) : link.tx.cdc.tx.gmiiOut = none := by
  have hen : link.tx.cdc.tx.gmiiTxEnOut = false := by
    by_contra hen
    have hgap := hlinked.due (by simpa using hen) hopened
    have hmin : 2 ≤ gapCycles 0 := by decide
    omega
  rw [GmiiTxReadout.gmiiOut, hen, if_neg Bool.false_ne_true]

/-- The byte that leaves `gmii_cdc` at an edge is on the receiver's registers after it. -/
theorem Linked.pins (hlinked : link.Linked) (caught : GmiiTxCatch) (skew : Skew) :
    (if (link.lineEdge caught skew).receiving.gmiiRxDvInt then
      some (link.lineEdge caught skew).receiving.gmiiRx.byte else none) =
        link.tx.cdc.tx.gmiiOut := by
  have hdv : (link.lineEdge caught skew).receiving.gmiiRxDvInt =
      (link.sending.txRstNS2 && (link.sending.txRstNS2 && link.tx.cdc.tx.gmiiTxEnOut)) := by
    rw [← hlinked.released.2]
    change (link.receiving.rxRstNS2 && (link.sending.txRstNS2 && _)) = _
    rw [hlinked.released.2]
    rfl
  cases hlive : link.sending.txRstNS2 with
  | false =>
      obtain ⟨hopened, hlow⟩ := hlinked.warm2.resolve_left fun hother => by simp [hlive] at hother
      rw [hdv, hlive, Bool.false_and, if_neg Bool.false_ne_true, hlinked.quiet hopened hlow]
  | true =>
      have hrx : link.receiving.rxRstNS2 = true := hlinked.released.2.trans hlive
      have hbyte : (link.lineEdge caught skew).receiving.gmiiRx.byte =
          (link.tx.cdc.tx.gmiiTxdOut, link.tx.cdc.tx.gmiiTxErOut) := by
        simp [EthGmiiLink.lineEdge, GmiiIf.rxEdge, GmiiIf.txEdge, GmiiIf.txPins,
          GmiiIf.gmiiRx, GmiiRxIn.byte, GmiiTxReadout.mediaPins, hlive, hrx]
      rw [hdv, hlive, Bool.true_and, Bool.true_and, hbyte]
      rfl

theorem Linked.lineEdge (hlinked : link.Linked)
    (hencodes : ∃ dat ctl, GmiiTxBench.Encodes maxFrame 0 link.tx.cdc dat ctl)
    (caught : GmiiTxCatch) (skew : Skew) : (link.lineEdge caught skew).Linked := by
  have hheard : ((link.lineEdge caught skew).rx.cdc.received.map GmiiRxIn.byte) =
      link.tx.cdc.wire.toEnvelopes := by
    rw [hlinked.follows]
    change (link.rx.cdc.received.observe _).map _ = _
    rw [Envelopes.map_observe]
    cases hdv : link.receiving.gmiiRxDvInt <;> simp [GmiiIf.gmiiRx, hdv]
  refine ⟨GmiiTxBench.due_mediaEdge hencodes _, .inl rfl, ?_, ⟨rfl, hlinked.released.1⟩, ?_, ?_⟩
  · rcases hlinked.warm1 with hlive | ⟨hopened, hlow⟩
    · exact .inl hlive
    · have hheld := hlinked.quiet hopened (by omega)
      refine .inr ⟨?_, ?_⟩
      · change (link.tx.cdc.wire.observe link.tx.cdc.tx.gmiiOut).opened = []
        rw [hheld]
        exact Envelopes.observe_none_opened _
      · change (link.tx.cdc.wire.observe link.tx.cdc.tx.gmiiOut).low ≤ 1
        rw [hheld, Spaced.observe_none_low, hlow]
  · rw [hlinked.pins, hheard]
    rfl
  · refine Envelopes.forall_observe hlinked.ce fun beat hbeat => ?_
    split at hbeat
    · obtain rfl := Option.some.inj hbeat
      rfl
    · exact absurd hbeat (Option.some_ne_none beat).symm

/-- Only the line clock moves what the two stations share. -/
theorem Linked.step (hlinked : link.Linked)
    (hencodes : ∃ dat ctl, GmiiTxBench.Encodes maxFrame 0 link.tx.cdc dat ctl)
    (edge : GmiiLinkEdge) : (link.step maxFrame edge).Linked :=
  match edge with
  | .line caught skew => hlinked.lineEdge hencodes caught skew
  | .txClk _ => ⟨hlinked.due, hlinked.warm1, hlinked.warm2, hlinked.released, hlinked.follows,
      hlinked.ce⟩
  | .rxClk _ _ _ => ⟨hlinked.due, hlinked.warm1, hlinked.warm2, hlinked.released,
      hlinked.follows, hlinked.ce⟩

end EthGmiiLink

end EmacZero
