/-
Whole runs of the transmit half of `gmii_cdc` at a constant speed: what the wire shows of
the frames that two well-behaved writers offer.
-/
import EmacZero.GmiiCdcTxOffers
import EmacZero.GmiiCdcTxWire

namespace EmacZero

namespace GmiiTxBench

variable {ramStyle : RamStyle} {maxFrame : Nat} {speed : BitVec 2}
variable {bench : GmiiTxBench ramStyle}

/-- The longest data frame, from its preamble to its FCS. -/
def longestData (maxFrame : Nat) : Nat := GmiiCdcTx.txMaxFrameBytes maxFrame + 12

/-- The longest control frame. -/
def longestCtl : Nat := 72

/-- Both writers keep to their rules, and the speed is constant. -/
def WellBehaved (maxFrame : Nat) (speed : BitVec 2) (bench : GmiiTxBench ramStyle) :
    GmiiTxEdge → Prop
  | .sys dat ctl _ _ =>
      Honours speed (longestData maxFrame) bench.dat (bench.tx.txBusy maxFrame) dat ∧
        Honours speed longestCtl bench.ctl bench.tx.txCtlBusy ctl
  | .media caught => caught.cfgSpeed = speed

instance (bench : GmiiTxBench ramStyle) (edge : GmiiTxEdge) :
    Decidable (bench.WellBehaved maxFrame speed edge) :=
  match edge with
  | .sys dat ctl _ _ =>
      inferInstanceAs (Decidable
        (Honours speed (longestData maxFrame) bench.dat (bench.tx.txBusy maxFrame) dat ∧
          Honours speed longestCtl bench.ctl bench.tx.txCtlBusy ctl))
  | .media caught => inferInstanceAs (Decidable (caught.cfgSpeed = speed))

/-- What holds of every run, told from the queues of the two streams. -/
structure Encodes (maxFrame : Nat) (speed : BitVec 2) (bench : GmiiTxBench ramStyle)
    (dat : PacketQueue GmiiTxWord (2 ^ 14) ramStyle.staged)
    (ctl : PacketQueue GmiiTxWord (2 ^ 7) RamStyle.distributed.staged) : Prop where
  holds : Holds speed bench dat ctl
  wired : Wired speed bench dat ctl
  datKept : GmiiTxKeeps (GmiiCdcTx.txStartLimit maxFrame).toNat (longestData maxFrame) bench.tx.dat
    bench.dat (wordsHeld dat.queue)
  ctlKept : GmiiTxKeeps 55 longestCtl bench.tx.ctl bench.ctl (wordsHeld ctl.queue)

section Steps

variable {dat : PacketQueue GmiiTxWord (2 ^ 14) ramStyle.staged}
variable {ctl : PacketQueue GmiiTxWord (2 ^ 7) RamStyle.distributed.staged}

/-- A data frame that may be started fits. -/
theorem txStartLimit_add (hmax : maxFrame ≤ 16370) :
    (GmiiCdcTx.txStartLimit maxFrame).toNat + longestData maxFrame < 2 ^ 14 := by
  have hbytes : GmiiCdcTx.txMaxFrameBytes maxFrame ≤ 16370 := by
    rw [GmiiCdcTx.txMaxFrameBytes]
    split <;> omega
  have hdepth : (16383 : BitVec 15).toNat = 16383 := rfl
  have hspare : (13 : BitVec 15).toNat = 13 := rfl
  rw [longestData, GmiiCdcTx.txStartLimit, BitVec.toNat_sub, BitVec.toNat_sub, BitVec.toNat_ofNat,
    hdepth, hspare]
  omega

theorem datHeld_le (hholds : Holds speed bench dat ctl)
    (hbusy : bench.tx.txBusy maxFrame = false) :
    wordsHeld dat.queue ≤ (GmiiCdcTx.txStartLimit maxFrame).toNat := by
  have hcount := hholds.datStores.follows.fifo.wrDataCount_toNat
  rw [GmiiCdcTx.txBusy, decide_eq_false_iff_not, BitVec.lt_def, not_lt] at hbusy
  exact hcount.ge.trans hbusy

theorem ctlHeld_le (hholds : Holds speed bench dat ctl) (hbusy : bench.tx.txCtlBusy = false) :
    wordsHeld ctl.queue ≤ 55 := by
  have hcount := hholds.ctlStores.follows.fifo.wrDataCount_toNat
  rw [GmiiCdcTx.txCtlBusy, decide_eq_false_iff_not, BitVec.lt_def, not_lt] at hbusy
  exact hcount.ge.trans hbusy

theorem encodes_start (maxFrame : Nat) (speed : BitVec 2) (datMem : BitVec 14 → GmiiTxWord)
    (ctlMem : BitVec 7 → GmiiTxWord) (headQ : GmiiTxWord) :
    Encodes maxFrame speed (start datMem ctlMem headQ : GmiiTxBench ramStyle) .empty .empty where
  holds := holds_start speed datMem ctlMem headQ
  wired := .waiting (fun hnone => absurd hnone Bool.false_ne_true) rfl rfl
    ⟨rfl, rfl, Nat.le_of_eq (Nat.add_comm ((txGap speed).toNat + 1) 1),
      fun _ hgap => absurd hgap List.not_mem_nil⟩
  datKept := kept_reset _ _ datMem headQ
  ctlKept := kept_reset _ _ ctlMem headQ

theorem Encodes.sysEdge (hmax : maxFrame ≤ 16370) (hencodes : Encodes maxFrame speed bench dat ctl)
    {datIn ctlIn : GmiiTxIn} {datSkew ctlSkew : Skew}
    (hok : bench.WellBehaved maxFrame speed (.sys datIn ctlIn datSkew ctlSkew)) :
    Encodes maxFrame speed (bench.sysEdge maxFrame datIn ctlIn datSkew ctlSkew)
      (dat.wrEdge bench.tx.dat.wrAccept (bench.tx.dat.wrData datIn)
        (bench.tx.dat.wrData datIn).eof datSkew)
      (ctl.wrEdge bench.tx.ctl.wrAccept (bench.tx.ctl.wrData ctlIn)
        (bench.tx.ctl.wrData ctlIn).eof ctlSkew) := by
  obtain ⟨hholds, hwired, hdat, hctl⟩ := hencodes
  obtain ⟨hdatOk, hctlOk⟩ := hok
  have hdatAccept := hdat.accepts (by decide) (txStartLimit_add hmax) hholds.datStores
  have hctlAccept := hctl.accepts (by decide) (by decide) hholds.ctlStores
  have hdatLater := wordsHeld_wrEdge dat.queue bench.tx.dat.wrAccept (bench.tx.dat.wrData datIn)
    datSkew
  have hctlLater := wordsHeld_wrEdge ctl.queue bench.tx.ctl.wrAccept (bench.tx.ctl.wrData ctlIn)
    ctlSkew
  rw [← PacketQueue.wrEdge_queue dat _ _ _ (bench.tx.dat.wrData datIn).eof] at hdatLater
  rw [← PacketQueue.wrEdge_queue ctl _ _ _ (bench.tx.ctl.wrData ctlIn).eof] at hctlLater
  refine ⟨hholds.sysEdge ⟨hdat.commitsLong hdatOk, hctl.commitsLong hctlOk⟩,
    hwired.sysEdge hholds _ _ _ _ _ _ _ _ _ _, ?_, ?_⟩
  · refine hdat.sysEdge hdatAccept (fun hbusy => datHeld_le hholds hbusy) hdatOk ?_ datSkew
    exact hdatLater.trans_eq (by rw [hdatAccept])
  · refine hctl.sysEdge hctlAccept (fun hbusy => ctlHeld_le hholds hbusy) hctlOk ?_ ctlSkew
    exact hctlLater.trans_eq (by rw [hctlAccept])

theorem Encodes.mediaEdge (hencodes : Encodes maxFrame speed bench dat ctl)
    {caught : GmiiTxCatch} (hspeed : caught.cfgSpeed = speed) :
    Encodes maxFrame speed (bench.mediaEdge caught)
      (dat.rdEdge bench.tx.txdRdEn caught.datSkew caught.datLate)
      (ctl.rdEdge bench.tx.ctlRdEn caught.ctlSkew caught.ctlLate) := by
  obtain ⟨hholds, hwired, hdat, hctl⟩ := hencodes
  have hdatSame := wordsHeld_rdEdge dat.queue bench.tx.txdRdEn caught.datSkew
  have hctlSame := wordsHeld_rdEdge ctl.queue bench.tx.ctlRdEn caught.ctlSkew
  refine ⟨hholds.mediaEdge hspeed, hwired.mediaEdge hholds caught, ?_, ?_⟩
  · rw [PacketQueue.rdEdge_queue, hdatSame]
    exact ⟨hdat.whole, hdat.part, hdat.idle, hdat.clear, hdat.room, hdat.short⟩
  · rw [PacketQueue.rdEdge_queue, hctlSame]
    exact ⟨hctl.whole, hctl.part, hctl.idle, hctl.clear, hctl.room, hctl.short⟩

theorem encodes_step (hmax : maxFrame ≤ 16370) (bench : GmiiTxBench ramStyle) (edge : GmiiTxEdge)
    (hok : bench.WellBehaved maxFrame speed edge)
    (hencodes : ∃ dat ctl, Encodes maxFrame speed bench dat ctl) :
    ∃ dat ctl, Encodes maxFrame speed (bench.step maxFrame edge) dat ctl := by
  obtain ⟨dat, ctl, hencodes⟩ := hencodes
  cases edge with
  | sys datIn ctlIn datSkew ctlSkew => exact ⟨_, _, hencodes.sysEdge hmax hok⟩
  | media caught => exact ⟨_, _, hencodes.mediaEdge hok⟩

/-- Before the first byte of a frame, also of the first one, the gap has gone by. -/
theorem Wired.low_of_beat (hholds : Holds speed bench dat ctl)
    (hwired : Wired speed bench dat ctl) {caught : GmiiTxCatch}
    (hbeat : (bench.mediaEdge caught).tx.gmiiTxEnOut = true) (hidle : bench.ahead.opened = []) :
    gapCycles speed ≤ bench.ahead.low := by
  cases hwired with
  | waiting hdelay =>
      refine absurd hbeat ?_
      cases hloaded : bench.tx.txFrameLoaded with
      | false =>
          rw [show (bench.mediaEdge caught).tx.gmiiTxEnOut = false from
            (hholds.resting.pick hloaded).2]
          exact Bool.false_ne_true
      | true =>
          rw [hholds.gap_quiet hloaded (hdelay hloaded) caught]
          exact Bool.false_ne_true
  | @sending order frame taken hloaded hdelay _ _ _ hcurrent hread hshowing =>
      obtain ⟨shown, other, hreads⟩ := hholds.reads hloaded
      obtain rfl := hread.unique hreads.read
      have hmap := Option.some.inj (hcurrent.symm.trans hreads.current)
      have hlength : frame.length = shown.length := by
        rw [← List.length_map (f := GmiiTxWord.beat), hmap, List.length_map]
      have hquiet : bench.tx.gmiiOut = none := by
        cases hout : bench.tx.gmiiOut with
        | none => rfl
        | some beat =>
            rw [ahead, hout] at hidle
            exact absurd hidle (List.append_ne_nil_of_right_ne_nil _ (List.cons_ne_nil _ _))
      refine hshowing.low ?_
      have hzero := hreads.place.sent_zero hdelay hreads.ne hquiet
      rw [GmiiTxReadout.sent] at hzero ⊢
      rwa [hlength]

/-- The wire shows the frames that have been started. -/
theorem Wired.shows (hwired : Wired speed bench dat ctl) :
    bench.wire.Shows (bench.images speed bench.started) ∧
      ∀ gap ∈ bench.wire.gaps, gapCycles speed ≤ gap := by
  have hgaps : ∀ gap ∈ bench.ahead.gaps, gapCycles speed ≤ gap := by
    cases hwired with
    | waiting _ _ _ hpaused => exact hpaused.gaps
    | sending _ _ _ _ _ _ _ hshowing => exact hshowing.gaps
  have hshows : bench.ahead.Shows (bench.images speed bench.started) := by
    cases hwired with
    | waiting _ _ _ hpaused =>
        refine ⟨[], by rw [hpaused.closed, List.append_nil], ?_⟩
        rw [hpaused.opened]
        exact List.nil_prefix
    | @sending order frame taken _ _ hstarted hdat hctl hcurrent _ hshowing =>
        have himages : bench.images speed bench.started = bench.images speed order ++
            [heldFor (byteCycles speed) (frame.map GmiiTxWord.beat)] := by
          rw [hstarted]
          refine images_concat ?_
          rw [hdat, hctl]
          exact hcurrent
        refine ⟨_, by rw [himages, hshowing.closed], ?_⟩
        rw [hshowing.opened]
        exact List.take_prefix _ _
  exact ⟨hshows.of_observe, fun gap hgap => hgaps gap (Spaced.gaps_subset_observe _ _ hgap)⟩

/-- A frame is started only after it has been stored whole. -/
theorem Wired.started_le (hholds : Holds speed bench dat ctl) (hwired : Wired speed bench dat ctl) :
    bench.started.count false ≤ bench.dat.stored.whole.length ∧
      bench.started.count true ≤ bench.ctl.stored.whole.length := by
  obtain ⟨hdatLe, hctlLe⟩ := hholds.done_le
  cases hwired with
  | waiting _ hdat hctl => exact ⟨hdat.trans_le hdatLe, hctl.trans_le hctlLe⟩
  | sending _ _ hstarted hdat hctl hcurrent =>
      rw [hstarted, List.count_append, List.count_append, hdat, hctl]
      rw [current] at hcurrent
      cases hsel : bench.tx.txSelCtl with
      | true =>
          rw [hsel, if_pos rfl] at hcurrent
          exact ⟨hdatLe, (List.getElem?_eq_some_iff.mp hcurrent).1⟩
      | false =>
          rw [hsel, if_neg Bool.false_ne_true] at hcurrent
          exact ⟨(List.getElem?_eq_some_iff.mp hcurrent).1, hctlLe⟩

end Steps

end GmiiTxBench

end EmacZero
