/-
The transmit half of `gmii_cdc` in every run at a constant speed: its two FIFOs follow their
writers, and the readout is at a whole frame of the selected one.
-/
import EmacZero.GmiiCdcTxBench

namespace EmacZero

namespace GmiiTxReadout

variable {tx : GmiiTxReadout} {speed : BitVec 2} {frame : List GmiiTxWord} {taken : Nat}
variable {rdData : GmiiTxWord} {rdEmpty ctlPending datPending hold : Bool}

/-- What is picked where no frame is loaded. -/
theorem pick_cases (hloaded : tx.txFrameLoaded = false) :
    ((ctlPending || datPending && !hold) = true ∧
      (tx.edge speed rdData rdEmpty ctlPending datPending hold).txFrameLoaded = true ∧
      (tx.edge speed rdData rdEmpty ctlPending datPending hold).txSelCtl = ctlPending ∧
      (tx.edge speed rdData rdEmpty ctlPending datPending hold).txStartDelay = txGap speed) ∨
    ((ctlPending || datPending && !hold) = false ∧
      (tx.edge speed rdData rdEmpty ctlPending datPending hold).txFrameLoaded = false ∧
      (tx.edge speed rdData rdEmpty ctlPending datPending hold).txSelCtl = tx.txSelCtl) := by
  rw [edge_pick hloaded, pickEdge]
  cases hpick : ctlPending || datPending && !hold with
  | true => exact .inl ⟨rfl, rfl, rfl, rfl⟩
  | false => exact .inr ⟨rfl, hloaded, rfl⟩

/-- Without a frame the readout is not at the end of one, and nothing is sent. -/
def Resting (tx : GmiiTxReadout) : Prop :=
  tx.txFrameLoaded = false → tx.txFrameEnd = false ∧ tx.gmiiTxEnOut = false

theorem Resting.pick (hresting : tx.Resting) (hloaded : tx.txFrameLoaded = false) :
    (tx.edge speed rdData rdEmpty ctlPending datPending hold).txFrameEnd = false ∧
      (tx.edge speed rdData rdEmpty ctlPending datPending hold).gmiiTxEnOut = false := by
  rw [edge_pick hloaded, pickEdge]
  cases ctlPending || datPending && !hold <;> exact ⟨(hresting hloaded).1, rfl⟩

theorem At.resting (hat : tx.At speed frame taken) (hloaded : tx.txFrameLoaded = true) :
    (tx.edge speed rdData rdEmpty ctlPending datPending hold).Resting := by
  intro hnext
  cases hback : tx.givesWay ctlPending hold with
  | true =>
      obtain ⟨-, hend, -, hquiet, -⟩ := hat.back hback
      rw [edge_back hloaded hback]
      exact ⟨hend, hquiet⟩
  | false =>
      cases hat with
      | gap hdelay hend =>
          rw [edge_gap hloaded hback hdelay, GmiiTxReadout.gapEdge] at hnext
          split at hnext <;> exact absurd (hnext.symm.trans hloaded) (by decide)
      | bytes hdelay hend =>
          have hkept : (tx.byteEdge speed rdData rdEmpty).txFrameLoaded = tx.txFrameLoaded := by
            simp only [GmiiTxReadout.byteEdge]
            split
            · rfl
            · split <;> rfl
          rw [edge_byte hloaded hdelay hend, hkept] at hnext
          exact absurd (hnext.symm.trans hloaded) (by decide)
      | last hdelay hend =>
          rw [edge_end hloaded hdelay hend, GmiiTxReadout.endEdge] at hnext ⊢
          split
          · exact ⟨rfl, rfl⟩
          · rename_i htick
            rw [if_neg htick] at hnext
            exact absurd (hnext.symm.trans hloaded) (by decide)

end GmiiTxReadout

namespace GmiiTxBench

variable {ramStyle : RamStyle} {speed : BitVec 2} {bench : GmiiTxBench ramStyle}

/-- The speed comes through two flip-flops; no count of frames is through as soon. -/
inductive Warm (speed : BitVec 2) (tx : GmiiCdcTx ramStyle) (dat ctl : SeenCount) : Prop
  | cold (hidle : tx.txFrameLoaded = false) (hdat : dat.seen1 = 0) (hctl : ctl.seen1 = 0) :
      Warm speed tx dat ctl
  | first (hidle : tx.txFrameLoaded = false) (hspeed : tx.cfgSpeedS1 = speed)
      (hdat : dat.seen2 = 0) (hctl : ctl.seen2 = 0) : Warm speed tx dat ctl
  | warm (hfirst : tx.cfgSpeedS1 = speed) (hspeed : tx.cfgSpeedS2 = speed) :
      Warm speed tx dat ctl

/-- The transmitter and its monitors, told from the queues of the two streams. -/
structure Holds (speed : BitVec 2) (bench : GmiiTxBench ramStyle)
    (dat : PacketQueue GmiiTxWord (2 ^ 14) ramStyle.staged)
    (ctl : PacketQueue GmiiTxWord (2 ^ 7) RamStyle.distributed.staged) : Prop where
  datStores : GmiiTxStores bench.tx.dat dat bench.dat.stored bench.datDone
  ctlStores : GmiiTxStores bench.tx.ctl ctl bench.ctl.stored bench.ctlDone
  datServes : GmiiTxServes speed bench.tx.toGmiiTxReadout dat bench.datDone (!bench.tx.txSelCtl)
  ctlServes : GmiiTxServes speed bench.tx.toGmiiTxReadout ctl bench.ctlDone bench.tx.txSelCtl
  datLong : ∀ frame ∈ dat.frames, GmiiTxReadout.LongEnough speed frame
  ctlLong : ∀ frame ∈ ctl.frames, GmiiTxReadout.LongEnough speed frame
  resting : bench.tx.Resting
  warm : Warm speed bench.tx dat.toSeenCount ctl.toSeenCount

theorem holds_start (speed : BitVec 2) (datMem : BitVec 14 → GmiiTxWord)
    (ctlMem : BitVec 7 → GmiiTxWord) (headQ : GmiiTxWord) :
    Holds speed (start datMem ctlMem headQ : GmiiTxBench ramStyle) .empty .empty where
  datStores := gmiiTxStores_reset datMem headQ
  ctlStores := gmiiTxStores_reset ctlMem headQ
  datServes := .waiting PacketQueue.readTo_empty (.inr ⟨rfl, rfl⟩)
  ctlServes := .waiting PacketQueue.readTo_empty (.inr ⟨rfl, rfl⟩)
  datLong := fun _ hframe => absurd hframe List.not_mem_nil
  ctlLong := fun _ hframe => absurd hframe List.not_mem_nil
  resting := fun _ => ⟨rfl, rfl⟩
  warm := .cold rfl rfl rfl

/-- At 10 and 100 Mbit/s no frame of a single word is committed. -/
def CommitsLong {addrWidth : Nat} {style : RamStyle} (speed : BitVec 2)
    (lane : GmiiTxLane addrWidth style) (writer : GmiiTxWriter) (i : GmiiTxIn) : Prop :=
  lane.eofWr i = true → is1g speed = false → writer.stored.part ≠ []

instance {addrWidth : Nat} {style : RamStyle} (lane : GmiiTxLane addrWidth style)
    (writer : GmiiTxWriter) (i : GmiiTxIn) : Decidable (CommitsLong speed lane writer i) :=
  inferInstanceAs (Decidable (_ → _ → _))

/-- The speed is constant, and every frame that is committed is long enough for it. -/
def Steady (speed : BitVec 2) (bench : GmiiTxBench ramStyle) : GmiiTxEdge → Prop
  | .sys dat ctl _ _ =>
      CommitsLong speed bench.tx.dat bench.dat dat ∧
        CommitsLong speed bench.tx.ctl bench.ctl ctl
  | .media caught => caught.cfgSpeed = speed

instance (bench : GmiiTxBench ramStyle) (edge : GmiiTxEdge) :
    Decidable (bench.Steady speed edge) := by
  cases edge <;> unfold Steady <;> infer_instance

section Steps

variable {dat : PacketQueue GmiiTxWord (2 ^ 14) ramStyle.staged}
variable {ctl : PacketQueue GmiiTxWord (2 ^ 7) RamStyle.distributed.staged}

/-- Long frames stay long, and the one that is committed is. -/
theorem longEnough_wrEdge {addrWidth retired : Nat} {style : RamStyle}
    {lane : GmiiTxLane addrWidth style} {writer : GmiiTxWriter} {i : GmiiTxIn}
    {queue : PacketQueue GmiiTxWord (2 ^ addrWidth) style.staged} (haddr : 1 ≤ addrWidth)
    (hstores : GmiiTxStores lane queue writer.stored retired)
    (hlong : ∀ frame ∈ queue.frames, GmiiTxReadout.LongEnough speed frame)
    (hcommits : CommitsLong speed lane writer i) (skew : Skew) :
    ∀ frame ∈ (queue.wrEdge lane.wrAccept (lane.wrData i) (lane.wrData i).eof skew).frames,
      GmiiTxReadout.LongEnough speed frame := by
  intro frame hframe
  rw [PacketQueue.wrEdge_frames] at hframe
  split at hframe
  · rename_i haccept
    rcases List.mem_append.mp hframe with hold | hnew
    · exact hlong frame hold
    · intro hslow
      rw [← hstores.follows.accepts_eq haddr, wrAccept_and_room] at haccept
      have hpart := hcommits haccept hslow
      rw [← hstores.logs.part] at hpart
      have hopened : 0 < queue.opened.length :=
        List.length_pos_iff.mpr fun hnil => hpart (by rw [hnil]; rfl)
      rw [List.mem_singleton.mp hnew, List.length_append, List.length_singleton]
      omega
  · exact hlong frame hframe

theorem Warm.sysEdge {depth other : Nat} {staged still : Bool} {tx : GmiiCdcTx ramStyle}
    {dat : PacketQueue GmiiTxWord depth staged} {ctl : PacketQueue GmiiTxWord other still}
    (hwarm : Warm speed tx dat.toSeenCount ctl.toSeenCount) (datIn ctlIn : GmiiTxIn)
    (datSkew ctlSkew : Skew) (offer late : Bool) (word other : GmiiTxWord) (last final : Bool) :
    Warm speed (tx.sysEdge datIn ctlIn datSkew ctlSkew)
      (dat.wrEdge offer word last datSkew).toSeenCount
      (ctl.wrEdge late other final ctlSkew).toSeenCount := by
  cases hwarm with
  | cold hidle hdat hctl =>
      refine .cold hidle ?_ ?_
      · rwa [PacketQueue.wrEdge_seen1]
      · rwa [PacketQueue.wrEdge_seen1]
  | first hidle hspeed hdat hctl =>
      refine .first hidle hspeed ?_ ?_
      · rwa [PacketQueue.wrEdge_seen2]
      · rwa [PacketQueue.wrEdge_seen2]
  | warm hfirst hspeed => exact .warm hfirst hspeed

theorem Holds.sysEdge (hholds : Holds speed bench dat ctl) {maxFrame : Nat}
    {datIn ctlIn : GmiiTxIn} {datSkew ctlSkew : Skew}
    (hsteady : bench.Steady speed (.sys datIn ctlIn datSkew ctlSkew)) :
    Holds speed (bench.sysEdge maxFrame datIn ctlIn datSkew ctlSkew)
      (dat.wrEdge bench.tx.dat.wrAccept (bench.tx.dat.wrData datIn)
        (bench.tx.dat.wrData datIn).eof datSkew)
      (ctl.wrEdge bench.tx.ctl.wrAccept (bench.tx.ctl.wrData ctlIn)
        (bench.tx.ctl.wrData ctlIn).eof ctlSkew) := by
  obtain ⟨hdatCommits, hctlCommits⟩ := hsteady
  exact ⟨hholds.datStores.sysEdge (by decide) datIn datSkew,
    hholds.ctlStores.sysEdge (by decide) ctlIn ctlSkew, hholds.datServes.wrEdge _ _ _ datSkew,
    hholds.ctlServes.wrEdge _ _ _ ctlSkew,
    longEnough_wrEdge (by decide) hholds.datStores hholds.datLong hdatCommits datSkew,
    longEnough_wrEdge (by decide) hholds.ctlStores hholds.ctlLong hctlCommits ctlSkew,
    hholds.resting, hholds.warm.sysEdge _ _ _ _ _ _ _ _ _ _⟩

theorem Holds.datPending_iff (hholds : Holds speed bench dat ctl) :
    bench.tx.dat.packet.pending = true ↔ bench.datDone < dat.seen3 :=
  hholds.datServes.pending_iff (by cases ramStyle <;> decide) hholds.datStores.follows

theorem Holds.ctlPending_iff (hholds : Holds speed bench dat ctl) :
    bench.tx.ctl.packet.pending = true ↔ bench.ctlDone < ctl.seen3 :=
  hholds.ctlServes.pending_iff (by decide) hholds.ctlStores.follows

/-- What an edge of `media_clk` picks where no frame is loaded. -/
theorem pick_mediaEdge (hloaded : bench.tx.txFrameLoaded = false) (caught : GmiiTxCatch) :
    ((bench.tx.ctl.packet.pending || bench.tx.dat.packet.pending && !bench.tx.txHoldS2) = true ∧
      (bench.mediaEdge caught).tx.txFrameLoaded = true ∧
      (bench.mediaEdge caught).tx.txSelCtl = bench.tx.ctl.packet.pending ∧
      (bench.mediaEdge caught).tx.txStartDelay = txGap bench.tx.cfgSpeedS2) ∨
    ((bench.tx.ctl.packet.pending || bench.tx.dat.packet.pending && !bench.tx.txHoldS2) = false ∧
      (bench.mediaEdge caught).tx.txFrameLoaded = false ∧
      (bench.mediaEdge caught).tx.txSelCtl = bench.tx.txSelCtl) :=
  GmiiTxReadout.pick_cases hloaded

/-- A frame can be picked only once the speed has come through. -/
theorem Holds.speed_of_pick (hholds : Holds speed bench dat ctl) {hold : Bool}
    (hpick : (bench.tx.ctl.packet.pending || bench.tx.dat.packet.pending && !hold) = true) :
    bench.tx.cfgSpeedS1 = speed ∧ bench.tx.cfgSpeedS2 = speed := by
  have hsome : bench.datDone < dat.seen3 ∨ bench.ctlDone < ctl.seen3 := by
    rw [Bool.or_eq_true, Bool.and_eq_true] at hpick
    rcases hpick with hctl | ⟨hdat, -⟩
    · exact .inr (hholds.ctlPending_iff.mp hctl)
    · exact .inl (hholds.datPending_iff.mp hdat)
  have hdat3 := dat.seen3_le
  have hctl3 := ctl.seen3_le
  have hdat2 := dat.seen2_le
  have hctl2 := ctl.seen2_le
  cases hholds.warm with
  | cold _ hdat hctl => omega
  | first _ _ hdat hctl => omega
  | warm hfirst hspeed => exact ⟨hfirst, hspeed⟩

/-- The frame that is loaded. -/
theorem Holds.at (hholds : Holds speed bench dat ctl) (hloaded : bench.tx.txFrameLoaded = true) :
    ∃ frame taken, bench.tx.At speed frame taken := by
  cases hsel : bench.tx.txSelCtl with
  | true =>
      obtain ⟨frame, taken, -, hat, -⟩ :=
        hholds.ctlServes.reads hholds.ctlStores.follows hsel hloaded
      exact ⟨frame, taken, hat⟩
  | false =>
      obtain ⟨frame, taken, -, hat, -⟩ :=
        hholds.datServes.reads hholds.datStores.follows (by rw [hsel]; rfl) hloaded
      exact ⟨frame, taken, hat⟩

theorem Holds.warm_of_loaded (hholds : Holds speed bench dat ctl)
    (hloaded : bench.tx.txFrameLoaded = true) :
    bench.tx.cfgSpeedS1 = speed ∧ bench.tx.cfgSpeedS2 = speed := by
  cases hholds.warm with
  | cold hidle => exact absurd (hidle.symm.trans hloaded) (by decide)
  | first hidle => exact absurd (hidle.symm.trans hloaded) (by decide)
  | warm hfirst hspeed => exact ⟨hfirst, hspeed⟩

theorem Holds.warm_mediaEdge (hholds : Holds speed bench dat ctl) {caught : GmiiTxCatch}
    (hspeed : caught.cfgSpeed = speed) (datRd ctlRd : Bool) :
    Warm speed (bench.mediaEdge caught).tx
      (dat.rdEdge datRd caught.datSkew caught.datLate).toSeenCount
      (ctl.rdEdge ctlRd caught.ctlSkew caught.ctlLate).toSeenCount := by
  have hidle : bench.tx.txFrameLoaded = false →
      (bench.tx.ctl.packet.pending || bench.tx.dat.packet.pending && !bench.tx.txHoldS2) =
        false → (bench.mediaEdge caught).tx.txFrameLoaded = false := by
    intro hloaded hnone
    rcases pick_mediaEdge hloaded caught with ⟨hpick, -⟩ | ⟨-, hnext, -⟩
    · exact absurd (hpick.symm.trans hnone) (by decide)
    · exact hnext
  cases hpick : bench.tx.ctl.packet.pending ||
      bench.tx.dat.packet.pending && !bench.tx.txHoldS2 with
  | true =>
      obtain ⟨hfirst, -⟩ := hholds.speed_of_pick hpick
      exact .warm hspeed hfirst
  | false =>
      cases hholds.warm with
      | cold hloaded hdat hctl => exact .first (hidle hloaded hpick) hspeed hdat hctl
      | first _ hfirst => exact .warm hspeed hfirst
      | warm hfirst => exact .warm hspeed hfirst

theorem Holds.mediaEdge (hholds : Holds speed bench dat ctl) {caught : GmiiTxCatch}
    (hspeed : caught.cfgSpeed = speed) :
    Holds speed (bench.mediaEdge caught)
      (dat.rdEdge bench.tx.txdRdEn caught.datSkew caught.datLate)
      (ctl.rdEdge bench.tx.ctlRdEn caught.ctlSkew caught.ctlLate) := by
  have hdatPort : (!bench.tx.txSelCtl) = true →
      bench.tx.txRdData = bench.tx.dat.packet.rdData ∧
        bench.tx.txRdEmpty = bench.tx.dat.packet.rdEmpty := by
    intro hsel
    rw [Bool.not_eq_true'] at hsel
    rw [GmiiCdcTx.txRdData, GmiiCdcTx.txRdEmpty, hsel]
    exact ⟨rfl, rfl⟩
  have hctlPort : bench.tx.txSelCtl = true →
      bench.tx.txRdData = bench.tx.ctl.packet.rdData ∧
        bench.tx.txRdEmpty = bench.tx.ctl.packet.rdEmpty := by
    intro hsel
    rw [GmiiCdcTx.txRdData, GmiiCdcTx.txRdEmpty, hsel]
    exact ⟨rfl, rfl⟩
  refine ⟨hholds.datStores.mediaEdge _ _ _ _, hholds.ctlStores.mediaEdge _ _ _ _, ?_, ?_,
    hholds.datLong, hholds.ctlLong, ?_, hholds.warm_mediaEdge hspeed _ _⟩
  · cases hloaded : bench.tx.txFrameLoaded with
    | true =>
        obtain ⟨-, hnow⟩ := hholds.warm_of_loaded hloaded
        have hsel : (bench.mediaEdge caught).tx.txSelCtl = bench.tx.txSelCtl :=
          GmiiTxReadout.edge_txSelCtl hloaded
        rw [hsel]
        change GmiiTxServes speed (bench.tx.edge bench.tx.cfgSpeedS2 _ _ _ _ _) _ _ _
        rw [hnow]
        exact hholds.datServes.rdEdge_loaded hholds.datStores.follows
          hholds.datStores.logs.marked hholds.datLong hloaded hdatPort caught.datSkew
          caught.datLate
    | false =>
        refine hholds.datServes.rdEdge_pick hloaded (hholds.resting hloaded).1
          (fun hpick => ⟨(hholds.speed_of_pick hpick).2, fun hnext => ?_⟩) caught.datSkew
          caught.datLate
        rcases pick_mediaEdge hloaded caught with ⟨-, -, hsel, -⟩ | ⟨hnone, -⟩
        · have hctl : bench.tx.ctl.packet.pending = false := by
            rw [← hsel]
            exact (Bool.not_eq_true' _).mp hnext
          rw [hctl, Bool.false_or, Bool.and_eq_true] at hpick
          exact hholds.datPending_iff.mp hpick.1
        · exact absurd (hpick.symm.trans hnone) (by decide)
  · cases hloaded : bench.tx.txFrameLoaded with
    | true =>
        obtain ⟨-, hnow⟩ := hholds.warm_of_loaded hloaded
        have hsel : (bench.mediaEdge caught).tx.txSelCtl = bench.tx.txSelCtl :=
          GmiiTxReadout.edge_txSelCtl hloaded
        rw [hsel]
        change GmiiTxServes speed (bench.tx.edge bench.tx.cfgSpeedS2 _ _ _ _ _) _ _ _
        rw [hnow]
        exact hholds.ctlServes.rdEdge_loaded hholds.ctlStores.follows
          hholds.ctlStores.logs.marked hholds.ctlLong hloaded hctlPort caught.ctlSkew
          caught.ctlLate
    | false =>
        refine hholds.ctlServes.rdEdge_pick hloaded (hholds.resting hloaded).1
          (fun hpick => ⟨(hholds.speed_of_pick hpick).2, fun hnext => ?_⟩) caught.ctlSkew
          caught.ctlLate
        rcases pick_mediaEdge hloaded caught with ⟨-, -, hsel, -⟩ | ⟨hnone, -⟩
        · exact hholds.ctlPending_iff.mp (hsel.symm.trans hnext)
        · exact absurd (hpick.symm.trans hnone) (by decide)
  · cases hloaded : bench.tx.txFrameLoaded with
    | true =>
        obtain ⟨-, hnow⟩ := hholds.warm_of_loaded hloaded
        obtain ⟨frame, taken, hat⟩ := hholds.at hloaded
        rw [← hnow] at hat
        exact hat.resting hloaded
    | false => exact fun _ => hholds.resting.pick hloaded

end Steps

end GmiiTxBench

end EmacZero
