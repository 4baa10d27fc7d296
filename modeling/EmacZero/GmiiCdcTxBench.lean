/-
The transmit half of `gmii_cdc` under its monitors: what the two writers offer and what goes
into the FIFOs, which frames have been read, and the bytes at the media side.  Each FIFO
holds the frames of its writer, and the readout is at a whole frame of one of them.
-/
import EmacZero.ClockedRun
import EmacZero.Envelopes
import EmacZero.GmiiCdcTxRead

namespace EmacZero

/-- A rising edge of `sys_clk` or of `media_clk`. -/
inductive GmiiTxEdge where
  | sys (dat ctl : GmiiTxIn) (datSkew ctlSkew : Skew)
  | media (caught : GmiiTxCatch)
deriving Repr, DecidableEq

def GmiiTxIn.beat (i : GmiiTxIn) : Option (BitVec 8 × Bool) :=
  if i.en then some (i.txd, i.er) else none

/-- One of the two streams on `sys_clk`: what its writer has offered, what has been stored,
and whether the busy line was low in an idle cycle since the last frame. -/
structure GmiiTxWriter where
  sent : Envelopes (BitVec 8 × Bool)
  stored : FrameLog (BitVec 8 × Bool)
  clear : Bool
deriving Repr, DecidableEq

namespace GmiiTxWriter

def start : GmiiTxWriter := ⟨.unseen, .empty, false⟩

def edge {addrWidth : Nat} {ramStyle : RamStyle} (writer : GmiiTxWriter)
    (lane : GmiiTxLane addrWidth ramStyle) (busy : Bool) (i : GmiiTxIn) : GmiiTxWriter where
  sent := writer.sent.observe i.beat
  stored :=
    if lane.wrAccept then writer.stored.add (lane.wrData i).beat (lane.wrData i).eof
    else writer.stored
  clear := !i.en && (writer.clear || !busy)

end GmiiTxWriter

/-- The transmitter; its writers; how many frames of each FIFO have been read; the source of
each frame that was started, `true` for control; for how many cycles a data frame could have
gone on unhindered, and for how many it could when it was started; and the wire. -/
structure GmiiTxBench (ramStyle : RamStyle) where
  tx : GmiiCdcTx ramStyle
  dat : GmiiTxWriter
  ctl : GmiiTxWriter
  datDone : Nat
  ctlDone : Nat
  started : List Bool
  calm : Nat
  calms : List Nat
  wire : Spaced (BitVec 8 × Bool)

namespace GmiiTxBench

variable {ramStyle : RamStyle}

def start (datMem : BitVec 14 → GmiiTxWord) (ctlMem : BitVec 7 → GmiiTxWord)
    (headQ : GmiiTxWord) : GmiiTxBench ramStyle where
  tx := .reset datMem ctlMem headQ
  dat := .start
  ctl := .start
  datDone := 0
  ctlDone := 0
  started := []
  calm := 0
  calms := []
  wire := .unseen

def sysEdge (maxFrame : Nat) (bench : GmiiTxBench ramStyle) (dat ctl : GmiiTxIn)
    (datSkew ctlSkew : Skew) : GmiiTxBench ramStyle :=
  { bench with
    tx := bench.tx.sysEdge dat ctl datSkew ctlSkew
    dat := bench.dat.edge bench.tx.dat (bench.tx.txBusy maxFrame) dat
    ctl := bench.ctl.edge bench.tx.ctl bench.tx.txCtlBusy ctl }

def mediaEdge (bench : GmiiTxBench ramStyle) (caught : GmiiTxCatch) :
    GmiiTxBench ramStyle :=
  { bench with
    tx := bench.tx.mediaEdge caught
    datDone := bench.datDone + (bench.tx.done && !bench.tx.txSelCtl).toNat
    ctlDone := bench.ctlDone + (bench.tx.done && bench.tx.txSelCtl).toNat
    started :=
      if bench.tx.starts then bench.started ++ [bench.tx.txSelCtl] else bench.started
    calm := if bench.tx.txHoldS2 || bench.tx.ctl.packet.pending then 0 else bench.calm + 1
    calms :=
      if bench.tx.starts && !bench.tx.txSelCtl then bench.calms ++ [bench.calm]
      else bench.calms
    wire := bench.wire.observe bench.tx.gmiiOut }

def step (maxFrame : Nat) (bench : GmiiTxBench ramStyle) :
    GmiiTxEdge → GmiiTxBench ramStyle
  | .sys dat ctl datSkew ctlSkew => bench.sysEdge maxFrame dat ctl datSkew ctlSkew
  | .media caught => bench.mediaEdge caught

end GmiiTxBench

/-- A FIFO with a queue that it follows, whose frames are those of the log. -/
structure GmiiTxStores {addrWidth : Nat} {ramStyle : RamStyle}
    (lane : GmiiTxLane addrWidth ramStyle)
    (queue : PacketQueue GmiiTxWord (2 ^ addrWidth) ramStyle.staged)
    (log : FrameLog (BitVec 8 × Bool)) (retired : Nat) : Prop where
  follows : lane.packet.Follows queue retired
  logs : queue.Logs GmiiTxWord.eof GmiiTxWord.beat log

/-- What the readout does about one of the FIFOs: nothing while no frame is loaded or one of
the other FIFO is, except that the last word of a frame may be consumed a cycle after the
frame has been closed. -/
inductive GmiiTxServes {depth : Nat} {staged : Bool} (speed : BitVec 2) (tx : GmiiTxReadout)
    (queue : PacketQueue GmiiTxWord depth staged) (retired : Nat) (chosen : Bool) : Prop
  | waiting (hread : queue.ReadTo retired 0)
      (hother : chosen = false ∨ tx.txFrameLoaded = false ∧ tx.txRdEn = false) :
      GmiiTxServes speed tx queue retired chosen
  | closing {frame : List GmiiTxWord} {last : Nat} (hchosen : chosen = true)
      (hloaded : tx.txFrameLoaded = false) (hrdEn : tx.txRdEn = true)
      (hretired : retired = last + 1) (hready : queue.Ready last)
      (hframe : queue.frames[last]? = some frame)
      (hread : queue.ReadTo last (frame.length - 1)) (hheld : ¬ queue.queue.Drained) :
      GmiiTxServes speed tx queue retired chosen
  | sending {frame : List GmiiTxWord} {taken : Nat} (hchosen : chosen = true)
      (hloaded : tx.txFrameLoaded = true) (hready : queue.Ready retired)
      (hframe : queue.frames[retired]? = some frame) (hat : tx.At speed frame taken)
      (hread : queue.ReadTo retired taken)
      (hheld : taken < frame.length → tx.txStartDelay.toNat < (txGap speed).toNat →
        ¬ queue.queue.Drained) : GmiiTxServes speed tx queue retired chosen

section Stores

variable {addrWidth retired : Nat} {ramStyle : RamStyle}
variable {lane : GmiiTxLane addrWidth ramStyle}
variable {queue : PacketQueue GmiiTxWord (2 ^ addrWidth) ramStyle.staged}
variable {log : FrameLog (BitVec 8 × Bool)}

theorem gmiiTxStores_reset (mem : BitVec addrWidth → GmiiTxWord) (headQ : GmiiTxWord) :
    GmiiTxStores (.reset mem headQ : GmiiTxLane addrWidth ramStyle) .empty .empty 0 :=
  ⟨PacketFifo.follows_reset mem headQ, PacketQueue.logs_empty⟩

theorem wrAccept_and_room (lane : GmiiTxLane addrWidth ramStyle) :
    (lane.wrAccept && !lane.packet.wrFull) = lane.wrAccept := by
  rw [GmiiTxLane.wrAccept]
  cases lane.enD1 <;> cases lane.packet.wrFull <;> rfl

theorem GmiiTxStores.sysEdge (haddr : 1 ≤ addrWidth)
    (hstores : GmiiTxStores lane queue log retired) (i : GmiiTxIn) (skew : Skew) :
    GmiiTxStores (lane.sysEdge i skew)
      (queue.wrEdge lane.wrAccept (lane.wrData i) (lane.wrData i).eof skew)
      (if lane.wrAccept then log.add (lane.wrData i).beat (lane.wrData i).eof else log)
      retired := by
  have hlogs := hstores.logs.wrEdge lane.wrAccept (lane.wrData i) skew
  rw [← hstores.follows.accepts_eq haddr, wrAccept_and_room] at hlogs
  exact ⟨hstores.follows.wrEdge haddr _ _ _ _, hlogs⟩

theorem GmiiTxStores.mediaEdge (hstores : GmiiTxStores lane queue log retired)
    (rdEn done : Bool) (skew : Skew) (late : Bool) :
    GmiiTxStores (lane.mediaEdge rdEn done skew late) (queue.rdEdge rdEn skew late) log
      (retired + done.toNat) :=
  ⟨hstores.follows.rdEdge rdEn done skew late, hstores.logs.rdEdge rdEn skew late⟩

end Stores

section Serves

variable {addrWidth depth retired : Nat} {staged chosen : Bool} {ramStyle : RamStyle}
variable {speed : BitVec 2} {tx : GmiiTxReadout}

theorem GmiiTxServes.readTo {queue : PacketQueue GmiiTxWord depth staged}
    (hserves : GmiiTxServes speed tx queue retired chosen) :
    ∃ current taken, queue.ReadTo current taken ∧ current ≤ retired ∧ retired ≤ queue.seen3 := by
  cases hserves with
  | waiting hread => exact ⟨retired, 0, hread, le_rfl, hread.retired_le⟩
  | @closing frame last _ _ _ hretired hready _ hread =>
      refine ⟨last, _, hread, ?_, ?_⟩
      · rw [hretired]
        exact Nat.le_succ last
      · rw [hretired]
        exact hready.seen
  | sending _ _ hready _ _ hread => exact ⟨retired, _, hread, le_rfl, hready.seen.le⟩

theorem GmiiTxServes.retired_le {queue : PacketQueue GmiiTxWord depth staged}
    (hserves : GmiiTxServes speed tx queue retired chosen) :
    retired ≤ queue.frames.length := by
  obtain ⟨_, _, -, -, hle⟩ := hserves.readTo
  exact hle.trans queue.seen3_le_frames

/-- The counters of the FIFO tell whether a frame is left. -/
theorem GmiiTxServes.pending_iff {packet : PacketFifo GmiiTxWord addrWidth ramStyle}
    {queue : PacketQueue GmiiTxWord (2 ^ addrWidth) ramStyle.staged}
    (hdepth : ramStyle.staged.toNat + 1 < 2 ^ addrWidth)
    (hserves : GmiiTxServes speed tx queue retired chosen)
    (hfollows : packet.Follows queue retired) :
    packet.pending = true ↔ retired < queue.seen3 := by
  obtain ⟨current, taken, hread, hcurrent, hle⟩ := hserves.readTo
  have hturn := PacketFifo.length_lt_turn hdepth hread
  have hseen := queue.seen3_le_frames
  exact hfollows.count.pending_iff hle (by omega)

theorem GmiiTxServes.wrEdge {queue : PacketQueue GmiiTxWord depth staged}
    (hserves : GmiiTxServes speed tx queue retired chosen) (offer : Bool)
    (word : GmiiTxWord) (last : Bool) (skew : Skew) :
    GmiiTxServes speed tx (queue.wrEdge offer word last skew) retired chosen := by
  have hdrained : ¬ queue.queue.Drained → ¬ (queue.wrEdge offer word last skew).queue.Drained :=
    fun hheld => by rwa [PacketQueue.wrEdge_queue, CrossingQueue.wrEdge_drained]
  cases hserves with
  | waiting hread hother => exact .waiting (hread.wrEdge offer word last skew) hother
  | closing hchosen hloaded hrdEn hretired hready hframe hread hheld =>
      exact .closing hchosen hloaded hrdEn hretired (hready.wrEdge offer word last skew)
        (PacketQueue.frames_getElem?_wrEdge hframe offer word last skew)
        (hread.wrEdge offer word last skew) (hdrained hheld)
  | sending hchosen hloaded hready hframe hat hread hheld =>
      exact .sending hchosen hloaded (hready.wrEdge offer word last skew)
        (PacketQueue.frames_getElem?_wrEdge hframe offer word last skew) hat
        (hread.wrEdge offer word last skew) fun hmore hlate => hdrained (hheld hmore hlate)

variable {packet : PacketFifo GmiiTxWord addrWidth ramStyle}
variable {queue : PacketQueue GmiiTxWord (2 ^ addrWidth) ramStyle.staged}
variable {rdData : GmiiTxWord} {rdEmpty ctlPending datPending hold next : Bool}

/-- While the readout is at a frame the word that it needs is on the read port. -/
theorem sending_port {frame : List GmiiTxWord} {taken : Nat}
    (hfollows : packet.Follows queue retired) (hframe : queue.frames[retired]? = some frame)
    (hread : queue.ReadTo retired taken)
    (hheld : taken < frame.length → tx.txStartDelay.toNat < (txGap speed).toNat →
      ¬ queue.queue.Drained) (hlt : taken < frame.length)
    (hlate : tx.txStartDelay.toNat < (txGap speed).toNat) :
    packet.rdEmpty = false ∧ frame[taken]? = some packet.rdData := by
  have hnot := hheld hlt hlate
  rw [hfollows.rdEmpty_eq]
  exact ⟨decide_eq_false hnot, hfollows.rdData_eq hread hnot hframe hlt⟩

theorem sending_pop {frame : List GmiiTxWord} {taken : Nat} (hat : tx.At speed frame taken)
    (hheld : taken < frame.length → tx.txStartDelay.toNat < (txGap speed).toNat →
      ¬ queue.queue.Drained) (hrdEn : tx.txRdEn = true) :
    taken < frame.length ∧ ¬ queue.queue.Drained := by
  refine ⟨hat.pop_lt hrdEn, hheld (hat.pop_lt hrdEn) ?_⟩
  rw [hat.delay_of_pop hrdEn]
  exact lt_of_lt_of_le (by decide) (two_le_txGap speed)

/-- The frame of the selected FIFO, where the readout is in it, and the word it needs. -/
theorem GmiiTxServes.reads (hfollows : packet.Follows queue retired)
    (hserves : GmiiTxServes speed tx queue retired chosen) (hchosen : chosen = true)
    (hloaded : tx.txFrameLoaded = true) :
    ∃ frame taken, queue.frames[retired]? = some frame ∧ tx.At speed frame taken ∧
      queue.ReadTo retired taken ∧
      (taken < frame.length → tx.txStartDelay.toNat < (txGap speed).toNat →
        packet.rdEmpty = false ∧ frame[taken]? = some packet.rdData) ∧
      ∀ skew late, (queue.rdEdge tx.txRdEn skew late).ReadTo retired
        (taken + tx.txRdEn.toNat) := by
  cases hserves with
  | waiting _ hother =>
      rcases hother with hnot | ⟨hidle, -⟩
      · exact absurd (hnot.symm.trans hchosen) (by decide)
      · exact absurd (hidle.symm.trans hloaded) (by decide)
  | closing _ hidle => exact absurd (hidle.symm.trans hloaded) (by decide)
  | @sending frame taken _ _ hready hframe hat hread hheld =>
      exact ⟨frame, taken, hframe, hat, hread, sending_port hfollows hframe hread hheld,
        hread.rdEdge hframe (sending_pop hat hheld)⟩

/-- Where no frame is loaded every counted frame has been consumed one edge later. -/
theorem GmiiTxServes.rest (hserves : GmiiTxServes speed tx queue retired chosen)
    (hloaded : tx.txFrameLoaded = false) (skew : Skew) (late : Bool) :
    (queue.rdEdge (tx.txRdEn && chosen) skew late).ReadTo retired 0 := by
  cases hserves with
  | waiting hread hother =>
      have hnone : (tx.txRdEn && chosen) = false := by
        rcases hother with rfl | ⟨-, hrdEn⟩
        · exact Bool.and_false _
        · rw [hrdEn, Bool.false_and]
      rw [hnone]
      exact hread.rdEdge_idle skew late
  | @closing frame last hchosen _ hrdEn hretired hready hframe hread hheld =>
      have hpos := List.length_pos_iff.mpr
        (queue.frames_ne frame (List.mem_of_getElem? hframe))
      have hall := hread.rdEdge hframe
        (fun _ : true = true => ⟨Nat.sub_lt hpos Nat.one_pos, hheld⟩) skew late
      rw [hrdEn, hchosen, Bool.and_true, hretired]
      refine hall.retire (PacketQueue.ready_rdEdge hready.seen true skew late) hframe ?_
      rw [Bool.toNat_true]
      omega
  | sending _ hbusy => exact absurd (hloaded.symm.trans hbusy) (by decide)

/-- An edge of `media_clk` while no frame is loaded: the next one may be. -/
theorem GmiiTxServes.rdEdge_pick {now : BitVec 2}
    (hserves : GmiiTxServes speed tx queue retired chosen)
    (hloaded : tx.txFrameLoaded = false) (hend : tx.txFrameEnd = false)
    (hpick : (ctlPending || datPending && !hold) = true →
      now = speed ∧ (next = true → retired < queue.seen3)) (skew : Skew) (late : Bool) :
    GmiiTxServes speed (tx.edge now rdData rdEmpty ctlPending datPending hold)
      (queue.rdEdge (tx.txRdEn && chosen) skew late)
      (retired + (tx.done && chosen).toNat) next := by
  have hread := hserves.rest hloaded skew late
  rw [GmiiTxReadout.done_of_not_loaded hloaded, Bool.false_and, GmiiTxReadout.edge_pick hloaded]
  by_cases hnext : (ctlPending || datPending && !hold) = true
  · obtain ⟨rfl, hseen⟩ := hpick hnext
    cases next with
    | false => exact .waiting hread (.inl rfl)
    | true =>
        have hready := PacketQueue.ready_rdEdge (hseen rfl) (tx.txRdEn && chosen) skew late
        obtain ⟨frame, hframe, -⟩ := hready.exists_frame
        have hdelay : (tx.pickEdge now ctlPending datPending hold).txStartDelay =
            txGap now := by
          rw [GmiiTxReadout.pickEdge, if_pos hnext]
        refine .sending rfl ?_ hready hframe (GmiiTxReadout.at_pickEdge frame hend hnext)
          hread fun _ hlate => ?_
        · rw [GmiiTxReadout.pickEdge, if_pos hnext]
        · rw [hdelay] at hlate
          exact absurd hlate (lt_irrefl _)
  · refine .waiting hread (.inr ?_)
    rw [GmiiTxReadout.pickEdge, if_neg hnext]
    exact ⟨hloaded, rfl⟩

/-- An edge of `media_clk` while a frame is loaded. -/
theorem GmiiTxServes.rdEdge_loaded (hfollows : packet.Follows queue retired)
    (hserves : GmiiTxServes speed tx queue retired chosen)
    (hmarked : ∀ frame ∈ queue.frames, MarkedBy GmiiTxWord.eof frame)
    (hlong : ∀ frame ∈ queue.frames, GmiiTxReadout.LongEnough speed frame)
    (hloaded : tx.txFrameLoaded = true)
    (hport : chosen = true → rdData = packet.rdData ∧ rdEmpty = packet.rdEmpty)
    (skew : Skew) (late : Bool) :
    GmiiTxServes speed (tx.edge speed rdData rdEmpty ctlPending datPending hold)
      (queue.rdEdge (tx.txRdEn && chosen) skew late)
      (retired + (tx.done && chosen).toNat) chosen := by
  cases hserves with
  | waiting hread hother =>
      have hnot : chosen = false := hother.resolve_right fun hidle =>
        absurd (hidle.1.symm.trans hloaded) (by decide)
      rw [hnot, Bool.and_false, Bool.and_false]
      exact .waiting (hread.rdEdge_idle skew late) (.inl rfl)
  | closing _ hnot => exact absurd (hnot.symm.trans hloaded) (by decide)
  | @sending frame taken hchosen _ hready hframe hat hread hheld =>
      have hmem := List.mem_of_getElem? hframe
      have hne := queue.frames_ne frame hmem
      obtain ⟨hdata, hempty⟩ := hport hchosen
      have hword := sending_port hfollows hframe hread hheld
      rw [← hempty, ← hdata] at hword
      have hpop := sending_pop hat hheld
      have hmore := PacketQueue.ready_rdEdge hready.seen tx.txRdEn skew late
      have hread' := hread.rdEdge hframe hpop skew late
      have hheld' : taken + tx.txRdEn.toNat < frame.length →
          ¬ (queue.rdEdge tx.txRdEn skew late).queue.Drained := fun hlt =>
        hready.not_drained_rdEdge hread hframe hlt (fun hrdEn => (hpop hrdEn).2) skew late
      rw [hchosen, Bool.and_true, Bool.and_true]
      cases hback : tx.givesWay ctlPending hold with
      | true =>
          obtain ⟨hdelay, -, hrdEn, -, hnone⟩ := hat.back hback
          rw [hrdEn, Bool.toNat_false, Nat.add_zero, hnone] at hread'
          rw [GmiiTxReadout.edge_back hloaded hback, GmiiTxReadout.done_of_delay hdelay, hrdEn]
          exact .waiting hread' (.inr ⟨rfl, rfl⟩)
      | false =>
          cases hdone : tx.done with
          | false =>
              obtain ⟨hnext, hat'⟩ := @GmiiTxReadout.At.edge tx speed rdData rdEmpty
                ctlPending datPending hold frame taken hat hloaded hne (hmarked frame hmem)
                (hlong frame hmem) hback hword hdone
              exact .sending rfl hnext hmore hframe hat' hread' fun hlt _ => hheld' hlt
          | true =>
              obtain ⟨hrdEn, htaken, -⟩ := hat.of_done hdone
              obtain ⟨hnext, hclose, -⟩ := @GmiiTxReadout.edge_done tx speed rdData rdEmpty
                ctlPending datPending hold hdone
              rw [hrdEn] at hread' hheld' hmore ⊢
              rw [Bool.toNat_false, Nat.add_zero] at hread' hheld'
              cases hfast : is1g speed with
              | true =>
                  rw [hfast] at htaken hclose
                  exact .waiting (hread'.retire hmore hframe htaken) (.inr ⟨hnext, hclose⟩)
              | false =>
                  rw [hfast] at htaken hclose
                  have hlast : taken = frame.length - 1 := by
                    rw [← htaken]
                    rfl
                  have hlt : taken < frame.length := by
                    rw [← htaken]
                    exact Nat.lt_succ_self taken
                  rw [hlast] at hread'
                  exact .closing rfl hnext hclose rfl hmore hframe hread' (hheld' hlt)

end Serves

end EmacZero
