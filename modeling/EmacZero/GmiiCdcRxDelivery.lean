/-
The `gmii_cdc` receive path from end to end: what comes out on `sys_clk`
against the envelopes that went in on `media_rx_clk`, in every interleaving of
the clocks in which `sys_clk` sees each value of the frame toggle.
-/
import EmacZero.AsyncFifoOrder
import EmacZero.GmiiCdcRxRead

namespace EmacZero

variable {addrWidth : Nat} {ramStyle : RamStyle}

/-- One rising edge of `media_rx_clk` or of `sys_clk`. -/
inductive RxEdge where
  | media (gmii : GmiiRxIn) (skew : Skew)
  | sys (skew : Skew) (late : Bool)

/-- The receive path with monitors on both of its interfaces.  `toggleSeen`
tells whether `sys_clk` has sampled the settled toggle since its last flip. -/
structure RxBench (addrWidth : Nat) (ramStyle : RamStyle) where
  rx : GmiiCdcRx addrWidth ramStyle
  received : Envelopes GmiiRxIn
  delivered : Envelopes RxByte
  toggleSeen : Bool

namespace RxBench

def start (mem : BitVec addrWidth → RxWord) (headQ : RxWord) :
    RxBench addrWidth ramStyle :=
  ⟨.reset mem headQ, .unseen, .unseen, true⟩

/-- The frame toggle flips at this edge of `media_rx_clk`. -/
def flips (bench : RxBench addrWidth ramStyle) : Bool :=
  bench.rx.rxWrAccept && bench.rx.rxWrIsEof

def step (bench : RxBench addrWidth ramStyle) :
    RxEdge → RxBench addrWidth ramStyle
  | .media gmii skew =>
      { bench with
        rx := bench.rx.mediaEdge gmii skew
        received :=
          bench.received.observe (if gmii.dv then some gmii else none)
        toggleSeen := if bench.flips then false else bench.toggleSeen }
  | .sys skew late =>
      { bench with
        rx := bench.rx.sysEdge skew late
        delivered :=
          bench.delivered.observe (bench.rx.sysEdge skew late).gmiiRxOut
        toggleSeen := bench.toggleSeen ||
          bench.rx.rxFrameToggle.sample late == bench.rx.rxFrameToggle.now }

/-- The settled toggle is sampled between two flips of it. -/
def TogglePaced (bench : RxBench addrWidth ramStyle) : RxEdge → Prop
  | .media _ _ => bench.flips = true → bench.toggleSeen = true
  | .sys _ _ => True

/-- Both sides of the receive path stand on one queue of frames. -/
structure Tracks (bench : RxBench addrWidth ramStyle)
    (packet : PacketQueue RxWord (2 ^ addrWidth) ramStyle.staged)
    (ledger : RxLedger) (counted retired : Nat) (part : List RxByte) : Prop where
  write : bench.rx.WriteSide bench.received packet ledger
  announced : bench.rx.Announced packet counted retired
  read : bench.rx.Replaying packet ledger.commits bench.delivered counted
    retired part
  seen : bench.toggleSeen = true → packet.committed.now = packet.seen1

def Tracked (bench : RxBench addrWidth ramStyle) : Prop :=
  ∃ packet ledger counted retired part,
    bench.Tracks packet ledger counted retired part

theorem tracked_start (haddr : 2 ≤ addrWidth) (mem : BitVec addrWidth → RxWord)
    (headQ : RxWord) :
    Tracked (start mem headQ : RxBench addrWidth ramStyle) :=
  ⟨.empty, .empty, 0, 0, [], GmiiCdcRx.writeSide_reset mem headQ haddr,
    GmiiCdcRx.announced_reset mem headQ, GmiiCdcRx.replaying_reset mem headQ,
    fun _ => rfl⟩

section Step

variable {bench : RxBench addrWidth ramStyle}
variable {packet : PacketQueue RxWord (2 ^ addrWidth) ramStyle.staged}
variable {ledger : RxLedger} {counted retired : Nat} {part : List RxByte}

theorem Tracks.media (haddr : 2 ≤ addrWidth)
    (htracks : bench.Tracks packet ledger counted retired part)
    (gmii : GmiiRxIn) (skew : Skew)
    (hpaced : bench.TogglePaced (.media gmii skew)) :
    ∃ next, (bench.step (.media gmii skew)).Tracks
      (packet.wrEdge bench.rx.rxWrAccept bench.rx.rxFifoDin
        bench.rx.rxWrIsEof skew) next counted retired part := by
  have hone : 1 ≤ addrWidth := Nat.le_of_succ_le haddr
  have hann := htracks.announced
  have hread := htracks.read
  obtain ⟨next, hwrite, hgrow⟩ := htracks.write.mediaEdge haddr gmii skew
  have haccepts := htracks.write.accepts_eq hone
  have hcounted := hann.counted_le
  have hretired := hann.retired_le
  have hseen3 := packet.seen3_le_frames
  have hcommitted : bench.flips = true → packet.committed.now = packet.seen1 :=
    fun hflips => htracks.seen (hpaced hflips)
  have hlength : retired ≤ ledger.commits.length := by
    rw [htracks.write.store.frames, List.length_map] at hcounted
    omega
  refine ⟨next, hwrite, ?_, ?_, ?_⟩
  · refine ⟨by rw [PacketQueue.wrEdge_seen1]; exact hann.toggleS1,
      by rw [PacketQueue.wrEdge_seen2]; exact hann.toggleS2,
      by rw [PacketQueue.wrEdge_seen3]; exact hann.toggleS3, ?_,
      by simpa using hann.lag1, by simpa using hann.lag2,
      by rw [PacketQueue.wrEdge_seen3]; exact hann.seen, ?_, hretired,
      hann.pending⟩
    · rw [PacketQueue.wrEdge_committed, haccepts, PacketQueue.wrEdge_seen1]
      split
      case isTrue hflips =>
        rw [Launched.drive_now, hcommitted hflips]
      case isFalse => exact hann.lag
    · rw [PacketQueue.wrEdge_seen3,
        packet.endOf_wrEdge _ _ _ _ ((Nat.sub_le _ _).trans hseen3),
        PacketQueue.wrEdge_queue, CrossingQueue.wrEdge_written_second]
      exact hann.visible
  · refine ⟨?_, hread.rdEn, ?_, hread.idle, ?_⟩
    · rw [packet.endOf_wrEdge _ _ _ _ (hretired.trans hcounted),
        PacketQueue.wrEdge_queue, CrossingQueue.wrEdge_popped]
      exact hread.popped
    · intro hreading
      obtain ⟨hlt, hdrained, data, err, hcommit, hpart⟩ := hread.reading hreading
      refine ⟨hlt, ?_, data, err, ?_, hpart⟩
      · rwa [PacketQueue.wrEdge_queue, CrossingQueue.wrEdge_drained]
      · obtain ⟨more, hmore⟩ := hgrow
        have hindex := (List.getElem?_eq_some_iff.mp hcommit).1
        rw [← hmore, List.getElem?_append_left hindex, hcommit]
    · obtain ⟨more, hmore⟩ := hgrow
      rw [← hmore, List.take_append_of_le_length hlength]
      cases hread.held with
      | between hvalid hall => exact .between hvalid hall
      | within front hvalid hclosed hopened =>
          exact .within front hvalid hclosed hopened
  · intro htoggle
    have hflips : bench.flips = false := by
      by_contra hnot
      simp [step, hnot] at htoggle
    have hkept : bench.toggleSeen = true := by
      simpa [step, hflips] using htoggle
    rw [PacketQueue.wrEdge_committed, haccepts, PacketQueue.wrEdge_seen1]
    rw [flips] at hflips
    rw [hflips]
    exact htracks.seen hkept

theorem Tracks.sys (haddr : 2 ≤ addrWidth)
    (htracks : bench.Tracks packet ledger counted retired part) (skew : Skew)
    (late : Bool) :
    ∃ part', (bench.step (.sys skew late)).Tracks
      (packet.rdEdge bench.rx.rxRdEn skew late) ledger
      (counted + bench.rx.rxFrameAvailD.toNat)
      (retired + bench.rx.readout.rxFrameDonePulse.toNat) part' := by
  have hann := htracks.announced
  have hframes := htracks.write.store.frames
  have hbound := htracks.read.frames_bound hframes
    (hann.retired_le.trans hann.counted_le) hann.counted_le
  obtain ⟨hdone, part', hread⟩ := htracks.read.sysEdge haddr hframes
    htracks.write.fifo hann skew late
  refine ⟨part', htracks.write.sysEdge skew late,
    hann.sysEdge haddr htracks.write.toggle hbound hdone skew late, hread, ?_⟩
  intro htoggle
  have hgrow := packet.committed_grows
  have hseen := packet.seen1_le
  have hlag := hann.lag
  rw [PacketQueue.rdEdge_committed, Launched.settle_now,
    PacketQueue.rdEdge_seen1]
  cases late with
  | false => rfl
  | true =>
      rw [Launched.sample_true]
      rcases Bool.or_eq_true _ _ ▸ htoggle with hold | hsettled
      · have heq := htracks.seen hold
        omega
      · -- equal parities of counts at most one apart
        have hparity := beq_iff_eq.mp hsettled
        rw [htracks.write.toggle, Launched.map_sample, Launched.map_now,
          Launched.sample_true] at hparity
        have hnear := add_oddCount_bne hgrow (by omega)
        rw [hparity] at hnear
        simpa using hnear.symm

theorem tracked_step (haddr : 2 ≤ addrWidth)
    (bench : RxBench addrWidth ramStyle) (edge : RxEdge)
    (hpaced : bench.TogglePaced edge) (htracked : bench.Tracked) :
    (bench.step edge).Tracked := by
  obtain ⟨packet, ledger, counted, retired, part, htracks⟩ := htracked
  cases edge with
  | media gmii skew =>
      obtain ⟨next, hnext⟩ := htracks.media haddr gmii skew hpaced
      exact ⟨_, next, _, _, _, hnext⟩
  | sys skew late =>
      obtain ⟨part', hnext⟩ := htracks.sys haddr skew late
      exact ⟨_, _, _, _, part', hnext⟩

theorem tracked_run (haddr : 2 ≤ addrWidth) {mem : BitVec addrWidth → RxWord}
    {headQ : RxWord} {edges : List RxEdge}
    (hpaced : Along step TogglePaced
      (start mem headQ : RxBench addrWidth ramStyle) edges) :
    Tracked (runFrom step (start mem headQ : RxBench addrWidth ramStyle)
      edges) :=
  invariant_along (tracked_step haddr) (tracked_start haddr mem headQ) hpaced

end Step

/-- The input has stopped: no envelope is open and no word is on its way. -/
def Stopped (bench : RxBench addrWidth ramStyle) : Prop :=
  bench.received.opened = [] ∧ bench.rx.rxWrEn = false

/-- An edge that brings no beat. -/
def Quiet : RxEdge → Prop
  | .media gmii _ => gmii.dv = false
  | .sys _ _ => True

def isSys : RxEdge → Bool
  | .media _ _ => false
  | .sys _ _ => true

/-- Neither the memory nor the output stage holds a word. -/
def Drained (bench : RxBench addrWidth ramStyle) : Prop :=
  bench.rx.rxFifo.stored = [] ∧ bench.rx.rxFifo.head = []

/-- A bound on the `sys_clk` edges it takes to read the committed frames once
they are all announced. -/
def edgesLeft (packet : PacketQueue RxWord (2 ^ addrWidth) ramStyle.staged)
    (reading : Bool) : Nat :=
  if packet.queue.popped < packet.frames.flatten.length then
    3 * (packet.frames.flatten.length - packet.queue.popped) +
      if reading then 0 else if packet.queue.Drained then 2 else 1
  else 0

/-- There has been no input for `settled` edges of `sys_clk`, and `left` more
will do.  After twelve every committed frame is announced. -/
structure Draining (bench : RxBench addrWidth ramStyle)
    (packet : PacketQueue RxWord (2 ^ addrWidth) ramStyle.staged)
    (settled left : Nat) : Prop where
  stopped : bench.Stopped
  tracks : ∃ ledger counted retired part,
    bench.Tracks packet ledger counted retired part
  queue : packet.Settled settled
  delay : ∀ i, i + 5 ≤ settled → bench.rx.rxAvailDelay.getLsbD i = false
  early : settled < 12 → 12 - settled + (3 * 2 ^ addrWidth + 5) ≤ left
  late : 12 ≤ settled → edgesLeft packet bench.rx.rxReading ≤ left

section Drain

variable {bench : RxBench addrWidth ramStyle}
variable {packet : PacketQueue RxWord (2 ^ addrWidth) ramStyle.staged}
variable {ledger : RxLedger} {counted retired : Nat} {part : List RxByte}
variable {settled left : Nat}

theorem edgesLeft_le
    (packet : PacketQueue RxWord (2 ^ addrWidth) ramStyle.staged)
    (reading : Bool) : edgesLeft packet reading ≤ 3 * 2 ^ addrWidth + 5 := by
  have hlength := packet.queue.length_le_popped
  have hstage := Bool.toNat_le ramStyle.staged
  have hframes : packet.frames.flatten.length ≤ packet.queue.words.length := by
    simp [packet.words_eq]
  have hrank : (if reading then 0 else
      if packet.queue.Drained then 2 else 1) ≤ 2 := by
    split
    · omega
    · split <;> omega
  unfold edgesLeft
  split <;> omega

/-- With every frame announced, the readout goes from frame to frame. -/
theorem Draining.counted_eq (hdrain : bench.Draining packet settled left)
    (hlate : 12 ≤ settled)
    (htracks : bench.Tracks packet ledger counted retired part) :
    counted = packet.frames.length := by
  have hclear : inDelay bench.rx.rxAvailDelay = 0 := by
    refine List.sum_eq_zero fun bit hbit => ?_
    obtain ⟨i, hi, rfl⟩ := List.mem_map.mp hbit
    have hlt := List.mem_range.mp hi
    rw [hdrain.delay i (by omega), Bool.toNat_false]
  have hcount := htracks.announced.seen
  have hseen := hdrain.queue.seen3 (by omega)
  omega

theorem Draining.edgesLeft_sys
    (hdrain : bench.Draining packet settled left) (hlate : 12 ≤ settled)
    (skew : Skew) (late : Bool) :
    edgesLeft (packet.rdEdge bench.rx.rxRdEn skew late)
        (bench.step (.sys skew late)).rx.rxReading ≤
      edgesLeft packet bench.rx.rxReading - 1 := by
  obtain ⟨ledger, counted, retired, part, htracks⟩ := hdrain.tracks
  have hread := htracks.read
  have hann := htracks.announced
  have hframes := htracks.write.store.frames
  have hcounted := hdrain.counted_eq hlate htracks
  have hsecond := hdrain.queue.second (by omega)
  have hpop := CrossingQueue.rdEdge_popped packet.queue skew bench.rx.rxRdEn
  have hwords : packet.frames.flatten.length ≤ packet.queue.words.length := by
    simp [packet.words_eq]
  by_cases hleft : packet.queue.popped < packet.frames.flatten.length
  case neg =>
    rw [edgesLeft, if_neg]
    · exact Nat.zero_le _
    · rw [PacketQueue.rdEdge_queue, PacketQueue.rdEdge_frames, hpop]
      omega
  rw [edgesLeft, edgesLeft, if_pos hleft, PacketQueue.rdEdge_frames,
    PacketQueue.rdEdge_queue, hpop]
  cases hreading : bench.rx.rxReading with
  | true =>
      have hpops := packet.queue.pops_of_not_drained true
        (hread.reading hreading).2.1
      have hrank : (if (bench.step (.sys skew late)).rx.rxReading then 0
          else if (packet.queue.rdEdge true skew).Drained then 2 else 1) ≤ 2 := by
        split
        · omega
        · split <;> omega
      rw [hread.rdEn, hreading, hpops, Bool.toNat_true]
      split
      · simp only [if_true]
        omega
      · exact Nat.zero_le _
  | false =>
      have hquiet := GmiiCdcRx.readout_quiet hreading
      have hpart := hread.idle hreading
      have hpopped := hread.popped
      rw [hpart, List.length_nil, Nat.add_zero] at hpopped
      have hready : bench.rx.rxFrameReady = true := by
        rw [hann.ready_iff, hcounted]
        refine lt_of_le_of_ne (hann.retired_le.trans hann.counted_le) ?_
        intro heq
        rw [heq, endOf_all] at hpopped
        omega
      have hstart : (bench.step (.sys skew late)).rx.rxReading =
          !decide packet.queue.Drained := by
        change bench.rx.readout.rxReading = _
        rw [hquiet, hready, htracks.write.fifo.rdEmpty_eq]
        rfl
      rw [hread.rdEn, hreading, CrossingQueue.pops_false, Bool.toNat_false,
        Nat.add_zero, if_pos hleft, hstart]
      by_cases hdrained : packet.queue.Drained
      · have hshow := packet.queue.rdEdge_not_drained_of_waiting skew
          (by omega)
        simp [hdrained, hshow]
      · simp [hdrained]

theorem Draining.sys (haddr : 2 ≤ addrWidth)
    (hdrain : bench.Draining packet settled left) (skew : Skew) (late : Bool) :
    (bench.step (.sys skew late)).Draining
      (packet.rdEdge bench.rx.rxRdEn skew late) (settled + 1) (left - 1) := by
  obtain ⟨ledger, counted, retired, part, htracks⟩ := hdrain.tracks
  obtain ⟨part', hnext⟩ := htracks.sys haddr skew late
  refine ⟨hdrain.stopped, ⟨_, _, _, part', hnext⟩,
    hdrain.queue.rdEdge _ skew late, ?_, ?_, ?_⟩
  · intro i hi
    change ((bench.rx.rxAvailDelay.setWidth 7).concat
      bench.rx.rxFrameAvail).getLsbD i = false
    cases i with
    | zero =>
        have hsame : bench.rx.rxFrameAvail = false := by
          rw [GmiiCdcRx.rxFrameAvail, htracks.announced.toggleS2,
            htracks.announced.toggleS3, hdrain.queue.seen2 (by omega),
            hdrain.queue.seen3 (by omega), bne_self_eq_false]
        simpa using hsame
    | succ i =>
        have hbit := hdrain.delay i (by omega)
        simp [hbit]
  · intro hearly
    have hold := hdrain.early (by omega)
    omega
  · intro hlate
    rcases Nat.lt_or_ge settled 12 with hearly | hthrough
    · have hold := hdrain.early hearly
      have hmost := edgesLeft_le (packet.rdEdge bench.rx.rxRdEn skew late)
        (bench.step (.sys skew late)).rx.rxReading
      omega
    · have hstep := hdrain.edgesLeft_sys hthrough skew late
      have hold := hdrain.late hthrough
      omega

theorem Draining.media (haddr : 2 ≤ addrWidth)
    (hdrain : bench.Draining packet settled left) (gmii : GmiiRxIn)
    (skew : Skew) (hquiet : gmii.dv = false) :
    ∃ next, (bench.step (.media gmii skew)).Draining next settled left := by
  obtain ⟨hopened, hwrEn⟩ := hdrain.stopped
  obtain ⟨ledger, counted, retired, part, htracks⟩ := hdrain.tracks
  have haccept : bench.rx.rxWrAccept = false := by
    simp [GmiiCdcRx.rxWrAccept, hwrEn]
  have hpaced : bench.TogglePaced (.media gmii skew) := by
    intro hflips
    simp [flips, haccept] at hflips
  obtain ⟨next, hnext⟩ := htracks.media haddr gmii skew hpaced
  rw [haccept] at hnext
  have hleft : edgesLeft (packet.wrEdge false bench.rx.rxFifoDin
      bench.rx.rxWrIsEof skew) bench.rx.rxReading =
        edgesLeft packet bench.rx.rxReading := by
    simp [edgesLeft, PacketQueue.wrEdge_frames, CrossingQueue.wrEdge_drained]
  refine ⟨_, ⟨?_, ?_⟩, ⟨next, _, _, _, hnext⟩, hdrain.queue.wrEdge _ _ skew,
    hdrain.delay, hdrain.early, fun hlate => ?_⟩
  · simp [step, hquiet]
  · have hd1 := htracks.write.dv
    simp [step, GmiiCdcRx.mediaEdge, hquiet, hd1, hopened]
  · exact hleft.trans_le (hdrain.late hlate)

theorem Draining.run (haddr : 2 ≤ addrWidth) {edges : List RxEdge}
    (hquiet : ∀ edge ∈ edges, Quiet edge)
    (hdrain : bench.Draining packet settled left) :
    ∃ next, (runFrom step bench edges).Draining next
      (settled + edges.countP isSys) (left - edges.countP isSys) := by
  induction edges generalizing bench packet settled left with
  | nil => exact ⟨packet, hdrain⟩
  | cons edge rest ih =>
      have hrest := fun other hother => hquiet other
        (List.mem_cons_of_mem edge hother)
      cases edge with
      | media gmii skew =>
          obtain ⟨next, hnext⟩ := hdrain.media haddr gmii skew
            (hquiet _ List.mem_cons_self)
          simpa [isSys] using ih hrest hnext
      | sys skew late =>
          obtain ⟨next, hnext⟩ := ih hrest (hdrain.sys haddr skew late)
          refine ⟨next, ?_⟩
          rw [List.countP_cons_of_pos (show isSys (.sys skew late) = true from rfl)]
          have hsettled : settled + (rest.countP isSys + 1) =
              settled + 1 + rest.countP isSys := by omega
          rw [hsettled, Nat.add_comm (rest.countP isSys), ← Nat.sub_sub]
          exact hnext

end Drain

section Delivery

variable {bench : RxBench addrWidth ramStyle}
variable {packet : PacketQueue RxWord (2 ^ addrWidth) ramStyle.staged}
variable {ledger : RxLedger} {counted retired : Nat} {part : List RxByte}

/-- Every received envelope has its image, if only a missing one, and the
images that show are those of the committed frames. -/
theorem Tracks.images
    (htracks : bench.Tracks packet ledger counted retired part) :
    ∃ images, List.Forall₂ Replays bench.received.closed images ∧
      shown images = shown (ledger.commits.map replay) := by
  have hstore := htracks.write.store
  obtain ⟨behind, hclosed⟩ := htracks.write.staged.closed_eq
  refine ⟨ledger.images ++ List.replicate behind.length [], ?_, ?_⟩
  · rw [hclosed]
    refine List.rel_append hstore.images ?_
    clear hclosed
    induction behind with
    | nil => exact .nil
    | cons frame rest ih => exact .cons (Or.inl rfl) ih
  · rw [shown_append, shown_replicate_nil, List.append_nil, hstore.shown]

theorem Tracks.delivers
    (htracks : bench.Tracks packet ledger counted retired part) :
    Envelopes.Delivers Replays bench.received.closed bench.delivered := by
  obtain ⟨images, hreplays, himages⟩ := htracks.images
  have hread := htracks.read
  have hsplit : shown (ledger.commits.map replay) =
      shown ((ledger.commits.take retired).map replay) ++
        shown ((ledger.commits.drop retired).map replay) := by
    rw [← shown_append, ← List.map_append, List.take_append_drop]
  rw [hsplit] at himages
  generalize hlater : shown ((ledger.commits.drop retired).map replay) =
    later at himages
  generalize hreplayed : shown ((ledger.commits.take retired).map replay) =
    replayed at himages
  have hheld := hreplayed ▸ hread.held
  cases hheld with
  | between hvalid hall =>
      by_cases hidle : bench.delivered.opened = []
      · refine ⟨images, later, hreplays, ?_, hidle ▸ List.nil_prefix⟩
        rw [himages, ← hall, Envelopes.all_of_idle hidle]
      · refine ⟨images, bench.delivered.opened :: later, hreplays, ?_,
          List.prefix_rfl⟩
        rw [himages, ← hall, Envelopes.all_of_busy hidle, List.append_assoc]
        rfl
  | within front hvalid hclosed hopened =>
      have hreading : bench.rx.rxReading = true := by
        by_contra hnot
        have hempty := hread.idle (Bool.eq_false_iff.mpr hnot)
        simp at hempty
      obtain ⟨-, -, data, err, hcommit, hpart⟩ := hread.reading hreading
      have hdata : data ≠ [] := by
        rintro rfl
        simp at hpart
      have hne : replay (data, err) ≠ [] := flagLast_ne_nil hdata err
      have hnext : later = replay (data, err) ::
          shown ((ledger.commits.drop (retired + 1)).map replay) := by
        have hlt := (List.getElem?_eq_some_iff.mp hcommit).1
        have heq := (List.getElem?_eq_some_iff.mp hcommit).2
        rw [← hlater, List.drop_eq_getElem_cons hlt, heq, List.map_cons,
          ← List.singleton_append, shown_append, shown_singleton hne]
        rfl
      refine ⟨images, later, hreplays, by rw [himages, hclosed], ?_⟩
      rw [hnext, hopened]
      exact prefix_flagLast hpart err

/-- With all words of the committed frames read, the readout rests. -/
theorem Tracks.at_rest
    (htracks : bench.Tracks packet ledger counted retired part)
    (hpopped : packet.frames.flatten.length ≤ packet.queue.popped) :
    bench.rx.rxReading = false ∧ retired = packet.frames.length ∧
      counted = packet.frames.length := by
  have hann := htracks.announced
  have hread := htracks.read
  have hcounted := hann.counted_le
  have hretired := hann.retired_le
  have hidle : bench.rx.rxReading = false := by
    by_contra hnot
    have hlt := hread.popped_lt htracks.write.store.frames
      (Bool.not_eq_false _ ▸ hnot)
    have hend := endOf_le packet.frames (retired + 1)
    omega
  have hnow := hread.popped
  rw [hread.idle hidle, List.length_nil, Nat.add_zero] at hnow
  have hleft := sub_le_endOf_sub packet.frames_ne (hretired.trans hcounted)
    le_rfl
  have hend := endOf_le packet.frames retired
  rw [endOf_all] at hleft
  exact ⟨hidle, by omega, by omega⟩

theorem Tracks.popped_of_drained
    (htracks : bench.Tracks packet ledger counted retired part)
    (hdrained : bench.Drained) :
    packet.queue.popped = packet.queue.words.length := by
  have hfifo := htracks.write.fifo
  have hstored := hfifo.stored_eq ▸ hdrained.1
  have hhead := hfifo.head_eq ▸ hdrained.2
  have htaken := packet.queue.taken_le_length
  have hpopped := packet.queue.popped_le
  rw [List.drop_eq_nil_iff] at hstored hhead
  rw [List.length_take] at hhead
  omega

/-- Once the FIFO is empty, everything that will show has been replayed, and no
frame is left pending. -/
theorem Tracks.drained (haddr : 2 ≤ addrWidth)
    (htracks : bench.Tracks packet ledger counted retired part)
    (hdrained : bench.Drained) :
    Envelopes.DeliversAll Replays bench.received.closed bench.delivered ∧
      ∀ skew late, (bench.rx.sysEdge skew late).rxFramesPending = 0 := by
  have hpopped := htracks.popped_of_drained hdrained
  have hwords : packet.frames.flatten.length ≤ packet.queue.words.length := by
    simp [packet.words_eq]
  obtain ⟨hidle, hretired, hcounted⟩ := htracks.at_rest (by omega)
  constructor
  · obtain ⟨images, hreplays, himages⟩ := htracks.images
    have hall : ledger.commits.take retired = ledger.commits := by
      rw [hretired, htracks.write.store.frames, List.length_map,
        List.take_length]
    have hpart := htracks.read.idle hidle
    have hheld := htracks.read.held
    rw [hpart, hall] at hheld
    refine ⟨images, hreplays, himages.trans ?_⟩
    generalize hnone : ([] : List RxByte) = part' at hheld
    cases hheld with
    | between hvalid hshown => exact hshown.symm
    | within front => simp at hnone
  · intro skew late
    obtain ⟨part', hnext⟩ := htracks.sys haddr skew late
    have hquiet := GmiiCdcRx.readout_quiet hidle
    have hdone : bench.rx.readout.rxFrameDonePulse = false := by rw [hquiet]
    have hmost := hnext.announced.counted_le
    have hpending := hnext.announced.pending
    rw [PacketQueue.rdEdge_frames] at hmost
    change (bench.rx.sysEdge skew late).rxFramesPending.toNat + _ =
      _ + bench.rx.readout.rxFrameDonePulse.toNat at hpending
    rw [hdone, Bool.toNat_false] at hpending
    have hzero : (0 : BitVec (addrWidth + 1)).toNat = 0 := by simp
    exact BitVec.eq_of_toNat_eq (by omega)

/-- Without input the FIFO drains. -/
theorem Tracks.drains (haddr : 2 ≤ addrWidth)
    (htracks : bench.Tracks packet ledger counted retired part)
    (hstopped : bench.Stopped) {edges : List RxEdge}
    (hquiet : ∀ edge ∈ edges, Quiet edge)
    (hlong : 3 * 2 ^ addrWidth + 17 ≤ edges.countP isSys) :
    (runFrom step bench edges).Drained := by
  have hstart : bench.Draining packet 0 (3 * 2 ^ addrWidth + 17) :=
    ⟨hstopped, ⟨_, _, _, _, htracks⟩, packet.settled_zero,
      fun i hi => by omega, fun _ => by omega, fun hlate => by omega⟩
  obtain ⟨next, hdrain⟩ := hstart.run haddr hquiet
  obtain ⟨ledger', counted', retired', part', hend⟩ := hdrain.tracks
  have hleft := hdrain.late (by omega)
  have hdone : next.frames.flatten.length ≤ next.queue.popped := by
    by_contra hnot
    rw [edgesLeft, if_pos (by omega)] at hleft
    omega
  -- no envelope is open, so the committed frames are all there is
  have hkept : next.opened = [] := by
    obtain ⟨hopened, hwrEn⟩ := hdrain.stopped
    have hstaged := hend.write.staged
    simp only [GmiiCdcRx.Staged, hwrEn, hopened] at hstaged
    have hbegun := hend.write.store.kept
    rw [← hstaged.2] at hbegun
    rw [hend.write.store.opened, List.prefix_nil.mp hbegun, List.map_nil]
  have hlength : next.queue.words.length = next.frames.flatten.length := by
    rw [next.words_eq, hkept, List.append_nil]
  have hpopped := next.queue.popped_le
  have htaken := next.queue.taken_le_length
  constructor
  · rw [hend.write.fifo.stored_eq, List.drop_eq_nil_iff]
    omega
  · rw [hend.write.fifo.head_eq, List.drop_eq_nil_iff, List.length_take]
    omega

/-- The frames on the `sys_clk` side are, in arrival order, received frames:
each whole, or cut with its last byte marked, or missing; where `rx_er` came
between the bytes, the last byte of the frame is marked too.  An empty FIFO
leaves no frame pending and none undelivered, and it does become empty when
the input stops. -/
theorem replays_run (haddr : 2 ≤ addrWidth) (mem : BitVec addrWidth → RxWord)
    (headQ : RxWord) (edges : List RxEdge)
    (hpaced : Along step TogglePaced
      (start mem headQ : RxBench addrWidth ramStyle) edges) :
    let bench : RxBench addrWidth ramStyle :=
      runFrom step (start mem headQ) edges
    Envelopes.Delivers Replays bench.received.closed bench.delivered ∧
    (bench.Drained →
      Envelopes.DeliversAll Replays bench.received.closed bench.delivered ∧
        ∀ skew late, (bench.rx.sysEdge skew late).rxFramesPending = 0) ∧
    (bench.Stopped → ∀ more, (∀ edge ∈ more, Quiet edge) →
      3 * 2 ^ addrWidth + 17 ≤ more.countP isSys →
        (runFrom step bench more).Drained) := by
  intro bench
  obtain ⟨packet, ledger, counted, retired, part, htracks⟩ :=
    tracked_run haddr hpaced
  exact ⟨htracks.delivers, htracks.drained haddr, fun hstopped more hquiet =>
    htracks.drains haddr hstopped hquiet⟩

end Delivery

instance (bench : RxBench addrWidth ramStyle) (edge : RxEdge) :
    Decidable (bench.TogglePaced edge) :=
  match edge with
  | .media _ _ => inferInstanceAs (Decidable (_ → _))
  | .sys _ _ => isTrue trivial

/-- A frame of one byte with `rx_er` on a cycle behind it that carries none. -/
def strayRun : List RxEdge :=
  [.media ⟨true, true, false, 0x55⟩ ⟨false, false⟩,
    .media ⟨true, false, true, 0⟩ ⟨false, false⟩,
    .media ⟨false, false, false, 0⟩ ⟨false, false⟩,
    .media ⟨false, false, false, 0⟩ ⟨false, false⟩] ++
  List.replicate 20 (.sys ⟨false, false⟩ false)

def strayBench : RxBench 14 .block :=
  runFrom step (start (fun _ => ⟨false, false, 0⟩) ⟨false, false, 0⟩) strayRun

theorem replays_run_stray :
    Envelopes.Delivers Replays strayBench.received.closed
      strayBench.delivered :=
  (replays_run (by decide) (fun _ => ⟨false, false, 0⟩) ⟨false, false, 0⟩
    strayRun (by decide +kernel)).1

/-- A received frame that is replayed byte for byte, or cut with its last byte
marked, or not at all. -/
def ReplaysExactly (frame : List GmiiRxIn) (image : List RxByte) : Prop :=
  image = [] ∨ image = bytesOf frame ∨
    ∃ count < (bytesOf frame).length,
      image = flagLast ((bytesOf frame).take count) true

/-- The whole frame comes out, and its last byte has an `rx_er` that it was not
received with. -/
theorem stray_error_marks_whole_frame :
    Along step TogglePaced
        (start (fun _ => ⟨false, false, 0⟩) ⟨false, false, 0⟩ :
          RxBench 14 .block) strayRun ∧
      bytesOf (strayBench.received.closed.headD []) = [(0x55, false)] ∧
      strayBench.delivered.closed = [[(0x55, true)]] ∧
      ¬ Envelopes.Delivers ReplaysExactly strayBench.received.closed
        strayBench.delivered := by
  have hreceived : strayBench.received.closed =
      [[⟨true, true, false, 0x55⟩, ⟨true, false, true, 0⟩]] := by
    decide +kernel
  have hdelivered : strayBench.delivered = ⟨[[(0x55, true)]], []⟩ := by
    decide +kernel
  refine ⟨by decide +kernel, by rw [hreceived]; decide, by rw [hdelivered], ?_⟩
  rintro ⟨images, rest, hexact, hshown, -⟩
  rw [hreceived] at hexact
  rw [hdelivered] at hshown
  obtain ⟨image, hone, rfl⟩ : ∃ image, ReplaysExactly
      [⟨true, true, false, 0x55⟩, ⟨true, false, true, 0⟩] image ∧
        images = [image] := by
    cases hexact with
    | cons hone hnil =>
        cases hnil
        exact ⟨_, hone, rfl⟩
  rcases hone with rfl | rfl | ⟨count, hcount, rfl⟩
  · simp at hshown
  · simp [shown, bytesOf] at hshown
  · have hzero : count = 0 := by
      simpa [bytesOf] using hcount
    simp [hzero] at hshown

end RxBench

end EmacZero
