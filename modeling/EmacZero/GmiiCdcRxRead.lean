/-
The read side of the `gmii_cdc` receive path: the frame toggle announces each
whole frame once, after its words have come through, and the readout replays
the announced frames one after the other.
-/
import EmacZero.GmiiCdcRxWrite

namespace EmacZero

/-- The announcements still in the delay line. -/
def inDelay (delay : BitVec 8) : Nat :=
  ((List.range 8).map fun i => (delay.getLsbD i).toNat).sum

theorem inDelay_shift (delay : BitVec 8) (avail : Bool) :
    inDelay ((delay.setWidth 7).concat avail) + delay.msb.toNat =
      inDelay delay + avail.toNat := by
  simp [inDelay, List.range_succ, BitVec.getLsbD_concat,
    BitVec.msb_eq_getLsbD_last]
  omega

theorem newest_le_inDelay (delay : BitVec 8) :
    (delay.getLsbD 0).toNat ≤ inDelay delay := by
  simp only [inDelay, List.range_succ, List.range_zero, List.nil_append,
    List.cons_append, List.map_cons, List.map_nil, List.sum_cons, List.sum_nil]
  omega

/-- Counts at most one apart differ exactly when their parities do. -/
theorem add_oddCount_bne {low high : Nat} (hle : low ≤ high)
    (hlag : high ≤ low + 1) :
    low + (oddCount high != oddCount low).toNat = high := by
  rcases Nat.eq_or_lt_of_le hle with rfl | hlt
  · simp
  · obtain rfl : high = low + 1 := by omega
    simp

namespace GmiiCdcRx

variable {addrWidth : Nat} {ramStyle : RamStyle}

/-- `counted` frames have been announced and `retired` ones replayed; the
pending counter holds the difference. -/
structure Announced (rx : GmiiCdcRx addrWidth ramStyle)
    (packet : PacketQueue RxWord (2 ^ addrWidth) ramStyle.staged)
    (counted retired : Nat) : Prop where
  toggleS1 : rx.rxToggleS1 = oddCount packet.seen1
  toggleS2 : rx.rxToggleS2 = oddCount packet.seen2
  toggleS3 : rx.rxToggleS3 = oddCount packet.seen3
  lag : packet.committed.now ≤ packet.seen1 + 1
  lag1 : packet.seen1 ≤ packet.seen2 + 1
  lag2 : packet.seen2 ≤ packet.seen3 + 1
  seen : counted + inDelay rx.rxAvailDelay = packet.seen3
  visible :
    endOf packet.frames (packet.seen3 - (rx.rxAvailDelay.getLsbD 0).toNat) ≤
      packet.queue.written.second
  retired_le : retired ≤ counted
  pending : rx.rxFramesPending.toNat + retired =
    counted + rx.rxFrameDonePulse.toNat

/-- The byte in the one-byte hold and the envelope on the outputs, against the
bytes of the current frame that have been read. -/
inductive Held (rx : GmiiCdcRx addrWidth ramStyle)
    (delivered : Envelopes RxByte) (replayed : List (List RxByte)) :
    List RxByte → Prop
  | between (hvalid : rx.rxPendValid = false)
      (hall : delivered.all = replayed) : Held rx delivered replayed []
  | within (front : List RxByte) (hvalid : rx.rxPendValid = true)
      (hclosed : delivered.closed = replayed)
      (hopened : delivered.opened = front) :
      Held rx delivered replayed (front ++ [(rx.rxPendData, rx.rxPendEr)])

/-- The readout has replayed `retired` frames and read the bytes `part` of the
next one. -/
structure Replaying (rx : GmiiCdcRx addrWidth ramStyle)
    (packet : PacketQueue RxWord (2 ^ addrWidth) ramStyle.staged)
    (commits : List (List RxByte × Bool)) (delivered : Envelopes RxByte)
    (counted retired : Nat) (part : List RxByte) : Prop where
  popped : packet.queue.popped = endOf packet.frames retired + part.length
  rdEn : rx.rxRdEn = rx.rxReading
  reading : rx.rxReading = true → retired < counted ∧ ¬ packet.queue.Drained ∧
    ∃ data err, commits[retired]? = some (data, err) ∧ part <+: data
  idle : rx.rxReading = false → part = []
  held : Held rx delivered (shown ((commits.take retired).map replay)) part

section Announce

variable {rx : GmiiCdcRx addrWidth ramStyle}
variable {packet : PacketQueue RxWord (2 ^ addrWidth) ramStyle.staged}
variable {counted retired : Nat}

theorem announced_reset (mem : BitVec addrWidth → RxWord) (headQ : RxWord) :
    Announced (reset mem headQ : GmiiCdcRx addrWidth ramStyle) .empty 0 0 := by
  have hempty : inDelay 0 = 0 := by decide
  refine ⟨rfl, rfl, rfl, ?_, ?_, ?_,
    (Nat.zero_add _).trans hempty, ?_, le_rfl, rfl⟩
  · exact Nat.zero_le _
  · exact Nat.zero_le _
  · exact Nat.zero_le _
  · simp [PacketQueue.empty, endOf]

theorem Announced.counted_le (hann : Announced rx packet counted retired) :
    counted ≤ packet.frames.length := by
  have hseen := hann.seen
  have hframes := packet.seen3_le_frames
  omega

/-- The words of an announced frame can be read. -/
theorem Announced.counted_visible
    (hann : Announced rx packet counted retired) :
    endOf packet.frames counted ≤ packet.queue.written.second := by
  have hseen := hann.seen
  have hnewest := newest_le_inDelay rx.rxAvailDelay
  exact (endOf_mono (by omega)).trans hann.visible

theorem rxDoneInflight_toNat (rx : GmiiCdcRx addrWidth ramStyle) :
    rx.rxDoneInflight.toNat = rx.rxFrameDonePulse.toNat := by
  have hpow : 2 ^ 1 ≤ 2 ^ (addrWidth + 1) :=
    Nat.pow_le_pow_right (by decide) (Nat.le_add_left 1 addrWidth)
  have hbit := Bool.toNat_le rx.rxFrameDonePulse
  rw [rxDoneInflight, BitVec.toNat_setWidth, BitVec.toNat_ofBool,
    Nat.mod_eq_of_lt (by omega)]

theorem Announced.ready_iff (hann : Announced rx packet counted retired) :
    rx.rxFrameReady = true ↔ retired < counted := by
  have hpending := hann.pending
  rw [rxFrameReady, decide_eq_true_iff, BitVec.lt_def, rxDoneInflight_toNat]
  omega

theorem Announced.nextReady_iff (haddr : 2 ≤ addrWidth)
    (hann : Announced rx packet counted retired) :
    rx.rxNextReady = true ↔ retired + 1 < counted := by
  have hpow : 2 ^ 3 ≤ 2 ^ (addrWidth + 1) :=
    Nat.pow_le_pow_right (by decide) (Nat.succ_le_succ haddr)
  have hbit := Bool.toNat_le rx.rxFrameDonePulse
  have hpending := hann.pending
  have hone : (1 : BitVec (addrWidth + 1)).toNat = 1 := by
    simp
  rw [rxNextReady, decide_eq_true_iff, BitVec.lt_def, BitVec.toNat_add,
    rxDoneInflight_toNat, hone, Nat.mod_eq_of_lt (by omega)]
  omega

/-- The pending counter takes one announcement and one retirement an edge. -/
theorem Announced.pending_sysEdge (haddr : 2 ≤ addrWidth)
    (hann : Announced rx packet counted retired)
    (hbound : packet.frames.length ≤ retired + 2 ^ addrWidth + 1)
    (hcounted : counted + rx.rxFrameAvailD.toNat ≤ packet.frames.length)
    (skew : Skew) (late : Bool) :
    (rx.sysEdge skew late).rxFramesPending.toNat + retired =
      counted + rx.rxFrameAvailD.toNat := by
  have hpow : 2 ^ (addrWidth + 1) = 2 ^ addrWidth + 2 ^ addrWidth := by ring
  have hbig : 2 ^ 2 ≤ 2 ^ addrWidth := Nat.pow_le_pow_right (by decide) haddr
  have hpending := hann.pending
  have hretired := hann.retired_le
  have hone : (1 : BitVec (addrWidth + 1)).toNat = 1 := by simp
  cases havail : rx.rxFrameAvailD with
  | true =>
      rw [havail, Bool.toNat_true] at hcounted
      cases hdone : rx.rxFrameDonePulse with
      | true => simpa [sysEdge, havail, hdone] using hpending
      | false =>
          simp only [hdone, Bool.toNat_false] at hpending
          simp only [sysEdge, havail, hdone, BitVec.toNat_add, hone,
            Bool.toNat_true]
          rw [Nat.mod_eq_of_lt (by omega)]
          omega
  | false =>
      cases hdone : rx.rxFrameDonePulse with
      | true =>
          simp only [hdone, Bool.toNat_true] at hpending
          have hne : rx.rxFramesPending ≠ 0 := by
            rintro hzero
            rw [hzero] at hpending
            simp at hpending
            omega
          have hle : (1 : BitVec (addrWidth + 1)) ≤ rx.rxFramesPending := by
            rw [BitVec.le_def, hone]
            omega
          simp only [sysEdge, havail, hdone, bne_iff_ne.mpr hne, if_true,
            BitVec.toNat_sub_of_le hle, hone, Bool.toNat_false]
          omega
      | false => simpa [sysEdge, havail, hdone] using hpending

theorem Announced.sysEdge (haddr : 2 ≤ addrWidth)
    (hann : Announced rx packet counted retired)
    (htoggle : rx.rxFrameToggle = packet.committed.map oddCount)
    (hbound : packet.frames.length ≤ retired + 2 ^ addrWidth + 1)
    (hdone : retired + rx.readout.rxFrameDonePulse.toNat ≤ counted)
    (skew : Skew) (late : Bool) :
    Announced (rx.sysEdge skew late) (packet.rdEdge rx.rxRdEn skew late)
      (counted + rx.rxFrameAvailD.toNat)
      (retired + rx.readout.rxFrameDonePulse.toNat) := by
  have hshift := inDelay_shift rx.rxAvailDelay rx.rxFrameAvail
  have havail : packet.seen3 + rx.rxFrameAvail.toNat = packet.seen2 := by
    rw [rxFrameAvail, hann.toggleS2, hann.toggleS3]
    exact add_oddCount_bne packet.seen3_le hann.lag2
  have hseen : counted + rx.rxFrameAvailD.toNat +
      inDelay ((rx.rxAvailDelay.setWidth 7).concat rx.rxFrameAvail) =
        packet.seen2 := by
    have hold := hann.seen
    rw [rxFrameAvailD]
    omega
  have hcounted : counted + rx.rxFrameAvailD.toNat ≤ packet.frames.length := by
    have hframes := packet.seen2_le_frames
    omega
  have hpending := hann.pending_sysEdge haddr hbound hcounted skew late
  have hlag := hann.lag
  have hgrow := packet.seen1_le
  refine ⟨?_, hann.toggleS1, hann.toggleS2, ?_, ?_, hann.lag1, hseen, ?_, ?_,
    ?_⟩
  · rw [GmiiCdcRx.sysEdge, htoggle, Launched.map_sample,
      PacketQueue.rdEdge_seen1]
  · have hle := Launched.before_le_sample packet.committed_grows late
    rw [PacketQueue.rdEdge_committed, Launched.settle_now,
      PacketQueue.rdEdge_seen1]
    omega
  · have hle := Launched.sample_le_now packet.committed_grows late
    rw [PacketQueue.rdEdge_seen1, PacketQueue.rdEdge_seen2]
    omega
  · have hnewest : packet.seen2 - (((rx.rxAvailDelay.setWidth 7).concat
        rx.rxFrameAvail).getLsbD 0).toNat = packet.seen3 := by
      simp only [BitVec.getLsbD_concat_zero]
      omega
    change endOf packet.frames (packet.seen2 - (((rx.rxAvailDelay.setWidth
      7).concat rx.rxFrameAvail).getLsbD 0).toNat) ≤ _
    rw [hnewest]
    exact packet.endOf_seen3_le skew rx.rxRdEn late
  · omega
  · change _ + _ = _ + rx.readout.rxFrameDonePulse.toNat
    omega

end Announce

section Replay

variable {rx : GmiiCdcRx addrWidth ramStyle}
variable {packet : PacketQueue RxWord (2 ^ addrWidth) ramStyle.staged}
variable {commits : List (List RxByte × Bool)}
variable {delivered : Envelopes RxByte}
variable {counted retired : Nat} {part : List RxByte}

theorem replaying_reset (mem : BitVec addrWidth → RxWord) (headQ : RxWord) :
    Replaying (reset mem headQ : GmiiCdcRx addrWidth ramStyle) .empty []
      .unseen 0 0 [] where
  popped := rfl
  rdEn := rfl
  reading := by simp [reset]
  idle := fun _ => rfl
  held := .between rfl rfl

/-- The reader stands before the end of the frame it reads. -/
theorem Replaying.popped_lt (hread : Replaying rx packet commits delivered
      counted retired part)
    (hframes : packet.frames = commits.map frameWords)
    (hreading : rx.rxReading = true) :
    packet.queue.popped < endOf packet.frames (retired + 1) := by
  obtain ⟨-, -, data, err, hcommit, hpart⟩ := hread.reading hreading
  have hframe : packet.frames[retired]? = some (frameWords (data, err)) := by
    simp [hframes, hcommit]
  have hlength := hpart.length_le
  rw [endOf_add_one hframe, hread.popped, frameWords, List.length_append,
    List.length_map, List.length_singleton]
  dsimp only
  omega

/-- The frames not yet retired have their EOF words in the FIFO. -/
theorem Replaying.frames_bound (hread : Replaying rx packet commits delivered
      counted retired part)
    (hframes : packet.frames = commits.map frameWords)
    (hretired : retired ≤ packet.frames.length)
    (hcounted : counted ≤ packet.frames.length) :
    packet.frames.length ≤ retired + 2 ^ addrWidth + 1 := by
  have hlength := packet.queue.length_le_popped
  have hstage := Bool.toNat_le ramStyle.staged
  have hwords := packet.endOf_le_length packet.frames.length
  cases hreading : rx.rxReading with
  | true =>
      have hlt := hread.popped_lt hframes hreading
      have hmore := (hread.reading hreading).1
      have hleft := sub_le_endOf_sub packet.frames_ne
        (show retired + 1 ≤ packet.frames.length by omega) le_rfl
      omega
  | false =>
      have hpopped := hread.popped
      rw [hread.idle hreading, List.length_nil] at hpopped
      have hleft := sub_le_endOf_sub packet.frames_ne hretired le_rfl
      omega

/-- The word the reader sees is the next one of its frame. -/
theorem Replaying.head_word (hread : Replaying rx packet commits delivered
      counted retired part)
    (hframes : packet.frames = commits.map frameWords)
    (hfifo : rx.rxFifo.Refines packet.queue)
    (hdrained : ¬ packet.queue.Drained) {data : List RxByte} {err : Bool}
    (hcommit : commits[retired]? = some (data, err)) (hpart : part <+: data) :
    (frameWords (data, err))[part.length]? = some rx.rxFifo.rdData := by
  have hframe : packet.frames[retired]? = some (frameWords (data, err)) := by
    simp [hframes, hcommit]
  have hlt : part.length < (frameWords (data, err)).length := by
    have hlength := hpart.length_le
    simp only [frameWords, List.length_append, List.length_map,
      List.length_singleton]
    omega
  rw [← packet.words_getElem? hframe hlt, ← hread.popped]
  exact hfifo.rdData_eq hdrained

/-- Nothing is shown while the hold stays empty. -/
theorem Held.quiet {replayed : List (List RxByte)}
    (hheld : Held rx delivered replayed [])
    {next : GmiiCdcRx addrWidth ramStyle} (hvalid : next.rxPendValid = rx.rxPendValid)
    (hout : next.gmiiRxDvOut = false) :
    Held next (delivered.observe next.gmiiRxOut) replayed [] := by
  have hnone : next.gmiiRxOut = none := by simp [gmiiRxOut, hout]
  generalize hpart : ([] : List RxByte) = part at hheld
  cases hheld with
  | between hempty hall =>
      refine .between (hvalid.trans hempty) ?_
      rw [hnone, Envelopes.all_of_idle (by simp), Envelopes.observe_none_closed,
        hall]
  | within front => simp at hpart

/-- A data word enters the hold; the byte in it goes out. -/
theorem Held.data {replayed : List (List RxByte)}
    (hheld : Held rx delivered replayed part)
    {next : GmiiCdcRx addrWidth ramStyle} {byte : RxByte}
    (hvalid : next.rxPendValid = true)
    (hbyte : (next.rxPendData, next.rxPendEr) = byte)
    (hout : next.gmiiRxOut =
      if rx.rxPendValid then some (rx.rxPendData, rx.rxPendEr) else none) :
    Held next (delivered.observe next.gmiiRxOut) replayed (part ++ [byte]) := by
  subst hbyte
  cases hheld with
  | between hempty hall =>
      have hnone : next.gmiiRxOut = none := by simp [hout, hempty]
      refine .within [] hvalid ?_ ?_ <;> simp [hnone, hall]
  | within front hfull hclosed hopened =>
      have hsome : next.gmiiRxOut = some (rx.rxPendData, rx.rxPendEr) := by
        simp [hout, hfull]
      refine .within _ hvalid ?_ ?_ <;> simp [hsome, hclosed, hopened]

/-- The EOF word releases the last byte, marked if the word is. -/
theorem Held.eof {replayed : List (List RxByte)}
    (hheld : Held rx delivered replayed part)
    {next : GmiiCdcRx addrWidth ramStyle} {err : Bool}
    (hvalid : next.rxPendValid = false)
    (hout : next.gmiiRxOut =
      if rx.rxPendValid then some (rx.rxPendData, rx.rxPendEr || err)
      else none) :
    Held next (delivered.observe next.gmiiRxOut)
      (replayed ++ shown [replay (part, err)]) [] := by
  cases hheld with
  | between hempty hall =>
      have hnone : next.gmiiRxOut = none := by simp [hout, hempty]
      refine .between hvalid ?_
      rw [hnone, Envelopes.all_of_idle (by simp), Envelopes.observe_none_closed,
        hall]
      simp [replay]
  | within front hfull hclosed hopened =>
      have hsome : next.gmiiRxOut =
          some (rx.rxPendData, rx.rxPendEr || err) := by simp [hout, hfull]
      refine .between hvalid ?_
      rw [hsome, Envelopes.all_of_busy (by simp)]
      simp [replay, shown, hclosed, hopened]

theorem shown_take_add_one {data : List RxByte} {err : Bool}
    (hcommit : commits[retired]? = some (data, err)) :
    shown ((commits.take (retired + 1)).map replay) =
      shown ((commits.take retired).map replay) ++ shown [replay (data, err)] := by
  simp [List.take_add_one, hcommit]

end Replay

section Step

variable {rx : GmiiCdcRx addrWidth ramStyle}
variable {packet : PacketQueue RxWord (2 ^ addrWidth) ramStyle.staged}
variable {commits : List (List RxByte × Bool)}
variable {delivered : Envelopes RxByte}
variable {counted retired : Nat} {part : List RxByte}

/-- The outputs of an edge at which the readout does not see a word. -/
theorem readout_quiet (hidle : rx.rxReading = false) :
    rx.readout =
      let start := rx.rxFrameReady && !rx.rxFifo.rdEmpty
      { rx.toRxReadout with
        rxRdEn := start
        rxReading := start
        gmiiRxDvOut := false
        gmiiRxErOut := false
        rxFrameDonePulse := false } := by
  cases hstart : rx.rxFrameReady && !rx.rxFifo.rdEmpty <;>
    simp [readout, hidle, hstart]

/-- Between frames: the next announced frame is started once its first word
shows. -/
theorem Replaying.wait (hread : Replaying rx packet commits delivered
      counted retired part)
    (hframes : packet.frames = commits.map frameWords)
    (hfifo : rx.rxFifo.Refines packet.queue)
    (hann : Announced rx packet counted retired)
    (hidle : rx.rxReading = false) (skew : Skew) (late : Bool) :
    rx.readout.rxFrameDonePulse = false ∧
      Replaying (rx.sysEdge skew late) (packet.rdEdge rx.rxRdEn skew late)
        commits (delivered.observe (rx.sysEdge skew late).gmiiRxOut)
        (counted + rx.rxFrameAvailD.toNat) retired part := by
  have hout := readout_quiet hidle
  have hpart := hread.idle hidle
  have hrdEn : rx.rxRdEn = false := hread.rdEn.trans hidle
  subst hpart
  refine ⟨by rw [hout], ?_, ?_, ?_, fun _ => rfl, ?_⟩
  · rw [PacketQueue.rdEdge_queue, CrossingQueue.rdEdge_popped, hrdEn]
    exact hread.popped
  · change rx.readout.rxRdEn = rx.readout.rxReading
    rw [hout]
  · intro hstart
    change rx.readout.rxReading = true at hstart
    rw [hout] at hstart
    obtain ⟨hready, hempty⟩ := (Bool.and_eq_true _ _).mp hstart
    have hlt := hann.ready_iff.mp hready
    have hdrained : ¬ packet.queue.Drained := by
      simpa [hfifo.rdEmpty_eq] using hempty
    have hcommit : retired < commits.length := by
      have hle := hann.counted_le
      rw [hframes, List.length_map] at hle
      omega
    refine ⟨by omega, ?_, _, _, List.getElem?_eq_getElem hcommit,
      List.nil_prefix⟩
    rw [PacketQueue.rdEdge_queue, hrdEn]
    exact packet.queue.rdEdge_not_drained_of_held skew hdrained
  · refine hread.held.quiet ?_ ?_
    · change rx.readout.rxPendValid = rx.rxPendValid
      rw [hout]
    · change rx.readout.gmiiRxDvOut = false
      rw [hout]

/-- Within a frame: a data word moves into the hold. -/
theorem Replaying.advance (hread : Replaying rx packet commits delivered
      counted retired part)
    (hframes : packet.frames = commits.map frameWords)
    (hfifo : rx.rxFifo.Refines packet.queue)
    (hann : Announced rx packet counted retired)
    (hreading : rx.rxReading = true) {data : List RxByte} {err : Bool}
    (hcommit : commits[retired]? = some (data, err)) {byte : RxByte}
    (hpart : part ++ [byte] <+: data) (skew : Skew) (late : Bool) :
    rx.readout.rxFrameDonePulse = false ∧
      Replaying (rx.sysEdge skew late) (packet.rdEdge rx.rxRdEn skew late)
        commits (delivered.observe (rx.sysEdge skew late).gmiiRxOut)
        (counted + rx.rxFrameAvailD.toNat) retired (part ++ [byte]) := by
  obtain ⟨hlt, hdrained, -⟩ := hread.reading hreading
  have hrdEn : rx.rxRdEn = true := hread.rdEn.trans hreading
  have hempty : rx.rxFifo.rdEmpty = false := by
    simp [hfifo.rdEmpty_eq, hdrained]
  have hword : rx.rxFifo.rdData = dataWord byte := by
    have hhead := hread.head_word hframes hfifo hdrained hcommit
      ((List.prefix_append _ _).trans hpart)
    obtain ⟨rest, rfl⟩ := hpart
    simpa [frameWords] using hhead.symm
  have hpops : packet.queue.pops true = true :=
    packet.queue.pops_of_not_drained true hdrained
  have hout : rx.readout =
      { rxFrameDonePulse := false
        rxReading := true
        rxPendData := byte.1
        rxPendEr := byte.2
        rxPendValid := true
        rxRdEn := true
        gmiiRxdOut := if rx.rxPendValid then rx.rxPendData else rx.gmiiRxdOut
        gmiiRxDvOut := rx.rxPendValid
        gmiiRxErOut := rx.rxPendValid && rx.rxPendEr } := by
    cases hvalid : rx.rxPendValid <;>
      simp [readout, hreading, hempty, hword, dataWord, hvalid]
  have hpopped : (packet.rdEdge rx.rxRdEn skew late).queue.popped =
      endOf packet.frames retired + (part ++ [byte]).length := by
    rw [PacketQueue.rdEdge_queue, CrossingQueue.rdEdge_popped, hrdEn, hpops,
      hread.popped, List.length_append, List.length_singleton]
    rfl
  refine ⟨by rw [hout], hpopped, ?_, ?_, ?_, ?_⟩
  · change rx.readout.rxRdEn = rx.readout.rxReading
    rw [hout]
  · intro _
    refine ⟨by omega, ?_, data, err, hcommit, hpart⟩
    have hframe : packet.frames[retired]? = some (frameWords (data, err)) := by
      simp [hframes, hcommit]
    have hend := endOf_add_one hframe
    have hlength := hpart.length_le
    have hvisible : endOf packet.frames (retired + 1) ≤
        packet.queue.written.second :=
      (endOf_mono hlt).trans hann.counted_visible
    have hnow := hread.popped
    rw [PacketQueue.rdEdge_queue, hrdEn]
    apply packet.queue.rdEdge_not_drained_of_visible skew true hdrained
    simp only [frameWords, List.length_append, List.length_map,
      List.length_singleton] at hend hlength
    omega
  · intro hidle
    change rx.readout.rxReading = false at hidle
    simp [hout] at hidle
  · refine hread.held.data ?_ ?_ ?_
    · change rx.readout.rxPendValid = true
      rw [hout]
    · change (rx.readout.rxPendData, rx.readout.rxPendEr) = byte
      rw [hout]
    · cases hvalid : rx.rxPendValid <;>
        simp [gmiiRxOut, sysEdge, hout, hvalid]

/-- At the end of a frame the readout goes on with the next announced frame,
or stops in front of it. -/
theorem Replaying.finish (haddr : 2 ≤ addrWidth)
    (hread : Replaying rx packet commits delivered counted retired part)
    (hframes : packet.frames = commits.map frameWords)
    (hfifo : rx.rxFifo.Refines packet.queue)
    (hann : Announced rx packet counted retired)
    (hreading : rx.rxReading = true) {err : Bool}
    (hcommit : commits[retired]? = some (part, err)) (skew : Skew)
    (late : Bool) :
    rx.readout.rxFrameDonePulse = true ∧
      Replaying (rx.sysEdge skew late) (packet.rdEdge rx.rxRdEn skew late)
        commits (delivered.observe (rx.sysEdge skew late).gmiiRxOut)
        (counted + rx.rxFrameAvailD.toNat) (retired + 1) [] := by
  obtain ⟨hlt, hdrained, -⟩ := hread.reading hreading
  have hrdEn : rx.rxRdEn = true := hread.rdEn.trans hreading
  have hempty : rx.rxFifo.rdEmpty = false := by
    simp [hfifo.rdEmpty_eq, hdrained]
  have hword : rx.rxFifo.rdData = ⟨true, err, 0⟩ := by
    have hhead := hread.head_word hframes hfifo hdrained hcommit
      List.prefix_rfl
    simpa [frameWords] using hhead.symm
  have hpops : packet.queue.pops true = true :=
    packet.queue.pops_of_not_drained true hdrained
  have hout : rx.readout =
      { rxFrameDonePulse := true
        rxReading := rx.rxNextReady
        rxPendData := rx.rxPendData
        rxPendEr := rx.rxPendEr
        rxPendValid := false
        rxRdEn := rx.rxNextReady
        gmiiRxdOut := if rx.rxPendValid then rx.rxPendData else rx.gmiiRxdOut
        gmiiRxDvOut := rx.rxPendValid
        gmiiRxErOut := rx.rxPendValid && (rx.rxPendEr || err) } := by
    cases hvalid : rx.rxPendValid <;>
      simp [readout, hreading, hempty, hword, hvalid]
  have hframe : packet.frames[retired]? = some (frameWords (part, err)) := by
    simp [hframes, hcommit]
  have hend := endOf_add_one hframe
  have hnow := hread.popped
  have hlast : packet.queue.popped + 1 = endOf packet.frames (retired + 1) := by
    simp only [frameWords, List.length_append, List.length_map,
      List.length_singleton] at hend
    omega
  refine ⟨by rw [hout], ?_, ?_, ?_, fun _ => rfl, ?_⟩
  · rw [PacketQueue.rdEdge_queue, CrossingQueue.rdEdge_popped, hrdEn, hpops]
    exact hlast
  · change rx.readout.rxRdEn = rx.readout.rxReading
    rw [hout]
  · intro hnext
    change rx.readout.rxReading = true at hnext
    rw [hout] at hnext
    have hmore := (hann.nextReady_iff haddr).mp hnext
    have hindex : retired + 1 < commits.length := by
      have hle := hann.counted_le
      rw [hframes, List.length_map] at hle
      omega
    refine ⟨by omega, ?_, _, _, List.getElem?_eq_getElem hindex,
      List.nil_prefix⟩
    have hgap := sub_le_endOf_sub packet.frames_ne
      (show retired + 1 ≤ retired + 1 + 1 from Nat.le_succ _)
      ((Nat.succ_le_of_lt hmore).trans hann.counted_le)
    have hvisible : endOf packet.frames (retired + 1 + 1) ≤
        packet.queue.written.second :=
      (endOf_mono hmore).trans hann.counted_visible
    rw [PacketQueue.rdEdge_queue, hrdEn]
    apply packet.queue.rdEdge_not_drained_of_visible skew true hdrained
    omega
  · rw [shown_take_add_one hcommit]
    refine hread.held.eof ?_ ?_
    · change rx.readout.rxPendValid = false
      rw [hout]
    · cases hvalid : rx.rxPendValid <;>
        simp [gmiiRxOut, sysEdge, hout, hvalid]

theorem prefix_eq_or_concat {data : List RxByte} (hpart : part <+: data) :
    part = data ∨ ∃ byte, part ++ [byte] <+: data := by
  obtain ⟨rest, rfl⟩ := hpart
  cases rest with
  | nil => exact Or.inl (List.append_nil _).symm
  | cons byte more =>
      exact Or.inr ⟨byte, more, by simp⟩

/-- One `sys_clk` edge of the readout. -/
theorem Replaying.sysEdge (haddr : 2 ≤ addrWidth)
    (hread : Replaying rx packet commits delivered counted retired part)
    (hframes : packet.frames = commits.map frameWords)
    (hfifo : rx.rxFifo.Refines packet.queue)
    (hann : Announced rx packet counted retired) (skew : Skew) (late : Bool) :
    retired + rx.readout.rxFrameDonePulse.toNat ≤ counted ∧
      ∃ part', Replaying (rx.sysEdge skew late)
        (packet.rdEdge rx.rxRdEn skew late) commits
        (delivered.observe (rx.sysEdge skew late).gmiiRxOut)
        (counted + rx.rxFrameAvailD.toNat)
        (retired + rx.readout.rxFrameDonePulse.toNat) part' := by
  have hretired := hann.retired_le
  cases hreading : rx.rxReading with
  | false =>
      obtain ⟨hdone, hnext⟩ :=
        hread.wait hframes hfifo hann hreading skew late
      rw [hdone]
      exact ⟨hretired, part, hnext⟩
  | true =>
      obtain ⟨hlt, -, data, err, hcommit, hpart⟩ := hread.reading hreading
      rcases prefix_eq_or_concat hpart with rfl | ⟨byte, hmore⟩
      · obtain ⟨hdone, hnext⟩ :=
          hread.finish haddr hframes hfifo hann hreading hcommit skew late
        rw [hdone]
        exact ⟨hlt, [], hnext⟩
      · obtain ⟨hdone, hnext⟩ := hread.advance hframes hfifo hann hreading
          hcommit hmore skew late
        rw [hdone]
        exact ⟨hretired, _, hnext⟩

end Step

end GmiiCdcRx

end EmacZero
