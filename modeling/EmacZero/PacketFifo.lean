/-
A store-and-forward buffer between two clocks: an `async_fifo` of words and the
count of the frames committed to it.  The transmit paths of `mii_tx_saf` and
`gmii_cdc` keep two of them each.
-/
import EmacZero.AsyncFifoOrder
import EmacZero.FrameCount
import EmacZero.PacketQueue

namespace EmacZero

universe u

variable {α : Type u} {depth addrWidth retired taken : Nat} {staged : Bool}
variable {ramStyle : RamStyle}

structure PacketFifo (α : Type u) (addrWidth : Nat) (ramStyle : RamStyle) where
  fifo : AsyncFifo α addrWidth ramStyle
  count : FrameCount (addrWidth + 1)

namespace PacketFifo

def reset (mem : BitVec addrWidth → α) (headQ : α) :
    PacketFifo α addrWidth ramStyle :=
  ⟨.reset mem headQ, .reset⟩

variable (packet : PacketFifo α addrWidth ramStyle)

def wrFull : Bool := packet.fifo.wrFull

def rdData : α := packet.fifo.rdData

def rdEmpty : Bool := packet.fifo.rdEmpty

/-- A committed frame is left, as far as the reader's clock has seen. -/
def pending : Bool := packet.count.pending

/-- A rising edge of the writer's clock; `commit` marks the last word of a
frame. -/
def wrEdge (wrEn : Bool) (wrData : α) (commit : Bool) (skew : Skew) :
    PacketFifo α addrWidth ramStyle where
  fifo := packet.fifo.wrEdge wrEn wrData skew
  count := packet.count.wrEdge (wrEn && !packet.wrFull && commit)

/-- A rising edge of the reader's clock; `done` retires a frame. -/
def rdEdge (rdEn done : Bool) (skew : Skew) (late : Bool) :
    PacketFifo α addrWidth ramStyle where
  fifo := packet.fifo.rdEdge rdEn skew
  count := packet.count.rdEdge done late

end PacketFifo

namespace PacketQueue

/-- The reader is done with `retired` frames and has consumed `taken` words of
the next one. -/
structure ReadTo (packet : PacketQueue α depth staged) (retired taken : Nat) :
    Prop where
  popped : packet.queue.popped = endOf packet.frames retired + taken
  retired_le : retired ≤ packet.seen3
  taken_le :
    endOf packet.frames retired + taken ≤ endOf packet.frames (retired + 1)

/-- The reader may read the next frame to its end. -/
structure Ready (packet : PacketQueue α depth staged) (retired : Nat) : Prop where
  seen : retired < packet.seen3
  visible : endOf packet.frames (retired + 1) ≤ packet.queue.written.second

section Reading

variable {packet : PacketQueue α depth staged} {frame : List α}

theorem readTo_empty : (empty : PacketQueue α depth staged).ReadTo 0 0 :=
  ⟨rfl, le_rfl, le_rfl⟩

theorem Ready.exists_frame (hready : packet.Ready retired) :
    ∃ frame, packet.frames[retired]? = some frame ∧ frame ≠ [] := by
  have hlt := hready.seen.trans_le packet.seen3_le_frames
  exact ⟨packet.frames[retired], List.getElem?_eq_getElem hlt,
    packet.frames_ne _ (List.getElem_mem hlt)⟩

/-- A frame that the reader may read is not moved by later ones. -/
theorem Ready.wrEdge (hready : packet.Ready retired) (offer : Bool) (word : α)
    (last : Bool) (skew : Skew) :
    (packet.wrEdge offer word last skew).Ready retired := by
  have hle : retired + 1 ≤ packet.frames.length :=
    Nat.succ_le_of_lt (hready.seen.trans_le packet.seen3_le_frames)
  refine ⟨?_, ?_⟩
  · rw [wrEdge_seen3]
    exact hready.seen
  · rw [endOf_wrEdge _ _ _ _ _ hle, wrEdge_queue,
      CrossingQueue.wrEdge_written_second]
    exact hready.visible

/-- What the reader's count shows may be read one edge later. -/
theorem ready_rdEdge (hseen : retired < packet.seen3) (ready : Bool)
    (skew : Skew) (late : Bool) :
    (packet.rdEdge ready skew late).Ready retired :=
  ⟨hseen.trans_le packet.seen3_le,
    (endOf_mono (Nat.succ_le_of_lt hseen)).trans
      (packet.endOf_seen3_le skew ready late)⟩

theorem endOf_le_wrEdge (packet : PacketQueue α depth staged) (offer : Bool)
    (word : α) (last : Bool) (skew : Skew) (count : Nat) :
    endOf packet.frames count ≤
      endOf (packet.wrEdge offer word last skew).frames count := by
  obtain ⟨more, hmore⟩ := packet.wrEdge_frames_prefix word skew offer last
  rw [← hmore, endOf, endOf, List.take_append, List.flatten_append,
    List.length_append]
  exact Nat.le_add_right _ _

theorem ReadTo.wrEdge (hread : packet.ReadTo retired taken) (offer : Bool)
    (word : α) (last : Bool) (skew : Skew) :
    (packet.wrEdge offer word last skew).ReadTo retired taken := by
  have hstart := packet.endOf_wrEdge word skew offer last
    (hread.retired_le.trans packet.seen3_le_frames)
  refine ⟨?_, ?_, ?_⟩
  · rw [wrEdge_queue, CrossingQueue.wrEdge_popped, hstart]
    exact hread.popped
  · rw [wrEdge_seen3]
    exact hread.retired_le
  · rw [hstart]
    exact hread.taken_le.trans
      (packet.endOf_le_wrEdge offer word last skew (retired + 1))

theorem ReadTo.rdEdge_idle (hread : packet.ReadTo retired taken) (skew : Skew)
    (late : Bool) : (packet.rdEdge false skew late).ReadTo retired taken :=
  ⟨hread.popped, hread.retired_le.trans packet.seen3_le, hread.taken_le⟩

/-- A word of the frame is consumed. -/
theorem ReadTo.rdEdge_pop (hread : packet.ReadTo retired taken)
    (hdrained : ¬ packet.queue.Drained)
    (hframe : packet.frames[retired]? = some frame)
    (htaken : taken < frame.length) (skew : Skew) (late : Bool) :
    (packet.rdEdge true skew late).ReadTo retired (taken + 1) := by
  refine ⟨?_, hread.retired_le.trans packet.seen3_le, ?_⟩
  · rw [rdEdge_queue, CrossingQueue.rdEdge_popped,
      CrossingQueue.pops_of_not_drained _ _ hdrained, hread.popped]
    rfl
  · rw [rdEdge_frames, endOf_add_one hframe]
    omega

/-- The reader is done with a frame that it has read to its end. -/
theorem ReadTo.retire (hread : packet.ReadTo retired taken)
    (hready : packet.Ready retired)
    (hframe : packet.frames[retired]? = some frame)
    (hall : taken = frame.length) : packet.ReadTo (retired + 1) 0 := by
  refine ⟨?_, hready.seen, ?_⟩
  · rw [hread.popped, endOf_add_one hframe, hall]
    rfl
  · exact endOf_mono (Nat.le_succ _)

theorem ReadTo.popped_le (hread : packet.ReadTo retired taken) :
    packet.queue.popped ≤ packet.frames.flatten.length := by
  rw [hread.popped]
  exact hread.taken_le.trans (endOf_le _ _)

/-- Frames do not outnumber the words that fit, but for the one being read. -/
theorem ReadTo.length_le (hread : packet.ReadTo retired taken) :
    packet.frames.length ≤ retired + 1 + depth + staged.toNat := by
  rcases Nat.lt_or_ge retired packet.frames.length with hlt | hge
  · have hnext : retired + 1 ≤ packet.frames.length := hlt
    have hwords := sub_le_endOf_sub packet.frames_ne hnext le_rfl
    have hall := packet.endOf_le_length packet.frames.length
    have hroom := packet.queue.length_le_popped
    have hpopped := hread.popped
    have htaken := hread.taken_le
    omega
  · omega

/-- The first word of the frame not yet consumed heads the queue. -/
theorem ReadTo.words_popped (hread : packet.ReadTo retired taken)
    (hframe : packet.frames[retired]? = some frame)
    (htaken : taken < frame.length) :
    packet.queue.words[packet.queue.popped]? = frame[taken]? := by
  rw [hread.popped, packet.words_getElem? hframe htaken]

end Reading

end PacketQueue

namespace PacketFifo

/-- The registers of the buffer, told from a queue of framed words of which the
reader is done with `retired`. -/
structure Follows (packet : PacketFifo α addrWidth ramStyle)
    (queue : PacketQueue α (2 ^ addrWidth) ramStyle.staged) (retired : Nat) :
    Prop where
  fifo : packet.fifo.Refines queue.queue
  count : packet.count.Tracks queue.toSeenCount retired

section Edges

variable {packet : PacketFifo α addrWidth ramStyle}
variable {queue : PacketQueue α (2 ^ addrWidth) ramStyle.staged}

theorem follows_reset (mem : BitVec addrWidth → α) (headQ : α) :
    (reset mem headQ : PacketFifo α addrWidth ramStyle).Follows .empty 0 :=
  ⟨AsyncFifo.refines_reset mem headQ, FrameCount.tracks_reset⟩

theorem Follows.accepts_eq (haddr : 1 ≤ addrWidth)
    (hfollows : packet.Follows queue retired) (offer : Bool) :
    (offer && !packet.wrFull) = queue.accepts offer := by
  rw [wrFull, hfollows.fifo.wrFull_eq haddr, PacketQueue.accepts]

theorem Follows.wrEdge (haddr : 1 ≤ addrWidth)
    (hfollows : packet.Follows queue retired) (wrEn : Bool) (wrData : α)
    (commit : Bool) (skew : Skew) :
    (packet.wrEdge wrEn wrData commit skew).Follows
      (queue.wrEdge wrEn wrData commit skew) retired := by
  refine ⟨?_, ?_⟩
  · rw [PacketQueue.wrEdge_queue]
    exact hfollows.fifo.wrEdge haddr wrEn wrData skew
  · rw [PacketFifo.wrEdge, hfollows.accepts_eq haddr]
    cases haccept : queue.accepts wrEn && commit with
    | true =>
        simp only [Bool.and_eq_true] at haccept
        obtain ⟨haccept, rfl⟩ := haccept
        simpa [PacketQueue.wrEdge, haccept] using hfollows.count.commit
    | false =>
        have hsame : (queue.wrEdge wrEn wrData commit skew).toSeenCount =
            queue.toSeenCount := by
          simp only [PacketQueue.wrEdge]
          split
          · split <;> simp_all
          · rfl
        rw [hsame]
        exact hfollows.count

theorem Follows.rdEdge (hfollows : packet.Follows queue retired)
    (rdEn done : Bool) (skew : Skew) (late : Bool) :
    (packet.rdEdge rdEn done skew late).Follows (queue.rdEdge rdEn skew late)
      (retired + done.toNat) :=
  ⟨hfollows.fifo.rdEdge rdEn skew, hfollows.count.rdEdge done late⟩

/-- The counters are wide enough: they never come a whole turn apart. -/
theorem length_lt_turn (hdepth : ramStyle.staged.toNat + 1 < 2 ^ addrWidth)
    (hread : queue.ReadTo retired taken) :
    queue.frames.length < retired + 2 ^ (addrWidth + 1) := by
  have hlength := hread.length_le
  rw [pow_succ]
  omega

theorem Follows.pending_iff (hdepth : ramStyle.staged.toNat + 1 < 2 ^ addrWidth)
    (hfollows : packet.Follows queue retired)
    (hread : queue.ReadTo retired taken) :
    packet.pending = true ↔ retired < queue.seen3 :=
  hfollows.count.pending_iff hread.retired_le
    (queue.seen3_le_frames.trans_lt (length_lt_turn hdepth hread))

theorem Follows.rdEmpty_eq (hfollows : packet.Follows queue retired) :
    packet.rdEmpty = decide queue.queue.Drained :=
  hfollows.fifo.rdEmpty_eq

/-- The word on the read port is the first one of the frame not yet consumed. -/
theorem Follows.rdData_eq (hfollows : packet.Follows queue retired)
    (hread : queue.ReadTo retired taken) (hdrained : ¬ queue.queue.Drained)
    {frame : List α} (hframe : queue.frames[retired]? = some frame)
    (htaken : taken < frame.length) : frame[taken]? = some packet.rdData := by
  rw [← hread.words_popped hframe htaken]
  exact hfollows.fifo.rdData_eq hdrained

/-- Without an output stage a visible word is on the read port. -/
theorem not_drained_of_visible
    {queue : PacketQueue α depth RamStyle.distributed.staged} {frame : List α}
    (hready : queue.Ready retired) (hread : queue.ReadTo retired taken)
    (hframe : queue.frames[retired]? = some frame)
    (htaken : taken < frame.length) : ¬ queue.queue.Drained := by
  have hvisible := hready.visible
  rw [endOf_add_one hframe] at hvisible
  have hlt : queue.queue.popped < queue.queue.written.second := by
    rw [hread.popped]
    omega
  exact hlt.ne

end Edges

end PacketFifo

end EmacZero
