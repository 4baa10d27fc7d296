/-
A queue between two clocks whose words come in frames, and the count of the
frames written whole, which crosses to the reader through three flip-flops of
its own.  A count the reader has seen stands for frames whose words it can
reach.
-/
import EmacZero.CrossingQueue

namespace EmacZero

universe u

variable {α : Type u} {depth : Nat} {staged : Bool}

/-- Where the first `count` frames end in the stream of words. -/
def endOf (frames : List (List α)) (count : Nat) : Nat :=
  (frames.take count).flatten.length

section Ends

variable {frames : List (List α)} {count other : Nat}

theorem endOf_add_one {frame : List α} (hframe : frames[count]? = some frame) :
    endOf frames (count + 1) = endOf frames count + frame.length := by
  simp [endOf, List.take_add_one, hframe]

theorem endOf_all (frames : List (List α)) :
    endOf frames frames.length = frames.flatten.length := by
  simp [endOf]

theorem endOf_mono (hle : count ≤ other) :
    endOf frames count ≤ endOf frames other := by
  obtain ⟨gap, rfl⟩ := Nat.exists_eq_add_of_le hle
  rw [endOf, endOf, List.take_add, List.flatten_append, List.length_append]
  exact Nat.le_add_right _ _

theorem endOf_le (frames : List (List α)) (count : Nat) :
    endOf frames count ≤ frames.flatten.length := by
  rcases Nat.le_total count frames.length with hle | hge
  · exact (endOf_mono hle).trans_eq (endOf_all frames)
  · rw [endOf, List.take_of_length_le hge]

theorem endOf_append (more : List (List α)) (hle : count ≤ frames.length) :
    endOf (frames ++ more) count = endOf frames count := by
  rw [endOf, List.take_append_of_le_length hle, endOf]

/-- Every frame has a word, so frames do not outnumber their words. -/
theorem sub_le_endOf_sub (hne : ∀ frame ∈ frames, frame ≠ [])
    (hle : count ≤ other) (hother : other ≤ frames.length) :
    other + endOf frames count ≤ count + endOf frames other := by
  obtain ⟨gap, rfl⟩ := Nat.exists_eq_add_of_le hle
  induction gap with
  | zero => exact le_rfl
  | succ gap ih =>
      have hprev := ih (Nat.le_add_right _ _) (Nat.le_of_succ_le hother)
      have hlt : count + gap < frames.length := hother
      have hframe := List.getElem?_eq_getElem hlt
      have hpos := List.length_pos_iff.mpr
        (hne _ (List.getElem_mem hlt))
      rw [← Nat.add_assoc, endOf_add_one hframe]
      omega

/-- The words of one frame, found in the stream. -/
theorem getElem?_endOf_add {frame : List α} (hframe : frames[count]? = some frame)
    (rest : List α) {offset : Nat} (hoffset : offset < frame.length) :
    (frames.flatten ++ rest)[endOf frames count + offset]? = frame[offset]? := by
  have hsplit : frames = frames.take count ++ frame :: frames.drop (count + 1) := by
    have hlt := (List.getElem?_eq_some_iff.mp hframe).1
    rw [← (List.getElem?_eq_some_iff.mp hframe).2, List.cons_getElem_drop_succ,
      List.take_append_drop]
  have hflat : frames.flatten ++ rest = (frames.take count).flatten ++
      (frame ++ ((frames.drop (count + 1)).flatten ++ rest)) := by
    conv_lhs => rw [hsplit]
    simp
  rw [hflat, endOf, List.getElem?_append_right (Nat.le_add_right _ _),
    Nat.add_sub_cancel_left, List.getElem?_append_left hoffset]

end Ends

/-- A queue of framed words with the count of whole frames on its way to the
reader. -/
structure PacketQueue (α : Type u) (depth : Nat) (staged : Bool)
    extends SeenCount where
  queue : CrossingQueue α depth staged
  frames : List (List α)
  opened : List α
  words_eq : queue.words = frames.flatten ++ opened
  frames_ne : ∀ frame ∈ frames, frame ≠ []
  committed_eq : committed.now = frames.length
  seen1_written : endOf frames seen1 ≤ queue.written.source.before
  seen2_written : endOf frames seen2 ≤ queue.written.first.now
  seen3_written : endOf frames seen3 ≤ queue.written.first.before

namespace PacketQueue

def empty : PacketQueue α depth staged where
  toSeenCount := .zero
  queue := .empty
  frames := []
  opened := []
  words_eq := rfl
  frames_ne := fun _ hframe => absurd hframe List.not_mem_nil
  committed_eq := rfl
  seen1_written := le_rfl
  seen2_written := le_rfl
  seen3_written := le_rfl

section Reach

variable (packet : PacketQueue α depth staged)

theorem seen1_le_frames : packet.seen1 ≤ packet.frames.length :=
  packet.seen1_le.trans (packet.committed_grows.trans_eq packet.committed_eq)

theorem seen2_le_frames : packet.seen2 ≤ packet.frames.length :=
  packet.seen2_le.trans packet.seen1_le_frames

theorem seen3_le_frames : packet.seen3 ≤ packet.frames.length :=
  packet.seen3_le.trans packet.seen2_le_frames

theorem endOf_le_length (count : Nat) :
    endOf packet.frames count ≤ packet.queue.words.length := by
  rw [packet.words_eq, List.length_append]
  exact (endOf_le _ _).trans (Nat.le_add_right _ _)

/-- The words of a frame stand in the queue where the frames before it end. -/
theorem words_getElem? {count : Nat} {frame : List α}
    (hframe : packet.frames[count]? = some frame) {offset : Nat}
    (hoffset : offset < frame.length) :
    packet.queue.words[endOf packet.frames count + offset]? = frame[offset]? := by
  rw [packet.words_eq, getElem?_endOf_add hframe _ hoffset]

end Reach

/-- Which edges of the writer's clock put a word into the queue. -/
def accepts (packet : PacketQueue α depth staged) (offer : Bool) : Bool :=
  offer && !decide packet.queue.Full

/-- An edge of the writer's clock.  A frame is counted at the edge that accepts
its last word. -/
def wrEdge (packet : PacketQueue α depth staged) (offer : Bool) (word : α)
    (last : Bool) (skew : Skew) : PacketQueue α depth staged :=
  if haccept : packet.accepts offer = true then
    have hwords : (packet.queue.wrEdge offer word skew).words =
        packet.queue.words ++ [word] := by
      rw [CrossingQueue.wrEdge_words, if_pos (by simpa [accepts] using haccept)]
    have hwritten : (packet.queue.wrEdge offer word skew).written =
        packet.queue.written.advance := by
      rw [CrossingQueue.wrEdge_written, if_pos (by simpa [accepts] using haccept)]
    have hgrows := packet.queue.written.source_grows
    if last then
      { toSeenCount := packet.toSeenCount.advance
        queue := packet.queue.wrEdge offer word skew
        frames := packet.frames ++ [packet.opened ++ [word]]
        opened := []
        words_eq := by simp [hwords, packet.words_eq]
        frames_ne := by
          intro frame hframe
          rcases List.mem_append.mp hframe with hold | hnew
          · exact packet.frames_ne frame hold
          · simp [List.mem_singleton.mp hnew]
        committed_eq := by simp [packet.committed_eq]
        seen1_written := by
          rw [SeenCount.advance_seen1,
            endOf_append _ packet.seen1_le_frames, hwritten]
          exact packet.seen1_written.trans hgrows
        seen2_written := by
          rw [SeenCount.advance_seen2,
            endOf_append _ packet.seen2_le_frames, hwritten]
          exact packet.seen2_written
        seen3_written := by
          rw [SeenCount.advance_seen3,
            endOf_append _ packet.seen3_le_frames, hwritten]
          exact packet.seen3_written }
    else
      { packet with
        queue := packet.queue.wrEdge offer word skew
        opened := packet.opened ++ [word]
        words_eq := by simp [hwords, packet.words_eq]
        seen1_written := by
          rw [hwritten]
          exact packet.seen1_written.trans hgrows
        seen2_written := by rw [hwritten]; exact packet.seen2_written
        seen3_written := by rw [hwritten]; exact packet.seen3_written }
  else
    have hidle : ¬ (offer = true ∧ ¬ packet.queue.Full) := by
      simpa [accepts] using haccept
    have hwritten : (packet.queue.wrEdge offer word skew).written =
        packet.queue.written := by
      rw [CrossingQueue.wrEdge_written, if_neg hidle]
    { packet with
      queue := packet.queue.wrEdge offer word skew
      words_eq := by
        rw [CrossingQueue.wrEdge_words, if_neg hidle, packet.words_eq]
      seen1_written := by rw [hwritten]; exact packet.seen1_written
      seen2_written := by rw [hwritten]; exact packet.seen2_written
      seen3_written := by rw [hwritten]; exact packet.seen3_written }

/-- An edge of the reader's clock. -/
def rdEdge (packet : PacketQueue α depth staged) (ready : Bool) (skew : Skew)
    (late : Bool) : PacketQueue α depth staged where
  toSeenCount := packet.toSeenCount.clock late
  queue := packet.queue.rdEdge ready skew
  frames := packet.frames
  opened := packet.opened
  words_eq := packet.words_eq
  frames_ne := packet.frames_ne
  committed_eq := packet.committed_eq
  seen1_written := by
    rw [CrossingQueue.rdEdge_written, SyncCount.clock_source,
      Launched.settle_before, packet.queue.written_eq]
    exact packet.endOf_le_length _
  seen2_written :=
    packet.seen1_written.trans
      (Launched.before_le_sample packet.queue.written.source_grows _)
  seen3_written := packet.seen2_written

section Edges

variable (packet : PacketQueue α depth staged) (word : α) (skew : Skew)
variable (offer last ready late : Bool)

@[simp] theorem accepts_false : packet.accepts false = false := rfl

theorem accepts_iff :
    packet.accepts offer = true ↔ offer = true ∧ ¬ packet.queue.Full := by
  simp [accepts]

@[simp] theorem wrEdge_queue :
    (packet.wrEdge offer word last skew).queue =
      packet.queue.wrEdge offer word skew := by
  simp only [wrEdge]
  split
  · split <;> rfl
  · rfl

theorem wrEdge_frames :
    (packet.wrEdge offer word last skew).frames =
      if packet.accepts offer && last then
        packet.frames ++ [packet.opened ++ [word]]
      else packet.frames := by
  simp only [wrEdge]
  split
  · split <;> simp_all
  · simp_all

theorem wrEdge_opened :
    (packet.wrEdge offer word last skew).opened =
      if packet.accepts offer then
        if last then [] else packet.opened ++ [word]
      else packet.opened := by
  simp only [wrEdge]
  split
  · split <;> simp_all
  · simp_all

theorem wrEdge_committed :
    (packet.wrEdge offer word last skew).committed =
      if packet.accepts offer && last then
        packet.committed.drive (packet.committed.now + 1)
      else packet.committed := by
  simp only [wrEdge]
  split
  · split <;> simp_all
  · simp_all

@[simp] theorem wrEdge_seen1 :
    (packet.wrEdge offer word last skew).seen1 = packet.seen1 := by
  simp only [wrEdge]
  split
  · split <;> rfl
  · rfl

@[simp] theorem wrEdge_seen2 :
    (packet.wrEdge offer word last skew).seen2 = packet.seen2 := by
  simp only [wrEdge]
  split
  · split <;> rfl
  · rfl

@[simp] theorem wrEdge_seen3 :
    (packet.wrEdge offer word last skew).seen3 = packet.seen3 := by
  simp only [wrEdge]
  split
  · split <;> rfl
  · rfl

@[simp] theorem rdEdge_queue :
    (packet.rdEdge ready skew late).queue = packet.queue.rdEdge ready skew := rfl

@[simp] theorem rdEdge_frames :
    (packet.rdEdge ready skew late).frames = packet.frames := rfl

@[simp] theorem rdEdge_committed :
    (packet.rdEdge ready skew late).committed = packet.committed.settle := rfl

@[simp] theorem rdEdge_seen1 :
    (packet.rdEdge ready skew late).seen1 = packet.committed.sample late := rfl

@[simp] theorem rdEdge_seen2 :
    (packet.rdEdge ready skew late).seen2 = packet.seen1 := rfl

/-- A word accepted later does not move the ends of the frames before it. -/
theorem endOf_wrEdge {count : Nat} (hcount : count ≤ packet.frames.length) :
    endOf (packet.wrEdge offer word last skew).frames count =
      endOf packet.frames count := by
  rw [wrEdge_frames]
  split
  · exact endOf_append _ hcount
  · rfl

theorem wrEdge_frames_prefix :
    packet.frames <+: (packet.wrEdge offer word last skew).frames := by
  rw [wrEdge_frames]
  split
  · exact List.prefix_append _ _
  · exact List.prefix_rfl

/-- One edge after a count has come through, the words of its frames have. -/
theorem endOf_seen3_le :
    endOf packet.frames packet.seen3 ≤
      (packet.rdEdge ready skew late).queue.written.second :=
  packet.seen3_written.trans (packet.queue.written.first_before_le_clock skew)

end Edges

/-- Nothing has been written for `count` edges of the reader's clock: how far
the counts and the words have come through. -/
structure Settled (packet : PacketQueue α depth staged) (count : Nat) : Prop where
  committed : 1 ≤ count → packet.committed.before = packet.frames.length
  seen1 : 2 ≤ count → packet.seen1 = packet.frames.length
  seen2 : 3 ≤ count → packet.seen2 = packet.frames.length
  seen3 : 4 ≤ count → packet.seen3 = packet.frames.length
  source : 1 ≤ count →
    packet.queue.written.source.before = packet.queue.words.length
  first : 2 ≤ count →
    packet.queue.written.first.now = packet.queue.words.length
  first_before : 3 ≤ count →
    packet.queue.written.first.before = packet.queue.words.length
  second : 4 ≤ count →
    packet.queue.written.second = packet.queue.words.length

theorem settled_zero (packet : PacketQueue α depth staged) :
    packet.Settled 0 := by
  constructor <;> intro hle <;> omega

theorem Settled.rdEdge {packet : PacketQueue α depth staged} {count : Nat}
    (hsettled : packet.Settled count) (ready : Bool) (skew : Skew)
    (late : Bool) :
    (packet.rdEdge ready skew late).Settled (count + 1) where
  committed := fun _ => packet.committed_eq
  seen1 := fun hle => by
    have hbefore := hsettled.committed (Nat.le_of_succ_le_succ hle)
    have hnow := packet.committed_eq
    rcases packet.committed.sample_eq_or late with heq | heq <;>
      simp [heq, hbefore, hnow]
  seen2 := fun hle => hsettled.seen1 (Nat.le_of_succ_le_succ hle)
  seen3 := fun hle => hsettled.seen2 (Nat.le_of_succ_le_succ hle)
  source := fun _ => packet.queue.written_eq
  first := fun hle => by
    have hbefore := hsettled.source (Nat.le_of_succ_le_succ hle)
    have hnow := packet.queue.written_eq
    rcases packet.queue.written.source.sample_eq_or skew.first with
      heq | heq <;> simp [heq, hbefore, hnow]
  first_before := fun hle => hsettled.first (Nat.le_of_succ_le_succ hle)
  second := fun hle => by
    have hbefore := hsettled.first_before (Nat.le_of_succ_le_succ hle)
    have hnow := hsettled.first (by omega)
    rcases packet.queue.written.first.sample_eq_or skew.second with
      heq | heq <;> simp [heq, hbefore, hnow]

/-- Edges of the writer's clock that write nothing change none of this. -/
theorem Settled.wrEdge {packet : PacketQueue α depth staged} {count : Nat}
    (hsettled : packet.Settled count) (word : α) (last : Bool) (skew : Skew) :
    (packet.wrEdge false word last skew).Settled count := by
  obtain ⟨h1, h2, h3, h4, h5, h6, h7, h8⟩ := hsettled
  constructor <;>
    simpa [wrEdge_frames, wrEdge_committed, CrossingQueue.wrEdge_words,
      CrossingQueue.wrEdge_written]

end PacketQueue

end EmacZero
