/-
A queue of framed words beside the log of what was put into it, where a bit of each word
marks the last one of its frame.
-/
import EmacZero.FrameLog
import EmacZero.PacketFifo

namespace EmacZero

universe u v

variable {α : Type u} {β : Type v} {depth retired taken : Nat} {staged : Bool}

/-- The last word of the frame is marked, and no other. -/
def MarkedBy (mark : α → Bool) (frame : List α) : Prop :=
  ∀ index word, frame[index]? = some word → (mark word = true ↔ index + 1 = frame.length)

theorem markedBy_concat {mark : α → Bool} {words : List α} {word : α}
    (hwords : ∀ other ∈ words, mark other = false) (hword : mark word = true) :
    MarkedBy mark (words ++ [word]) := by
  intro index other hother
  rw [List.length_append, List.length_singleton]
  rcases Nat.lt_or_ge index words.length with hlt | hge
  · rw [List.getElem?_append_left hlt] at hother
    have hfalse := hwords other (List.mem_of_getElem? hother)
    simp only [hfalse, Bool.false_eq_true, false_iff]
    omega
  · rw [List.getElem?_append_right hge, List.getElem?_singleton] at hother
    split at hother
    · rename_i hzero
      rw [← Option.some.inj hother]
      simp only [hword, true_iff]
      omega
    · cases hother

namespace PacketQueue

/-- The frames of the queue are those of the log. -/
structure Logs (mark : α → Bool) (value : α → β) (packet : PacketQueue α depth staged)
    (log : FrameLog β) : Prop where
  whole : packet.frames.map (List.map value) = log.whole
  part : packet.opened.map value = log.part
  marked : ∀ frame ∈ packet.frames, MarkedBy mark frame
  unmarked : ∀ word ∈ packet.opened, mark word = false

section Logs

variable {mark : α → Bool} {value : α → β} {packet : PacketQueue α depth staged}
variable {log : FrameLog β}

theorem logs_empty : (empty : PacketQueue α depth staged).Logs mark value .empty where
  whole := rfl
  part := rfl
  marked := fun _ hframe => absurd hframe List.not_mem_nil
  unmarked := fun _ hword => absurd hword List.not_mem_nil

/-- A word that is accepted goes into both. -/
theorem Logs.wrEdge (hlogs : packet.Logs mark value log) (offer : Bool) (word : α)
    (skew : Skew) :
    (packet.wrEdge offer word (mark word) skew).Logs mark value
      (if packet.accepts offer then log.add (value word) (mark word) else log) := by
  obtain ⟨hwhole, hpart, hmarked, hunmarked⟩ := hlogs
  have hframes := packet.wrEdge_frames word skew offer (mark word)
  have hopened := packet.wrEdge_opened word skew offer (mark word)
  cases haccept : packet.accepts offer with
  | false =>
      rw [haccept, Bool.false_and, if_neg Bool.false_ne_true] at hframes
      rw [haccept, if_neg Bool.false_ne_true] at hopened
      rw [if_neg Bool.false_ne_true]
      exact ⟨by rw [hframes, hwhole], by rw [hopened, hpart], by rwa [hframes],
        by rwa [hopened]⟩
  | true =>
      rw [haccept, Bool.true_and] at hframes
      rw [haccept, if_pos rfl] at hopened
      rw [if_pos rfl, FrameLog.add]
      cases hmark : mark word with
      | true =>
          rw [hmark, if_pos rfl] at hframes hopened
          refine ⟨?_, by rw [hopened]; rfl, ?_, ?_⟩
          · rw [hframes, List.map_append, hwhole, List.map_singleton, List.map_append, hpart]
            rfl
          · intro frame hframe
            rw [hframes] at hframe
            rcases List.mem_append.mp hframe with hold | hnew
            · exact hmarked frame hold
            · rw [List.mem_singleton.mp hnew]
              exact markedBy_concat hunmarked hmark
          · intro other hother
            rw [hopened] at hother
            exact absurd hother List.not_mem_nil
      | false =>
          rw [hmark, if_neg Bool.false_ne_true] at hframes hopened
          refine ⟨by rw [hframes, hwhole]; rfl, ?_, by rwa [hframes], ?_⟩
          · rw [hopened, List.map_append, hpart]
            rfl
          · intro other hother
            rw [hopened] at hother
            rcases List.mem_append.mp hother with hold | hnew
            · exact hunmarked other hold
            · rw [List.mem_singleton.mp hnew, hmark]

theorem Logs.rdEdge (hlogs : packet.Logs mark value log) (ready : Bool) (skew : Skew)
    (late : Bool) : (packet.rdEdge ready skew late).Logs mark value log :=
  ⟨hlogs.whole, hlogs.part, hlogs.marked, hlogs.unmarked⟩

theorem Logs.length_eq (hlogs : packet.Logs mark value log) :
    packet.frames.length = log.whole.length := by
  rw [← hlogs.whole, List.length_map]

theorem Logs.getElem? (hlogs : packet.Logs mark value log) {count : Nat} {frame : List α}
    (hframe : packet.frames[count]? = some frame) :
    log.whole[count]? = some (frame.map value) := by
  rw [← hlogs.whole, List.getElem?_map, hframe]
  rfl

end Logs

/-- While a frame is read the next word of it stays in reach, with or without an output
stage. -/
theorem Ready.not_drained_rdEdge {packet : PacketQueue α depth staged} {frame : List α}
    (hready : packet.Ready retired) (hread : packet.ReadTo retired taken)
    (hframe : packet.frames[retired]? = some frame) {rdEn : Bool}
    (hmore : taken + rdEn.toNat < frame.length)
    (hheld : rdEn = true → ¬ packet.queue.Drained) (skew : Skew) (late : Bool) :
    ¬ (packet.rdEdge rdEn skew late).queue.Drained := by
  have hvisible := hready.visible
  rw [endOf_add_one hframe] at hvisible
  rw [rdEdge_queue]
  cases rdEn with
  | false =>
      refine CrossingQueue.rdEdge_not_drained_of_waiting _ skew ?_
      rw [hread.popped]
      rw [Bool.toNat_false] at hmore
      omega
  | true =>
      refine CrossingQueue.rdEdge_not_drained_of_visible _ skew true (hheld rfl) ?_
      rw [hread.popped]
      rw [Bool.toNat_true] at hmore
      omega

/-- One edge further in the frame, whether a word of it is consumed or not. -/
theorem ReadTo.rdEdge {packet : PacketQueue α depth staged} {frame : List α}
    (hread : packet.ReadTo retired taken) (hframe : packet.frames[retired]? = some frame)
    {rdEn : Bool} (hpop : rdEn = true → taken < frame.length ∧ ¬ packet.queue.Drained)
    (skew : Skew) (late : Bool) :
    (packet.rdEdge rdEn skew late).ReadTo retired (taken + rdEn.toNat) := by
  cases rdEn with
  | false => exact hread.rdEdge_idle skew late
  | true => exact hread.rdEdge_pop (hpop rfl).2 hframe (hpop rfl).1 skew late

/-- A frame that the reader may read is still there behind a write. -/
theorem frames_getElem?_wrEdge {packet : PacketQueue α depth staged} {frame : List α}
    (hframe : packet.frames[retired]? = some frame) (offer : Bool) (word : α) (last : Bool)
    (skew : Skew) :
    (packet.wrEdge offer word last skew).frames[retired]? = some frame := by
  have hlt := (List.getElem?_eq_some_iff.mp hframe).1
  obtain ⟨more, hmore⟩ := packet.wrEdge_frames_prefix word skew offer last
  rw [← hmore, List.getElem?_append_left hlt, hframe]

end PacketQueue

end EmacZero
