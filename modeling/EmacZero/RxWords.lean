/-
The words of the receive FIFOs: the bytes of a frame, each with its error flag,
and behind them the EOF word, whose flag goes to the last byte.
-/
import EmacZero.Envelopes
import Mathlib.Data.List.Induction

namespace EmacZero

/-- A word of a receive FIFO, `{eof, err, data}`. -/
structure RxWord where
  eof : Bool
  err : Bool
  data : BitVec 8
deriving Repr, DecidableEq

/-- A received byte with its `rx_er`. -/
abbrev RxByte := BitVec 8 × Bool

def dataWord (byte : RxByte) : RxWord := ⟨false, byte.2, byte.1⟩

theorem eq_dataWord {word : RxWord} (hdata : word.eof = false) :
    word = dataWord (word.data, word.err) := by
  cases word
  simp_all [dataWord]

/-- The same bytes, the last one marked with `rx_er` if `err` is set. -/
def flagLast (bytes : List RxByte) (err : Bool) : List RxByte :=
  bytes.dropLast ++ bytes.getLast?.toList.map fun byte => (byte.1, byte.2 || err)

@[simp] theorem flagLast_nil (err : Bool) : flagLast [] err = [] := rfl

@[simp] theorem flagLast_concat (front : List RxByte) (byte : RxByte)
    (err : Bool) :
    flagLast (front ++ [byte]) err = front ++ [(byte.1, byte.2 || err)] := by
  simp [flagLast]

@[simp] theorem flagLast_false (bytes : List RxByte) :
    flagLast bytes false = bytes := by
  rcases List.eq_nil_or_concat bytes with rfl | ⟨front, byte, rfl⟩
  · rfl
  · simp

/-- A byte on the outputs does not go beyond what the frame will show. -/
theorem prefix_flagLast {front data : List RxByte} {byte : RxByte}
    (hbegun : front ++ [byte] <+: data) (err : Bool) :
    front <+: flagLast data err := by
  obtain ⟨rest, rfl⟩ := hbegun
  rcases List.eq_nil_or_concat rest with rfl | ⟨more, last, rfl⟩
  · rw [List.append_nil, flagLast_concat]
    exact List.prefix_append _ _
  · rw [List.concat_eq_append, ← List.append_assoc, flagLast_concat,
      List.append_assoc, List.append_assoc]
    exact List.prefix_append _ _

theorem flagLast_ne_nil {bytes : List RxByte} (hne : bytes ≠ []) (err : Bool) :
    flagLast bytes err ≠ [] := by
  obtain ⟨front, byte, rfl⟩ :=
    (List.eq_nil_or_concat bytes).resolve_left hne
  simp

@[simp] theorem map_fst_flagLast (bytes : List RxByte) (err : Bool) :
    (flagLast bytes err).map Prod.fst = bytes.map Prod.fst := by
  rcases List.eq_nil_or_concat bytes with rfl | ⟨front, byte, rfl⟩
  · rfl
  · simp

theorem exists_flagged {bytes : List RxByte} (hne : bytes ≠ []) :
    ∃ byte ∈ flagLast bytes true, byte.2 = true := by
  obtain ⟨front, byte, rfl⟩ :=
    (List.eq_nil_or_concat bytes).resolve_left hne
  exact ⟨(byte.1, true), by simp, rfl⟩

/-- What the reader makes of the frame. -/
def replay (commit : List RxByte × Bool) : List RxByte :=
  flagLast commit.1 commit.2

/-- The frames in a sequence of words: the ones that an EOF word has closed,
each with the flag of that word, and the bytes behind the last EOF word. -/
structure RxFrames where
  past : List (List RxByte × Bool)
  part : List RxByte

namespace RxFrames

def none : RxFrames := ⟨[], []⟩

def add (frames : RxFrames) (word : RxWord) : RxFrames :=
  if word.eof then ⟨frames.past ++ [(frames.part, word.err)], []⟩
  else { frames with part := frames.part ++ [(word.data, word.err)] }

/-- The envelopes that the closed frames make. -/
def replays (frames : RxFrames) : List (List RxByte) :=
  shown (frames.past.map replay)

theorem add_eof {word : RxWord} (frames : RxFrames) (heof : word.eof = true) :
    frames.add word = ⟨frames.past ++ [(frames.part, word.err)], []⟩ :=
  if_pos heof

theorem add_byte {word : RxWord} (frames : RxFrames) (hbyte : word.eof = false) :
    frames.add word =
      ⟨frames.past, frames.part ++ [(word.data, word.err)]⟩ :=
  if_neg (by simp [hbyte])

theorem past_add (frames : RxFrames) (word : RxWord) :
    frames.past <+: (frames.add word).past := by
  rw [add]
  split
  · exact List.prefix_append _ _
  · exact List.prefix_rfl

/-- A frame without bytes makes no envelope. -/
theorem replays_empty (past : List (List RxByte × Bool)) (err : Bool)
    (part : List RxByte) :
    replays ⟨past ++ [([], err)], part⟩ = replays ⟨past, part⟩ := by
  simp [replays, replay]

theorem replays_concat {data : List RxByte} (hdata : data ≠ [])
    (past : List (List RxByte × Bool)) (err : Bool) (part : List RxByte) :
    replays ⟨past ++ [(data, err)], part⟩ =
      replays ⟨past, part⟩ ++ [flagLast data err] := by
  have hne := flagLast_ne_nil hdata err
  simp [replays, replay, shown_singleton hne]

theorem replays_add_eof {word : RxWord} (frames : RxFrames)
    (heof : word.eof = true) :
    (frames.add word).replays =
      frames.replays ++ shown [flagLast frames.part word.err] := by
  simp [add_eof frames heof, replays, replay]

end RxFrames

def framesOf (words : List RxWord) : RxFrames := words.foldl .add .none

@[simp] theorem framesOf_nil : framesOf [] = .none := rfl

theorem framesOf_concat (words : List RxWord) (word : RxWord) :
    framesOf (words ++ [word]) = (framesOf words).add word := by
  rw [framesOf, List.foldl_concat]
  rfl

theorem past_framesOf_append (first second : List RxWord) :
    (framesOf first).past <+: (framesOf (first ++ second)).past := by
  induction second using List.reverseRecOn with
  | nil => simp
  | append_singleton words word ih =>
      rw [← List.append_assoc, framesOf_concat]
      exact ih.trans (RxFrames.past_add _ word)

theorem length_part_framesOf_le (words : List RxWord) :
    (framesOf words).part.length ≤ words.length := by
  induction words using List.reverseRecOn with
  | nil => exact Nat.le_refl _
  | append_singleton words word ih =>
      rw [framesOf_concat, RxFrames.add, List.length_append]
      split
      · exact Nat.zero_le _
      · simpa using ih

theorem part_framesOf_eq_nil_iff (words : List RxWord) :
    (framesOf words).part = [] ↔ ∀ word ∈ words.getLast?, word.eof = true := by
  induction words using List.reverseRecOn with
  | nil => simp [RxFrames.none]
  | append_singleton words word ih =>
      cases heof : word.eof with
      | true => simp [framesOf_concat, RxFrames.add_eof _ heof, heof]
      | false => simp [framesOf_concat, RxFrames.add_byte _ heof, heof]

end EmacZero
