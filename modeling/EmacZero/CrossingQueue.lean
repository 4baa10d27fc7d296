/-
A bounded queue between two clocks, as its two users may know it: the writer
goes by a late count of the words taken, the reader by a late count of the
words written.  With an output stage the oldest word is taken out of the store
ahead of the pop that consumes it.
-/
import EmacZero.ClockCrossing

namespace EmacZero

universe u

variable {α : Type u} {depth : Nat} {staged : Bool}

/-- All words ever written, how many of them have left the store, and how many
the reader has consumed.  The store never holds more than `depth` words, even
by the writer's late count. -/
structure CrossingQueue (α : Type u) (depth : Nat) (staged : Bool) where
  words : List α
  written : SyncCount
  taken : SyncCount
  popped : Nat
  written_eq : written.source.now = words.length
  taken_le : taken.source.now ≤ written.second
  room : words.length ≤ taken.second + depth
  popped_le : popped ≤ taken.source.now
  held_le : taken.source.now ≤ popped + staged.toNat

namespace CrossingQueue

/-- The empty queue after reset. -/
def empty : CrossingQueue α depth staged where
  words := []
  written := .zero
  taken := .zero
  popped := 0
  written_eq := rfl
  taken_le := Nat.le_refl _
  room := Nat.zero_le _
  popped_le := Nat.le_refl _
  held_le := Nat.zero_le _

/-- The writer's view: no room is known to be left. -/
def Full (queue : CrossingQueue α depth staged) : Prop :=
  queue.words.length = queue.taken.second + depth

/-- The words the reader has been offered so far. -/
def offered (queue : CrossingQueue α depth staged) : Nat :=
  bif staged then queue.taken.source.now else queue.written.second

/-- The reader's view: every offered word has been consumed. -/
def Drained (queue : CrossingQueue α depth staged) : Prop :=
  queue.popped = queue.offered

instance (queue : CrossingQueue α depth staged) : Decidable queue.Full :=
  inferInstanceAs (Decidable (_ = _))

instance (queue : CrossingQueue α depth staged) : Decidable queue.Drained :=
  inferInstanceAs (Decidable (_ = _))

theorem popped_le_offered (queue : CrossingQueue α depth staged) :
    queue.popped ≤ queue.offered := by
  have htaken := queue.popped_le
  cases staged
  · exact htaken.trans queue.taken_le
  · exact htaken

theorem offered_le_visible (queue : CrossingQueue α depth staged) :
    queue.offered ≤ queue.written.second := by
  cases staged
  · exact le_rfl
  · exact queue.taken_le

theorem visible_le_length (queue : CrossingQueue α depth staged) :
    queue.written.second ≤ queue.words.length :=
  queue.written_eq ▸ queue.written.second_le_now

theorem taken_le_length (queue : CrossingQueue α depth staged) :
    queue.taken.source.now ≤ queue.words.length :=
  queue.taken_le.trans queue.visible_le_length

theorem popped_le_length (queue : CrossingQueue α depth staged) :
    queue.popped ≤ queue.words.length :=
  queue.popped_le.trans queue.taken_le_length

/-- A queue that is not drained has a word to show. -/
theorem popped_lt_length {queue : CrossingQueue α depth staged}
    (hdrained : ¬ queue.Drained) : queue.popped < queue.words.length := by
  have hlt : queue.popped < queue.offered :=
    lt_of_le_of_ne queue.popped_le_offered hdrained
  exact hlt.trans_le (queue.offered_le_visible.trans queue.visible_le_length)

/-- The store holds at most `depth` words. -/
theorem length_le_taken (queue : CrossingQueue α depth staged) :
    queue.words.length ≤ queue.taken.source.now + depth :=
  queue.room.trans (Nat.add_le_add_right queue.taken.second_le_now depth)

/-- Store and output stage together hold at most one word more. -/
theorem length_le_popped (queue : CrossingQueue α depth staged) :
    queue.words.length ≤ queue.popped + depth + staged.toNat := by
  have hlength := queue.length_le_taken
  have hheld := queue.held_le
  omega

/-- An edge of the writer's clock. -/
def wrEdge (queue : CrossingQueue α depth staged) (offer : Bool) (word : α)
    (skew : Skew) : CrossingQueue α depth staged :=
  if haccept : offer = true ∧ ¬ queue.Full then
    { words := queue.words ++ [word]
      written := queue.written.advance
      taken := queue.taken.clock skew
      popped := queue.popped
      written_eq := by simp [queue.written_eq]
      taken_le := queue.taken_le
      room := by
        have hroom := lt_of_le_of_ne queue.room haccept.2
        have hlate := queue.taken.second_le_clock skew
        rw [List.length_append, List.length_singleton]
        omega
      popped_le := queue.popped_le
      held_le := queue.held_le }
  else
    { queue with
      taken := queue.taken.clock skew
      room := queue.room.trans
        (Nat.add_le_add_right (queue.taken.second_le_clock skew) depth) }

/-- The reader consumes a word at this edge. -/
def pops (queue : CrossingQueue α depth staged) (ready : Bool) : Bool :=
  ready && !decide queue.Drained

/-- A word leaves the store at this edge: the one that is popped, or the one
that refills a free output stage. -/
def takes (queue : CrossingQueue α depth staged) (ready : Bool) : Bool :=
  bif staged then
    decide (queue.taken.source.now < queue.written.second) &&
      (decide queue.Drained || queue.pops ready)
  else queue.pops ready

theorem not_drained_of_pops {queue : CrossingQueue α depth staged}
    {ready : Bool} (hpops : queue.pops ready = true) : ¬ queue.Drained := by
  simp only [pops, Bool.and_eq_true, Bool.not_eq_true', decide_eq_false_iff_not]
    at hpops
  exact hpops.2

theorem popped_lt_offered_of_pops {queue : CrossingQueue α depth staged}
    {ready : Bool} (hpops : queue.pops ready = true) :
    queue.popped < queue.offered :=
  lt_of_le_of_ne queue.popped_le_offered (not_drained_of_pops hpops)

theorem taken_lt_visible_of_takes {queue : CrossingQueue α depth staged}
    {ready : Bool} (htakes : queue.takes ready = true) :
    queue.taken.source.now < queue.written.second := by
  cases staged with
  | true =>
      simp only [takes, cond_true, Bool.and_eq_true, decide_eq_true_eq] at htakes
      exact htakes.1
  | false =>
      have hlt := popped_lt_offered_of_pops htakes
      have hheld := queue.held_le
      exact lt_of_le_of_lt hheld hlt

/-- A word enters the output stage when the one before it has left. -/
theorem popped_eq_taken_of_refill (queue : CrossingQueue α depth staged)
    {ready : Bool} (hrefill : (staged && queue.takes ready) = true) :
    queue.popped + (queue.pops ready).toNat = queue.taken.source.now := by
  have hheld := queue.held_le
  cases staged with
  | false => simp at hrefill
  | true =>
      simp only [takes, Bool.true_and, cond_true, Bool.and_eq_true,
        Bool.or_eq_true, decide_eq_true_eq] at hrefill
      cases hpops : queue.pops ready with
      | true =>
          have hlt : queue.popped < queue.taken.source.now :=
            popped_lt_offered_of_pops hpops
          simp only [Bool.toNat_true] at hheld ⊢
          omega
      | false =>
          have hdrained : queue.Drained := by simpa [hpops] using hrefill.2
          exact hdrained

/-- Taking words out of the store keeps pace with the pops and, with an output
stage, at most one word ahead of them. -/
theorem takes_keeps_pace (queue : CrossingQueue α depth staged) (ready : Bool) :
    queue.popped + (queue.pops ready).toNat ≤
        queue.taken.source.now + (queue.takes ready).toNat ∧
      queue.taken.source.now + (queue.takes ready).toNat ≤
        queue.popped + (queue.pops ready).toNat + staged.toNat := by
  have hpopped := queue.popped_le
  have hheld := queue.held_le
  cases staged with
  | false =>
      simp only [takes, cond_false, Bool.toNat_false] at hheld ⊢
      omega
  | true =>
      cases htakes : queue.takes ready with
      | true =>
          have hrefill := queue.popped_eq_taken_of_refill htakes
          simp only [Bool.toNat_true]
          omega
      | false =>
          cases hpops : queue.pops ready with
          | true =>
              have hlt : queue.popped < queue.taken.source.now :=
                popped_lt_offered_of_pops hpops
              simp only [Bool.toNat_true, Bool.toNat_false] at hheld ⊢
              omega
          | false => simpa using ⟨hpopped, hheld⟩

/-- An edge of the reader's clock. -/
def rdEdge (queue : CrossingQueue α depth staged) (ready : Bool) (skew : Skew) :
    CrossingQueue α depth staged where
  words := queue.words
  written := queue.written.clock skew
  taken := bif queue.takes ready then queue.taken.advance else queue.taken
  popped := queue.popped + (queue.pops ready).toNat
  written_eq := queue.written_eq
  taken_le := by
    have hlate := queue.written.second_le_clock skew
    have htaken := queue.taken_le
    cases htakes : queue.takes ready
    · exact htaken.trans hlate
    · exact (taken_lt_visible_of_takes htakes).trans_le hlate
  room := by
    cases queue.takes ready <;> exact queue.room
  popped_le := by
    have hpace := (queue.takes_keeps_pace ready).1
    cases htakes : queue.takes ready <;> simpa [htakes] using hpace
  held_le := by
    have hpace := (queue.takes_keeps_pace ready).2
    cases htakes : queue.takes ready <;> simpa [htakes] using hpace

/-- A read edge leaves a word in the output stage if it has just been refilled,
or if the word in it has not been consumed. -/
theorem rdEdge_held (queue : CrossingQueue α depth staged) (ready : Bool)
    (skew : Skew) :
    decide ((queue.rdEdge ready skew).popped <
        (queue.rdEdge ready skew).taken.source.now) =
      if staged && queue.takes ready then true
      else if queue.pops ready then false
      else decide (queue.popped < queue.taken.source.now) := by
  have hpopped := queue.popped_le
  have hheld := queue.held_le
  have hpops : (queue.rdEdge ready skew).popped =
    queue.popped + (queue.pops ready).toNat := rfl
  have htaken : (queue.rdEdge ready skew).taken =
    bif queue.takes ready then queue.taken.advance else queue.taken := rfl
  rw [hpops, htaken]
  cases staged with
  | false =>
      have hkept : queue.popped = queue.taken.source.now :=
        le_antisymm hpopped hheld
      have htakes : queue.takes ready = queue.pops ready := rfl
      cases hvalue : queue.pops ready <;> simp [htakes, hvalue, hkept]
  | true =>
      cases htakes : queue.takes ready with
      | true =>
          have hrefill := queue.popped_eq_taken_of_refill htakes
          simp
          omega
      | false =>
          cases hvalue : queue.pops ready with
          | true =>
              simp only [Bool.toNat_true] at hheld
              simp
              omega
          | false => simp

section Edges

variable (queue : CrossingQueue α depth staged) (word : α) (skew : Skew)
variable (offer ready : Bool)

theorem wrEdge_words :
    (queue.wrEdge offer word skew).words =
      if offer = true ∧ ¬ queue.Full then queue.words ++ [word]
      else queue.words := by
  rw [wrEdge]
  split <;> rfl

theorem wrEdge_written :
    (queue.wrEdge offer word skew).written =
      if offer = true ∧ ¬ queue.Full then queue.written.advance
      else queue.written := by
  rw [wrEdge]
  split <;> rfl

@[simp] theorem wrEdge_taken :
    (queue.wrEdge offer word skew).taken = queue.taken.clock skew := by
  rw [wrEdge]
  split <;> rfl

@[simp] theorem wrEdge_popped :
    (queue.wrEdge offer word skew).popped = queue.popped := by
  rw [wrEdge]
  split <;> rfl

/-- Writing changes nothing the reader can already see. -/
@[simp] theorem wrEdge_written_second :
    (queue.wrEdge offer word skew).written.second = queue.written.second := by
  rw [wrEdge_written]
  split <;> rfl

@[simp] theorem wrEdge_written_first :
    (queue.wrEdge offer word skew).written.first = queue.written.first := by
  rw [wrEdge_written]
  split <;> rfl

theorem wrEdge_drained :
    (queue.wrEdge offer word skew).Drained ↔ queue.Drained := by
  simp [Drained, offered]

theorem wrEdge_words_of_idle :
    (queue.wrEdge false word skew).words = queue.words := by
  simp [wrEdge_words]

theorem wrEdge_words_of_room (hroom : ¬ queue.Full) :
    (queue.wrEdge true word skew).words = queue.words ++ [word] := by
  simp [wrEdge_words, hroom]

theorem wrEdge_length_le :
    (queue.wrEdge offer word skew).words.length ≤ queue.words.length + 1 := by
  rw [wrEdge_words]
  split <;> simp

@[simp] theorem rdEdge_words : (queue.rdEdge ready skew).words = queue.words := rfl

@[simp] theorem rdEdge_written :
    (queue.rdEdge ready skew).written = queue.written.clock skew := rfl

@[simp] theorem rdEdge_taken :
    (queue.rdEdge ready skew).taken =
      bif queue.takes ready then queue.taken.advance else queue.taken := rfl

@[simp] theorem rdEdge_popped :
    (queue.rdEdge ready skew).popped =
      queue.popped + (queue.pops ready).toNat := rfl

@[simp] theorem pops_false : queue.pops false = false := rfl

theorem pops_of_not_drained (hdrained : ¬ queue.Drained) :
    queue.pops ready = ready := by
  simp [pops, hdrained]

/-- Once a word is offered it stays offered until it is consumed. -/
theorem rdEdge_not_drained_of_held (hdrained : ¬ queue.Drained) :
    ¬ (queue.rdEdge false skew).Drained := by
  have hlt : queue.popped < queue.offered :=
    lt_of_le_of_ne queue.popped_le_offered hdrained
  have hoffered : queue.offered ≤ (queue.rdEdge false skew).offered := by
    cases staged with
    | false => exact queue.written.second_le_clock skew
    | true => cases htakes : queue.takes false <;> simp [offered, htakes]
  have hlt' : queue.popped < (queue.rdEdge false skew).offered :=
    hlt.trans_le hoffered
  simpa [Drained] using hlt'.ne

/-- Back-to-back pops: the next word is offered as soon as the one before it
is consumed. -/
theorem rdEdge_not_drained_of_visible (hdrained : ¬ queue.Drained)
    (hnext : queue.popped + 1 < queue.written.second) :
    ¬ (queue.rdEdge ready skew).Drained := by
  cases ready with
  | false => exact rdEdge_not_drained_of_held queue skew hdrained
  | true =>
      have hpops : queue.pops true = true := by simp [pops, hdrained]
      cases staged with
      | false =>
          have hlate := queue.written.second_le_clock skew
          simp only [Drained, offered, rdEdge_popped, rdEdge_written, hpops,
            Bool.toNat_true, cond_false]
          omega
      | true =>
          have hheld := queue.held_le
          have htakes : queue.takes true = true := by
            simp only [Bool.toNat_true] at hheld
            simp [takes, hpops]
            omega
          have hpopped : queue.popped < queue.taken.source.now :=
            popped_lt_offered_of_pops hpops
          simp only [Drained, offered, rdEdge_popped, rdEdge_taken, hpops,
            htakes, Bool.toNat_true, cond_true, SyncCount.advance_source,
            Launched.drive_now]
          omega

/-- A visible word is offered at the latest one edge later. -/
theorem rdEdge_not_drained_of_waiting
    (hvisible : queue.popped < queue.written.second) :
    ¬ (queue.rdEdge false skew).Drained := by
  by_cases hdrained : queue.Drained
  · cases staged with
    | false =>
        exact absurd hdrained (show queue.popped ≠ queue.written.second from
          hvisible.ne)
    | true =>
        have heq : queue.popped = queue.taken.source.now := hdrained
        have htakes : queue.takes false = true := by
          simp [takes, hdrained, ← heq, hvisible]
        simp [Drained, offered, htakes, heq]
  · exact rdEdge_not_drained_of_held queue skew hdrained

end Edges

end CrossingQueue

end EmacZero
