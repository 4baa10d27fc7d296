/-
What the users of a FIFO between two clocks rely on, whatever it is built of:
it holds a bounded number of words in order, its flags err on the safe side,
and a word shows on the reader's side within a fixed number of edges.
-/
import EmacZero.AsyncFifoRefinement

namespace EmacZero

universe u v

variable {α : Type u} {Q : Type v}

/-- The ports of a FIFO between two clocks. -/
structure FifoPorts (α : Type u) (Q : Type v) where
  wrFull : Q → Bool
  rdEmpty : Q → Bool
  rdData : Q → α
  wrEdge : Q → Bool → α → Skew → Q
  rdEdge : Q → Bool → Skew → Q

/-- The words ever written, how many of them have been popped, and how many
the reader will at least have been shown after so many more of its edges. -/
structure FifoView (α : Type u) where
  words : List α
  popped : Nat
  shown : Nat → Nat

namespace FifoView

def empty : FifoView α := ⟨[], 0, fun _ => 0⟩

/-- A write: what is on its way to the reader arrives no later for it, and the
word itself has two flip-flops to pass. -/
structure Wrote (view : FifoView α) (accepted : Bool) (word : α)
    (next : FifoView α) : Prop where
  words : next.words = if accepted then view.words ++ [word] else view.words
  popped : next.popped = view.popped
  shown : ∀ edges, view.shown edges ≤ next.shown edges
  unseen : ∀ edges ≤ 2, next.shown edges ≤ view.shown edges

/-- A read: everything has come one edge nearer, and nothing that the first
flip-flop did not hold shows yet. -/
structure Read (view : FifoView α) (taken : Bool) (next : FifoView α) : Prop where
  words : next.words = view.words
  popped : next.popped = view.popped + taken.toNat
  shown : ∀ edges, view.shown (edges + 1) ≤ next.shown edges
  unseen : next.shown 0 ≤ view.shown 2

end FifoView

/-- A FIFO of `depth` words that shows a word after at most `lag` edges of the
reader's clock. -/
structure BoundedFifo (ports : FifoPorts α Q) (depth lag : Nat) where
  Views : Q → FifoView α → Prop
  bounded : ∀ {fifo view}, Views fifo view →
    view.words.length ≤ view.popped + depth
  shown_mono : ∀ {fifo view}, Views fifo view → Monotone view.shown
  shown_le : ∀ {fifo view}, Views fifo view → ∀ edges,
    view.shown edges ≤ view.words.length
  shown_all : ∀ {fifo view}, Views fifo view →
    view.shown lag = view.words.length
  popped_le : ∀ {fifo view}, Views fifo view → view.popped ≤ view.shown 0
  empty_iff : ∀ {fifo view}, Views fifo view →
    (ports.rdEmpty fifo = true ↔ view.popped = view.shown 0)
  word : ∀ {fifo view}, Views fifo view → view.popped < view.shown 0 →
    view.words[view.popped]? = some (ports.rdData fifo)
  wrote : ∀ {fifo view}, Views fifo view → ∀ wrEn word skew,
    ∃ next, Views (ports.wrEdge fifo wrEn word skew) next ∧
      view.Wrote (wrEn && !ports.wrFull fifo) word next
  read : ∀ {fifo view}, Views fifo view → ∀ rdEn skew,
    ∃ next, Views (ports.rdEdge fifo rdEn skew) next ∧
      view.Read (rdEn && !ports.rdEmpty fifo) next

namespace AsyncFifo

variable {addrWidth : Nat}

def ports (addrWidth : Nat) (ramStyle : RamStyle) :
    FifoPorts α (AsyncFifo α addrWidth ramStyle) where
  wrFull := wrFull
  rdEmpty := rdEmpty
  rdData := rdData
  wrEdge := wrEdge
  rdEdge := rdEdge

/-- The stages a word passes on its way to the reader. -/
def shownAfter {staged : Bool}
    (queue : CrossingQueue α (2 ^ addrWidth) staged) : Nat → Nat
  | 0 => queue.written.second
  | 1 => queue.written.first.before
  | 2 => queue.written.first.now
  | 3 => queue.written.source.before
  | _ => queue.words.length

theorem shownAfter_mono {staged : Bool}
    (queue : CrossingQueue α (2 ^ addrWidth) staged) :
    Monotone (shownAfter queue) := by
  refine monotone_nat_of_le_succ fun edges => ?_
  match edges with
  | 0 => exact queue.written.second_le
  | 1 => exact queue.written.first_grows
  | 2 => exact queue.written.first_le
  | 3 => exact queue.written.source_grows.trans_eq queue.written_eq
  | _ + 4 => exact le_rfl

theorem shownAfter_le {staged : Bool}
    (queue : CrossingQueue α (2 ^ addrWidth) staged) (edges : Nat) :
    shownAfter queue edges ≤ queue.words.length :=
  shownAfter_mono queue (Nat.le_add_right edges 4)

theorem shownAfter_wrEdge_early {staged : Bool}
    (queue : CrossingQueue α (2 ^ addrWidth) staged) (wrEn : Bool) (word : α)
    (skew : Skew) {edges : Nat} (hle : edges ≤ 2) :
    shownAfter (queue.wrEdge wrEn word skew) edges =
      shownAfter queue edges := by
  match edges, hle with
  | 0, _ => simp [shownAfter]
  | 1, _ => simp [shownAfter]
  | 2, _ => simp [shownAfter]

theorem shownAfter_wrEdge {staged : Bool}
    (queue : CrossingQueue α (2 ^ addrWidth) staged) (wrEn : Bool) (word : α)
    (skew : Skew) (edges : Nat) :
    shownAfter queue edges ≤
      shownAfter (queue.wrEdge wrEn word skew) edges := by
  rcases Nat.lt_or_ge 2 edges with hlate | hearly
  · match edges, hlate with
    | 3, _ =>
        simp only [shownAfter, CrossingQueue.wrEdge_written]
        split
        · exact queue.written.source_grows
        · exact le_rfl
    | _ + 4, _ =>
        simp only [shownAfter, CrossingQueue.wrEdge_words]
        split <;> simp
  · exact (shownAfter_wrEdge_early queue wrEn word skew hearly).ge

theorem shownAfter_rdEdge {staged : Bool}
    (queue : CrossingQueue α (2 ^ addrWidth) staged) (rdEn : Bool)
    (skew : Skew) (edges : Nat) :
    shownAfter queue (edges + 1) ≤
      shownAfter (queue.rdEdge rdEn skew) edges := by
  match edges with
  | 0 => exact queue.written.first_before_le_clock skew
  | 1 => exact le_rfl
  | 2 => exact Launched.before_le_sample queue.written.source_grows _
  | 3 => exact queue.written_eq.ge
  | _ + 4 => exact le_rfl

/-- `async_fifo` without an output stage, as its users know it. -/
def bounded (haddr : 1 ≤ addrWidth) :
    BoundedFifo (ports (α := α) addrWidth .distributed) (2 ^ addrWidth) 4 where
  Views fifo view := ∃ queue, Refines fifo queue ∧
    view = ⟨queue.words, queue.popped, shownAfter queue⟩
  bounded := by
    rintro fifo view ⟨queue, -, rfl⟩
    exact queue.length_le_popped
  shown_mono := by
    rintro fifo view ⟨queue, -, rfl⟩
    exact shownAfter_mono queue
  shown_le := by
    rintro fifo view ⟨queue, -, rfl⟩ edges
    exact shownAfter_le queue edges
  shown_all := by
    rintro fifo view ⟨queue, -, rfl⟩
    rfl
  popped_le := by
    rintro fifo view ⟨queue, -, rfl⟩
    exact queue.popped_le.trans queue.taken_le
  empty_iff := by
    rintro fifo view ⟨queue, href, rfl⟩
    have hempty : fifo.rdEmpty = decide queue.Drained := href.rdEmpty_eq
    change fifo.rdEmpty = true ↔ queue.Drained
    rw [hempty, decide_eq_true_iff]
  word := by
    rintro fifo view ⟨queue, href, rfl⟩ hlt
    exact href.rdData_eq (Nat.ne_of_lt hlt)
  wrote := by
    rintro fifo view ⟨queue, href, rfl⟩ wrEn word skew
    refine ⟨_, ⟨_, href.wrEdge haddr wrEn word skew, rfl⟩, ?_, ?_,
      shownAfter_wrEdge queue wrEn word skew, ?_⟩
    · simp [ports, href.wrFull_eq haddr, CrossingQueue.wrEdge_words]
    · exact queue.wrEdge_popped word skew wrEn
    · exact fun edges hle => (shownAfter_wrEdge_early queue wrEn word skew
        hle).le
  read := by
    rintro fifo view ⟨queue, href, rfl⟩ rdEn skew
    refine ⟨_, ⟨_, href.rdEdge rdEn skew, rfl⟩, rfl, ?_,
      shownAfter_rdEdge queue rdEn skew,
      Launched.sample_le_now queue.written.first_grows _⟩
    change _ = queue.popped + (rdEn && !fifo.rdEmpty).toNat
    rw [href.rdEmpty_eq]
    rfl

theorem views_reset (haddr : 1 ≤ addrWidth) (mem : BitVec addrWidth → α)
    (headQ : α) :
    (bounded haddr).Views (reset mem headQ) FifoView.empty := by
  refine ⟨.empty, refines_reset mem headQ, ?_⟩
  have hnone : shownAfter (CrossingQueue.empty : CrossingQueue α
      (2 ^ addrWidth) RamStyle.distributed.staged) = fun _ => 0 := by
    funext edges
    exact Nat.le_zero.mp (shownAfter_le _ edges)
  rw [hnone]
  rfl

end AsyncFifo

end EmacZero
