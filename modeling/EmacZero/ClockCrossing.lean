/-
Registers as the flip-flops of another clock see them.  An edge that arrives
while such a register is changing catches its old or its new value; a count
that only grows then reaches the other clock late, and never early.
-/
import Mathlib.Tactic

namespace EmacZero

universe u v

variable {α : Type u} {β : Type v}

/-- A register read from another clock: its value, and the value that an edge
arriving while the last change is in flight may still catch. -/
structure Launched (α : Type u) where
  now : α
  before : α
deriving Repr, DecidableEq

namespace Launched

/-- A register that has not changed lately. -/
def rest (value : α) : Launched α := ⟨value, value⟩

/-- An edge of the register's own clock gives it a new value. -/
def drive (reg : Launched α) (value : α) : Launched α := ⟨value, reg.now⟩

/-- What an edge of the other clock catches. -/
def sample (reg : Launched α) (late : Bool) : α :=
  bif late then reg.before else reg.now

/-- A change is in flight for one edge of the other clock only. -/
def settle (reg : Launched α) : Launched α := rest reg.now

def map (f : α → β) (reg : Launched α) : Launched β :=
  ⟨f reg.now, f reg.before⟩

@[simp] theorem rest_now (value : α) : (rest value).now = value := rfl
@[simp] theorem rest_before (value : α) : (rest value).before = value := rfl

@[simp] theorem drive_now (reg : Launched α) (value : α) :
    (reg.drive value).now = value := rfl

@[simp] theorem drive_before (reg : Launched α) (value : α) :
    (reg.drive value).before = reg.now := rfl

@[simp] theorem settle_now (reg : Launched α) : reg.settle.now = reg.now := rfl

@[simp] theorem settle_before (reg : Launched α) :
    reg.settle.before = reg.now := rfl

@[simp] theorem sample_false (reg : Launched α) :
    reg.sample false = reg.now := rfl

@[simp] theorem sample_true (reg : Launched α) :
    reg.sample true = reg.before := rfl

@[simp] theorem map_now (f : α → β) (reg : Launched α) :
    (reg.map f).now = f reg.now := rfl

@[simp] theorem map_before (f : α → β) (reg : Launched α) :
    (reg.map f).before = f reg.before := rfl

theorem map_rest (f : α → β) (value : α) :
    (rest value).map f = rest (f value) := rfl

theorem map_drive (f : α → β) (reg : Launched α) (value : α) :
    (reg.drive value).map f = (reg.map f).drive (f value) := rfl

theorem map_settle (f : α → β) (reg : Launched α) :
    reg.settle.map f = (reg.map f).settle := rfl

theorem map_sample (f : α → β) (reg : Launched α) (late : Bool) :
    (reg.map f).sample late = f (reg.sample late) := by
  cases late <;> rfl

theorem sample_eq_or (reg : Launched α) (late : Bool) :
    reg.sample late = reg.before ∨ reg.sample late = reg.now := by
  cases late
  · exact Or.inr rfl
  · exact Or.inl rfl

theorem before_le_sample [Preorder α] {reg : Launched α}
    (hgrow : reg.before ≤ reg.now) (late : Bool) :
    reg.before ≤ reg.sample late := by
  cases late
  · exact hgrow
  · exact le_rfl

theorem sample_le_now [Preorder α] {reg : Launched α}
    (hgrow : reg.before ≤ reg.now) (late : Bool) :
    reg.sample late ≤ reg.now := by
  cases late
  · exact le_rfl
  · exact hgrow

end Launched

/-- How one edge catches the two stages of a synchronizer. -/
structure Skew where
  first : Bool
  second : Bool
deriving Repr, DecidableEq

/-- A count that only grows, followed through the two stages of its
synchronizer.  No stage is ahead of the one it samples. -/
structure SyncCount where
  source : Launched Nat
  first : Launched Nat
  second : Nat
  second_le : second ≤ first.before
  first_grows : first.before ≤ first.now
  first_le : first.now ≤ source.before
  source_grows : source.before ≤ source.now

namespace SyncCount

/-- Nothing has been counted. -/
def zero : SyncCount where
  source := .rest 0
  first := .rest 0
  second := 0
  second_le := le_rfl
  first_grows := le_rfl
  first_le := le_rfl
  source_grows := le_rfl

/-- One more on the counting side. -/
def advance (count : SyncCount) : SyncCount where
  source := count.source.drive (count.source.now + 1)
  first := count.first
  second := count.second
  second_le := count.second_le
  first_grows := count.first_grows
  first_le := count.first_le.trans count.source_grows
  source_grows := Nat.le_succ _

/-- An edge of the synchronizer's clock. -/
def clock (count : SyncCount) (skew : Skew) : SyncCount where
  source := count.source.settle
  first := count.first.drive (count.source.sample skew.first)
  second := count.first.sample skew.second
  second_le := Launched.sample_le_now count.first_grows _
  first_grows :=
    count.first_le.trans (Launched.before_le_sample count.source_grows _)
  first_le := Launched.sample_le_now count.source_grows _
  source_grows := le_rfl

@[simp] theorem zero_source : zero.source = .rest 0 := rfl
@[simp] theorem zero_first : zero.first = .rest 0 := rfl
@[simp] theorem zero_second : zero.second = 0 := rfl

@[simp] theorem advance_source (count : SyncCount) :
    count.advance.source = count.source.drive (count.source.now + 1) := rfl

@[simp] theorem advance_first (count : SyncCount) :
    count.advance.first = count.first := rfl

@[simp] theorem advance_second (count : SyncCount) :
    count.advance.second = count.second := rfl

@[simp] theorem clock_source (count : SyncCount) (skew : Skew) :
    (count.clock skew).source = count.source.settle := rfl

@[simp] theorem clock_first (count : SyncCount) (skew : Skew) :
    (count.clock skew).first =
      count.first.drive (count.source.sample skew.first) := rfl

@[simp] theorem clock_second (count : SyncCount) (skew : Skew) :
    (count.clock skew).second = count.first.sample skew.second := rfl

theorem second_le_now (count : SyncCount) : count.second ≤ count.source.now :=
  count.second_le.trans <| count.first_grows.trans <|
    count.first_le.trans count.source_grows

/-- The synchronized count never falls back. -/
theorem second_le_clock (count : SyncCount) (skew : Skew) :
    count.second ≤ (count.clock skew).second :=
  count.second_le.trans (Launched.before_le_sample count.first_grows _)

/-- Whatever both samples of the first stage show has arrived an edge later. -/
theorem first_before_le_clock (count : SyncCount) (skew : Skew) :
    count.first.before ≤ (count.clock skew).second :=
  Launched.before_le_sample count.first_grows _

end SyncCount

/-- A count of events that crosses in three flip-flops, of which only the first
can catch it changing. -/
structure SeenCount where
  committed : Launched Nat
  seen1 : Nat
  seen2 : Nat
  seen3 : Nat
  committed_grows : committed.before ≤ committed.now
  seen1_le : seen1 ≤ committed.before
  seen2_le : seen2 ≤ seen1
  seen3_le : seen3 ≤ seen2

namespace SeenCount

theorem none_seen : (0 : Nat) ≤ 0 := Nat.le_refl 0

def zero : SeenCount where
  committed := .rest 0
  seen1 := 0
  seen2 := 0
  seen3 := 0
  committed_grows := none_seen
  seen1_le := none_seen
  seen2_le := none_seen
  seen3_le := none_seen

/-- One more event. -/
def advance (count : SeenCount) : SeenCount where
  committed := count.committed.drive (count.committed.now + 1)
  seen1 := count.seen1
  seen2 := count.seen2
  seen3 := count.seen3
  committed_grows := Nat.le_succ _
  seen1_le := count.seen1_le.trans count.committed_grows
  seen2_le := count.seen2_le
  seen3_le := count.seen3_le

/-- An edge of the other clock. -/
def clock (count : SeenCount) (late : Bool) : SeenCount where
  committed := count.committed.settle
  seen1 := count.committed.sample late
  seen2 := count.seen1
  seen3 := count.seen2
  committed_grows := le_rfl
  seen1_le := Launched.sample_le_now count.committed_grows _
  seen2_le :=
    count.seen1_le.trans (Launched.before_le_sample count.committed_grows _)
  seen3_le := count.seen2_le

@[simp] theorem zero_committed : zero.committed = .rest 0 := rfl
@[simp] theorem zero_seen1 : zero.seen1 = 0 := rfl
@[simp] theorem zero_seen2 : zero.seen2 = 0 := rfl
@[simp] theorem zero_seen3 : zero.seen3 = 0 := rfl

@[simp] theorem advance_committed (count : SeenCount) :
    count.advance.committed =
      count.committed.drive (count.committed.now + 1) := rfl

@[simp] theorem advance_seen1 (count : SeenCount) :
    count.advance.seen1 = count.seen1 := rfl

@[simp] theorem advance_seen2 (count : SeenCount) :
    count.advance.seen2 = count.seen2 := rfl

@[simp] theorem advance_seen3 (count : SeenCount) :
    count.advance.seen3 = count.seen3 := rfl

@[simp] theorem clock_committed (count : SeenCount) (late : Bool) :
    (count.clock late).committed = count.committed.settle := rfl

@[simp] theorem clock_seen1 (count : SeenCount) (late : Bool) :
    (count.clock late).seen1 = count.committed.sample late := rfl

@[simp] theorem clock_seen2 (count : SeenCount) (late : Bool) :
    (count.clock late).seen2 = count.seen1 := rfl

@[simp] theorem clock_seen3 (count : SeenCount) (late : Bool) :
    (count.clock late).seen3 = count.seen2 := rfl

theorem seen3_le_now (count : SeenCount) : count.seen3 ≤ count.committed.now :=
  count.seen3_le.trans <| count.seen2_le.trans <|
    count.seen1_le.trans count.committed_grows

/-- The events that will at least have been seen after so many more edges of
the other clock. -/
def after (count : SeenCount) : Nat → Nat
  | 0 => count.seen3
  | 1 => count.seen2
  | 2 => count.seen1
  | 3 => count.committed.before
  | _ => count.committed.now

theorem after_advance (count : SeenCount) (edges : Nat) :
    count.after edges ≤ count.advance.after edges := by
  match edges with
  | 0 => exact le_rfl
  | 1 => exact le_rfl
  | 2 => exact le_rfl
  | 3 => exact count.committed_grows
  | _ + 4 => exact Nat.le_succ _

theorem after_clock (count : SeenCount) (late : Bool) (edges : Nat) :
    count.after (edges + 1) ≤ (count.clock late).after edges := by
  match edges with
  | 0 => exact le_rfl
  | 1 => exact le_rfl
  | 2 => exact Launched.before_le_sample count.committed_grows _
  | 3 => exact le_rfl
  | _ + 4 => exact le_rfl

theorem after_mono (count : SeenCount) : Monotone count.after := by
  refine monotone_nat_of_le_succ fun edges => ?_
  match edges with
  | 0 => exact count.seen3_le
  | 1 => exact count.seen2_le
  | 2 => exact count.seen1_le
  | 3 => exact count.committed_grows
  | _ + 4 => exact le_rfl

end SeenCount

end EmacZero
