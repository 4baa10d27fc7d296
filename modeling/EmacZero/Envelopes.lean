/-
What an observer of a frame interface sees: the enable signal groups the beats
of consecutive cycles into envelopes.
-/
import Mathlib.Data.List.Forall2

namespace EmacZero

universe u v

variable {β : Type u} {γ : Type v}

/-- The envelopes that have ended, oldest first, and the beats of the one that
has not. -/
structure Envelopes (β : Type u) where
  closed : List (List β)
  opened : List β
deriving Repr, DecidableEq

namespace Envelopes

def unseen : Envelopes β := ⟨[], []⟩

/-- One cycle: a beat while the enable is high, nothing while it is low. -/
def observe (seen : Envelopes β) : Option β → Envelopes β
  | some beat => { seen with opened := seen.opened ++ [beat] }
  | none =>
      if seen.opened.isEmpty then seen
      else ⟨seen.closed ++ [seen.opened], []⟩

/-- Every envelope so far, whether it has ended or not. -/
def all (seen : Envelopes β) : List (List β) :=
  if seen.opened.isEmpty then seen.closed else seen.closed ++ [seen.opened]

@[simp] theorem unseen_closed : (unseen : Envelopes β).closed = [] := rfl
@[simp] theorem unseen_opened : (unseen : Envelopes β).opened = [] := rfl

@[simp] theorem observe_some_closed (seen : Envelopes β) (beat : β) :
    (seen.observe (some beat)).closed = seen.closed := rfl

@[simp] theorem observe_some_opened (seen : Envelopes β) (beat : β) :
    (seen.observe (some beat)).opened = seen.opened ++ [beat] := rfl

@[simp] theorem observe_none_opened (seen : Envelopes β) :
    (seen.observe none).opened = [] := by
  simp only [observe]
  split
  · simp_all
  · rfl

@[simp] theorem observe_none_closed (seen : Envelopes β) :
    (seen.observe none).closed = seen.all := by
  simp only [observe, all]
  split <;> rfl

theorem all_of_idle {seen : Envelopes β} (hidle : seen.opened = []) :
    seen.all = seen.closed := by
  simp [all, hidle]

theorem all_of_busy {seen : Envelopes β} (hbusy : seen.opened ≠ []) :
    seen.all = seen.closed ++ [seen.opened] := by
  simp [all, hbusy]

theorem closed_prefix_all (seen : Envelopes β) : seen.closed <+: seen.all := by
  simp only [all]
  split
  · exact List.prefix_rfl
  · exact List.prefix_append _ _

end Envelopes

/-- The images that show on the other side at all. -/
def shown (images : List (List γ)) : List (List γ) :=
  images.filter fun image => !image.isEmpty

@[simp] theorem shown_nil : shown ([] : List (List γ)) = [] := rfl

@[simp] theorem shown_append (first second : List (List γ)) :
    shown (first ++ second) = shown first ++ shown second :=
  List.filter_append ..

@[simp] theorem shown_missing : shown [([] : List γ)] = [] := rfl

theorem shown_singleton {image : List γ} (himage : image ≠ []) :
    shown [image] = [image] := by
  simp [shown, himage]

theorem shown_replicate_nil (count : Nat) :
    shown (List.replicate count ([] : List γ)) = [] := by
  simp [shown]

namespace Envelopes

/-- These envelopes have shown, or the next of them has begun to show. -/
def Shows (seen : Envelopes γ) (images : List (List γ)) : Prop :=
  ∃ rest, images = seen.closed ++ rest ∧ seen.opened <+: rest.headD []

theorem shows_all (seen : Envelopes γ) : seen.Shows seen.all := by
  by_cases hidle : seen.opened = []
  · refine ⟨[], by simp [all_of_idle hidle], ?_⟩
    rw [hidle]
    exact List.nil_prefix
  · exact ⟨[seen.opened], all_of_busy hidle, List.prefix_rfl⟩

theorem Shows.append {seen : Envelopes γ} {images : List (List γ)}
    (hshows : seen.Shows images) (later : List (List γ)) :
    seen.Shows (images ++ later) := by
  obtain ⟨rest, rfl, hopened⟩ := hshows
  refine ⟨rest ++ later, List.append_assoc .., ?_⟩
  cases rest with
  | nil =>
      rw [List.prefix_nil.mp hopened]
      exact List.nil_prefix
  | cons image rest => exact hopened

/-- What will have shown one cycle later shows already, or is still to come. -/
theorem Shows.of_observe {seen : Envelopes γ} {beat : Option γ} {images : List (List γ)}
    (hshows : (seen.observe beat).Shows images) : seen.Shows images := by
  obtain ⟨rest, rfl, hopened⟩ := hshows
  cases beat with
  | some beat => exact ⟨rest, rfl, (List.prefix_append _ _).trans hopened⟩
  | none =>
      rw [observe_none_closed]
      by_cases hidle : seen.opened = []
      · refine ⟨rest, by rw [all_of_idle hidle], ?_⟩
        rw [hidle]
        exact List.nil_prefix
      · refine ⟨seen.opened :: rest, ?_, List.prefix_rfl⟩
        rw [all_of_busy hidle, List.append_assoc, List.singleton_append]

theorem closed_prefix_observe (seen : Envelopes γ) (beat : Option γ) :
    seen.closed <+: (seen.observe beat).closed := by
  cases beat with
  | some beat => exact List.prefix_rfl
  | none =>
      rw [observe_none_closed]
      exact seen.closed_prefix_all

/-- The envelopes on one side are, in order, images of the envelopes on the
other: every closed one is the image of one that was sent, images may be
missing, and the envelope still open has begun like the next image. -/
def Delivers (image : List β → List γ → Prop) (sent : List (List β))
    (got : Envelopes γ) : Prop :=
  ∃ images rest, List.Forall₂ image sent images ∧
    shown images = got.closed ++ rest ∧ got.opened <+: rest.headD []

/-- Nothing is left to come: every image shows already. -/
def DeliversAll (image : List β → List γ → Prop) (sent : List (List β))
    (got : Envelopes γ) : Prop :=
  ∃ images, List.Forall₂ image sent images ∧ shown images = got.all

end Envelopes

/-- Envelopes with the gaps between them: for how many cycles the enable has been
low, and for how many it was low before each envelope but the first. -/
structure Spaced (β : Type u) extends Envelopes β where
  low : Nat
  gaps : List Nat
deriving Repr, DecidableEq

namespace Spaced

def unseen : Spaced β := ⟨.unseen, 0, []⟩

def observe (seen : Spaced β) (beat : Option β) : Spaced β where
  toEnvelopes := seen.toEnvelopes.observe beat
  low := if beat.isSome then 0 else seen.low + 1
  gaps :=
    if beat.isSome && seen.opened.isEmpty && !seen.closed.isEmpty then
      seen.gaps ++ [seen.low]
    else seen.gaps

@[simp] theorem observe_toEnvelopes (seen : Spaced β) (beat : Option β) :
    (seen.observe beat).toEnvelopes = seen.toEnvelopes.observe beat := rfl

@[simp] theorem observe_none_low (seen : Spaced β) :
    (seen.observe none).low = seen.low + 1 := rfl

@[simp] theorem observe_none_gaps (seen : Spaced β) :
    (seen.observe none).gaps = seen.gaps := rfl

/-- Within an envelope there is no gap. -/
theorem observe_gaps_of_opened {seen : Spaced β} (hopened : seen.opened ≠ [])
    (beat : Option β) : (seen.observe beat).gaps = seen.gaps := by
  simp [observe, hopened]

/-- The first envelope has no gap before it. -/
theorem observe_gaps_of_first {seen : Spaced β} (hclosed : seen.closed = [])
    (beat : Option β) : (seen.observe beat).gaps = seen.gaps := by
  simp [observe, hclosed]

/-- A beat behind a long enough gap. -/
theorem observe_gaps_of_low {seen : Spaced β} {bound : Nat}
    (hgaps : ∀ gap ∈ seen.gaps, bound ≤ gap) (hlow : bound ≤ seen.low)
    (beat : Option β) : ∀ gap ∈ (seen.observe beat).gaps, bound ≤ gap := by
  intro gap hgap
  simp only [observe] at hgap
  split at hgap
  · rcases List.mem_append.mp hgap with hold | hnew
    · exact hgaps gap hold
    · rwa [List.mem_singleton.mp hnew]
  · exact hgaps gap hgap

/-- A gap that has been seen stays. -/
theorem gaps_subset_observe (seen : Spaced β) (beat : Option β) :
    seen.gaps ⊆ (seen.observe beat).gaps := by
  intro gap hgap
  simp only [observe]
  split
  · exact List.mem_append_left _ hgap
  · exact hgap

/-- While the enable is low no envelope is open. -/
def Quiet (seen : Spaced β) : Prop := seen.low ≠ 0 → seen.opened = []

theorem quiet_unseen : (unseen : Spaced β).Quiet := fun _ => rfl

theorem quiet_observe (seen : Spaced β) (beat : Option β) : (seen.observe beat).Quiet := by
  intro hlow
  cases beat with
  | some beat => exact absurd rfl hlow
  | none => exact Envelopes.observe_none_opened _

/-- A cycle later the enable is low for longer, so nothing has come since. -/
theorem closed_of_low {seen : Spaced β} {beat : Option β} (hquiet : seen.Quiet)
    (hlow : 2 ≤ (seen.observe beat).low) :
    (seen.observe beat).closed = seen.closed ∧ (seen.observe beat).low = seen.low + 1 := by
  cases beat with
  | some beat => exact absurd (Nat.le_zero.mp hlow) (Nat.succ_ne_zero 1)
  | none =>
      have hbefore : seen.low ≠ 0 := fun hzero => by
        rw [observe_none_low, hzero] at hlow
        exact absurd hlow (by decide)
      refine ⟨?_, rfl⟩
      rw [observe_toEnvelopes, Envelopes.observe_none_closed,
        Envelopes.all_of_idle (hquiet hbefore)]

end Spaced

end EmacZero
