/-
What a reader sees in envelopes of which some were lost or damaged on the way: where a
damaged envelope shows nothing to it, a sublist of what it would have seen in all of them.
-/
import EmacZero.Envelopes
import Mathlib.Data.List.Forall2

namespace EmacZero

universe u v w

variable {α : Type u} {β : Type v} {γ : Type w}

namespace Envelopes

/-- The same envelopes, every beat seen through a function. -/
def map (f : α → β) (seen : Envelopes α) : Envelopes β :=
  ⟨seen.closed.map (List.map f), seen.opened.map f⟩

theorem map_observe (f : α → β) (seen : Envelopes α) (beat : Option α) :
    (seen.observe beat).map f = (seen.map f).observe (beat.map f) := by
  cases beat with
  | some beat => simp [map, observe]
  | none =>
      cases hopened : seen.opened <;> simp [map, observe, hopened]

/-- What holds of every beat still does when it holds of the next one. -/
theorem forall_observe {p : α → Prop} {seen : Envelopes α}
    (hseen : ∀ image ∈ seen.opened :: seen.closed, ∀ beat ∈ image, p beat) {next : Option α}
    (hnext : ∀ beat, next = some beat → p beat) :
    ∀ image ∈ (seen.observe next).opened :: (seen.observe next).closed,
      ∀ beat ∈ image, p beat := by
  obtain ⟨hopened, hclosed⟩ := List.forall_mem_cons.mp hseen
  refine List.forall_mem_cons.mpr ?_
  cases next with
  | some beat =>
      refine ⟨fun other hother => ?_, hclosed⟩
      rcases List.mem_append.mp hother with hbefore | hnew
      · exact hopened other hbefore
      · exact hnext other (congrArg some (List.mem_singleton.mp hnew).symm)
  | none =>
      refine ⟨fun other hother => ?_, fun image himage => ?_⟩
      · rw [observe_none_opened] at hother
        exact absurd hother List.not_mem_nil
      · rw [observe_none_closed, all] at himage
        split at himage
        · exact hclosed image himage
        · rcases List.mem_append.mp himage with hbefore | hnew
          · exact hclosed image hbefore
          · rw [List.mem_singleton.mp hnew]
            exact hopened

end Envelopes

theorem filterMap_sublist {f g : α → Option β} {items : List α}
    (himp : ∀ item ∈ items, ∀ result, f item = some result → g item = some result) :
    (items.filterMap f).Sublist (items.filterMap g) := by
  induction items with
  | nil => exact List.Sublist.refl _
  | cons item items ih =>
      have hrest := ih fun other hother => himp other (List.mem_cons_of_mem item hother)
      rw [List.filterMap_cons, List.filterMap_cons]
      cases hitem : f item with
      | none =>
          cases g item with
          | none => exact hrest
          | some result => exact hrest.cons result
      | some result =>
          rw [himp item List.mem_cons_self result hitem]
          exact hrest.cons_cons result

/-- What a function makes of the images, where it makes the same of the originals. -/
theorem filterMap_sublist_of_forall₂ {related : α → β → Prop} {f : β → Option γ}
    {g : α → Option γ} {items : List α} {images : List β}
    (hrelated : List.Forall₂ related items images)
    (himp : ∀ item image, related item image → ∀ result, f image = some result →
      g item = some result) :
    (images.filterMap f).Sublist (items.filterMap g) := by
  induction hrelated with
  | nil => exact List.Sublist.refl _
  | @cons item image items images hhead _ ih =>
      rw [List.filterMap_cons, List.filterMap_cons]
      cases himage : f image with
      | none =>
          cases g item with
          | none => exact ih
          | some result => exact ih.cons result
      | some result =>
          rw [himp item image hhead result himage]
          exact ih.cons_cons result

/-- Where the images of the envelopes show in order, those through which `f` sees
something are originals through which `g` sees the same. -/
theorem Envelopes.Delivers.sublist {image : List α → List β → Prop} {sent : List (List α)}
    {got : Envelopes β} (hdelivers : Envelopes.Delivers image sent got) {f : List β → Option γ}
    {g : List α → Option γ} (hnone : f [] = none)
    (himp : ∀ frame shows, image frame shows → ∀ result, f shows = some result →
      g frame = some result) :
    (got.closed.filterMap f).Sublist (sent.filterMap g) := by
  obtain ⟨images, rest, himages, hshown, -⟩ := hdelivers
  have hsame : (shown images).filterMap f = images.filterMap f := by
    rw [shown, List.filterMap_filter]
    refine List.filterMap_congr fun shows _ => ?_
    cases shows with
    | nil => rw [hnone]; rfl
    | cons beat beats => rfl
  refine List.Sublist.trans ?_ (filterMap_sublist_of_forall₂ himages himp)
  rw [← hsame, hshown, List.filterMap_append]
  exact List.sublist_append_left _ _

end EmacZero
