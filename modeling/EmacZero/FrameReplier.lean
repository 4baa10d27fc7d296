/-
A responder that takes requests one at a time and hands a frame on for each: which
frames are out, and how soon those of the requests taken so far are.
-/
import EmacZero.FrameSender

namespace EmacZero

universe u v w x

/-- The requests taken, whether the last of them is waiting for its turn, the place in its
reply if that is being handed on, the output register and what the receiver has. -/
structure Replier (ρ : Type u) (α : Type v) where
  requests : List ρ
  pending : Bool
  place : Option Nat
  slice : OutSlice α
  sent : FrameLog α

namespace Replier

variable {ρ : Type u} {α : Type v} {frame : Nat → ρ → List α} {replier next : Replier ρ α}
  {outReady : Bool} {offer : OutSlice α}

/-- The frames for requests; `frame` is given the number of the request. -/
def replies (frame : Nat → ρ → List α) (requests : List ρ) : List (List α) :=
  requests.mapIdx frame

theorem length_replies (requests : List ρ) :
    (replies frame requests).length = requests.length := List.length_mapIdx

theorem replies_concat (requests : List ρ) (request : ρ) :
    replies frame (requests ++ [request]) =
      replies frame requests ++ [frame requests.length request] := List.mapIdx_concat

/-- The reply to the last request. -/
def reply (frame : Nat → ρ → List α) (replier : Replier ρ α) : List α :=
  (replies frame replier.requests).getLastD []

theorem reply_eq {before : List ρ} {request : ρ}
    (hrequests : replier.requests = before ++ [request]) :
    replier.reply frame = frame before.length request := by
  rw [reply, hrequests, replies_concat, List.getLastD_concat]

/-- The sender that the responder is. -/
def sender (frame : Nat → ρ → List α) (replier : Replier ρ α) : FrameSender α α where
  started := replies frame
    (if replier.pending then replier.requests.dropLast else replier.requests)
  rest := replier.place.elim [] fun place => (replier.reply frame).drop place
  slice := replier.slice
  sent := replier.sent

/-- A reply is pending or active: not all of it has come into the register. -/
def replying (replier : Replier ρ α) : Bool :=
  (replier.slice.pour replier.sent).whole.length < replier.requests.length

/-- At most one request is waiting or being answered. -/
structure Holds (frame : Nat → ρ → List α) (replier : Replier ρ α) : Prop where
  pending : replier.pending = true → replier.requests ≠ [] ∧ replier.place = none
  within : ∀ place, replier.place = some place →
    replier.requests ≠ [] ∧ place < (replier.reply frame).length
  out : (replier.sender frame).Holds Eq

/-- A cycle of the responder. -/
inductive Moves (frame : Nat → ρ → List α) (replier next : Replier ρ α) (outReady : Bool) :
    Prop
  | rest (accepted : Option ρ) (offer : OutSlice α) (hpending : replier.pending = false)
      (hplace : replier.place = none) (hoffer : offer.valid = false)
      (hrequests : next.requests = replier.requests ++ accepted.toList)
      (hpending' : next.pending = accepted.isSome) (hplace' : next.place = none)
      (hslice : next.slice = replier.slice.clkEdge offer outReady)
      (hsent : next.sent = replier.slice.take replier.sent outReady)
  | begin (offer : OutSlice α) (hpending : replier.pending = true)
      (hoffer : offer.valid = false) (hsome : replier.reply frame ≠ [])
      (hrequests : next.requests = replier.requests) (hpending' : next.pending = false)
      (hplace' : next.place = some 0)
      (hslice : next.slice = replier.slice.clkEdge offer outReady)
      (hsent : next.sent = replier.slice.take replier.sent outReady)
  | walk (offer : OutSlice α) (place : Nat) (hpending : replier.pending = false)
      (hplace : replier.place = some place) (hoffer : offer.valid = true)
      (hlast : offer.last = true ↔ place + 1 = (replier.reply frame).length)
      (hdata : (replier.reply frame)[place]? = some offer.data)
      (hrequests : next.requests = replier.requests) (hpending' : next.pending = false)
      (hplace' : next.place =
        if replier.slice.ready outReady then
          if place + 1 = (replier.reply frame).length then none else some (place + 1)
        else some place)
      (hslice : next.slice = replier.slice.clkEdge offer outReady)
      (hsent : next.sent = replier.slice.take replier.sent outReady)

theorem started_concat {before : List ρ} {request : ρ}
    (hrequests : replier.requests = before ++ [request]) (hpending : replier.pending = true) :
    (replier.sender frame).started = replies frame before := by
  rw [sender, hpending, if_pos rfl, hrequests, List.dropLast_concat]

theorem started_of_not_pending (hpending : replier.pending = false) :
    (replier.sender frame).started = replies frame replier.requests := by
  rw [sender, hpending, if_neg Bool.false_ne_true]

theorem sender_rest (hplace : replier.place = none) : (replier.sender frame).rest = [] := by
  rw [sender, hplace]
  rfl

/-- The responder moves as its sender does. -/
theorem Moves.sends (hmoves : Moves frame replier next outReady) (hholds : replier.Holds frame) :
    FrameSender.Moves Eq (replier.sender frame) (next.sender frame) outReady := by
  cases hmoves with
  | rest accepted offer hpending hplace hoffer hrequests hpending' hplace' hslice hsent =>
      refine .idle offer (sender_rest hplace) hoffer hslice hsent (.inl ⟨sender_rest hplace', ?_⟩)
      rw [started_of_not_pending hpending]
      cases accepted with
      | none =>
          rw [started_of_not_pending hpending', hrequests, Option.toList_none, List.append_nil]
      | some request => rw [started_concat hrequests hpending']
  | begin offer hpending hoffer hsome hrequests hpending' hplace' hslice hsent =>
      obtain ⟨hne, hplace⟩ := hholds.pending hpending
      obtain ⟨before, request, hbefore⟩ := (List.eq_nil_or_concat' _).resolve_left hne
      have hrest : (next.sender frame).rest = replier.reply frame := by
        rw [sender, hplace', reply, hrequests]
        rfl
      refine .idle offer (sender_rest hplace) hoffer hslice hsent (.inr ⟨?_, ?_⟩)
      · rw [hrest]
        exact hsome
      · rw [hrest, started_of_not_pending hpending', started_concat hbefore hpending, hrequests,
          reply_eq hbefore, hbefore, replies_concat]
  | walk offer place hpending hplace hoffer hlast hdata hrequests hpending' hplace' hslice hsent =>
      obtain ⟨-, hwithin⟩ := hholds.within place hplace
      have hreply : next.reply frame = replier.reply frame := by rw [reply, reply, hrequests]
      refine FrameSender.moves_within hwithin ?_ hoffer ?_ ?_ hslice hsent ?_ ?_
      · rw [sender, hplace]
        rfl
      · rw [Bool.eq_iff_iff, beq_iff_eq]
        exact hlast
      · rw [List.getElem?_eq_getElem hwithin] at hdata
        exact Option.some.inj hdata
      · rw [started_of_not_pending hpending', started_of_not_pending hpending, hrequests]
      · change (next.place.elim [] fun place => (next.reply frame).drop place) =
          (replier.reply frame).drop
            (if replier.slice.ready outReady then place + 1 else place)
        rw [hplace', hreply]
        split
        · split
          · rename_i hend
            rw [hend, List.drop_length]
            rfl
          · rfl
        · rfl

theorem Holds.moves (hholds : replier.Holds frame)
    (hmoves : Moves frame replier next outReady) : next.Holds frame := by
  have hout := hholds.out.moves (hmoves.sends hholds)
  cases hmoves with
  | rest accepted offer hpending hplace hoffer hrequests hpending' hplace' hslice hsent =>
      refine ⟨fun hwaits => ⟨?_, hplace'⟩, fun place hbusy => ?_, hout⟩
      · obtain ⟨request, hsome⟩ := Option.isSome_iff_exists.mp (hpending'.symm.trans hwaits)
        rw [hrequests, hsome]
        exact List.concat_ne_nil _ _
      · rw [hplace'] at hbusy
        exact nomatch hbusy
  | begin offer hpending hoffer hsome hrequests hpending' hplace' hslice hsent =>
      refine ⟨fun hwaits => ?_, fun place hbusy => ?_, hout⟩
      · rw [hpending'] at hwaits
        exact nomatch hwaits
      · rw [hplace', Option.some.injEq] at hbusy
        rw [← hbusy, hrequests, reply, hrequests]
        exact ⟨(hholds.pending hpending).1, List.length_pos_iff_ne_nil.mpr hsome⟩
  | walk offer place hpending hplace hoffer hlast hdata hrequests hpending' hplace' hslice hsent =>
      obtain ⟨hne, hwithin⟩ := hholds.within place hplace
      refine ⟨fun hwaits => ?_, fun place' hbusy => ?_, hout⟩
      · rw [hpending'] at hwaits
        exact nomatch hwaits
      · rw [hplace'] at hbusy
        rw [hrequests, reply, hrequests]
        refine ⟨hne, ?_⟩
        change place' < (replier.reply frame).length
        split at hbusy
        · split at hbusy
          · exact nomatch hbusy
          · rename_i hmore
            rw [← Option.some.inj hbusy]
            omega
        · rw [← Option.some.inj hbusy]
          exact hwithin

/-- Whether a reply is pending or active is seen from what is out. -/
theorem Holds.replying_eq (hholds : replier.Holds frame) :
    replier.replying = (replier.pending || replier.place.isSome) := by
  have hhanded := hholds.out.length_handed
  change (replier.slice.pour replier.sent).whole.length + _ = _ at hhanded
  rw [replying, Bool.eq_iff_iff, decide_eq_true_iff, Bool.or_eq_true]
  cases hpending : replier.pending with
  | true =>
      obtain ⟨hne, hplace⟩ := hholds.pending hpending
      have hpos := List.length_pos_iff_ne_nil.mpr hne
      rw [if_pos (sender_rest hplace), sender, hpending, if_pos rfl, length_replies,
        List.length_dropLast] at hhanded
      exact ⟨fun _ => .inl rfl, fun _ => by omega⟩
  | false =>
      rw [started_of_not_pending hpending, length_replies] at hhanded
      cases hplace : replier.place with
      | none =>
          rw [if_pos (sender_rest hplace)] at hhanded
          simp only [Option.isSome_none, Bool.false_eq_true, or_self, iff_false]
          omega
      | some place =>
          have hrest : (replier.sender frame).rest ≠ [] := by
            rw [sender, hplace]
            exact List.drop_eq_nil_iff.not.mpr (by have := (hholds.within place hplace).2; omega)
          rw [if_neg hrest] at hhanded
          exact ⟨fun _ => .inr rfl, fun _ => by omega⟩

theorem Holds.started_begins (hholds : replier.Holds frame) :
    (replier.sender frame).started <+: replies frame replier.requests := by
  cases hpending : replier.pending with
  | false =>
      exact (started_of_not_pending hpending).symm ▸ List.prefix_refl _
  | true =>
      obtain ⟨hne, -⟩ := hholds.pending hpending
      obtain ⟨before, request, hbefore⟩ := (List.eq_nil_or_concat' _).resolve_left hne
      rw [started_concat hbefore hpending, hbefore, replies_concat]
      exact List.prefix_append _ _

/-- The replies that are out, with the beginning of the next. -/
theorem Holds.out_replies (hholds : replier.Holds frame) :
    ∃ owed, replies frame replier.requests = replier.sent.whole ++ owed ∧
      replier.sent.part <+: owed.headD [] := hholds.out.out_of_started hholds.started_begins

/-- The reply to a request has begun at the latest in the next cycle. -/
theorem Moves.started_next (hmoves : Moves frame replier next outReady) :
    replier.requests.length ≤ (next.sender frame).started.length := by
  cases hmoves with
  | rest accepted offer hpending hplace hoffer hrequests hpending' hplace' hslice hsent =>
      cases accepted with
      | none =>
          rw [started_of_not_pending hpending', length_replies, hrequests, List.length_append]
          exact Nat.le_add_right _ _
      | some request => rw [started_concat hrequests hpending', length_replies]
  | begin offer hpending hoffer hsome hrequests hpending' hplace' hslice hsent =>
      rw [started_of_not_pending hpending', length_replies, hrequests]
  | walk offer place hpending hplace hoffer hlast hdata hrequests hpending' hplace' hslice hsent =>
      rw [started_of_not_pending hpending', length_replies, hrequests]

/-- The replies to the requests taken are out when the receiver has been ready often enough. -/
theorem sent_along {S : Type w} {E : Type x} {step : S → E → S} {ok : S → E → Prop}
    {inv : S → Prop} (view : S → Replier ρ α) (outReady : E → Bool) {bound : Nat}
    (hinv : ∀ state event, ok state event → inv state → inv (step state event))
    (hmoves : ∀ state event, ok state event → inv state →
      Moves frame (view state) (view (step state event)) (outReady event))
    (hholds : ∀ state, inv state → (view state).Holds frame)
    (hbound : ∀ state, inv state → ((view state).reply frame).length ≤ bound)
    {start : S} {events : List E} (hok : Along step ok start events) (hstart : inv start)
    (henough : bound + 2 ≤ events.countP outReady) :
    (view start).requests.length ≤ (view (runFrom step start events)).sent.whole.length := by
  cases events with
  | nil => exact absurd henough (by rw [List.countP_nil]; omega)
  | cons event rest =>
      have hnext := hinv start event hok.1 hstart
      have hsends : ∀ state event, ok state event → inv state →
          FrameSender.Moves Eq ((view state).sender frame) ((view (step state event)).sender frame)
            (outReady event) := fun state event hok' hinv' =>
        (hmoves state event hok' hinv').sends (hholds state hinv')
      have hrest : ((view (step start event)).sender frame).rest.length ≤ bound := by
        refine le_trans ?_ (hbound _ hnext)
        rw [sender]
        cases (view (step start event)).place with
        | none => exact Nat.zero_le _
        | some place =>
            rw [Option.elim_some, List.length_drop]
            exact Nat.sub_le _ _
      rw [List.countP_cons] at henough
      rw [runFrom_cons]
      refine FrameSender.sent_along (fun state => (view state).sender frame) outReady hinv hsends
        hok.2 hnext (hholds _ hnext).out (hmoves start event hok.1 hstart).started_next ?_
      split at henough <;> omega

end Replier

end EmacZero
