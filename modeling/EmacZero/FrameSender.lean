/-
A sender that hands frames on, a word at a time, through an output register that
its receiver can stall: what is out, and how soon the rest is.
-/
import EmacZero.ClockedRun
import EmacZero.FrameLog
import Mathlib.Data.List.Forall2

namespace EmacZero

universe u v w x

/-- A register that holds the word offered to the receiver. -/
structure OutSlice (α : Type u) where
  data : α
  valid : Bool
  last : Bool
deriving Repr, DecidableEq

namespace OutSlice

variable {α : Type u} (slice offer : OutSlice α) (sent : FrameLog α) (outReady : Bool)

/-- The register is empty, or it is being emptied. -/
def ready : Bool := !slice.valid || outReady

def clkEdge : OutSlice α := if slice.ready outReady then offer else slice

/-- The receiver takes the word. -/
def take : FrameLog α :=
  if slice.valid && outReady then sent.add slice.data slice.last else sent

/-- What the receiver has once the register is empty. -/
def pour : FrameLog α := if slice.valid then sent.add slice.data slice.last else sent

theorem pour_clkEdge :
    (slice.clkEdge offer outReady).pour (slice.take sent outReady) =
      if slice.ready outReady then offer.pour (slice.pour sent) else slice.pour sent := by
  obtain ⟨data, valid, last⟩ := slice
  cases valid <;> cases outReady <;> rfl

theorem le_whole_take : sent.whole.length ≤ (slice.take sent outReady).whole.length := by
  rw [take, FrameLog.add]
  split
  · split
    · rw [List.length_append]
      exact Nat.le_add_right _ _
    · exact Nat.le_refl _
  · exact Nat.le_refl _

end OutSlice

/-- The frames begun, what of the last of them is not in the register yet, the register
and what the receiver has. -/
structure FrameSender (τ : Type u) (α : Type v) where
  started : List (List τ)
  rest : List τ
  slice : OutSlice α
  sent : FrameLog α

namespace FrameSender

variable {τ : Type u} {α : Type v} {fits : τ → α → Prop} {sender next : FrameSender τ α}
  {outReady : Bool} {offer : OutSlice α} {frames : Nat}

/-- What has come into the register. -/
def handed (sender : FrameSender τ α) : FrameLog α := sender.slice.pour sender.sent

/-- The frames in the register's log are those begun, word for word. -/
structure Holds (fits : τ → α → Prop) (sender : FrameSender τ α) : Prop where
  idle : sender.rest = [] → sender.handed.part = [] ∧
    List.Forall₂ (List.Forall₂ fits) sender.started sender.handed.whole
  busy : sender.rest ≠ [] → ∃ before gone, sender.started = before ++ [gone ++ sender.rest] ∧
    List.Forall₂ (List.Forall₂ fits) before sender.handed.whole ∧
    List.Forall₂ fits gone sender.handed.part

/-- A cycle of the sender. Between frames it offers nothing and may begin one; within
a frame it offers the next word until the register takes it. -/
inductive Moves (fits : τ → α → Prop) (sender next : FrameSender τ α) (outReady : Bool) : Prop
  | idle (offer : OutSlice α) (hrest : sender.rest = []) (hoffer : offer.valid = false)
      (hslice : next.slice = sender.slice.clkEdge offer outReady)
      (hsent : next.sent = sender.slice.take sender.sent outReady)
      (hstart : next.rest = [] ∧ next.started = sender.started ∨
        next.rest ≠ [] ∧ next.started = sender.started ++ [next.rest])
  | busy (offer : OutSlice α) (head : τ) (tail : List τ) (hrest : sender.rest = head :: tail)
      (hoffer : offer.valid = true) (hlast : offer.last = tail.isEmpty)
      (hdata : fits head offer.data)
      (hslice : next.slice = sender.slice.clkEdge offer outReady)
      (hsent : next.sent = sender.slice.take sender.sent outReady)
      (hstarted : next.started = sender.started)
      (hnext : next.rest = if sender.slice.ready outReady then tail else sender.rest)

theorem handed_next (hslice : next.slice = sender.slice.clkEdge offer outReady)
    (hsent : next.sent = sender.slice.take sender.sent outReady) :
    next.handed =
      if sender.slice.ready outReady then offer.pour sender.handed else sender.handed := by
  rw [handed, hslice, hsent, OutSlice.pour_clkEdge]
  rfl

theorem handed_idle (hoffer : offer.valid = false)
    (hslice : next.slice = sender.slice.clkEdge offer outReady)
    (hsent : next.sent = sender.slice.take sender.sent outReady) :
    next.handed = sender.handed := by
  rw [handed_next hslice hsent, OutSlice.pour, hoffer, if_neg Bool.false_ne_true, ite_self]

theorem Holds.moves (hholds : sender.Holds fits) (hmoves : Moves fits sender next outReady) :
    next.Holds fits := by
  cases hmoves with
  | idle offer hrest hoffer hslice hsent hstart =>
      have hsame := handed_idle hoffer hslice hsent
      obtain ⟨hpart, hwhole⟩ := hholds.idle hrest
      rcases hstart with ⟨hnone, hstarted⟩ | ⟨hsome, hstarted⟩
      · refine ⟨fun _ => ?_, fun hne => absurd hnone hne⟩
        rw [hsame, hstarted]
        exact ⟨hpart, hwhole⟩
      · refine ⟨fun hnone => absurd hnone hsome, fun _ => ⟨_, [], hstarted, ?_, ?_⟩⟩
        · rw [hsame]
          exact hwhole
        · rw [hsame, hpart]
          exact .nil
  | busy offer head tail hrest hoffer hlast hdata hslice hsent hstarted hnext =>
      have hhanded := handed_next hslice hsent
      obtain ⟨before, gone, hframe, hwhole, hpart⟩ :=
        hholds.busy (by rw [hrest]; exact List.cons_ne_nil _ _)
      cases hready : sender.slice.ready outReady with
      | false =>
          rw [hready, if_neg Bool.false_ne_true] at hhanded hnext
          refine ⟨fun hnone => ?_, fun _ => ⟨before, gone, ?_, ?_, ?_⟩⟩
          · rw [hnext, hrest] at hnone
            exact absurd hnone (List.cons_ne_nil _ _)
          · rw [hstarted, hnext, hframe]
          · rw [hhanded]
            exact hwhole
          · rw [hhanded]
            exact hpart
      | true =>
          rw [hready, if_pos rfl] at hhanded hnext
          rw [OutSlice.pour, hoffer, if_pos rfl, hlast] at hhanded
          have hmore : List.Forall₂ fits (gone ++ [head]) (sender.handed.part ++ [offer.data]) :=
            List.rel_append hpart (.cons hdata .nil)
          cases tail with
          | nil =>
              refine ⟨fun _ => ?_, fun hne => absurd hnext hne⟩
              rw [hhanded, hstarted, hframe, hrest]
              exact ⟨rfl, List.rel_append hwhole (.cons hmore .nil)⟩
          | cons second rest =>
              refine ⟨fun hnone => ?_, fun _ => ⟨before, gone ++ [head], ?_, ?_, ?_⟩⟩
              · rw [hnext] at hnone
                exact absurd hnone (List.cons_ne_nil _ _)
              · rw [hstarted, hframe, hrest, hnext, List.append_assoc]
                rfl
              · rw [hhanded]
                exact hwhole
              · rw [hhanded]
                exact hmore

/-- All frames begun are in the register's log but the one that is being handed on. -/
theorem Holds.length_handed (hholds : sender.Holds fits) :
    sender.handed.whole.length + (if sender.rest = [] then 0 else 1) = sender.started.length := by
  by_cases hrest : sender.rest = []
  · rw [if_pos hrest, (hholds.idle hrest).2.length_eq]
    rfl
  · obtain ⟨before, gone, hstarted, hwhole, -⟩ := hholds.busy hrest
    rw [if_neg hrest, hstarted, List.length_append, hwhole.length_eq]
    rfl

/-- The register has the frames begun but the last one, and the beginning of that. -/
theorem Holds.out_handed (hholds : sender.Holds fits) :
    ∃ done owed gone, sender.started = done ++ owed ∧
      List.Forall₂ (List.Forall₂ fits) done sender.handed.whole ∧
      List.Forall₂ fits gone sender.handed.part ∧ gone <+: owed.headD [] := by
  by_cases hrest : sender.rest = []
  · obtain ⟨hpart, hwhole⟩ := hholds.idle hrest
    exact ⟨sender.started, [], [], (List.append_nil _).symm, hwhole, by rw [hpart]; exact .nil,
      List.nil_prefix⟩
  · obtain ⟨before, gone, hstarted, hwhole, hpart⟩ := hholds.busy hrest
    exact ⟨before, _, gone, hstarted, hwhole, hpart, List.prefix_append _ _⟩

/-- The receiver has the frames begun but the last ones, and the beginning of the next. -/
theorem Holds.out (hholds : sender.Holds fits) :
    ∃ done owed gone, sender.started = done ++ owed ∧
      List.Forall₂ (List.Forall₂ fits) done sender.sent.whole ∧
      List.Forall₂ fits gone sender.sent.part ∧ gone <+: owed.headD [] := by
  obtain ⟨done, owed, gone, hstarted, hwhole, hpart, hgone⟩ := hholds.out_handed
  rw [handed, OutSlice.pour] at hwhole hpart
  cases hvalid : sender.slice.valid with
  | false =>
      rw [hvalid, if_neg Bool.false_ne_true] at hwhole hpart
      exact ⟨done, owed, gone, hstarted, hwhole, hpart, hgone⟩
  | true =>
      rw [hvalid, if_pos rfl, FrameLog.add] at hwhole hpart
      cases hlast : sender.slice.last with
      | false =>
          rw [hlast, if_neg Bool.false_ne_true] at hwhole hpart
          exact ⟨done, owed, _, hstarted, hwhole, List.forall₂_take_append _ _ _ hpart,
            (List.take_prefix _ _).trans hgone⟩
      | true =>
          rw [hlast, if_pos rfl] at hwhole
          have hrest := List.forall₂_drop_append _ _ _ hwhole
          obtain ⟨frame, rest, hframe, hnone, hdrop⟩ := List.forall₂_cons_right_iff.mp hrest
          rw [List.forall₂_nil_right_iff] at hnone
          refine ⟨_, done.drop sender.sent.whole.length ++ owed, _, ?_,
            List.forall₂_take_append _ _ _ hwhole, List.forall₂_take_append _ _ _ hframe, ?_⟩
          · rw [hstarted, ← List.append_assoc, List.take_append_drop]
          · rw [hdrop]
            exact List.take_prefix _ _

/-- Frames word for word. -/
theorem Holds.out_eq {sender : FrameSender α α} (hholds : sender.Holds Eq) :
    ∃ owed, sender.started = sender.sent.whole ++ owed ∧ sender.sent.part <+: owed.headD [] := by
  obtain ⟨done, owed, gone, hstarted, hwhole, hpart, hgone⟩ := hholds.out
  rw [List.forall₂_eq_eq_eq] at hwhole hpart
  rw [List.forall₂_eq_eq_eq] at hwhole
  subst hwhole hpart
  exact ⟨owed, hstarted, hgone⟩

/-- The same of a list of frames whose beginning has begun. -/
theorem Holds.out_of_started {sender : FrameSender α α} (hholds : sender.Holds Eq)
    {replies : List (List α)} (hstarted : sender.started <+: replies) :
    ∃ owed, replies = sender.sent.whole ++ owed ∧ sender.sent.part <+: owed.headD [] := by
  obtain ⟨owed, hout, hpart⟩ := hholds.out_eq
  obtain ⟨more, hmore⟩ := hstarted
  refine ⟨owed ++ more, by rw [← hmore, hout, List.append_assoc], ?_⟩
  cases owed with
  | nil =>
      rw [List.prefix_nil.mp hpart]
      exact List.nil_prefix
  | cons frame rest => exact hpart

/-- A cycle within a frame, said by the place in it. -/
theorem moves_within {frame : List τ} {place : Nat} (hplace : place < frame.length)
    (hrest : sender.rest = frame.drop place) (hoffer : offer.valid = true)
    (hlast : offer.last = (place + 1 == frame.length)) (hdata : fits frame[place] offer.data)
    (hslice : next.slice = sender.slice.clkEdge offer outReady)
    (hsent : next.sent = sender.slice.take sender.sent outReady)
    (hstarted : next.started = sender.started)
    (hnext : next.rest = frame.drop
      (if sender.slice.ready outReady then place + 1 else place)) :
    Moves fits sender next outReady := by
  refine .busy offer frame[place] (frame.drop (place + 1)) ?_ hoffer ?_ hdata hslice hsent
    hstarted ?_
  · rw [hrest]
    exact List.drop_eq_getElem_cons hplace
  · rw [hlast, Bool.eq_iff_iff, beq_iff_eq, List.isEmpty_iff, List.drop_eq_nil_iff]
    omega
  · rw [hnext]
    cases sender.slice.ready outReady with
    | false => exact hrest.symm
    | true => rfl

theorem Moves.le_started (hmoves : Moves fits sender next outReady) :
    sender.started.length ≤ next.started.length := by
  cases hmoves with
  | idle offer hrest hoffer hslice hsent hstart =>
      rcases hstart with ⟨-, hstarted⟩ | ⟨-, hstarted⟩
      · rw [hstarted]
      · rw [hstarted, List.length_append]
        exact Nat.le_add_right _ _
  | busy offer head tail hrest hoffer hlast hdata hslice hsent hstarted hnext => rw [hstarted]

theorem Moves.sent_eq (hmoves : Moves fits sender next outReady) :
    next.sent = sender.slice.take sender.sent outReady := by
  cases hmoves with
  | idle offer hrest hoffer hslice hsent hstart => exact hsent
  | busy offer head tail hrest hoffer hlast hdata hslice hsent hstarted hnext => exact hsent

/-- Cycles with a ready receiver that are left until it has the first `frames` frames. -/
def left (sender : FrameSender τ α) (frames : Nat) : Nat :=
  if frames ≤ sender.handed.whole.length then sender.slice.valid.toNat
  else sender.rest.length + 1

theorem left_le (sender : FrameSender τ α) (frames : Nat) :
    sender.left frames ≤ sender.rest.length + 1 := by
  rw [left]
  split
  · exact sender.slice.valid.toNat_le.trans (Nat.le_add_left 1 _)
  · exact Nat.le_refl _

/-- A frame that the register has and the receiver has not: the register holds its last word. -/
theorem valid_of_handed (hhanded : frames ≤ sender.handed.whole.length)
    (howed : sender.sent.whole.length < frames) : sender.slice.valid = true := by
  by_contra hempty
  rw [handed, OutSlice.pour, if_neg hempty] at hhanded
  omega

theorem left_pos (howed : sender.sent.whole.length < frames) : 0 < sender.left frames := by
  rw [left]
  split
  · rename_i hhanded
    rw [valid_of_handed hhanded howed]
    exact Nat.one_pos
  · exact Nat.succ_pos _

/-- The register holds the last word of a frame until the receiver takes it. -/
theorem stalled_or_out (hhanded : frames ≤ sender.handed.whole.length)
    (howed : sender.sent.whole.length < frames)
    (hslice : next.slice = sender.slice.clkEdge offer outReady)
    (hsent : next.sent = sender.slice.take sender.sent outReady) :
    frames ≤ next.sent.whole.length ∨ next.left frames + outReady.toNat ≤ sender.left frames := by
  have hvalid := valid_of_handed hhanded howed
  cases outReady with
  | true =>
      rw [handed, OutSlice.pour, hvalid, if_pos rfl] at hhanded
      refine .inl ?_
      rw [hsent, OutSlice.take, hvalid]
      exact hhanded
  | false =>
      have hstalled : sender.slice.ready false = false := by rw [OutSlice.ready, hvalid]; rfl
      have hsame := handed_next hslice hsent
      rw [hstalled, if_neg Bool.false_ne_true] at hsame
      rw [OutSlice.clkEdge, hstalled, if_neg Bool.false_ne_true] at hslice
      refine .inr ?_
      rw [left, left, hsame, hslice, if_pos hhanded, if_pos hhanded]
      exact Nat.le_refl _

/-- While a frame that has begun is not out, each cycle with a ready receiver brings it nearer. -/
theorem Moves.left_le (hmoves : Moves fits sender next outReady) (hholds : sender.Holds fits)
    (hframes : frames ≤ sender.started.length) (howed : sender.sent.whole.length < frames) :
    frames ≤ next.sent.whole.length ∨ next.left frames + outReady.toNat ≤ sender.left frames := by
  cases hmoves with
  | idle offer hrest hoffer hslice hsent hstart =>
      have hhanded : frames ≤ sender.handed.whole.length := by
        rw [← (hholds.idle hrest).2.length_eq]
        exact hframes
      exact stalled_or_out hhanded howed hslice hsent
  | busy offer head tail hrest hoffer hlast hdata hslice hsent hstarted hnext =>
      by_cases hdone : frames ≤ sender.handed.whole.length
      · exact stalled_or_out hdone howed hslice hsent
      · refine .inr ?_
        have hsame := handed_next hslice hsent
        have hleft : sender.left frames = tail.length + 1 + 1 := by
          rw [left, if_neg hdone, hrest, List.length_cons]
        rw [hleft]
        cases hready : sender.slice.ready outReady with
        | false =>
            have hstalled : outReady = false := by
              rw [OutSlice.ready, Bool.or_eq_false_iff] at hready
              exact hready.2
            rw [hready, if_neg Bool.false_ne_true] at hsame hnext
            rw [left, hsame, if_neg hdone, hnext, hrest, hstalled, List.length_cons]
            exact Nat.le_refl _
        | true =>
            rw [hready, if_pos rfl] at hnext
            have hone := outReady.toNat_le
            have hbound := next.left_le frames
            rw [hnext] at hbound
            omega

/-- From any state that the sender may be in, the frames begun are out when the receiver has
been ready often enough. -/
theorem sent_along {S : Type w} {E : Type x} {step : S → E → S} {ok : S → E → Prop}
    {inv : S → Prop} (view : S → FrameSender τ α) (outReady : E → Bool)
    (hinv : ∀ state event, ok state event → inv state → inv (step state event))
    (hmoves : ∀ state event, ok state event → inv state →
      Moves fits (view state) (view (step state event)) (outReady event))
    {start : S} {events : List E} (hok : Along step ok start events) (hstart : inv start)
    (hholds : (view start).Holds fits) (hframes : frames ≤ (view start).started.length)
    (henough : (view start).rest.length < events.countP outReady) :
    frames ≤ (view (runFrom step start events)).sent.whole.length := by
  let goal : S → Prop := fun state => inv state ∧ frames ≤ (view state).sent.whole.length
  let waits : Nat → S → Prop := fun spare state =>
    inv state ∧ (view state).Holds fits ∧ frames ≤ (view state).started.length ∧
      (view state).sent.whole.length < frames ∧ (view state).left frames ≤ spare
  have hgoal : ∀ state event, ok state event → goal state → goal (step state event) := by
    intro state event hok hreached
    refine ⟨hinv state event hok hreached.1, hreached.2.trans ?_⟩
    rw [(hmoves state event hok hreached.1).sent_eq]
    exact OutSlice.le_whole_take _ _ _
  have hwaits : ∀ state event spare, ok state event → waits spare state →
      goal (step state event) ∨ waits (spare - (outReady event).toNat) (step state event) := by
    rintro state event spare hok ⟨hinv', hholds, hframes, howed, hspare⟩
    have hmove := hmoves state event hok hinv'
    by_cases hout : frames ≤ (view (step state event)).sent.whole.length
    · exact .inl ⟨hinv state event hok hinv', hout⟩
    · have hnear := (hmove.left_le hholds hframes howed).resolve_left hout
      exact .inr ⟨hinv state event hok hinv', hholds.moves hmove, hframes.trans hmove.le_started,
        Nat.lt_of_not_le hout, by omega⟩
  have hdone : ∀ state, ¬ waits 0 state := by
    rintro state ⟨-, -, -, howed, hnone⟩
    exact absurd (left_pos howed) (Nat.not_lt.mpr hnone)
  have hbegin : goal start ∨ waits ((view start).rest.length + 1) start := by
    by_cases hout : frames ≤ (view start).sent.whole.length
    · exact .inl ⟨hstart, hout⟩
    · exact .inr ⟨hstart, hholds, hframes, Nat.lt_of_not_le hout, (view start).left_le frames⟩
  exact (reached_along goal waits hgoal hwaits hdone hok hbegin henough).2

end FrameSender

end EmacZero
