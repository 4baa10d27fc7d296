/-
Runs of a machine that takes one event at a time, and the induction rules that
carry an invariant along them.  Several clocks make one such machine: an event
is one edge of one clock, and a list of events is one interleaving of edges.
-/
import Mathlib.Data.List.Basic

namespace EmacZero

universe u v

variable {S : Type u} {E : Type v}

/-- The state after a list of events, oldest first. -/
def runFrom (step : S → E → S) (start : S) (events : List E) : S :=
  events.foldl step start

@[simp] theorem runFrom_nil (step : S → E → S) (start : S) :
    runFrom step start [] = start := rfl

@[simp] theorem runFrom_cons (step : S → E → S) (start : S) (event : E)
    (rest : List E) :
    runFrom step start (event :: rest) =
      runFrom step (step start event) rest := rfl

theorem runFrom_append (step : S → E → S) (start : S)
    (first second : List E) :
    runFrom step start (first ++ second) =
      runFrom step (runFrom step start first) second := by
  simp [runFrom]

/-- Every event of the run satisfies `ok` in the state it is taken from. -/
def Along (step : S → E → S) (ok : S → E → Prop) : S → List E → Prop
  | _, [] => True
  | state, event :: rest => ok state event ∧ Along step ok (step state event) rest

instance decidableAlong (step : S → E → S) (ok : S → E → Prop)
    [∀ state event, Decidable (ok state event)] (start : S) (events : List E) :
    Decidable (Along step ok start events) :=
  match events with
  | [] => isTrue trivial
  | event :: rest =>
      have := decidableAlong step ok (step start event) rest
      inferInstanceAs (Decidable (_ ∧ _))

theorem along_append {step : S → E → S} {ok : S → E → Prop} {start : S}
    {first second : List E} :
    Along step ok start (first ++ second) ↔
      Along step ok start first ∧
        Along step ok (runFrom step start first) second := by
  induction first generalizing start with
  | nil => simp [Along]
  | cons event rest ih => simp [Along, ih, and_assoc]

/-- A guard that always holds holds along every run. -/
theorem along_of_forall {step : S → E → S} {ok : S → E → Prop}
    (hok : ∀ state event, ok state event) (start : S) (events : List E) :
    Along step ok start events := by
  induction events generalizing start with
  | nil => trivial
  | cons event rest ih => exact ⟨hok start event, ih (step start event)⟩

/-- A guard on the events alone holds along a run of such events. -/
theorem along_of_mem {step : S → E → S} {ok : E → Prop} {events : List E}
    (hok : ∀ event ∈ events, ok event) (start : S) :
    Along step (fun _ event => ok event) start events := by
  induction events generalizing start with
  | nil => trivial
  | cons event rest ih =>
      exact ⟨hok event List.mem_cons_self,
        ih (fun other hother => hok other (List.mem_cons_of_mem event hother)) _⟩

/-- The invariant rule for runs whose events meet a guard. -/
theorem invariant_along {step : S → E → S} {ok : S → E → Prop}
    {inv : S → Prop}
    (hstep : ∀ state event, ok state event → inv state →
      inv (step state event))
    {start : S} (hstart : inv start) {events : List E}
    (hok : Along step ok start events) : inv (runFrom step start events) := by
  induction events generalizing start with
  | nil => exact hstart
  | cons event rest ih =>
      exact ih (hstep start event hok.1 hstart) hok.2

/-- What a guard and an invariant say of every event holds along the run. -/
theorem along_of_invariant {step : S → E → S} {ok other : S → E → Prop} {inv : S → Prop}
    (hstep : ∀ state event, ok state event → inv state → inv (step state event))
    (hother : ∀ state event, ok state event → inv state → other state event)
    {start : S} (hstart : inv start) {events : List E} (hok : Along step ok start events) :
    Along step other start events := by
  induction events generalizing start with
  | nil => trivial
  | cons event rest ih =>
      exact ⟨hother start event hok.1 hstart, ih (hstep start event hok.1 hstart) hok.2⟩

/-- A weaker guard. -/
theorem along_mono {step : S → E → S} {ok other : S → E → Prop}
    (himp : ∀ state event, ok state event → other state event) {start : S}
    {events : List E} (hok : Along step ok start events) : Along step other start events :=
  have htrue : ∀ state event, ok state event → True → True := fun _ _ _ _ => trivial
  along_of_invariant htrue (fun state event hok _ => himp state event hok) trivial hok

/-- Two guards at once. -/
theorem along_and {step : S → E → S} {ok other : S → E → Prop} {start : S} {events : List E}
    (hok : Along step ok start events) (hother : Along step other start events) :
    Along step (fun state event => ok state event ∧ other state event) start events := by
  induction events generalizing start with
  | nil => trivial
  | cons event rest ih => exact ⟨⟨hok.1, hother.1⟩, ih hok.2 hother.2⟩

/-- The invariant rule for arbitrary runs. -/
theorem invariant_runFrom {step : S → E → S} {inv : S → Prop}
    (hstep : ∀ state event, inv state → inv (step state event))
    {start : S} (hstart : inv start) (events : List E) :
    inv (runFrom step start events) :=
  have hfree : Along step (fun _ _ => True) start events :=
    along_of_forall (fun _ _ => trivial) start events
  invariant_along (fun state event _ => hstep state event) hstart hfree

/-- The rule for progress: an event that counts brings the goal nearer, the
others do not take it farther away, and once reached it stays. -/
theorem reached_along {step : S → E → S} {ok : S → E → Prop}
    {counts : E → Bool} (goal : S → Prop) (waits : Nat → S → Prop)
    (hgoal : ∀ state event, ok state event → goal state →
      goal (step state event))
    (hwaits : ∀ state event left, ok state event → waits left state →
      goal (step state event) ∨
        waits (left - (counts event).toNat) (step state event))
    (hdone : ∀ state, ¬ waits 0 state) {start : S} {events : List E}
    (hok : Along step ok start events) {left : Nat}
    (hstart : goal start ∨ waits left start)
    (henough : left ≤ events.countP counts) :
    goal (runFrom step start events) := by
  induction events generalizing start left with
  | nil =>
      obtain rfl := Nat.le_zero.mp henough
      exact hstart.resolve_right (hdone start)
  | cons event rest ih =>
      have hrest : left - (counts event).toNat ≤ rest.countP counts := by
        rw [List.countP_cons] at henough
        cases hcounts : counts event <;> simp [hcounts] at henough ⊢ <;> omega
      refine ih hok.2 ?_ hrest
      rcases hstart with hreached | hleft
      · exact Or.inl (hgoal start event hok.1 hreached)
      · exact hwaits start event left hok.1 hleft

/-- A run with enough events that count falls into two such runs. -/
theorem split_countP {counts : E → Bool} {events : List E} {first second : Nat}
    (henough : first + second ≤ events.countP counts) :
    ∃ before after, events = before ++ after ∧ first ≤ before.countP counts ∧
      second ≤ after.countP counts := by
  induction events generalizing first with
  | nil =>
      rw [List.countP_nil] at henough
      exact ⟨[], [], rfl, by omega, by omega⟩
  | cons event rest ih =>
      by_cases hfirst : first = 0
      · exact ⟨[], event :: rest, rfl, by omega, by omega⟩
      · have hrest : first - (counts event).toNat + second ≤ rest.countP counts := by
          rw [List.countP_cons] at henough
          cases hcounts : counts event <;> simp [hcounts] at henough ⊢ <;> omega
        obtain ⟨before, after, hsplit, hbefore, hafter⟩ := ih hrest
        refine ⟨event :: before, after, by rw [hsplit, List.cons_append], ?_, hafter⟩
        rw [List.countP_cons]
        cases hcounts : counts event <;> simp [hcounts] at hbefore ⊢ <;> omega

end EmacZero
