/-
An observer that looks at an interface once in a period and takes one part of a beat at each
look.  Where every beat is held for as many periods as it has parts and the gaps between the
envelopes are long enough, it sees the envelopes part by part, whatever its phase.
-/
import EmacZero.HeldBeats

namespace EmacZero

universe u v

variable {β : Type u} {γ : Type v} {cycles turns least phase : Nat} {part : β → Nat → γ}
variable {wire : Spaced β} {seen : Spaced γ} {beat : Option β}

/-- What has been seen of the interface when the last look is so many cycles ago: the same
envelopes; or the last of them whole, its end not yet; or the one under way as far as there
has been time for. -/
inductive Looks (cycles turns least : Nat) (part : β → Nat → γ) (phase : Nat)
    (wire : Spaced β) (seen : Spaced γ) : Prop
  | resting (frames : List (List β))
      (hwire : wire.closed = frames.map (heldFor (turns * cycles))) (hopened : wire.opened = [])
      (hclosed : seen.closed = frames.map (inParts turns part)) (hquiet : seen.opened = [])
      (hlow : frames = [] ∨ wire.low ≤ seen.low * cycles + phase) :
      Looks cycles turns least part phase wire seen
  | ending (frames : List (List β)) (last : List β)
      (hwire : wire.closed = (frames ++ [last]).map (heldFor (turns * cycles)))
      (hopened : wire.opened = []) (hclosed : seen.closed = frames.map (inParts turns part))
      (hlast : seen.opened = inParts turns part last) (hne : last ≠ [])
      (hlow : wire.low ≤ phase) : Looks cycles turns least part phase wire seen
  | sending (frames : List (List β))
      (hwire : wire.closed = frames.map (heldFor (turns * cycles))) (hopened : wire.opened ≠ [])
      (hzero : wire.low = 0) (hclosed : seen.closed = frames.map (inParts turns part))
      (hpast : seen.opened.length * cycles + phase < wire.opened.length + cycles)
      (hnext : wire.opened.length ≤ seen.opened.length * cycles + phase)
      (hparts : ∀ beats, wire.opened <+: heldFor (turns * cycles) beats →
        seen.opened <+: inParts turns part beats)
      (hfirst : seen.opened = [] → frames = [] ∨ least ≤ seen.low) :
      Looks cycles turns least part phase wire seen

/-- Every envelope that has ended consists of beats that were held. -/
def HeldThrough (cycles : Nat) (wire : Spaced β) : Prop :=
  ∀ image ∈ wire.closed, ∃ beats, image = heldFor cycles beats

/-- The envelope that ends in this cycle, in its beats. -/
theorem HeldThrough.last (hheld : HeldThrough cycles (wire.observe none))
    (hopened : wire.opened ≠ []) :
    ∃ beats, wire.opened = heldFor cycles beats ∧ beats ≠ [] := by
  obtain ⟨beats, hbeats⟩ := hheld wire.opened (by
    rw [Spaced.observe_toEnvelopes, Envelopes.observe_none_closed,
      Envelopes.all_of_busy hopened]
    exact List.mem_append_right _ (List.mem_singleton_self _))
  refine ⟨beats, hbeats, fun hnil => hopened ?_⟩
  rw [hbeats, hnil]
  rfl

section Counts

variable {beats : List β} {taken : Nat}

theorem concat_prefix {front whole : List γ} {next : γ} (hfront : front <+: whole)
    (hnext : whole[front.length]? = some next) : front ++ [next] <+: whole := by
  obtain ⟨rest, rfl⟩ := hfront
  rw [List.getElem?_append_right (Nat.le_refl _), Nat.sub_self] at hnext
  obtain ⟨rest, rfl⟩ := List.head?_eq_some_iff.mp (List.head?_eq_getElem?.trans hnext)
  exact ⟨rest, List.append_assoc front [next] rest⟩

/-- When the envelope ends, all its parts have been seen. -/
theorem parts_whole {parts : List γ} (hphase : phase < cycles)
    (hnext : (heldFor (turns * cycles) beats).length ≤ parts.length * cycles + phase)
    (hparts : parts <+: inParts turns part beats) : parts = inParts turns part beats := by
  refine hparts.eq_of_length_le ?_
  rw [length_heldFor, ← Nat.mul_assoc] at hnext
  rw [length_inParts]
  by_contra hlt
  have hle := Nat.mul_le_mul_right cycles (Nat.succ_le_of_lt (Nat.lt_of_not_le hlt))
  rw [Nat.succ_mul] at hle
  omega

/-- The next part is seen at the beat that it belongs to. -/
theorem part_of_look {opened : List β} {parts : List γ} {head : β} (hturns : 0 < turns)
    (hpast : parts.length * cycles < opened.length + 1)
    (hnext : opened.length < parts.length * cycles + cycles)
    (hopened : opened ++ [head] <+: heldFor (turns * cycles) beats)
    (hparts : parts <+: inParts turns part beats) :
    parts ++ [part head (parts.length % turns)] <+: inParts turns part beats := by
  obtain ⟨index, hindex⟩ : ∃ index, opened.length = parts.length * cycles + index :=
    Nat.exists_eq_add_of_le (Nat.le_of_lt_succ hpast)
  have hturn : parts.length % turns < turns := Nat.mod_lt _ hturns
  have hsplit : parts.length / turns * turns + parts.length % turns = parts.length :=
    Nat.div_add_mod' _ _
  have hplace : opened.length = parts.length / turns * (turns * cycles) +
      (parts.length % turns * cycles + index) := by
    rw [hindex, ← Nat.mul_assoc, ← Nat.add_assoc, ← Nat.add_mul, hsplit]
  have hwithin : parts.length % turns * cycles + index < turns * cycles := by
    have hle := Nat.mul_le_mul_right cycles (Nat.succ_le_of_lt hturn)
    rw [Nat.succ_mul] at hle
    omega
  have hhead : (heldFor (turns * cycles) beats)[opened.length]? = some head := by
    obtain ⟨rest, hrest⟩ := hopened
    rw [← hrest, List.append_assoc, List.getElem?_append_right (Nat.le_refl _), Nat.sub_self]
    rfl
  rw [hplace] at hhead
  refine concat_prefix hparts ?_
  have hpart : (inParts turns part beats)[_]? = _ :=
    getElem?_inParts hturn (getElem?_of_heldFor hwithin hhead)
  rw [hsplit] at hpart
  exact hpart

end Counts

/-- The gap before an envelope that begins. -/
theorem low_of_beat {head : β} (hgaps : ∀ gap ∈ (wire.observe (some head)).gaps, least ≤ gap)
    (hopened : wire.opened = []) (hclosed : wire.closed ≠ []) : least ≤ wire.low := by
  refine hgaps _ ?_
  simp [Spaced.observe, hopened, hclosed]

/-- Within the period after the last envelope none begins. -/
theorem not_ending {frames : List (List β)} {last : List β} {head : β}
    (hwire : wire.closed = (frames ++ [last]).map (heldFor (turns * cycles)))
    (hopened : wire.opened = []) (hlow : wire.low ≤ phase) (hphase : phase < cycles)
    (hleast : 0 < least)
    (hgaps : ∀ gap ∈ (wire.observe (some head)).gaps, least * cycles ≤ gap) : False := by
  have hlong := low_of_beat hgaps hopened (by simp [hwire])
  have hle := Nat.mul_le_mul_right cycles (Nat.succ_le_of_lt hleast)
  omega

/-- Before an envelope that begins, the observer has seen enough of the gap. -/
theorem low_of_resting {frames : List (List β)} {head : β}
    (hwire : wire.closed = frames.map (heldFor (turns * cycles))) (hopened : wire.opened = [])
    (hlow : frames = [] ∨ wire.low ≤ seen.low * cycles + phase) (hphase : phase < cycles)
    (hgaps : ∀ gap ∈ (wire.observe (some head)).gaps, least * cycles ≤ gap) :
    frames = [] ∨ least ≤ seen.low := by
  by_cases hframes : frames = []
  · exact .inl hframes
  · have hlong := low_of_beat hgaps hopened (by simp [hwire, hframes])
    refine .inr (Nat.le_of_lt_succ ?_)
    by_contra hge
    have hle := Nat.mul_le_mul_right cycles (Nat.le_of_not_lt hge)
    have hshort := hlow.resolve_left hframes
    rw [Nat.succ_mul] at hle
    omega

/-- A cycle in which the observer does not look. -/
theorem Looks.pass (hlooks : Looks cycles turns least part phase wire seen)
    (hphase : phase + 1 < cycles) (hleast : 0 < least)
    (hheld : HeldThrough (turns * cycles) (wire.observe beat))
    (hgaps : ∀ gap ∈ (wire.observe beat).gaps, least * cycles ≤ gap) :
    Looks cycles turns least part (phase + 1) (wire.observe beat) seen := by
  have hlt : phase < cycles := Nat.lt_of_succ_lt hphase
  cases beat with
  | none =>
      have hshut := Envelopes.observe_none_opened wire.toEnvelopes
      have hall := Envelopes.observe_none_closed wire.toEnvelopes
      cases hlooks with
      | resting frames hwire hopened hclosed hquiet hlow =>
          rw [Envelopes.all_of_idle hopened] at hall
          exact .resting _ (hall.trans hwire) hshut hclosed hquiet
            (hlow.imp_right Nat.succ_le_succ)
      | ending frames last hwire hopened hclosed hlast hne hlow =>
          rw [Envelopes.all_of_idle hopened] at hall
          exact .ending _ _ (hall.trans hwire) hshut hclosed hlast hne (Nat.succ_le_succ hlow)
      | sending frames hwire hopened hzero hclosed hpast hnext hparts hfirst =>
          obtain ⟨last, hlast, hne⟩ := hheld.last hopened
          rw [Envelopes.all_of_busy hopened, hwire, hlast] at hall
          refine .ending frames last ?_ hshut hclosed
            (parts_whole hlt (hlast ▸ hnext) (hparts last (hlast ▸ List.prefix_rfl))) hne ?_
          · rw [Spaced.observe_toEnvelopes, hall, List.map_append]
            rfl
          · rw [Spaced.observe_none_low, hzero]
            exact Nat.succ_le_succ (Nat.zero_le _)
  | some head =>
      cases hlooks with
      | resting frames hwire hopened hclosed hquiet hlow =>
          refine .sending _ hwire (List.append_ne_nil_of_right_ne_nil _ (List.cons_ne_nil _ _))
            rfl hclosed ?_ ?_ (fun beats _ => ?_)
            (fun _ => low_of_resting hwire hopened hlow hlt hgaps)
          · rw [hquiet, Spaced.observe_toEnvelopes, Envelopes.observe_some_opened, hopened]
            change 0 * cycles + (phase + 1) < 1 + cycles
            omega
          · rw [hquiet, Spaced.observe_toEnvelopes, Envelopes.observe_some_opened, hopened]
            change 1 ≤ 0 * cycles + (phase + 1)
            omega
          · rw [hquiet]
            exact List.nil_prefix
      | ending _ _ hwire hopened _ _ _ hlow =>
          exact (not_ending hwire hopened hlow hlt hleast hgaps).elim
      | sending _ hwire hopened hzero hclosed hpast hnext hparts hfirst =>
          refine .sending _ hwire (List.append_ne_nil_of_right_ne_nil _ (List.cons_ne_nil _ _))
            rfl hclosed ?_ ?_
            (fun beats hbeats => hparts beats ((List.prefix_append _ _).trans hbeats)) hfirst
          · rw [Spaced.observe_toEnvelopes, Envelopes.observe_some_opened, List.length_append]
            change _ < wire.opened.length + 1 + cycles
            omega
          · rw [Spaced.observe_toEnvelopes, Envelopes.observe_some_opened, List.length_append]
            change wire.opened.length + 1 ≤ _
            omega

theorem inParts_ne {frame : List β} (hturns : 0 < turns) (hne : frame ≠ []) :
    inParts turns part frame ≠ [] := by
  intro hnil
  have hlength := length_inParts turns part frame
  rw [hnil] at hlength
  exact Nat.ne_of_lt (Nat.mul_pos (List.length_pos_of_ne_nil hne) hturns) hlength

/-- The observer sees the end of an envelope. -/
theorem closed_of_whole {frames : List (List β)} {last : List β} (hturns : 0 < turns)
    (hclosed : seen.closed = frames.map (inParts turns part))
    (hlast : seen.opened = inParts turns part last) (hne : last ≠ []) :
    (seen.observe none).closed = (frames ++ [last]).map (inParts turns part) := by
  have hopened : seen.opened ≠ [] := hlast ▸ inParts_ne hturns hne
  rw [Spaced.observe_toEnvelopes, Envelopes.observe_none_closed, Envelopes.all_of_busy hopened,
    hclosed, hlast, List.map_append]
  rfl

/-- A cycle in which it does. -/
theorem Looks.look (hlooks : Looks cycles turns least part phase wire seen)
    (hphase : phase + 1 = cycles) (hturns : 0 < turns) (hleast : 0 < least)
    (hheld : HeldThrough (turns * cycles) (wire.observe beat))
    (hgaps : ∀ gap ∈ (wire.observe beat).gaps, least * cycles ≤ gap) :
    Looks cycles turns least part 0 (wire.observe beat)
      (seen.observe (beat.map fun head => part head (seen.opened.length % turns))) := by
  have hlt : phase < cycles := Nat.lt_of_succ_le (Nat.le_of_eq hphase)
  cases beat with
  | none =>
      have hshut := Envelopes.observe_none_opened wire.toEnvelopes
      have hall := Envelopes.observe_none_closed wire.toEnvelopes
      have hquiet' := Envelopes.observe_none_opened seen.toEnvelopes
      have hseen := Envelopes.observe_none_closed seen.toEnvelopes
      cases hlooks with
      | resting frames hwire hopened hclosed hquiet hlow =>
          rw [Envelopes.all_of_idle hopened] at hall
          rw [Envelopes.all_of_idle hquiet] at hseen
          refine .resting _ (hall.trans hwire) hshut (hseen.trans hclosed) hquiet'
            (hlow.imp_right fun hle => ?_)
          change wire.low + 1 ≤ (seen.low + 1) * cycles + 0
          rw [Nat.succ_mul]
          omega
      | ending frames last hwire hopened hclosed hlast hne hlow =>
          rw [Envelopes.all_of_idle hopened] at hall
          refine .resting _ (hall.trans hwire) hshut ?_ hquiet' (.inr ?_)
          · exact closed_of_whole hturns hclosed hlast hne
          · change wire.low + 1 ≤ (seen.low + 1) * cycles + 0
            rw [Nat.succ_mul]
            omega
      | sending frames hwire hopened hzero hclosed hpast hnext hparts hfirst =>
          obtain ⟨last, hlast, hne⟩ := hheld.last hopened
          rw [Envelopes.all_of_busy hopened, hwire, hlast] at hall
          have hwhole :=
            parts_whole hlt (hlast ▸ hnext) (hparts last (hlast ▸ List.prefix_rfl))
          refine .resting (frames ++ [last]) ?_ hshut
            (closed_of_whole hturns hclosed hwhole hne) hquiet' (.inr ?_)
          · rw [Spaced.observe_toEnvelopes, hall, List.map_append]
            rfl
          · change wire.low + 1 ≤ (seen.low + 1) * cycles + 0
            rw [Nat.succ_mul]
            omega
  | some head =>
      cases hlooks with
      | resting _ hwire hopened hclosed hquiet hlow =>
          refine .sending _ hwire (List.append_ne_nil_of_right_ne_nil _ (List.cons_ne_nil _ _))
            rfl hclosed ?_ ?_ (fun beats hbeats => ?_)
            fun hnil => absurd hnil (List.append_ne_nil_of_right_ne_nil _ (List.cons_ne_nil _ _))
          · simp [hopened, hquiet, Nat.add_comm]
          · simp [hopened, hquiet]
            omega
          · refine part_of_look hturns ?_ ?_ (show wire.opened ++ [head] <+: _ from hbeats) ?_
            · simp [hquiet]
            · simp only [hopened, hquiet, List.length_nil]
              omega
            · rw [hquiet]
              exact List.nil_prefix
      | ending _ _ hwire hopened _ _ _ hlow =>
          exact (not_ending hwire hopened hlow hlt hleast hgaps).elim
      | sending _ hwire hopened hzero hclosed hpast hnext hparts hfirst =>
          refine .sending _ hwire (List.append_ne_nil_of_right_ne_nil _ (List.cons_ne_nil _ _))
            rfl hclosed ?_ ?_
            (fun beats hbeats => part_of_look hturns ?_ ?_ hbeats
              (hparts beats ((List.prefix_append _ _).trans hbeats)))
            fun hnil => absurd hnil (List.append_ne_nil_of_right_ne_nil _ (List.cons_ne_nil _ _))
          · simp only [Spaced.observe_toEnvelopes, Option.map_some, Envelopes.observe_some_opened,
              List.length_append, List.length_singleton, Nat.succ_mul]
            omega
          · simp only [Spaced.observe_toEnvelopes, Option.map_some, Envelopes.observe_some_opened,
              List.length_append, List.length_singleton, Nat.succ_mul]
            omega
          · omega
          · omega

/-- The gaps that the observer sees are long enough. -/
theorem Looks.gaps_look (hlooks : Looks cycles turns least part phase wire seen)
    (hphase : phase < cycles) (hturns : 0 < turns)
    (hgaps : ∀ gap ∈ (wire.observe beat).gaps, least * cycles ≤ gap)
    (hseen : ∀ gap ∈ seen.gaps, least ≤ gap) (turn : Nat) :
    ∀ gap ∈ (seen.observe (beat.map fun head => part head turn)).gaps, least ≤ gap := by
  cases beat with
  | none => exact hseen
  | some head =>
      have hlow : seen.opened = [] → seen.closed = [] ∨ least ≤ seen.low := by
        intro hquiet
        cases hlooks with
        | resting _ hwire hopened hclosed _ hlow =>
            refine (low_of_resting hwire hopened hlow hphase hgaps).imp_left fun hnil => ?_
            rw [hclosed, hnil]
            rfl
        | ending _ _ _ _ _ hlast hne =>
            exact absurd (hlast.symm.trans hquiet) (inParts_ne hturns hne)
        | sending _ _ _ _ hclosed _ _ _ hfirst =>
            refine (hfirst hquiet).imp_left fun hnil => ?_
            rw [hclosed, hnil]
            rfl
      by_cases hopened : seen.opened = []
      · rcases hlow hopened with hfirst | hlong
        · rw [Spaced.observe_gaps_of_first hfirst]
          exact hseen
        · exact Spaced.observe_gaps_of_low hseen hlong _
      · rw [Spaced.observe_gaps_of_opened hopened]
        exact hseen

theorem split_held {frames done : List (List β)} {rest : List (List β)} (hcycles : 0 < cycles)
    (hsplit : frames.map (heldFor cycles) = done.map (heldFor cycles) ++ rest) :
    ∃ more, frames = done ++ more ∧ rest = more.map (heldFor cycles) := by
  obtain ⟨front, more, rfl, hfront, hrest⟩ := List.map_eq_append_iff.mp hsplit
  rw [List.map_injective_iff.mpr (heldFor_injective hcycles) hfront]
  exact ⟨more, rfl, hrest.symm⟩

/-- The observer sees the frames that the interface shows. -/
theorem Looks.shows {frames : List (List β)}
    (hlooks : Looks cycles turns least part phase wire seen) (hcycles : 0 < turns * cycles)
    (hshows : wire.Shows (frames.map (heldFor (turns * cycles)))) :
    seen.Shows (frames.map (inParts turns part)) := by
  obtain ⟨rest, hrest, hprefix⟩ := hshows
  cases hlooks with
  | resting _ hwire _ hclosed hquiet =>
      rw [hwire] at hrest
      obtain ⟨more, rfl, -⟩ := split_held hcycles hrest
      refine ⟨more.map (inParts turns part), by rw [hclosed, List.map_append], ?_⟩
      rw [hquiet]
      exact List.nil_prefix
  | ending _ _ hwire _ hclosed hlast =>
      rw [hwire] at hrest
      obtain ⟨more, rfl, -⟩ := split_held hcycles hrest
      refine ⟨_, by rw [hclosed, List.append_assoc, List.map_append], ?_⟩
      rw [hlast]
      exact List.prefix_rfl
  | sending _ hwire hopened _ hclosed _ _ hparts =>
      rw [hwire] at hrest
      obtain ⟨more, rfl, rfl⟩ := split_held hcycles hrest
      refine ⟨more.map (inParts turns part), by rw [hclosed, List.map_append], ?_⟩
      cases more with
      | nil => exact absurd (List.prefix_nil.mp hprefix) hopened
      | cons beats more => exact hparts beats hprefix

/-- A period after the last envelope the observer has seen its end, and how long that was
ago. -/
theorem Looks.settled (hlooks : Looks cycles turns least part phase wire seen)
    (hphase : phase < cycles) (hlow : cycles ≤ wire.low) :
    seen.closed.length = wire.closed.length ∧
      (wire.closed = [] ∨ wire.low ≤ seen.low * cycles + phase) := by
  cases hlooks with
  | resting _ hwire _ hclosed _ hlong =>
      rw [hwire, hclosed, List.length_map, List.length_map]
      exact ⟨rfl, hlong.imp_left fun hnil => by rw [hnil]; rfl⟩
  | ending _ _ _ _ _ _ _ hshort => omega
  | sending _ _ _ hzero => omega

end EmacZero
