/-
The driver's statistics over whole runs: a fold adds each counter of a group once before it
clears the group, so every event is in the total, in the counter or lost between the two.
-/
import EmacZero.EmzStats
import EmacZero.FoldedCounter
import Mathlib.Data.BitVec
import Mathlib.Tactic.FinCases

namespace EmacZero

/-- The pulse that clears a group. -/
def EmzStatGroup.clr : EmzStatGroup → CsrPulses → Bool
  | .tx => CsrPulses.statClrTx
  | .rx => CsrPulses.statClrRx
  | .pause => CsrPulses.statClrPause

/-- Every entry names a counter, and it is one that the entry's group clears. -/
theorem emzStatCounter_clr (stat : EmzStat) :
    (emzStatCounter stat).map MacCounter.clr = some (emzHwStats.get stat).group.clr := by
  fin_cases stat <;> rfl

theorem exists_emzStatCounter (stat : EmzStat) :
    ∃ csr counter, csrOf ((emzHwStats.get stat).reg.setWidth 8) = some csr ∧
      csr.counter = some counter ∧ emzStatCounter stat = some counter ∧
      counter.clr = (emzHwStats.get stat).group.clr := by
  obtain ⟨counter, hcounter, hclr⟩ := Option.map_eq_some_iff.mp (emzStatCounter_clr stat)
  obtain ⟨csr, hcsr, hshown⟩ := Option.bind_eq_some_iff.mp hcounter
  exact ⟨csr, counter, hcsr, hshown, hcounter, hclr⟩

/-- Every counter has an entry. -/
theorem exists_stat {csr : Csr} {counter : MacCounter} (hcounter : csr.counter = some counter) :
    ∃ stat : EmzStat, csrOf ((emzHwStats.get stat).reg.setWidth 8) = some csr := by
  cases csr with
  | _ =>
      first
        | exact absurd hcounter.symm (Option.some_ne_none _)
        | decide

/-- A write to a group's clear register raises the pulse of this group alone. -/
theorem clr_emzWrPulses (status : CsrStatus) (cleared group : EmzStatGroup) :
    group.clr (emzWrPulses status ((emzStatClear cleared).setWidth 8) 0) =
      decide (group = cleared) := by
  cases cleared <;> cases group <;> rfl

/-- Every counter at 1. -/
def MacCounters.ones : MacCounters :=
  ⟨⟨1, 1⟩, ⟨1, 1, 1, 1, 1, 1, 1, 1, 1, 1, 1, 1, 1, 1, 1, 1, 1⟩, 1, 1⟩

theorem MacCounters.cnt_ones {csr : Csr} {counter : MacCounter}
    (hcounter : csr.counter = some counter) : counter.cnt .ones = 1 := by
  cases csr with
  | _ =>
      first
        | exact absurd hcounter.symm (Option.some_ne_none _)
        | rw [← Option.some.inj hcounter]; rfl

/-- The counters that a write to the clear register of a group clears are those of the
entries of this group. -/
theorem clears_iff_group {csr : Csr} {counter : MacCounter} (hcounter : csr.counter = some counter)
    (group : EmzStatGroup) (status : CsrStatus) (i : MacCountersIn) :
    (∀ counters : MacCounters, counter.cnt
        (counters.clkEdge (emzWrPulses status ((emzStatClear group).setWidth 8) 0) i) = 0) ↔
      ∃ stat : EmzStat, csrOf ((emzHwStats.get stat).reg.setWidth 8) = some csr ∧
        (emzHwStats.get stat).group = group := by
  have hcounts := Csr.counter_counts hcounter
  have hclr : ∀ stat : EmzStat, csrOf ((emzHwStats.get stat).reg.setWidth 8) = some csr →
      counter.clr (emzWrPulses status ((emzStatClear group).setWidth 8) 0) =
        decide ((emzHwStats.get stat).group = group) := by
    intro stat hcsr
    obtain ⟨csr', counter', hcsr', hshown, -, hclr⟩ := exists_emzStatCounter stat
    obtain rfl := Option.some.inj (hcsr.symm.trans hcsr')
    obtain rfl := Option.some.inj (hcounter.symm.trans hshown)
    rw [hclr, clr_emzWrPulses]
  constructor
  · intro hall
    obtain ⟨stat, hcsr⟩ := exists_stat hcounter
    refine ⟨stat, hcsr, ?_⟩
    by_contra hother
    have hkept := hcounts.counted .ones _ i ((hclr stat hcsr).trans (decide_eq_false hother))
    rw [hall, SatAdds, MacCounters.cnt_ones hcounter] at hkept
    change 0 = min (1 + _) 4294967295 at hkept
    omega
  · rintro ⟨stat, hcsr, hgroup⟩ counters
    exact hcounts.cleared counters _ i ((hclr stat hcsr).trans (decide_eq_true hgroup))

/-- The accesses that are left of a fold. -/
def EmzFold.left : EmzFold → List EmzAccess
  | .scan _ _ => []
  | .apply left => left

def statGroup (stat : EmzStat) : EmzStatGroup := (emzHwStats.get stat).group

/-- The clear of the counter's group is left, but not its read. -/
def ClearLeft (stat : EmzStat) (left : List EmzAccess) : Prop :=
  .clear (statGroup stat) ∈ left ∧ .add stat ∉ left

/-- Every counter is added at most once, before its group is cleared, and then it is. -/
def FoldsInOrder : List EmzAccess → Prop
  | [] => True
  | .add stat :: left =>
      .add stat ∉ left ∧ .clear (statGroup stat) ∈ left ∧ FoldsInOrder left
  | .clear group :: left =>
      (∀ stat, statGroup stat = group → .add stat ∉ left) ∧ .clear group ∉ left ∧
        FoldsInOrder left
  | .check _ :: _ => False
  | .total _ :: _ => False

instance decidableFoldsInOrder : (left : List EmzAccess) → Decidable (FoldsInOrder left)
  | [] => isTrue trivial
  | .add _ :: left =>
      have := decidableFoldsInOrder left
      inferInstanceAs (Decidable (_ ∧ _ ∧ _))
  | .clear _ :: left =>
      have := decidableFoldsInOrder left
      inferInstanceAs (Decidable (_ ∧ _ ∧ _))
  | .check _ :: _ => isFalse id
  | .total _ :: _ => isFalse id

theorem foldsInOrder_emzFoldLeft (fold : EmzStatGroup → Bool) :
    FoldsInOrder (emzFoldLeft fold) := by
  rw [emzFoldLeft, List.flatMap_cons, List.flatMap_cons, List.flatMap_cons, List.flatMap_nil]
  cases fold .tx <;> cases fold .rx <;> cases fold .pause <;> decide +kernel

/-- A group that is cleared is added first. -/
theorem not_clearLeft_emzFoldLeft (fold : EmzStatGroup → Bool) (stat : EmzStat) :
    ¬ ClearLeft stat (emzFoldLeft fold) := by
  rintro ⟨hclear, hadded⟩
  obtain ⟨group, hgroup, hmem⟩ := List.mem_flatMap.mp hclear
  refine hadded (List.mem_flatMap.mpr ⟨group, hgroup, ?_⟩)
  cases hfold : fold group with
  | false =>
      rw [hfold, if_neg Bool.false_ne_true] at hmem
      exact absurd hmem List.not_mem_nil
  | true =>
      rw [hfold, if_pos rfl, emzFoldGroup] at hmem
      rw [if_pos rfl, emzFoldGroup]
      have hsame : statGroup stat = group := by simpa using hmem
      exact List.mem_append_left _ (List.mem_map_of_mem (List.mem_filter.mpr
        ⟨List.mem_reverse.mpr (List.mem_finRange stat), decide_eq_true hsame⟩))

theorem clearLeft_add {stat : EmzStat} {left : List EmzAccess}
    (horder : FoldsInOrder (.add stat :: left)) (other : EmzStat) :
    ClearLeft other left ↔ ClearLeft other (.add stat :: left) ∨ other = stat := by
  obtain ⟨hadded, hclear, -⟩ := horder
  have hne : EmzAccess.clear (statGroup other) ≠ .add stat := EmzAccess.noConfusion
  rw [ClearLeft, ClearLeft, List.mem_cons, List.mem_cons, not_or, or_iff_right hne]
  by_cases hsame : other = stat
  · subst hsame
    exact ⟨fun _ => .inr rfl, fun _ => ⟨hclear, hadded⟩⟩
  · have hother : EmzAccess.add other ≠ .add stat := fun heq => hsame (EmzAccess.add.inj heq)
    rw [or_iff_left hsame]
    exact and_congr_right fun _ => ⟨fun hmem => ⟨hother, hmem⟩, fun hmem => hmem.2⟩

theorem clearLeft_clear {group : EmzStatGroup} {left : List EmzAccess}
    (horder : FoldsInOrder (.clear group :: left)) (stat : EmzStat) :
    (ClearLeft stat (.clear group :: left) ↔ statGroup stat = group ∨ ClearLeft stat left) ∧
      (statGroup stat = group → .clear (statGroup stat) ∉ left) := by
  obtain ⟨hadded, hclear, -⟩ := horder
  have hne : EmzAccess.add stat ≠ .clear group := EmzAccess.noConfusion
  refine ⟨?_, fun hsame => hsame ▸ hclear⟩
  rw [ClearLeft, ClearLeft, List.mem_cons, List.mem_cons, or_iff_right hne, EmzAccess.clear.injEq]
  constructor
  · rintro ⟨hsame | hleft, hmem⟩
    · exact .inl hsame
    · exact .inr ⟨hleft, hmem⟩
  · rintro (hsame | ⟨hleft, hmem⟩)
    · exact ⟨.inl hsame, hadded stat hsame⟩
    · exact ⟨.inr hleft, hmem⟩

namespace EmzStatsBench

variable {params : AxiliteParams} {bench : EmzStatsBench} {i : EmzStatsIn}

theorem read_toNat (stat : EmzStat) :
    (bench.read params i stat).toNat = bench.count stat := by
  obtain ⟨csr, counter, hcsr, hshown, hcounter, -⟩ := exists_emzStatCounter stat
  rw [read, emzRd, hcsr, count, hcounter]
  exact congrArg BitVec.toNat (Csr.read_counter hshown params i.file bench.counters i.status)

theorem clears_eq (stat : EmzStat) :
    bench.clears stat = (emzHwStats.get stat).group.clr bench.pulses := by
  obtain ⟨csr, counter, -, -, hcounter, hclr⟩ := exists_emzStatCounter stat
  rw [clears, hcounter, ← hclr]
  rfl

theorem clears_of_none (hpulses : bench.pulses = .none) (stat : EmzStat) :
    bench.clears stat = false := by
  rw [clears_eq, hpulses]
  cases (emzHwStats.get stat).group <;> rfl

/-- An access comes in a cycle without a clear pulse. -/
theorem pulses_of_access {op : EmzAccess} (haccess : bench.access i = some op) :
    bench.pulses = .none := by
  by_contra hpulses
  rw [access, if_neg hpulses] at haccess
  exact absurd haccess.symm (Option.some_ne_none _)

theorem access_scan {stat : EmzStat} {fold : EmzStatGroup → Bool}
    (hfold : bench.fold = .scan stat fold) :
    bench.access i = if bench.pulses = .none ∧ i.call = .go then some (.check stat) else none := by
  rw [access, hfold]
  cases i.call <;> by_cases hpulses : bench.pulses = .none <;> simp [hpulses]

theorem access_free (hfold : bench.fold = .apply []) {op : EmzAccess}
    (haccess : bench.access i = some op) : ∃ stat, op = .total stat := by
  rw [access, if_pos (pulses_of_access haccess), hfold] at haccess
  cases hcall : i.call with
  | total stat =>
      rw [hcall] at haccess
      exact ⟨stat, (Option.some.inj haccess).symm⟩
  | wait => rw [hcall] at haccess; exact absurd haccess.symm (Option.some_ne_none _)
  | fold => rw [hcall] at haccess; exact absurd haccess.symm (Option.some_ne_none _)
  | go => rw [hcall] at haccess; exact absurd haccess.symm (Option.some_ne_none _)

theorem access_apply {op : EmzAccess} {left : List EmzAccess}
    (hfold : bench.fold = .apply (op :: left)) :
    bench.access i = if bench.pulses = .none ∧ i.call = .go then some op else none := by
  rw [access, hfold]
  cases i.call <;> by_cases hpulses : bench.pulses = .none <;> simp [hpulses]

/-- What is left of a fold after a cycle. -/
inductive LeftCases (params : AxiliteParams) (bench : EmzStatsBench) (i : EmzStatsIn) : Prop
  | same (haccess : ∀ op, bench.access i = some op → ∃ stat, op = .check stat ∨ op = .total stat)
      (hleft : (bench.nextFold params i).left = bench.fold.left)
  | begins (fold : EmzStatGroup → Bool) (stat : EmzStat)
      (haccess : bench.access i = some (.check stat)) (hfree : bench.fold.left = [])
      (hleft : (bench.nextFold params i).left = emzFoldLeft fold)
  | goesOn (op : EmzAccess) (haccess : bench.access i = some op)
      (hleft : bench.fold.left = op :: (bench.nextFold params i).left)

theorem leftCases (params : AxiliteParams) (bench : EmzStatsBench) (i : EmzStatsIn) :
    LeftCases params bench i := by
  cases hfold : bench.fold with
  | scan stat fold =>
      have haccess := @access_scan bench i stat fold hfold
      by_cases hgo : bench.pulses = .none ∧ i.call = .go
      · rw [if_pos hgo] at haccess
        by_cases hmore : stat.val + 1 < emzHwStats.length
        · refine .same (fun op hop => ⟨stat, .inl ?_⟩) ?_
          · exact (Option.some.inj (haccess.symm.trans hop)).symm
          · rw [nextFold, hfold]
            simp only [haccess, reduceCtorEq, if_false, hmore, dif_pos]
            rfl
        · refine .begins (if emzStatFold ≤ bench.read params i stat then
            Function.update fold (emzHwStats.get stat).group true else fold) stat haccess ?_ ?_
          · rw [hfold]
            rfl
          · rw [nextFold, hfold]
            simp only [haccess, reduceCtorEq, if_false, hmore, dif_neg, not_false_eq_true]
            rfl
      · rw [if_neg hgo] at haccess
        refine .same (fun op hop => ?_) ?_
        · rw [haccess] at hop
          exact absurd hop.symm (Option.some_ne_none _)
        · rw [nextFold, hfold]
          simp only [haccess, if_true]
  | apply left =>
      cases left with
      | nil =>
          refine .same (fun op hop => ?_) ?_
          · obtain ⟨stat, hop⟩ := access_free hfold hop
            exact ⟨stat, .inr hop⟩
          · rw [nextFold, hfold]
            by_cases hcall : i.call = .fold
            · simp only [hcall, if_true]
              rfl
            · simp only [hcall, if_false]
      | cons op left =>
          have haccess := @access_apply bench i op left hfold
          by_cases hgo : bench.pulses = .none ∧ i.call = .go
          · rw [if_pos hgo] at haccess
            refine .goesOn op haccess ?_
            rw [nextFold, hfold]
            simp only [haccess, reduceCtorEq, if_false]
            rfl
          · rw [if_neg hgo] at haccess
            refine .same (fun op hop => ?_) ?_
            · rw [haccess] at hop
              exact absurd hop.symm (Option.some_ne_none _)
            · rw [nextFold, hfold]
              simp only [haccess, if_true]

/-- The counters that are read and not cleared yet are those whose clear pulse is up, or of
which the fold that is running has the clear left but not the read. -/
structure Folding (bench : EmzStatsBench) : Prop where
  order : FoldsInOrder bench.fold.left
  opened : ∀ stat, bench.opened stat = true ↔
    bench.clears stat = true ∨ ClearLeft stat bench.fold.left
  cleared : ∀ stat, bench.clears stat = true → .clear (statGroup stat) ∉ bench.fold.left

theorem folding_start (counters : MacCounters) : (start counters).Folding where
  order := trivial
  opened stat := by
    rw [clears_of_none rfl]
    simp [start, EmzFold.left, ClearLeft]
  cleared stat hclears := by
    rw [clears_of_none rfl] at hclears
    exact absurd hclears Bool.false_ne_true

theorem step_pulses (hnot : ∀ group, bench.access i ≠ some (.clear group)) :
    (bench.step params i).pulses = .none := by
  change bench.nextPulses i = .none
  rw [nextPulses]
  cases haccess : bench.access i with
  | none => rfl
  | some op =>
      cases op with
      | clear group => exact absurd haccess (hnot group)
      | check stat => rfl
      | add stat => rfl
      | total stat => rfl

theorem step_opened (stat : EmzStat) :
    (bench.step params i).opened stat = true ↔
      bench.clears stat = false ∧
        (bench.opened stat = true ∨ bench.access i = some (.add stat)) := by
  change (if bench.clears stat then false else bench.openedNow i stat) = true ↔ _
  rw [openedNow]
  cases bench.clears stat <;> simp

/-- A counter whose clear pulse is not up is open exactly if its clear is left. -/
theorem Folding.opened_iff (hfolding : bench.Folding) (stat : EmzStat) :
    bench.clears stat = false ∧ bench.opened stat = true ↔ ClearLeft stat bench.fold.left := by
  rw [hfolding.opened]
  constructor
  · rintro ⟨hclear, hup | hleft⟩
    · rw [hclear] at hup
      exact absurd hup Bool.false_ne_true
    · exact hleft
  · intro hleft
    refine ⟨?_, .inr hleft⟩
    rw [← Bool.not_eq_true]
    exact fun hup => hfolding.cleared stat hup hleft.1

/-- A cycle without a clear: the counters that are open afterwards are to be those whose
clear is left. -/
theorem Folding.of_unclear (horder : FoldsInOrder (bench.nextFold params i).left)
    (hnot : ∀ group, bench.access i ≠ some (.clear group))
    (hopened : ∀ stat, (bench.step params i).opened stat = true ↔
      ClearLeft stat (bench.nextFold params i).left) : (bench.step params i).Folding := by
  have hnone := clears_of_none (@step_pulses params bench i hnot)
  refine ⟨horder, fun stat => ?_, fun stat hclears => ?_⟩
  · rw [hopened, hnone, or_iff_right Bool.false_ne_true]
    exact Iff.rfl
  · rw [hnone] at hclears
    exact absurd hclears Bool.false_ne_true

theorem Folding.step (hfolding : bench.Folding) : (bench.step params i).Folding := by
  have horder := hfolding.order
  cases leftCases params bench i with
  | same haccess hleft =>
      refine .of_unclear (hleft ▸ horder) (fun group hclear => ?_) fun stat => ?_
      · obtain ⟨stat, hop | hop⟩ := haccess _ hclear
        · exact EmzAccess.noConfusion hop
        · exact EmzAccess.noConfusion hop
      · have hadd : bench.access i ≠ some (.add stat) := fun hadd => by
          obtain ⟨other, hop | hop⟩ := haccess _ hadd
          · exact EmzAccess.noConfusion hop
          · exact EmzAccess.noConfusion hop
        rw [step_opened, or_iff_left hadd, hfolding.opened_iff, hleft]
  | begins fold stat haccess hfree hleft =>
      refine .of_unclear (hleft ▸ foldsInOrder_emzFoldLeft fold) (fun group hclear => ?_)
        fun other => ?_
      · exact EmzAccess.noConfusion (Option.some.inj (haccess.symm.trans hclear))
      · have hadd : bench.access i ≠ some (.add other) := fun hadd =>
          EmzAccess.noConfusion (Option.some.inj (haccess.symm.trans hadd))
        have hnot := not_clearLeft_emzFoldLeft fold other
        rw [step_opened, or_iff_left hadd, hfolding.opened_iff, hleft, hfree, iff_false_right hnot]
        exact fun hnone => absurd hnone.1 List.not_mem_nil
  | goesOn op haccess hleft =>
      have hnone := clears_of_none (pulses_of_access haccess)
      rw [hleft] at horder
      cases op with
      | check stat => exact horder.elim
      | total stat => exact horder.elim
      | add stat =>
          refine .of_unclear horder.2.2 (fun group hclear => ?_) fun other => ?_
          · exact EmzAccess.noConfusion (Option.some.inj (haccess.symm.trans hclear))
          · rw [step_opened, clearLeft_add horder, ← hleft, ← hfolding.opened_iff, haccess,
              hnone, Option.some.injEq, EmzAccess.add.injEq, eq_comm]
            tauto
      | clear group =>
          have hup : ∀ stat,
              (bench.step params i).clears stat = decide (statGroup stat = group) := by
            intro stat
            have hpulses : (bench.step params i).pulses =
                emzWrPulses i.status ((emzStatClear group).setWidth 8) 0 := by
              change bench.nextPulses i = _
              rw [nextPulses, haccess]
            rw [clears_eq, hpulses, clr_emzWrPulses]
            rfl
          refine ⟨horder.2.2, fun stat => ?_, fun stat hclears => ?_⟩
          · have hadd : bench.access i ≠ some (.add stat) := fun hadd =>
              EmzAccess.noConfusion (Option.some.inj (haccess.symm.trans hadd))
            rw [step_opened, or_iff_left hadd, hfolding.opened_iff, hleft,
              (clearLeft_clear horder stat).1, hup, decide_eq_true_iff]
            exact Iff.rfl
          · rw [hup, decide_eq_true_iff] at hclears
            exact (clearLeft_clear horder stat).2 hclears

/-- An entry's counter and its total. -/
def counter (bench : EmzStatsBench) (stat : EmzStat) : FoldedCounter (BitVec 64) where
  events := bench.events stat
  lost := bench.lost stat
  acc := bench.statsAcc stat
  count := bench.count stat
  opened := bench.opened stat

theorem setWidth_read (stat : EmzStat) :
    (bench.read params i stat).setWidth 64 = ((bench.count stat : Nat) : BitVec 64) := by
  rw [← read_toNat, BitVec.natCast_eq_ofNat, BitVec.ofNat_toNat]

/-- The counter is cleared, or takes the events that arrive. -/
theorem count_step (stat : EmzStat) :
    (bench.clears stat = true → (bench.step params i).count stat = 0) ∧
      (bench.clears stat = false → bench.count stat + arrived i stat < 2 ^ 32 →
        (bench.step params i).count stat = bench.count stat + arrived i stat) := by
  obtain ⟨csr, counter, -, hshown, hcounter, -⟩ := exists_emzStatCounter stat
  have hcounts := Csr.counter_counts hshown
  rw [clears, count, count, arrived, hcounter]
  refine ⟨fun hclear => ?_, fun hclear hfits => ?_⟩
  · exact congrArg BitVec.toNat (hcounts.cleared bench.counters bench.pulses i.hw hclear)
  · have hadds : ((counter.cnt (bench.counters.clkEdge bench.pulses i.hw)).toNat = _) :=
      hcounts.counted bench.counters bench.pulses i.hw hclear
    refine hadds.trans (Nat.min_eq_left ?_)
    exact Nat.le_sub_one_of_lt hfits

theorem Folding.cycles (hfolding : bench.Folding) (hunsat : bench.Unsaturated i)
    (stat : EmzStat) :
    FoldedCounter.Cycles (bench.counter stat) ((bench.step params i).counter stat)
      (decide (bench.access i = some (.add stat))) (bench.clears stat) (arrived i stat) where
  takes htake := by
    have haccess := of_decide_eq_true htake
    have hnone := clears_of_none (pulses_of_access haccess) stat
    refine ⟨?_, hnone⟩
    change bench.opened stat = false
    rw [← Bool.not_eq_true, hfolding.opened, hnone, or_iff_right Bool.false_ne_true]
    cases leftCases params bench i with
    | same hother hleft =>
        obtain ⟨other, hop | hop⟩ := hother _ haccess
        · exact EmzAccess.noConfusion hop
        · exact EmzAccess.noConfusion hop
    | begins fold other hcheck hfree hleft =>
        exact EmzAccess.noConfusion (Option.some.inj (haccess.symm.trans hcheck))
    | goesOn op hop hleft =>
        rw [hleft, ← Option.some.inj (haccess.symm.trans hop)]
        exact fun hclear => hclear.2 List.mem_cons_self
  clears hclear := (hfolding.opened stat).mpr (.inl hclear)
  events := rfl
  lost := rfl
  acc := by
    change bench.nextAcc params i stat = _
    rw [nextAcc, setWidth_read]
    by_cases haccess : bench.access i = some (.add stat)
    · rw [if_pos haccess, decide_eq_true haccess, if_pos rfl]
      rfl
    · rw [if_neg haccess, decide_eq_false haccess, if_neg Bool.false_ne_true]
      rfl
  opened := rfl
  cleared := (count_step stat).1
  counted hclosed := by
    have hclear : bench.clears stat = false := by
      rw [← Bool.not_eq_true]
      intro hclear
      have hopened := (hfolding.opened stat).mpr (.inl hclear)
      rw [Bool.or_eq_false_iff] at hclosed
      exact Bool.false_ne_true (hclosed.1.symm.trans hopened)
    refine (count_step stat).2 hclear ((hunsat stat).resolve_left ?_)
    rw [openedNow, Bool.not_eq_true]
    exact hclosed

/-- The totals returned so far, against what the counters have counted. -/
structure Recorded (bench : EmzStatsBench) : Prop where
  exact : ∀ total ∈ bench.returned, total.lost ≤ total.events ∧
    total.value = BitVec.ofNat 64 (total.events - total.lost)
  reached : ∀ total ∈ bench.returned,
    total.events - total.lost ≤ bench.events total.stat - bench.lost total.stat
  rising : bench.returned.Pairwise fun first second => first.stat = second.stat →
    first.events - first.lost ≤ second.events - second.lost

structure Holds (bench : EmzStatsBench) : Prop where
  folding : bench.Folding
  balanced : ∀ stat, (bench.counter stat).Balanced
  recorded : bench.Recorded

theorem holds_start (counters : MacCounters) : (start counters).Holds where
  folding := folding_start counters
  balanced stat := by
    refine ⟨Nat.zero_le _, fun _ => ?_, fun hopened => absurd hopened Bool.false_ne_true⟩
    change 0 + (((start counters).count stat : Nat) : BitVec 64) + ((0 : Nat) : BitVec 64) = _
    rw [zero_add, Nat.cast_zero, add_zero]
    rfl
  recorded := ⟨fun _ hmem => absurd hmem List.not_mem_nil,
    fun _ hmem => absurd hmem List.not_mem_nil, .nil⟩

/-- A total is read on a call, while no fold runs. -/
theorem Folding.free_of_total (hfolding : bench.Folding) {stat : EmzStat}
    (haccess : bench.access i = some (.total stat)) :
    bench.fold.left = [] ∧ i.call = .total stat := by
  cases hfold : bench.fold with
  | scan first fold =>
      rw [access_scan hfold] at haccess
      split at haccess
      · exact EmzAccess.noConfusion (Option.some.inj haccess)
      · exact absurd haccess.symm (Option.some_ne_none _)
  | apply left =>
      cases left with
      | nil =>
          refine ⟨rfl, ?_⟩
          rw [access, if_pos (pulses_of_access haccess), hfold] at haccess
          cases hcall : i.call with
          | total other =>
              rw [hcall] at haccess
              exact congrArg _ (EmzAccess.total.inj (Option.some.inj haccess))
          | wait => rw [hcall] at haccess; exact absurd haccess.symm (Option.some_ne_none _)
          | fold => rw [hcall] at haccess; exact absurd haccess.symm (Option.some_ne_none _)
          | go => rw [hcall] at haccess; exact absurd haccess.symm (Option.some_ne_none _)
      | cons op left =>
          have horder := hfolding.order
          rw [access_apply hfold] at haccess
          split at haccess
          · rw [hfold, Option.some.inj haccess] at horder
            exact horder.elim
          · exact absurd haccess.symm (Option.some_ne_none _)

theorem Folding.closed_of_total (hfolding : bench.Folding) {stat : EmzStat}
    (haccess : bench.access i = some (.total stat)) (other : EmzStat) :
    bench.opened other = false := by
  rw [← Bool.not_eq_true, hfolding.opened, clears_of_none (pulses_of_access haccess),
    or_iff_right Bool.false_ne_true, (hfolding.free_of_total haccess).1]
  exact fun hclear => absurd hclear.1 List.not_mem_nil

/-- Without a total nothing is returned. -/
theorem returned_step (hnot : ∀ stat, bench.access i ≠ some (.total stat)) :
    (bench.step params i).returned = bench.returned := by
  change bench.nextReturned params i = _
  rw [nextReturned]
  cases haccess : bench.access i with
  | none => rfl
  | some op =>
      cases op with
      | total stat => exact absurd haccess (hnot stat)
      | check stat => rfl
      | add stat => rfl
      | clear group => rfl

/-- What is kept of the events only grows. -/
theorem Folding.kept_le (hfolding : bench.Folding) (hunsat : bench.Unsaturated i)
    (stat : EmzStat) :
    bench.events stat - bench.lost stat ≤
      (bench.step params i).events stat - (bench.step params i).lost stat :=
  FoldedCounter.kept_le (@Folding.cycles params bench i hfolding hunsat stat)

theorem Recorded.step (hholds : bench.Holds) (hunsat : bench.Unsaturated i) :
    (bench.step params i).Recorded := by
  have hrecorded := hholds.recorded
  have hkept := fun stat => @Folding.kept_le params bench i hholds.folding hunsat stat
  by_cases hread : ∃ stat, bench.access i = some (.total stat)
  · obtain ⟨stat, haccess⟩ := hread
    have hclosed := hholds.folding.closed_of_total haccess stat
    have htotal : bench.emzStatTotal params i stat =
        BitVec.ofNat 64 (bench.events stat - bench.lost stat) := by
      rw [emzStatTotal, setWidth_read]
      exact (hholds.balanced stat).total hclosed
    have hlonger : (bench.step params i).returned = bench.returned ++
        [⟨stat, bench.emzStatTotal params i stat, bench.events stat, bench.lost stat⟩] := by
      change bench.nextReturned params i = _
      rw [nextReturned, haccess]
    refine ⟨fun total hmem => ?_, fun total hmem => ?_, ?_⟩
    · rw [hlonger, List.mem_append, List.mem_singleton] at hmem
      rcases hmem with hbefore | rfl
      · exact hrecorded.exact total hbefore
      · exact ⟨(hholds.balanced stat).lost_le, htotal⟩
    · rw [hlonger, List.mem_append, List.mem_singleton] at hmem
      rcases hmem with hbefore | rfl
      · exact (hrecorded.reached total hbefore).trans (hkept total.stat)
      · exact hkept stat
    · rw [hlonger, List.pairwise_append]
      refine ⟨hrecorded.rising, List.pairwise_singleton _ _, fun first hfirst second hsecond => ?_⟩
      rw [List.mem_singleton] at hsecond
      subst hsecond
      intro heq
      have hreached := hrecorded.reached first hfirst
      rw [heq] at hreached
      exact hreached
  · have hreturned := @returned_step params bench i fun stat haccess => hread ⟨stat, haccess⟩
    refine ⟨fun total hmem => ?_, fun total hmem => ?_, ?_⟩
    · rw [hreturned] at hmem
      exact hrecorded.exact total hmem
    · rw [hreturned] at hmem
      exact (hrecorded.reached total hmem).trans (hkept total.stat)
    · rw [hreturned]
      exact hrecorded.rising

theorem Holds.step (hholds : bench.Holds) (hunsat : bench.Unsaturated i) :
    (bench.step params i).Holds where
  folding := hholds.folding.step
  balanced stat := (hholds.balanced stat).cycles (hholds.folding.cycles hunsat stat)
  recorded := .step hholds hunsat

/-- Whatever the counters count and however folds and reads of totals fall, every total is
the events of its counter but those that fell between the counter's read and its group's
clear, as a 64-bit number. -/
theorem emzStats_run (params : AxiliteParams) (counters : MacCounters) {cycles : List EmzStatsIn}
    (hunsat : Along (step params) Unsaturated (start counters) cycles) :
    let bench := runFrom (step params) (start counters) cycles
    (∀ total ∈ bench.returned, total.lost ≤ total.events ∧
        total.value = BitVec.ofNat 64 (total.events - total.lost)) ∧
      (bench.returned.Pairwise fun first second => first.stat = second.stat →
        second.events - second.lost < 2 ^ 64 → first.value ≤ second.value) ∧
      (∀ stat, bench.clears stat = true → bench.opened stat = true) ∧
      (∀ stat, bench.opened stat = true → bench.clears stat = true ∨
        .clear (emzHwStats.get stat).group ∈ bench.fold.left) ∧
      ∀ csr counter, csr.counter = some counter → ∀ group status i,
        (∀ counters : MacCounters, counter.cnt
            (counters.clkEdge (emzWrPulses status ((emzStatClear group).setWidth 8) 0) i) = 0) ↔
          ∃ stat : EmzStat, csrOf ((emzHwStats.get stat).reg.setWidth 8) = some csr ∧
            (emzHwStats.get stat).group = group := by
  intro bench
  have hholds : bench.Holds :=
    invariant_along (fun _ _ hunsat hholds => hholds.step hunsat) (holds_start counters) hunsat
  have hexact := hholds.recorded.exact
  refine ⟨hexact, ?_, fun stat hclears => (hholds.folding.opened stat).mpr (.inl hclears),
    fun stat hopened => ?_, fun csr counter hcounter group status i =>
      clears_iff_group hcounter group status i⟩
  · refine hholds.recorded.rising.imp_of_mem fun hfirst hsecond hle hsame hfits => ?_
    rw [(hexact _ hfirst).2, (hexact _ hsecond).2, BitVec.le_def, BitVec.toNat_ofNat,
      BitVec.toNat_ofNat, Nat.mod_eq_of_lt hfits, Nat.mod_eq_of_lt ((hle hsame).trans_lt hfits)]
    exact hle hsame
  · exact ((hholds.folding.opened stat).mp hopened).imp_right And.left

/-- The entry of the frames sent. -/
def txFrames : EmzStat := ⟨0, Nat.succ_pos 20⟩

def statsParams : AxiliteParams := ⟨8, true, true, true, 9018, true⟩

/-- A cycle in which the MAC may finish a frame. -/
def statsCycle (txFrameDone : Bool) (call : EmzStatsCall) : EmzStatsIn where
  hw := ⟨⟨false, false, txFrameDone, false, false⟩, ⟨false, false, false,
    ⟨false, 0, false, false, false, false, false, false, false, false⟩, false⟩, false, false⟩
  file := .reset statsParams
  status := IrqBench.quietStatus false
  call := call

/-- The calls of a fold of the transmit counters. -/
def foldCycles : List EmzStatsIn :=
  statsCycle false .fold :: List.replicate 25 (statsCycle false .go)

/-- Frames sent as counted by the MAC, the other counters at rest. -/
def txCounters (frames : Nat) : MacCounters := ⟨⟨.ofNat 32 frames, 0⟩, .reset, 0, 0⟩

theorem emzStats_run_fold :
    let cycles := foldCycles ++ [statsCycle true .wait, statsCycle false (.total txFrames)]
    let bench := runFrom (step statsParams) (start (txCounters (2 ^ 31))) cycles
    bench.returned ≠ [] ∧ ∀ total ∈ bench.returned, total.lost ≤ total.events ∧
      total.value = BitVec.ofNat 64 (total.events - total.lost) := by
  intro cycles bench
  have hunsat : Along (step statsParams) Unsaturated (start (txCounters (2 ^ 31))) cycles := by
    decide +kernel
  exact ⟨by decide +kernel, (emzStats_run statsParams _ hunsat).1⟩

/-! A run that takes a total past 64 bits. -/

/-- Between folds, with so many frames in the MAC's counter of sent frames and so many of
them counted altogether, none of them lost. -/
structure Calm (frames events : Nat) (returned : List EmzTotal) (bench : EmzStatsBench) :
    Prop where
  counters : bench.counters = txCounters frames
  pulses : bench.pulses = .none
  fold : bench.fold = .apply []
  folding : bench.Folding
  events : bench.events txFrames = events
  lost : bench.lost txFrames = 0
  returned : bench.returned = returned

theorem arrived_statsCycle (call : EmzStatsCall) (txFrameDone : Bool) (stat : EmzStat) :
    arrived (statsCycle txFrameDone call) stat =
      if stat = txFrames then txFrameDone.toNat else 0 := by
  fin_cases stat <;> cases txFrameDone <;> rfl

theorem count_lt (stat : EmzStat) : bench.count stat < 2 ^ 32 := by
  rw [← @read_toNat statsParams bench (statsCycle false .wait)]
  exact BitVec.isLt _

theorem unsaturated_quiet (call : EmzStatsCall) : bench.Unsaturated (statsCycle false call) := by
  intro stat
  rw [arrived_statsCycle]
  exact .inr (by rw [Bool.toNat_false, ite_self]; exact count_lt stat)

theorem txCounters_tick {frames : Nat} (hfits : frames + 1 < 2 ^ 32) :
    (txCounters frames).clkEdge .none (statsCycle true .wait).hw = txCounters (frames + 1) := by
  have hadds := satAdds_satAdd2 (by decide) (BitVec.ofNat 32 frames) true false
  have hframes : satAdd2 (BitVec.ofNat 32 frames) true false = BitVec.ofNat 32 (frames + 1) := by
    apply BitVec.eq_of_toNat_eq
    rw [hadds, BitVec.toNat_ofNat, BitVec.toNat_ofNat, Nat.mod_eq_of_lt hfits,
      Nat.mod_eq_of_lt (Nat.lt_of_succ_lt hfits)]
    exact Nat.min_eq_left (Nat.le_sub_one_of_lt hfits)
  unfold txCounters
  rw [← hframes]
  rfl

/-- A frame is sent. -/
theorem Calm.tick {frames events : Nat} {returned : List EmzTotal}
    (hcalm : bench.Calm frames events returned) (hfits : frames + 1 < 2 ^ 32) :
    bench.Unsaturated (statsCycle true .wait) ∧
      (bench.step statsParams (statsCycle true .wait)).Calm (frames + 1) (events + 1)
        returned := by
  have haccess : bench.access (statsCycle true .wait) = none := by
    rw [access, if_pos hcalm.pulses, hcalm.fold]
    rfl
  have hclosed : bench.openedNow (statsCycle true .wait) txFrames = false := by
    rw [openedNow, haccess, ← Bool.not_eq_true, Bool.or_eq_true, hcalm.folding.opened,
      clears_of_none hcalm.pulses, hcalm.fold]
    simp [ClearLeft, EmzFold.left]
  refine ⟨fun stat => .inr ?_, ?_, ?_, ?_, hcalm.folding.step, ?_, ?_, ?_⟩
  · rw [arrived_statsCycle]
    by_cases hfirst : stat = txFrames
    · have hcount : bench.count txFrames = frames := by
        rw [count, hcalm.counters]
        exact Nat.mod_eq_of_lt (Nat.lt_of_succ_lt hfits)
      rw [if_pos hfirst, hfirst, hcount]
      exact hfits
    · rw [if_neg hfirst]
      exact count_lt stat
  · change bench.counters.clkEdge bench.pulses _ = _
    rw [hcalm.counters, hcalm.pulses]
    exact txCounters_tick hfits
  · exact step_pulses fun group hclear => absurd (haccess.symm.trans hclear).symm
      (Option.some_ne_none _)
  · change bench.nextFold statsParams _ = _
    rw [nextFold, hcalm.fold]
    rfl
  · change bench.events _ + arrived _ _ = _
    rw [hcalm.events]
    rfl
  · change bench.lost _ + (if bench.openedNow _ _ then _ else 0) = 0
    rw [hclosed, if_neg Bool.false_ne_true, hcalm.lost]
  · change bench.nextReturned statsParams _ = _
    rw [nextReturned, haccess]
    exact hcalm.returned

theorem Calm.ticks {frames events : Nat} {returned : List EmzTotal}
    (hcalm : bench.Calm frames events returned) (more : Nat) (hfits : frames + more < 2 ^ 32) :
    Along (step statsParams) Unsaturated bench (List.replicate more (statsCycle true .wait)) ∧
      (runFrom (step statsParams) bench (List.replicate more (statsCycle true .wait))).Calm
        (frames + more) (events + more) returned := by
  induction more generalizing bench frames events with
  | zero => exact ⟨trivial, hcalm⟩
  | succ more ih =>
      obtain ⟨hunsat, hnext⟩ := hcalm.tick (by omega)
      obtain ⟨hrest, hafter⟩ := ih hnext (by omega)
      rw [List.replicate_succ]
      refine ⟨⟨hunsat, hrest⟩, ?_⟩
      rw [Nat.add_right_comm frames, Nat.add_right_comm events] at hafter
      exact hafter

/-- The registers of the MAC and what the driver is at. -/
def Alike (bench other : EmzStatsBench) : Prop :=
  bench.counters = other.counters ∧ bench.pulses = other.pulses ∧ bench.fold = other.fold

theorem Alike.step {bench other : EmzStatsBench} (halike : bench.Alike other) :
    (bench.step params i).Alike (other.step params i) := by
  obtain ⟨hcounters, hpulses, hfold⟩ := halike
  have haccess : bench.access i = other.access i := by rw [access, access, hpulses, hfold]
  have hread : ∀ stat, bench.read params i stat = other.read params i stat := by
    intro stat
    rw [read, read, hcounters]
  refine ⟨?_, ?_, ?_⟩
  · change bench.counters.clkEdge bench.pulses i.hw = other.counters.clkEdge other.pulses i.hw
    rw [hcounters, hpulses]
  · change bench.nextPulses i = other.nextPulses i
    rw [nextPulses, nextPulses, haccess]
  · change bench.nextFold params i = other.nextFold params i
    rw [nextFold, nextFold, haccess, hfold]
    simp only [hread]

/-- Cycles without events and without totals. -/
theorem quiet_run {cycles : List EmzStatsIn} (hfolding : bench.Folding)
    (hquiet : ∀ i ∈ cycles, ∃ call, i = statsCycle false call ∧ ∀ stat, call ≠ .total stat) :
    Along (EmzStatsBench.step statsParams) Unsaturated bench cycles ∧
      (runFrom (EmzStatsBench.step statsParams) bench cycles).Folding ∧
      (runFrom (EmzStatsBench.step statsParams) bench cycles).events = bench.events ∧
      (runFrom (EmzStatsBench.step statsParams) bench cycles).lost = bench.lost ∧
      (runFrom (EmzStatsBench.step statsParams) bench cycles).returned = bench.returned := by
  induction cycles generalizing bench with
  | nil => exact ⟨trivial, hfolding, rfl, rfl, rfl⟩
  | cons i rest ih =>
      obtain ⟨call, rfl, hcall⟩ := hquiet i List.mem_cons_self
      have hnone : ∀ stat, arrived (statsCycle false call) stat = 0 := fun stat => by
        rw [arrived_statsCycle, Bool.toNat_false, ite_self]
      obtain ⟨hunsat, hafter, hevents, hlost, hreturned⟩ :=
        ih hfolding.step fun i hi => hquiet i (List.mem_cons_of_mem _ hi)
      refine ⟨⟨unsaturated_quiet call, hunsat⟩, hafter, hevents.trans ?_, hlost.trans ?_,
        hreturned.trans (returned_step fun stat haccess => ?_)⟩
      · funext stat
        change bench.events stat + arrived _ stat = _
        rw [hnone, Nat.add_zero]
      · funext stat
        change bench.lost stat + (if _ then arrived _ stat else 0) = _
        rw [hnone, ite_self, Nat.add_zero]
      · exact hcall stat (hfolding.free_of_total haccess).2

/-- A fold without events. -/
theorem Calm.folds {events : Nat} {returned : List EmzTotal}
    (hcalm : bench.Calm (2 ^ 31) events returned) :
    Along (EmzStatsBench.step statsParams) Unsaturated bench foldCycles ∧
      (runFrom (EmzStatsBench.step statsParams) bench foldCycles).Calm 0 events returned := by
  have hquiet : ∀ i ∈ foldCycles,
      ∃ call, i = statsCycle false call ∧ ∀ stat, call ≠ .total stat := by
    intro i hi
    rcases List.mem_cons.mp hi with rfl | hgo
    · exact ⟨.fold, rfl, fun _ => EmzStatsCall.noConfusion⟩
    · rw [List.mem_replicate] at hgo
      exact ⟨.go, hgo.2, fun _ => EmzStatsCall.noConfusion⟩
  obtain ⟨hunsat, hfolding, hevents, hlost, hreturned⟩ := quiet_run hcalm.folding hquiet
  have halike : ∀ (cycles : List EmzStatsIn) (first second : EmzStatsBench), first.Alike second →
      (runFrom (EmzStatsBench.step statsParams) first cycles).Alike
        (runFrom (EmzStatsBench.step statsParams) second cycles) := by
    intro cycles
    induction cycles with
    | nil => exact fun _ _ halike => halike
    | cons i rest ih => exact fun _ _ halike => ih _ _ halike.step
  obtain ⟨hcounters, hpulses, hfold⟩ := halike foldCycles bench (start (txCounters (2 ^ 31)))
    ⟨hcalm.counters, hcalm.pulses, hcalm.fold⟩
  refine ⟨hunsat, ?_, ?_, ?_, hfolding, ?_, ?_, hreturned.trans hcalm.returned⟩
  · exact hcounters.trans (by decide +kernel)
  · exact hpulses.trans (by decide +kernel)
  · exact hfold.trans rfl
  · rw [hevents]
    exact hcalm.events
  · rw [hlost]
    exact hcalm.lost

/-- Folds, each of the 2^31 frames before it. -/
def foldRounds (rounds : Nat) : List EmzStatsIn :=
  (List.replicate rounds
    (List.replicate (2 ^ 31) (statsCycle true .wait) ++ foldCycles)).flatten

theorem Calm.rounds {events : Nat} {returned : List EmzTotal}
    (hcalm : bench.Calm 0 events returned) (rounds : Nat) :
    Along (EmzStatsBench.step statsParams) Unsaturated bench (foldRounds rounds) ∧
      (runFrom (EmzStatsBench.step statsParams) bench (foldRounds rounds)).Calm 0
        (events + rounds * 2 ^ 31) returned := by
  induction rounds generalizing bench events with
  | zero =>
      rw [Nat.zero_mul, Nat.add_zero]
      exact ⟨trivial, hcalm⟩
  | succ rounds ih =>
      obtain ⟨hticks, hticked⟩ := hcalm.ticks (2 ^ 31) (by decide)
      rw [Nat.zero_add] at hticked
      obtain ⟨hfolds, hfolded⟩ := hticked.folds
      obtain ⟨hrest, hafter⟩ := ih hfolded
      have hcons : foldRounds (rounds + 1) =
          List.replicate (2 ^ 31) (statsCycle true .wait) ++ (foldCycles ++ foldRounds rounds) := by
        rw [foldRounds, List.replicate_succ, List.flatten_cons, List.append_assoc]
        rfl
      have hsum : events + 2 ^ 31 + rounds * 2 ^ 31 = events + (rounds + 1) * 2 ^ 31 := by
        rw [Nat.succ_mul, Nat.add_right_comm, Nat.add_assoc]
      rw [hcons, along_append, along_append, runFrom_append, runFrom_append, ← hsum]
      exact ⟨⟨hticks, hfolds, hrest⟩, hafter⟩

/-- A total of the frames is read. -/
theorem Calm.total {frames events : Nat} {returned : List EmzTotal}
    (hcalm : bench.Calm frames events returned) :
    ∃ value, (bench.step statsParams (statsCycle false (.total txFrames))).Calm frames events
      (returned ++ [⟨txFrames, value, events, 0⟩]) := by
  have haccess : bench.access (statsCycle false (.total txFrames)) =
      some (.total txFrames) := by
    rw [access, if_pos hcalm.pulses, hcalm.fold]
    rfl
  refine ⟨bench.emzStatTotal statsParams (statsCycle false (.total txFrames)) txFrames,
    ?_, ?_, ?_, hcalm.folding.step, ?_, ?_, ?_⟩
  · change bench.counters.clkEdge bench.pulses _ = _
    rw [hcalm.counters, hcalm.pulses]
    rfl
  · exact step_pulses fun group hclear =>
      EmzAccess.noConfusion (Option.some.inj (haccess.symm.trans hclear))
  · change bench.nextFold statsParams _ = _
    rw [nextFold, hcalm.fold]
    rfl
  · exact hcalm.events
  · change bench.lost _ + (if _ then 0 else 0) = 0
    rw [ite_self]
    exact hcalm.lost
  · change bench.nextReturned statsParams _ = _
    rw [nextReturned, haccess]
    dsimp only
    rw [hcalm.returned, hcalm.events, hcalm.lost]

/-- 2^64 frames and a read of their total before and after the last one. -/
def wrapCycles : List EmzStatsIn :=
  foldRounds (2 ^ 33 - 1) ++ (List.replicate (2 ^ 31 - 1) (statsCycle true .wait) ++
    [statsCycle false (.total txFrames), statsCycle true .wait,
      statsCycle false (.total txFrames)])

/-- The 64-bit total starts again at 0. -/
theorem emzStats_run_wraps :
    Along (step statsParams) Unsaturated (start .reset) wrapCycles ∧
      ¬ (runFrom (step statsParams) (start .reset) wrapCycles).returned.Pairwise
        fun first second => first.stat = second.stat → first.value ≤ second.value := by
  have hstart : (start .reset).Calm 0 0 [] :=
    ⟨rfl, rfl, rfl, folding_start .reset, rfl, rfl, rfl⟩
  obtain ⟨hrounds, hafter⟩ := hstart.rounds (2 ^ 33 - 1)
  obtain ⟨hticks, hticked⟩ := hafter.ticks (2 ^ 31 - 1) (by decide)
  obtain ⟨first, hfirst⟩ := hticked.total
  obtain ⟨hunsat, hlast⟩ := hfirst.tick (by decide)
  obtain ⟨second, hsecond⟩ := hlast.total
  have hall : Along (step statsParams) Unsaturated (start .reset) wrapCycles := by
    rw [wrapCycles, along_append, along_append]
    exact ⟨hrounds, hticks, unsaturated_quiet _, hunsat, unsaturated_quiet _, trivial⟩
  have hholds : (runFrom (step statsParams) (start .reset) wrapCycles).Holds :=
    invariant_along (fun _ _ hunsat hholds => hholds.step hunsat) (holds_start .reset) hall
  have hcount : 0 + (2 ^ 33 - 1) * 2 ^ 31 + (2 ^ 31 - 1) = 2 ^ 64 - 1 := by decide
  have hreturned := hsecond.returned
  rw [hcount, ← runFrom_append] at hreturned
  have hrun : (runFrom (step statsParams) (start .reset) wrapCycles).returned =
      [⟨txFrames, first, 2 ^ 64 - 1, 0⟩, ⟨txFrames, second, 2 ^ 64 - 1 + 1, 0⟩] := by
    rw [wrapCycles, ← List.append_assoc, runFrom_append]
    exact hreturned
  obtain ⟨hexact, -, -⟩ := hholds.recorded
  rw [hrun] at hexact
  have hbefore : first = BitVec.ofNat 64 (2 ^ 64 - 1 - 0) := (hexact _ List.mem_cons_self).2
  have hwrapped : second = BitVec.ofNat 64 (2 ^ 64 - 1 + 1 - 0) :=
    (hexact _ (List.mem_cons_of_mem _ List.mem_cons_self)).2
  refine ⟨hall, fun hrising => ?_⟩
  rw [hrun, List.pairwise_pair] at hrising
  have hle := hrising rfl
  dsimp only at hle
  rw [hbefore, hwrapped] at hle
  exact absurd hle (by decide)

end EmzStatsBench

end EmacZero
