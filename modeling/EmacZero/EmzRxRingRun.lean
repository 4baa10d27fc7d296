/-
The poll's side of the driver's receive ring, and what holds of the ring over every run.
-/
import EmacZero.EmzRxRingDma

namespace EmacZero

namespace EmzRxBench

variable {bench next : EmzRxBench} {taken taken' : List EmzRxTaken}
  {hand hand' : Option EmzRxCompletion} {ready : List (Nat × EmzRxCompletion)}
  {calling : Option (Nat × EmzRxCompletion)}

theorem turns_eq (hwithout : next.without = bench.without) (hbehind : next.behind = bench.behind)
    (htail : next.rx.rxTail = bench.rx.rxTail) : next.turns = bench.turns := by
  rw [turns, turns, hwithout, hbehind, htail]

/-- The poll goes on with what it has in hand. -/
theorem Holds.go (hholds : bench.Holds taken hand ready calling) (howned : next.rx.Owned)
    (hturns : next.turns = bench.turns) (hlent : next.rx.lent = bench.rx.lent)
    (hdma : next.rx.dma = bench.rx.dma)
    (hslots : ∀ idx ∈ bench.turns, next.rx.slots idx = bench.rx.slots idx)
    (hmemory : next.rx.memory = bench.rx.memory)
    (hreset : bench.rx.resetPending = true → next.rx.resetPending = true)
    (hhand : next.rx.Hand hand') (htail : next.rx.rxTail < emzRxRing) (hstuck : next.Stuck)
    (hcompleted : next.completed = bench.completed)
    (hsplit : taken'.map EmzRxTaken.completion ++ hand'.toList =
      taken.map EmzRxTaken.completion ++ hand.toList)
    (htallies : next.Tallies taken') : next.Holds taken' hand' ready calling := by
  refine ⟨howned, hholds.ordered.keep hturns hlent hdma hslots hmemory hreset, hhand, htail,
    hstuck, ?_, htallies⟩
  rw [hcompleted, hholds.completed, ← List.append_assoc, ← List.append_assoc (taken'.map _), hsplit]

/-- While a slot is stuck the poll only looks. -/
theorem Holds.unstuck (hholds : bench.Holds taken hand ready calling)
    (hidle : bench.rx.napi ≠ .idle) (hloop : ∀ counts, bench.rx.napi ≠ .loop counts)
    (hfinish : ∀ counts, bench.rx.napi ≠ .finish counts) : bench.stuck = false := by
  rw [← Bool.not_eq_true]
  intro hset
  obtain ⟨-, -, hpc | ⟨counts, hpc | hpc⟩⟩ := hholds.stuck hset
  · exact hidle hpc
  · exact hloop counts hpc
  · exact hfinish counts hpc

theorem stuck_of_clear (hclear : next.stuck = false) : next.Stuck := by
  intro hset
  rw [hclear] at hset
  exact absurd hset Bool.false_ne_true

/-- The poll is called. -/
theorem Holds.poll (hholds : bench.Holds taken hand ready calling) (budget : Nat) :
    Holds { bench with rx := bench.rx.poll budget } taken hand ready calling := by
  rw [EmzRx.poll]
  split
  · rename_i hidle
    have hhand := hholds.inHand
    rw [EmzRx.Hand, hidle] at hhand
    have hflying : bench.rx.napi.flying = [] := by rw [hidle]; rfl
    refine hholds.go (hholds.owned.congr (fun _ => rfl) (fun _ => rfl) (fun _ hmem => hmem) rfl
      (by rw [hflying]; rfl)) (turns_eq ?_ ?_ rfl) rfl rfl (fun _ _ => rfl) rfl id hhand
      hholds.tail_lt (fun hset => ?_) rfl rfl (hholds.tallies.congr rfl rfl rfl rfl rfl rfl)
    · rw [without, without, hidle]
      rfl
    · rw [behind, behind, hidle]
    · obtain ⟨hpending, hdone, -⟩ := hholds.stuck hset
      exact ⟨hpending, hdone, .inr ⟨⟨budget, 0, 0⟩, .inl rfl⟩⟩
  · exact hholds

/-- A completion in the slot that the poll looks at is the first that is ready. -/
theorem Ordered.ready_of_done (hordered : bench.Ordered ready calling)
    (hturns : bench.turns = bench.rx.rxTail ::
      ringTurns emzRxRing (bench.rx.rxTail + 1) (emzRxRing - 1))
    (hdone : bench.rx.tailSlot.done = true) :
    ∃ completion rest, ready = (bench.rx.rxTail, completion) :: rest := by
  have hall := hordered.turns
  rw [hturns] at hall
  cases ready with
  | cons one rest =>
      obtain ⟨htail, -⟩ := List.cons.inj hall
      exact ⟨one.2, rest, by rw [← htail]⟩
  | nil =>
      have hmem : bench.rx.rxTail ∈ calling.toList.map Prod.fst ++
          bench.rx.lent.map EmzRxDesc.idx := by
        rw [List.map_nil, List.nil_append] at hall
        rw [hall]
        exact List.mem_cons_self
      have hnot : bench.rx.tailSlot.done = false := by
        rcases List.mem_append.mp hmem with hcalls | hposted
        · obtain ⟨one, hone, htail⟩ := List.mem_map.mp hcalls
          rw [EmzRx.tailSlot, ← htail]
          exact (hordered.calls one (Option.mem_toList.mp hone)).1
        · obtain ⟨desc, hdesc, htail⟩ := List.mem_map.mp hposted
          rw [EmzRx.tailSlot, ← htail]
          exact hordered.posted desc hdesc
      rw [hnot] at hdone
      exact absurd hdone Bool.false_ne_true

theorem turns_looking (hstuck : bench.stuck = false) (hheld : bench.rx.napi.holds = false)
    (hbehind : bench.behind = false) (htail : bench.rx.rxTail < emzRxRing) :
    bench.turns = bench.rx.rxTail ::
      ringTurns emzRxRing (bench.rx.rxTail + 1) (emzRxRing - 1) := by
  rw [turns, without, hstuck, hheld, hbehind]
  exact round_eq _ htail

section Poll

variable {answer : EmzRxAnswer} {counts : EmzRxCounts} {len : Nat} {frag : EmzFrag}

/-- The poll looks at the slot at `rx_tail`, and takes what is done there in hand. -/
theorem Holds.loop (hholds : bench.Holds taken hand ready calling)
    (hpc : bench.rx.napi = .loop counts) :
    ∃ hand' ready', (bench.napiStep answer).Holds taken hand' ready' calling := by
  have hhand := hholds.inHand
  rw [EmzRx.Hand, hpc] at hhand
  have hflying : bench.rx.napi.flying = [] := by rw [hpc]; rfl
  by_cases hlook : counts.done < counts.budget ∧ bench.rx.tailSlot.done = true
  · have hstep : bench.napiStep answer =
        { bench with rx := { bench.rx with napi := .status counts } } := by
      simp only [napiStep, EmzRx.pollStep, hpc, if_pos hlook]
    have hclear : bench.stuck = false := by
      rw [← Bool.not_eq_true]
      intro hset
      have hdone := (hholds.stuck hset).2.1
      rw [hlook.2] at hdone
      exact absurd hdone (by decide)
    have hround := turns_looking hclear (by rw [hpc]; rfl) (by rw [behind, hpc]) hholds.tail_lt
    obtain ⟨completion, rest, rfl⟩ := hholds.ordered.ready_of_done hround hlook.2
    have hordered := hholds.ordered
    have hturns := hordered.turns
    rw [hround] at hturns
    rw [hstep]
    refine ⟨some completion, rest, hholds.owned.congr (fun _ => rfl) (fun _ => rfl)
      (fun _ hmem => hmem) rfl (by rw [hflying]; rfl),
      ⟨?_, fun one hone => (hordered.filled one (List.mem_cons_of_mem _ hone)).mono rfl id,
        hordered.calls, hordered.called, hordered.posted⟩,
      ⟨completion, rfl, (hordered.filled _ List.mem_cons_self).mono rfl id⟩, hholds.tail_lt,
      stuck_of_clear hclear, ?_, hholds.tallies.congr rfl rfl rfl rfl rfl rfl⟩
    · rw [turns, without_of_holds rfl, if_pos rfl]
      exact (List.cons.inj hturns).2
    · have hcompleted := hholds.completed
      rw [hhand] at hcompleted
      exact hcompleted
  · have hstep : bench.napiStep answer =
        { bench with rx := { bench.rx with napi := .finish counts } } := by
      simp only [napiStep, EmzRx.pollStep, hpc, if_neg hlook]
    rw [hstep]
    refine ⟨hand, ready, hholds.go (hholds.owned.congr (fun _ => rfl) (fun _ => rfl)
      (fun _ hmem => hmem) rfl (by rw [hflying]; rfl)) (turns_eq ?_ ?_ rfl) rfl rfl
      (fun _ _ => rfl) rfl id hhand hholds.tail_lt (fun hset => ?_) rfl rfl
      (hholds.tallies.congr rfl rfl rfl rfl rfl rfl)⟩
    · rw [without, without, hpc]
      rfl
    · rw [behind, behind, hpc]
    · obtain ⟨hpending, hdone, -⟩ := hholds.stuck hset
      exact ⟨hpending, hdone, .inr ⟨counts, .inr rfl⟩⟩

/-- The poll goes on, with the slot at `rx_tail` in its hands before and after. -/
theorem Holds.held (hholds : bench.Holds taken hand ready calling) {rx : EmzRx}
    {delivered : List (List (BitVec 8))}
    (hheld : bench.rx.napi.holds = true) (hheld' : rx.napi.holds = true) (howned : rx.Owned)
    (hlent : rx.lent = bench.rx.lent) (hdma : rx.dma = bench.rx.dma)
    (hslots : ∀ idx, idx ≠ bench.rx.rxTail → rx.slots idx = bench.rx.slots idx)
    (hmemory : rx.memory = bench.rx.memory) (hrxTail : rx.rxTail = bench.rx.rxTail)
    (hreset : rx.resetPending = bench.rx.resetPending) (hhand : rx.Hand hand')
    (hsplit : taken'.map EmzRxTaken.completion ++ hand'.toList =
      taken.map EmzRxTaken.completion ++ hand.toList)
    (htallies : Tallies { bench with rx := rx, delivered := delivered } taken') :
    Holds { bench with rx := rx, delivered := delivered } taken' hand' ready calling := by
  have hclear : bench.stuck = false :=
    hholds.unstuck (fun hpc => by rw [hpc] at hheld; exact absurd hheld Bool.false_ne_true)
      (fun _ hpc => by rw [hpc] at hheld; exact absurd hheld Bool.false_ne_true)
      (fun _ hpc => by rw [hpc] at hheld; exact absurd hheld Bool.false_ne_true)
  have hwithout := without_of_holds hheld
  refine hholds.go howned ?_ hlent hdma (fun idx hmem => hslots idx fun hat => ?_) hmemory
    (fun hpending => hreset.trans hpending) hhand ?_ (stuck_of_clear hclear) rfl hsplit htallies
  · rw [turns, turns, without_of_holds hheld', hwithout, if_pos rfl, if_pos rfl, hrxTail]
  · rw [hat] at hmem
    exact tail_notMem hwithout hholds.tail_lt hmem
  · change rx.rxTail < emzRxRing
    rw [hrxTail]
    exact hholds.tail_lt

theorem Holds.status (hholds : bench.Holds taken hand ready calling)
    (hpc : bench.rx.napi = .status counts) :
    (bench.napiStep answer).Holds taken hand ready calling := by
  have hhand := hholds.inHand
  rw [EmzRx.Hand, hpc] at hhand
  obtain ⟨completion, hsome, hfilled⟩ := hhand
  have hflying : bench.rx.napi.flying = [] := by rw [hpc]; rfl
  have hheld : bench.rx.napi.holds = true := by rw [hpc]; rfl
  have htallies := hholds.tallies
  simp only [napiStep, EmzRx.pollStep, hpc]
  cases hstatus : bench.rx.tailSlot.status with
  | true =>
      have hfailed := hfilled.status.symm.trans hstatus
      exact hholds.held hheld rfl (hholds.owned.congr (fun _ => rfl) (fun _ => rfl)
        (fun _ hmem => hmem) rfl (by rw [hflying]; rfl)) rfl rfl (fun _ _ => rfl) rfl rfl rfl
        ⟨completion, hsome, hfailed, hfilled.reset hfailed⟩ rfl
        (htallies.congr rfl rfl rfl rfl rfl rfl)
  | false =>
      exact hholds.held hheld rfl (hholds.owned.congr (fun _ => rfl) (fun _ => rfl)
        (fun _ hmem => hmem) rfl (by rw [hflying]; rfl)) rfl rfl (fun _ _ => rfl) rfl rfl rfl
        ⟨completion, hsome, hfilled.mono rfl id, hfilled.status.symm.trans hstatus⟩ rfl
        (htallies.congr rfl rfl rfl rfl rfl rfl)

theorem Holds.failError (hholds : bench.Holds taken hand ready calling)
    (hpc : bench.rx.napi = .failError counts) :
    ∃ one, (bench.napiStep answer).Holds (taken ++ [one]) none ready calling := by
  have hhand := hholds.inHand
  rw [EmzRx.Hand, hpc] at hhand
  obtain ⟨completion, rfl, hfailed, hpending⟩ := hhand
  have hflying : bench.rx.napi.flying = [] := by rw [hpc]; rfl
  simp only [napiStep, EmzRx.pollStep, hpc]
  exact ⟨⟨completion, .failed⟩, hholds.held (by rw [hpc]; rfl) rfl
    (hholds.owned.congr (fun _ => rfl) (fun _ => rfl) (fun _ hmem => hmem) rfl
      (by rw [hflying]; rfl)) rfl rfl (fun _ _ => rfl) rfl rfl rfl ⟨rfl, hpending⟩ (by simp)
    (hholds.tallies.concat hfailed (by simp) (by simp) (by simp) (by simp) (by simp) (by simp))⟩

theorem Holds.frame (hholds : bench.Holds taken hand ready calling)
    (hpc : bench.rx.napi = .frame counts) :
    (bench.napiStep answer).Holds taken hand ready calling := by
  have hhand := hholds.inHand
  rw [EmzRx.Hand, hpc] at hhand
  obtain ⟨completion, hsome, hfilled, hgood⟩ := hhand
  have hflying : bench.rx.napi.flying = [] := by rw [hpc]; rfl
  have hheld : bench.rx.napi.holds = true := by rw [hpc]; rfl
  have htallies := hholds.tallies
  have hlen := hfilled.len
  simp only [napiStep, EmzRx.pollStep, hpc]
  by_cases hshort : bench.rx.tailSlot.len < ethHlen
  · rw [if_pos hshort]
    exact hholds.held hheld rfl (hholds.owned.congr (fun _ => rfl) (fun _ => rfl)
      (fun _ hmem => hmem) rfl (by rw [hflying]; rfl)) rfl rfl (fun _ _ => rfl) rfl rfl rfl
      ⟨completion, hsome, hgood, hlen ▸ hshort⟩ rfl (htallies.congr rfl rfl rfl rfl rfl rfl)
  · rw [if_neg hshort]
    exact hholds.held hheld rfl (hholds.owned.congr (fun _ => rfl) (fun _ => rfl)
      (fun _ hmem => hmem) rfl (by rw [hflying]; rfl)) rfl rfl (fun _ _ => rfl) rfl rfl rfl
      ⟨completion, hsome, ⟨hgood, hlen ▸ Nat.le_of_not_lt hshort⟩, hlen, rfl, hfilled.memory⟩ rfl
      (htallies.congr rfl rfl rfl rfl rfl rfl)

theorem Holds.short (hholds : bench.Holds taken hand ready calling)
    (hpc : bench.rx.napi = .short counts) :
    ∃ one, (bench.napiStep answer).Holds (taken ++ [one]) none ready calling := by
  have hhand := hholds.inHand
  rw [EmzRx.Hand, hpc] at hhand
  obtain ⟨completion, rfl, hshort⟩ := hhand
  have hflying : bench.rx.napi.flying = [] := by rw [hpc]; rfl
  simp only [napiStep, EmzRx.pollStep, hpc]
  exact ⟨⟨completion, .short⟩, hholds.held (by rw [hpc]; rfl) rfl
    (hholds.owned.congr (fun _ => rfl) (fun _ => rfl) (fun _ hmem => hmem) rfl
      (by rw [hflying]; rfl)) rfl rfl (fun _ _ => rfl) rfl rfl rfl rfl (by simp)
    (hholds.tallies.concat hshort (by simp) (by simp) (by simp) (by simp) (by simp) (by simp))⟩

/-- `emz_rx_new` gives the slot a fragment, or the frame is to be dropped. -/
theorem Holds.alloc (hholds : bench.Holds taken hand ready calling)
    (hpc : bench.rx.napi = .alloc counts len frag) :
    (bench.napiStep answer).Holds taken hand ready calling := by
  have hhand := hholds.inHand
  rw [EmzRx.Hand, hpc] at hhand
  obtain ⟨completion, hsome, hgood, hlen, hfrag, hmemory⟩ := hhand
  have hflying : bench.rx.napi.flying = [] := by rw [hpc]; rfl
  have hheld : bench.rx.napi.holds = true := by rw [hpc]; rfl
  have htallies := hholds.tallies
  simp only [napiStep, EmzRx.pollStep, hpc]
  cases halloc : bench.rx.allocFrag answer with
  | none =>
      exact hholds.held hheld rfl (hholds.owned.congr (fun _ => rfl) (fun _ => rfl)
        (fun _ hmem => hmem) rfl (by rw [hflying]; rfl)) rfl rfl (fun _ _ => rfl) rfl rfl rfl
        ⟨completion, hsome, hgood⟩ rfl (htallies.congr rfl rfl rfl rfl rfl rfl)
  | some fresh =>
      have hfresh : fresh ∉ bench.rx.out := by
        obtain ⟨-, hnot⟩ := Option.filter_eq_some_iff.mp halloc
        exact of_decide_eq_true hnot
      have hothers : ∀ desc ∈ bench.rx.lent, desc.idx ≠ bench.rx.rxTail := by
        intro desc hmem hat
        refine tail_notMem (without_of_holds hheld) hholds.tail_lt ?_
        rw [← hat]
        exact hholds.ordered.mem_lent hmem
      exact hholds.held hheld rfl (hholds.owned.alloc hpc hfrag hholds.tail_lt hothers hfresh) rfl
        rfl (fun _ hne => Function.update_of_ne hne _ _) rfl rfl rfl
        ⟨completion, hsome, hgood, hlen, hmemory⟩ rfl (htallies.congr rfl rfl rfl rfl rfl rfl)

theorem Holds.build (hholds : bench.Holds taken hand ready calling)
    (hpc : bench.rx.napi = .build counts len frag) :
    (bench.napiStep answer).Holds taken hand ready calling := by
  have hhand := hholds.inHand
  rw [EmzRx.Hand, hpc] at hhand
  obtain ⟨completion, hsome, hgood, hlen, hmemory⟩ := hhand
  have hflying : bench.rx.napi.flying = [frag] := by rw [hpc]; rfl
  have hheld : bench.rx.napi.holds = true := by rw [hpc]; rfl
  have htallies := hholds.tallies
  simp only [napiStep, EmzRx.pollStep, hpc]
  cases answer.fails with
  | true =>
      exact hholds.held hheld rfl (hholds.owned.congr (fun _ => rfl) (fun _ => rfl)
        (fun _ hmem => hmem) rfl (by rw [hflying]; rfl)) rfl rfl (fun _ _ => rfl) rfl rfl rfl
        ⟨completion, hsome, hgood⟩ rfl (htallies.congr rfl rfl rfl rfl rfl rfl)
  | false =>
      exact hholds.held hheld rfl (hholds.owned.congr (fun _ => rfl) (fun _ => rfl)
        (fun _ hmem => hmem) rfl (by rw [hflying]; rfl)) rfl rfl (fun _ _ => rfl) rfl rfl rfl
        ⟨completion, hsome, hgood, hlen, hmemory⟩ rfl (htallies.congr rfl rfl rfl rfl rfl rfl)

theorem Holds.recycle (hholds : bench.Holds taken hand ready calling)
    (hpc : bench.rx.napi = .recycle counts frag) :
    (bench.napiStep answer).Holds taken hand ready calling := by
  have hhand := hholds.inHand
  rw [EmzRx.Hand, hpc] at hhand
  simp only [napiStep, EmzRx.pollStep, hpc]
  exact hholds.held (by rw [hpc]; rfl) rfl (hholds.owned.recycle hpc) rfl rfl (fun _ _ => rfl) rfl
    rfl rfl hhand rfl (hholds.tallies.congr rfl rfl rfl rfl rfl rfl)

theorem Holds.drop (hholds : bench.Holds taken hand ready calling)
    (hpc : bench.rx.napi = .drop counts) :
    ∃ one, (bench.napiStep answer).Holds (taken ++ [one]) none ready calling := by
  have hhand := hholds.inHand
  rw [EmzRx.Hand, hpc] at hhand
  obtain ⟨completion, rfl, hgood⟩ := hhand
  have hflying : bench.rx.napi.flying = [] := by rw [hpc]; rfl
  simp only [napiStep, EmzRx.pollStep, hpc]
  exact ⟨⟨completion, .dropped⟩, hholds.held (by rw [hpc]; rfl) rfl
    (hholds.owned.congr (fun _ => rfl) (fun _ => rfl) (fun _ hmem => hmem) rfl
      (by rw [hflying]; rfl)) rfl rfl (fun _ _ => rfl) rfl rfl rfl rfl (by simp)
    (hholds.tallies.concat hgood (by simp) (by simp) (by simp) (by simp) (by simp) (by simp))⟩

/-- The frame is delivered as the DMA has written it. -/
theorem Holds.receive (hholds : bench.Holds taken hand ready calling)
    (hpc : bench.rx.napi = .receive counts len frag) :
    ∃ one, (bench.napiStep answer).Holds (taken ++ [one]) none ready calling := by
  have hhand := hholds.inHand
  rw [EmzRx.Hand, hpc] at hhand
  obtain ⟨completion, rfl, hgood, hlen, hmemory⟩ := hhand
  have hflying : bench.rx.napi.flying = [frag] := by rw [hpc]; rfl
  have hframe : (bench.rx.memory frag).take len = completion.frame := by
    rw [hmemory, hlen, List.take_length]
  simp only [napiStep, EmzRx.pollStep, hpc, hframe]
  exact ⟨⟨completion, .delivered⟩, hholds.held (by rw [hpc]; rfl) rfl
    (hholds.owned.congr (fun _ => rfl) (fun _ => rfl) (fun _ hmem => hmem) rfl
      (by rw [hflying]; rfl)) rfl rfl (fun _ _ => rfl) rfl rfl rfl rfl (by simp)
    (hholds.tallies.concat hgood (by simp) (by simp) (by simp) (by simp) (by simp)
      (by simp [hlen]))⟩

/-- A slot whose descriptor has failed stays as it is until the rebuild. -/
theorem Holds.failDone (hholds : bench.Holds taken hand ready calling)
    (hpc : bench.rx.napi = .failDone counts) :
    (bench.napiStep answer).Holds taken hand ready calling := by
  have hhand := hholds.inHand
  rw [EmzRx.Hand, hpc] at hhand
  obtain ⟨hnone, hpending⟩ := hhand
  have hflying : bench.rx.napi.flying = [] := by rw [hpc]; rfl
  have hwithout : bench.without = true := without_of_holds (by rw [hpc]; rfl)
  simp only [napiStep, EmzRx.pollStep, hpc]
  refine hholds.go (hholds.owned.setSlot rfl rfl rfl rfl rfl (by rw [hflying]; rfl)) ?_ rfl rfl
    (fun idx hmem => Function.update_of_ne (fun hat => ?_) _ _) rfl id hnone hholds.tail_lt
    (fun _ => ⟨hpending, ?_, .inr ⟨counts, .inr rfl⟩⟩) rfl rfl
    (hholds.tallies.congr rfl rfl rfl rfl rfl rfl)
  · rw [turns, turns, without_of_stuck rfl, hwithout]
    rfl
  · rw [hat] at hmem
    exact tail_notMem hwithout hholds.tail_lt hmem
  · simp only [EmzRx.tailSlot, EmzRx.setSlot, Function.update_self]

theorem Holds.progress (hholds : bench.Holds taken hand ready calling)
    (hpc : bench.rx.napi = .progress counts) :
    (bench.napiStep answer).Holds taken hand ready calling := by
  have hhand := hholds.inHand
  rw [EmzRx.Hand, hpc] at hhand
  have hflying : bench.rx.napi.flying = [] := by rw [hpc]; rfl
  simp only [napiStep, EmzRx.pollStep, hpc]
  exact hholds.held (by rw [hpc]; rfl) rfl (hholds.owned.congr (fun _ => rfl) (fun _ => rfl)
    (fun _ hmem => hmem) rfl (by rw [hflying]; rfl)) rfl rfl (fun _ _ => rfl) rfl rfl rfl hhand rfl
    (hholds.tallies.congr rfl rfl rfl rfl rfl rfl)

/-- `emz_rx_submit` forgets the old completion first. -/
theorem Holds.clear (hholds : bench.Holds taken hand ready calling)
    (hpc : bench.rx.napi = .clear counts) :
    (bench.napiStep answer).Holds taken hand ready calling := by
  have hhand := hholds.inHand
  rw [EmzRx.Hand, hpc] at hhand
  have hflying : bench.rx.napi.flying = [] := by rw [hpc]; rfl
  simp only [napiStep, EmzRx.pollStep, hpc]
  refine hholds.held (by rw [hpc]; rfl) rfl
    (hholds.owned.setSlot rfl rfl rfl rfl rfl (by rw [hflying]; rfl)) rfl rfl
    (fun _ hne => Function.update_of_ne hne _ _) rfl rfl rfl ⟨hhand, ?_⟩ rfl
    (hholds.tallies.congr rfl rfl rfl rfl rfl rfl)
  simp only [EmzRx.tailSlot, EmzRx.setSlot, Function.update_self]

theorem Holds.gate (hholds : bench.Holds taken hand ready calling)
    (hpc : bench.rx.napi = .gate counts) :
    (bench.napiStep answer).Holds taken hand ready calling := by
  have hhand := hholds.inHand
  rw [EmzRx.Hand, hpc] at hhand
  have hflying : bench.rx.napi.flying = [] := by rw [hpc]; rfl
  have hheld : bench.rx.napi.holds = true := by rw [hpc]; rfl
  have htallies := hholds.tallies
  simp only [napiStep, EmzRx.pollStep, hpc]
  cases hpending : bench.rx.resetPending with
  | true =>
      exact hholds.held hheld rfl (hholds.owned.congr (fun _ => rfl) (fun _ => rfl)
        (fun _ hmem => hmem) rfl (by rw [hflying]; rfl)) rfl rfl (fun _ _ => rfl) rfl rfl
        hpending.symm hhand rfl (htallies.congr rfl rfl rfl rfl rfl rfl)
  | false =>
      exact hholds.held hheld rfl (hholds.owned.congr (fun _ => rfl) (fun _ => rfl)
        (fun _ hmem => hmem) rfl (by rw [hflying]; rfl)) rfl rfl (fun _ _ => rfl) rfl rfl
        hpending.symm hhand rfl (htallies.congr rfl rfl rfl rfl rfl rfl)

/-- The slot's buffer is posted again, or the slot is stuck. -/
theorem Holds.submit (hholds : bench.Holds taken hand ready calling)
    (hpc : bench.rx.napi = .submit counts) :
    (bench.napiStep answer).Holds taken hand ready calling := by
  have hhand := hholds.inHand
  rw [EmzRx.Hand, hpc] at hhand
  have hflying : bench.rx.napi.flying = [] := by rw [hpc]; rfl
  have hheld : bench.rx.napi.holds = true := by rw [hpc]; rfl
  obtain ⟨howned, hordered, -, htail, -, hcompleted, htallies⟩ := id hholds
  by_cases hfails : answer.fails = true
  · simp only [napiStep, EmzRx.pollStep, hpc, if_pos hfails]
    exact hholds.held hheld rfl (howned.congr (fun _ => rfl) (fun _ => rfl) (fun _ hmem => hmem) rfl
      (by rw [hflying]; rfl)) rfl rfl (fun _ _ => rfl) rfl rfl rfl hhand rfl
      (htallies.congr rfl rfl rfl rfl rfl rfl)
  · have hclear : bench.stuck = false :=
      hholds.unstuck (by rw [hpc]; simp) (by rw [hpc]; simp) (by rw [hpc]; simp)
    have hmore : ∀ {desc}, desc ∈ bench.rx.queue ++ (bench.rx.waiting ++
        [(⟨bench.rx.rxTail, bench.rx.tailSlot.dma⟩ : EmzRxDesc)]) →
        desc ∈ bench.rx.lent ∨ desc = ⟨bench.rx.rxTail, bench.rx.tailSlot.dma⟩ := by
      intro desc hmem
      rwa [← List.append_assoc, List.mem_append, List.mem_singleton] at hmem
    simp only [napiStep, EmzRx.pollStep, hpc, if_neg hfails]
    refine ⟨⟨?_, howned.distinct, howned.slot, fun desc hmem => ?_⟩,
      ⟨?_, fun one hone => (hordered.filled one hone).mono rfl id, hordered.calls,
        hordered.called, fun desc hmem => ?_⟩, hhand.1, htail, stuck_of_clear hclear, hcompleted,
      htallies.congr rfl rfl rfl rfl rfl rfl⟩
    · have hout := howned.out
      rw [hflying] at hout
      exact hout
    · rcases hmore hmem with hold | rfl
      · exact howned.lent desc hold
      · exact howned.slot _
    · have hturns := hordered.turns
      rw [turns, if_pos (without_of_holds hheld)] at hturns
      have hlast : (bench.rx.rxTail + 1 + (emzRxRing - 1)) % emzRxRing = bench.rx.rxTail := by
        rw [Nat.add_assoc, show 1 + (emzRxRing - 1) = emzRxRing from rfl, Nat.add_mod_right,
          Nat.mod_eq_of_lt htail]
      have hnext : turns
          { bench with
            rx := { bench.rx with
              waiting := bench.rx.waiting ++ [⟨bench.rx.rxTail, bench.rx.tailSlot.dma⟩]
              napi := .advance counts } } =
          ringTurns emzRxRing (bench.rx.rxTail + 1) (emzRxRing - 1 + 1) := by
        rw [turns, without, hclear]
        rfl
      have hlent : (bench.rx.queue ++ (bench.rx.waiting ++
          [(⟨bench.rx.rxTail, bench.rx.tailSlot.dma⟩ : EmzRxDesc)])).map EmzRxDesc.idx =
          bench.rx.lent.map EmzRxDesc.idx ++ [bench.rx.rxTail] := by
        rw [← List.append_assoc, List.map_append]
        rfl
      rw [hnext, ringTurns_concat, ← hturns, hlast, List.append_assoc, List.append_assoc]
      exact congrArg (fun posted => _ ++ (_ ++ posted)) hlent
    · rcases hmore hmem with hold | rfl
      · exact hordered.posted desc hold
      · exact hhand.2

/-- The slot could not be posted: it is stuck until the rebuild. -/
theorem Holds.request (hholds : bench.Holds taken hand ready calling)
    (hpc : bench.rx.napi = .request counts) :
    (bench.napiStep answer).Holds taken hand ready calling := by
  have hhand := hholds.inHand
  rw [EmzRx.Hand, hpc] at hhand
  obtain ⟨hnone, hdone⟩ := hhand
  have hflying : bench.rx.napi.flying = [] := by rw [hpc]; rfl
  have hwithout : bench.without = true := without_of_holds (by rw [hpc]; rfl)
  simp only [napiStep, EmzRx.pollStep, hpc]
  refine hholds.go (hholds.owned.congr (fun _ => rfl) (fun _ => rfl) (fun _ hmem => hmem) rfl
    (by rw [hflying]; rfl)) ?_ rfl rfl (fun _ _ => rfl) rfl (fun _ => rfl) hnone hholds.tail_lt
    (fun _ => ⟨rfl, hdone, .inr ⟨counts, .inr rfl⟩⟩) rfl rfl
    (hholds.tallies.congr rfl rfl rfl rfl rfl rfl)
  rw [turns, turns, without_of_stuck rfl, hwithout]
  rfl

theorem Holds.advance (hholds : bench.Holds taken hand ready calling)
    (hpc : bench.rx.napi = .advance counts) :
    (bench.napiStep answer).Holds taken hand ready calling := by
  have hhand := hholds.inHand
  rw [EmzRx.Hand, hpc] at hhand
  have hflying : bench.rx.napi.flying = [] := by rw [hpc]; rfl
  have hclear : bench.stuck = false :=
    hholds.unstuck (by rw [hpc]; simp) (by rw [hpc]; simp) (by rw [hpc]; simp)
  simp only [napiStep, EmzRx.pollStep, hpc]
  refine hholds.go (hholds.owned.congr (fun _ => rfl) (fun _ => rfl) (fun _ hmem => hmem) rfl
    (by rw [hflying]; rfl)) ?_ rfl rfl (fun _ _ => rfl) rfl id hhand (Nat.mod_lt _ (by decide))
    (stuck_of_clear hclear) rfl rfl (hholds.tallies.congr rfl rfl rfl rfl rfl rfl)
  rw [turns, turns, without, without, behind, behind, hclear, hpc]
  exact ringTurns_mod

theorem Holds.kick (hholds : bench.Holds taken hand ready calling)
    (hpc : bench.rx.napi = .kick counts) :
    (bench.napiStep answer).Holds taken hand ready calling := by
  have hhand := hholds.inHand
  rw [EmzRx.Hand, hpc] at hhand
  have hflying : bench.rx.napi.flying = [] := by rw [hpc]; rfl
  have hclear : bench.stuck = false :=
    hholds.unstuck (by rw [hpc]; simp) (by rw [hpc]; simp) (by rw [hpc]; simp)
  have hlent : bench.rx.issue.lent = bench.rx.lent := List.append_nil _
  have htallies := hholds.tallies
  simp only [napiStep, EmzRx.pollStep, hpc]
  split
  · refine hholds.go (hholds.owned.congr (fun _ => rfl) (fun _ => rfl) ?_ rfl
      (by rw [hflying]; rfl)) (turns_eq ?_ ?_ rfl) hlent rfl (fun _ _ => rfl) rfl id hhand
      hholds.tail_lt (stuck_of_clear hclear) rfl rfl (htallies.congr rfl rfl rfl rfl rfl rfl)
    · exact fun desc hmem => hlent ▸ hmem
    · rw [without, without, hpc]
      rfl
    · rw [behind, behind, hpc]
  · refine hholds.go (hholds.owned.congr (fun _ => rfl) (fun _ => rfl) (fun _ hmem => hmem) rfl
      (by rw [hflying]; rfl)) (turns_eq ?_ ?_ rfl) rfl rfl (fun _ _ => rfl) rfl id hhand
      hholds.tail_lt (stuck_of_clear hclear) rfl rfl (htallies.congr rfl rfl rfl rfl rfl rfl)
    · rw [without, without, hpc]
      rfl
    · rw [behind, behind, hpc]

theorem Holds.finish (hholds : bench.Holds taken hand ready calling)
    (hpc : bench.rx.napi = .finish counts) :
    (bench.napiStep answer).Holds taken hand ready calling := by
  have hhand := hholds.inHand
  rw [EmzRx.Hand, hpc] at hhand
  have hflying : bench.rx.napi.flying = [] := by rw [hpc]; rfl
  have hlent : bench.rx.issue.lent = bench.rx.lent := List.append_nil _
  have htallies := hholds.tallies
  simp only [napiStep, EmzRx.pollStep, hpc]
  split
  · refine hholds.go (hholds.owned.congr (fun _ => rfl) (fun _ => rfl) ?_ rfl
      (by rw [hflying]; rfl)) (turns_eq ?_ ?_ rfl) hlent rfl (fun _ _ => rfl) rfl id hhand
      hholds.tail_lt (fun hset => ?_) rfl rfl (htallies.congr rfl rfl rfl rfl rfl rfl)
    · exact fun desc hmem => hlent ▸ hmem
    · rw [without, without, hpc]
      rfl
    · rw [behind, behind, hpc]
    · obtain ⟨hpending, hdone, -⟩ := hholds.stuck hset
      exact ⟨hpending, hdone, .inl rfl⟩
  · refine hholds.go (hholds.owned.congr (fun _ => rfl) (fun _ => rfl) (fun _ hmem => hmem) rfl
      (by rw [hflying]; rfl)) (turns_eq ?_ ?_ rfl) rfl rfl (fun _ _ => rfl) rfl id hhand
      hholds.tail_lt (fun hset => ?_) rfl rfl (htallies.congr rfl rfl rfl rfl rfl rfl)
    · rw [without, without, hpc]
      rfl
    · rw [behind, behind, hpc]
    · obtain ⟨hpending, hdone, -⟩ := hholds.stuck hset
      exact ⟨hpending, hdone, .inl rfl⟩

/-- The next access of the poll. -/
theorem Holds.napi (hholds : bench.Holds taken hand ready calling) (answer : EmzRxAnswer) :
    ∃ taken' hand' ready', (bench.napiStep answer).Holds taken' hand' ready' calling := by
  cases hpc : bench.rx.napi with
  | idle =>
      have hsame : bench.napiStep answer = bench := by
        simp only [napiStep, EmzRx.pollStep, hpc]
      rw [hsame]
      exact ⟨taken, hand, ready, hholds⟩
  | loop counts =>
      obtain ⟨hand', ready', hnext⟩ := hholds.loop hpc
      exact ⟨taken, hand', ready', hnext⟩
  | status counts => exact ⟨taken, hand, ready, hholds.status hpc⟩
  | failError counts =>
      obtain ⟨one, hnext⟩ := hholds.failError hpc
      exact ⟨_, none, ready, hnext⟩
  | failDone counts => exact ⟨taken, hand, ready, hholds.failDone hpc⟩
  | frame counts => exact ⟨taken, hand, ready, hholds.frame hpc⟩
  | short counts =>
      obtain ⟨one, hnext⟩ := hholds.short hpc
      exact ⟨_, none, ready, hnext⟩
  | alloc counts len frag => exact ⟨taken, hand, ready, hholds.alloc hpc⟩
  | build counts len frag => exact ⟨taken, hand, ready, hholds.build hpc⟩
  | recycle counts frag => exact ⟨taken, hand, ready, hholds.recycle hpc⟩
  | drop counts =>
      obtain ⟨one, hnext⟩ := hholds.drop hpc
      exact ⟨_, none, ready, hnext⟩
  | receive counts len frag =>
      obtain ⟨one, hnext⟩ := hholds.receive hpc
      exact ⟨_, none, ready, hnext⟩
  | progress counts => exact ⟨taken, hand, ready, hholds.progress hpc⟩
  | clear counts => exact ⟨taken, hand, ready, hholds.clear hpc⟩
  | gate counts => exact ⟨taken, hand, ready, hholds.gate hpc⟩
  | submit counts => exact ⟨taken, hand, ready, hholds.submit hpc⟩
  | request counts => exact ⟨taken, hand, ready, hholds.request hpc⟩
  | advance counts => exact ⟨taken, hand, ready, hholds.advance hpc⟩
  | kick counts => exact ⟨taken, hand, ready, hholds.kick hpc⟩
  | finish counts => exact ⟨taken, hand, ready, hholds.finish hpc⟩

end Poll

/-- The ring is in its order, with its completions accounted for. -/
def Kept (bench : EmzRxBench) : Prop :=
  ∃ taken hand ready calling, bench.Holds taken hand ready calling

theorem Kept.step (hkept : bench.Kept) (move : EmzRxMove) : (bench.step move).Kept := by
  obtain ⟨taken, hand, ready, calling, hholds⟩ := hkept
  cases move with
  | poll budget => exact ⟨taken, hand, ready, calling, hholds.poll budget⟩
  | napi answer =>
      obtain ⟨taken', hand', ready', hnext⟩ := hholds.napi answer
      exact ⟨taken', hand', ready', calling, hnext⟩
  | complete data failed =>
      obtain ⟨calling', hnext⟩ := hholds.complete data failed
      exact ⟨taken, hand, ready, calling', hnext⟩
  | dma =>
      obtain ⟨ready', calling', hnext⟩ := hholds.dma
      exact ⟨taken, hand, ready', calling', hnext⟩
  | issue => exact ⟨taken, hand, ready, calling, hholds.issue⟩
  | freeSkb frag => exact ⟨taken, hand, ready, calling, hholds.freeSkb frag⟩
  | requestReset => exact ⟨taken, hand, ready, calling, hholds.requestReset⟩

/-- A poll takes no more than its budget. -/
def Within : EmzRxPoll → Prop
  | .idle => True
  | .status counts | .failError counts | .frame counts | .short counts | .alloc counts _ _
  | .build counts _ _ | .recycle counts _ | .drop counts | .receive counts _ _
  | .progress counts => counts.done < counts.budget
  | .loop counts | .failDone counts | .clear counts | .gate counts | .submit counts
  | .request counts | .advance counts | .kick counts | .finish counts =>
      counts.done ≤ counts.budget

theorem within_pollStep {rx : EmzRx} (answer : EmzRxAnswer) (hwithin : Within rx.napi) :
    Within (rx.pollStep answer).napi := by
  rw [EmzRx.pollStep]
  cases hpc : rx.napi with
  | idle =>
      rw [hpc]
      trivial
  | loop counts =>
      rw [hpc] at hwithin
      dsimp only
      split
      · rename_i hlook
        exact hlook.1
      · exact hwithin
  | status counts =>
      rw [hpc] at hwithin
      cases rx.tailSlot.status with
      | true => exact hwithin
      | false => exact hwithin
  | failError counts =>
      rw [hpc] at hwithin
      exact Nat.le_of_lt hwithin
  | frame counts =>
      rw [hpc] at hwithin
      dsimp only
      split <;> exact hwithin
  | alloc counts len frag =>
      rw [hpc] at hwithin
      dsimp only
      split <;> exact hwithin
  | build counts len frag =>
      rw [hpc] at hwithin
      cases answer.fails with
      | true => exact hwithin
      | false => exact hwithin
  | progress counts =>
      rw [hpc] at hwithin
      exact Nat.succ_le_of_lt hwithin
  | gate counts =>
      rw [hpc] at hwithin
      cases rx.resetPending with
      | true => exact hwithin
      | false => exact hwithin
  | submit counts | kick counts =>
      rw [hpc] at hwithin
      dsimp only
      split <;> exact hwithin
  | finish counts =>
      dsimp only
      split <;> trivial
  | failDone counts | short counts | recycle counts frag | drop counts | receive counts len frag
  | clear counts | request counts | advance counts =>
      rw [hpc] at hwithin
      exact hwithin

/-- No poll has returned more than its budget. -/
structure Bounded (bench : EmzRxBench) : Prop where
  within : Within bench.rx.napi
  returns : ∀ counts ∈ bench.returns, counts.done ≤ counts.budget

theorem Bounded.step (hbounded : bench.Bounded) (move : EmzRxMove) :
    (bench.step move).Bounded := by
  obtain ⟨hwithin, hreturns⟩ := hbounded
  cases move with
  | poll budget =>
      refine ⟨?_, hreturns⟩
      change Within (bench.rx.poll budget).napi
      rw [EmzRx.poll]
      split
      · exact Nat.zero_le budget
      · exact hwithin
  | napi answer =>
      refine ⟨within_pollStep answer hwithin, ?_⟩
      change ∀ counts ∈ (bench.napiStep answer).returns, _
      rw [napiStep]
      cases hpc : bench.rx.napi with
      | finish last =>
          intro counts hmem
          rw [hpc] at hwithin
          rcases List.mem_append.mp hmem with hold | hnew
          · exact hreturns counts hold
          · rw [List.mem_singleton.mp hnew]
            exact hwithin
      | _ => exact hreturns
  | complete data failed =>
      refine ⟨?_, hreturns⟩
      change Within (bench.rx.complete data failed).napi
      rw [EmzRx.complete]
      split <;> exact hwithin
  | dma =>
      refine ⟨?_, hreturns⟩
      change Within bench.rx.dmaStep.napi
      rw [EmzRx.dmaStep]
      split <;> exact hwithin
  | freeSkb frag =>
      refine ⟨?_, hreturns⟩
      change Within (bench.rx.freeSkb frag).napi
      rw [EmzRx.freeSkb]
      split <;> exact hwithin
  | issue | requestReset => exact ⟨hwithin, hreturns⟩

/-- While a slot is stuck nothing more is delivered or counted, whatever the DMA completes. -/
theorem Kept.stuck_step (hkept : bench.Kept) (hset : bench.stuck = true) (move : EmzRxMove) :
    (bench.step move).stuck = true ∧ (bench.step move).delivered = bench.delivered ∧
      (bench.step move).rx.rxDropped = bench.rx.rxDropped := by
  obtain ⟨taken, hand, ready, calling, hholds⟩ := hkept
  obtain ⟨-, hdone, hpc⟩ := hholds.stuck hset
  cases move with
  | napi answer =>
      change (bench.napiStep answer).stuck = true ∧ (bench.napiStep answer).delivered = _ ∧
        (bench.napiStep answer).rx.rxDropped = _
      rcases hpc with hidle | ⟨counts, hloop | hfinish⟩
      · simp only [napiStep, EmzRx.pollStep, hidle]
        exact ⟨hset, trivial, trivial⟩
      · simp only [napiStep, EmzRx.pollStep, hloop, hdone, Bool.false_eq_true, and_false, if_false]
        exact ⟨hset, trivial, trivial⟩
      · simp only [napiStep, EmzRx.pollStep, hfinish]
        refine ⟨hset, trivial, ?_⟩
        split <;> rfl
  | poll budget =>
      refine ⟨hset, rfl, ?_⟩
      change (bench.rx.poll budget).rxDropped = _
      rw [EmzRx.poll]
      split <;> rfl
  | complete data failed =>
      refine ⟨hset, rfl, ?_⟩
      change (bench.rx.complete data failed).rxDropped = _
      rw [EmzRx.complete]
      split <;> rfl
  | dma =>
      refine ⟨hset, rfl, ?_⟩
      change bench.rx.dmaStep.rxDropped = _
      rw [EmzRx.dmaStep]
      split <;> rfl
  | freeSkb frag =>
      refine ⟨hset, rfl, ?_⟩
      change (bench.rx.freeSkb frag).rxDropped = _
      rw [EmzRx.freeSkb]
      split <;> rfl
  | issue | requestReset => exact ⟨hset, rfl, rfl⟩

theorem stuck_run (hkept : bench.Kept) (hset : bench.stuck = true)
    (moves : List EmzRxMove) :
    (runFrom step bench moves).stuck = true ∧
      (runFrom step bench moves).delivered = bench.delivered ∧
      (runFrom step bench moves).rx.rxDropped = bench.rx.rxDropped := by
  induction moves generalizing bench with
  | nil => exact ⟨hset, rfl, rfl⟩
  | cons move rest ih =>
      obtain ⟨hset', hdelivered, hdropped⟩ := hkept.stuck_step hset move
      have hrest := ih (hkept.step move) hset'
      rw [hdelivered, hdropped] at hrest
      exact hrest

end EmzRxBench

end EmacZero
