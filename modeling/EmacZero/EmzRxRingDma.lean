/-
The DMA's side of the driver's receive ring: its completions and their callback keep the
ring's order.
-/
import EmacZero.EmzRxRingSteps

namespace EmacZero

namespace EmzRxBench

variable {bench next : EmzRxBench} {taken : List EmzRxTaken} {hand : Option EmzRxCompletion}
  {ready : List (Nat × EmzRxCompletion)} {calling : Option (Nat × EmzRxCompletion)}

/-- The poll stands where it stood, and nothing of the ring has changed for it. -/
theorem Stuck.keep (hstuck : bench.Stuck) (hflag : next.stuck = bench.stuck)
    (hnapi : next.rx.napi = bench.rx.napi)
    (htail : bench.stuck = true → next.rx.tailSlot = bench.rx.tailSlot)
    (hreset : bench.rx.resetPending = true → next.rx.resetPending = true) : next.Stuck := by
  intro hset
  rw [hflag] at hset
  obtain ⟨hpending, hdone, hpc⟩ := hstuck hset
  rw [htail hset, hnapi]
  exact ⟨hreset hpending, hdone, hpc⟩

theorem turns_congr (hflag : next.stuck = bench.stuck) (hnapi : next.rx.napi = bench.rx.napi)
    (htail : next.rx.rxTail = bench.rx.rxTail) : next.turns = bench.turns := by
  rw [turns, turns, without, without, behind, behind, hflag, hnapi, htail]

theorem without_of_holds (hholds : bench.rx.napi.holds = true) : bench.without = true := by
  rw [without, hholds, Bool.or_true]

theorem without_of_stuck (hstuck : bench.stuck = true) : bench.without = true := by
  rw [without, hstuck, Bool.true_or]

/-- A reset is requested, an skb is freed or the DMA is told to start. -/
theorem Holds.aside (hholds : bench.Holds taken hand ready calling) {rx : EmzRx}
    (howned : rx.Owned) (hlent : rx.lent = bench.rx.lent) (hdma : rx.dma = bench.rx.dma)
    (hnapi : rx.napi = bench.rx.napi) (hslots : rx.slots = bench.rx.slots)
    (hrxTail : rx.rxTail = bench.rx.rxTail) (hmemory : rx.memory = bench.rx.memory)
    (hreset : bench.rx.resetPending = true → rx.resetPending = true)
    (htallies : Tallies { bench with rx := rx } taken) :
    Holds { bench with rx := rx } taken hand ready calling := by
  have htailSlot : rx.tailSlot = bench.rx.tailSlot := by
    rw [EmzRx.tailSlot, EmzRx.tailSlot, hslots, hrxTail]
  refine ⟨howned, ?_, ?_, ?_, ?_, hholds.completed, htallies⟩
  · exact hholds.ordered.keep (turns_congr rfl hnapi hrxTail) hlent hdma
      (fun _ _ => congrFun hslots _) hmemory hreset
  · exact hholds.inHand.keep hnapi (fun _ => ⟨htailSlot, by rw [hmemory]⟩)
      (fun _ _ => by rw [hmemory]) hreset
  · change rx.rxTail < emzRxRing
    rw [hrxTail]
    exact hholds.tail_lt
  · exact hholds.stuck.keep rfl hnapi (fun _ => htailSlot) hreset

theorem Holds.issue (hholds : bench.Holds taken hand ready calling) :
    Holds { bench with rx := bench.rx.issue } taken hand ready calling := by
  have hlent : bench.rx.issue.lent = bench.rx.lent := List.append_nil _
  refine hholds.aside (hholds.owned.congr (fun _ => rfl) (fun _ => rfl) ?_ rfl rfl) hlent rfl rfl
    rfl rfl rfl id (hholds.tallies.congr rfl rfl rfl rfl rfl rfl)
  rw [hlent]
  exact fun _ hmem => hmem

theorem Holds.requestReset (hholds : bench.Holds taken hand ready calling) :
    Holds { bench with rx := bench.rx.requestReset } taken hand ready calling :=
  hholds.aside (hholds.owned.congr (fun _ => rfl) (fun _ => rfl) (fun _ hmem => hmem) rfl rfl) rfl
    rfl rfl rfl rfl rfl (fun _ => rfl) (hholds.tallies.congr rfl rfl rfl rfl rfl rfl)

theorem Holds.freeSkb (hholds : bench.Holds taken hand ready calling) (frag : EmzFrag) :
    Holds { bench with rx := bench.rx.freeSkb frag } taken hand ready calling := by
  have howned := hholds.owned.freeSkb frag
  rw [EmzRx.freeSkb] at howned ⊢
  split
  · rename_i hmem
    rw [if_pos hmem] at howned
    exact hholds.aside howned rfl rfl rfl rfl rfl rfl id
      (hholds.tallies.congr rfl rfl rfl rfl rfl rfl)
  · exact hholds

/-- The slot of the first descriptor is no other's. -/
theorem Ordered.posted_ne (hordered : bench.Ordered ready none) {desc : EmzRxDesc}
    {rest : List EmzRxDesc} (hlent : bench.rx.lent = desc :: rest)
    {one : Nat × EmzRxCompletion} (hmem : one ∈ ready) : one.1 ≠ desc.idx := by
  have hnodup := nodup_turns bench
  rw [← hordered.turns, hlent] at hnodup
  exact (List.nodup_append.mp hnodup).2.2 _ (List.mem_map_of_mem hmem) _ List.mem_cons_self

/-- The slot that the callback runs for is no other's. -/
theorem Ordered.calling_ne {one : Nat × EmzRxCompletion}
    (hordered : bench.Ordered ready (some one)) :
    (∀ other ∈ ready, other.1 ≠ one.1) ∧ ∀ desc ∈ bench.rx.lent, desc.idx ≠ one.1 := by
  have hnodup := nodup_turns bench
  rw [← hordered.turns] at hnodup
  obtain ⟨-, hrest, hready⟩ := List.nodup_append.mp hnodup
  have hlent := (List.nodup_cons.mp hrest).1
  refine ⟨fun other hother => hready _ (List.mem_map_of_mem hother) _ List.mem_cons_self,
    fun desc hdesc hsame => hlent ?_⟩
  rw [← hsame]
  exact List.mem_map_of_mem hdesc

/-- The DMA completes the descriptor that it was given first. -/
theorem Holds.complete (hholds : bench.Holds taken hand ready calling)
    (data : List (BitVec 8)) (failed : Bool) :
    ∃ calling', (bench.completeStep data failed).Holds taken hand ready calling' := by
  by_cases hdma : bench.rx.dma = .idle
  case neg =>
    have hsame : bench.completeStep data failed = bench := by
      rw [completeStep, EmzRx.complete]
      cases hat : bench.rx.dma with
      | idle => exact absurd hat hdma
      | _ => rfl
    rw [hsame]
    exact ⟨calling, hholds⟩
  cases hqueue : bench.rx.queue with
  | nil =>
      have hsame : bench.completeStep data failed = bench := by
        rw [completeStep, EmzRx.complete]
        simp only [hdma, hqueue]
      rw [hsame]
      exact ⟨calling, hholds⟩
  | cons desc rest =>
      obtain ⟨howned, hordered, hinHand, htail, hstuck, hcompleted, htallies⟩ := hholds
      obtain rfl := hordered.called.mpr hdma
      have hstep : bench.completeStep data failed =
          { bench with
            rx := { bench.rx with
              queue := rest
              memory := Function.update bench.rx.memory desc.dma (data.take emzRxBufLen)
              dma := .len desc.idx (emzRxBufLen - data.length) failed }
            completed := bench.completed ++ [⟨data, failed⟩] } := by
        rw [completeStep, EmzRx.complete]
        simp only [hdma, hqueue]
      have hlent : bench.rx.lent = desc :: (rest ++ bench.rx.waiting) := by
        rw [EmzRx.lent, hqueue, List.cons_append]
      have hmem : desc ∈ bench.rx.lent := by
        rw [hlent]
        exact List.mem_cons_self
      have hsub : ∀ other ∈ rest ++ bench.rx.waiting, other ∈ bench.rx.lent := by
        rw [hlent]
        exact fun _ hother => List.mem_cons_of_mem _ hother
      have hidx := hordered.mem_lent hmem
      have hfrag := howned.lent desc hmem
      have hmemory : ∀ frag, frag ≠ (bench.rx.slots desc.idx).frag →
          Function.update bench.rx.memory desc.dma (data.take emzRxBufLen) frag =
            bench.rx.memory frag := by
        intro frag hne
        rw [hfrag, Function.update_of_ne hne]
      have hslotMemory : ∀ idx < emzRxRing, idx ≠ desc.idx →
          Function.update bench.rx.memory desc.dma (data.take emzRxBufLen)
            (bench.rx.slots idx).frag = bench.rx.memory (bench.rx.slots idx).frag :=
        fun idx hlt hne => hmemory _ (howned.frag_ne hlt (lt_of_mem_turns hidx) hne)
      rw [hstep]
      refine ⟨some (desc.idx, ⟨data, failed⟩),
        howned.congr (fun _ => rfl) (fun _ => rfl) hsub rfl rfl, ⟨?_, ?_, ?_, ?_, ?_⟩, ?_, htail,
        hstuck.keep rfl rfl (fun _ => rfl) id, ?_, htallies.congr rfl rfl rfl rfl rfl rfl⟩
      · have hturns := hordered.turns
        rw [hlent] at hturns
        exact hturns
      · intro one hone
        refine (hordered.filled one hone).mono ?_ id
        exact hslotMemory _ (lt_of_mem_turns (hordered.mem_ready hone))
          (hordered.posted_ne hlent hone)
      · intro one hone
        obtain rfl := Option.some.inj hone
        refine ⟨hordered.posted desc hmem, ?_, rfl, rfl, ?_⟩
        · change Function.update _ _ _ _ = _
          rw [hfrag, Function.update_self]
          rfl
        · change _ = (data.take emzRxBufLen).length
          rw [List.length_take]
          omega
      · exact ⟨fun hnone => absurd hnone (Option.some_ne_none _),
          fun hat => EmzRxDmaDone.noConfusion hat⟩
      · exact fun other hother => hordered.posted other (hsub other hother)
      · refine hinHand.keep rfl (fun hheld => ⟨rfl, hslotMemory _ htail fun hsame => ?_⟩)
          (fun frag hflying => hmemory frag (howned.flying_ne hflying (lt_of_mem_turns hidx))) id
        exact tail_notMem (without_of_holds hheld) htail (hsame ▸ hidx)
      · change bench.completed ++ [_] = _
        rw [hcompleted]
        simp only [Option.toList_none, List.map_nil, List.append_nil, Option.toList_some,
          List.map_cons, List.append_assoc]

/-- The callback writes its slot, and nothing else of the ring. -/
theorem Holds.call {idx : Nat} {completion : EmzRxCompletion}
    (hholds : bench.Holds taken hand ready (some (idx, completion))) {rx : EmzRx}
    {ready' : List (Nat × EmzRxCompletion)} {calling' : Option (Nat × EmzRxCompletion)}
    (hslots : ∀ other, other ≠ idx → rx.slots other = bench.rx.slots other)
    (hfrag : (rx.slots idx).frag = (bench.rx.slots idx).frag)
    (hdma : (rx.slots idx).dma = (bench.rx.slots idx).dma)
    (hlent : rx.lent = bench.rx.lent) (hnapi : rx.napi = bench.rx.napi)
    (hrxTail : rx.rxTail = bench.rx.rxTail) (hmemory : rx.memory = bench.rx.memory)
    (hout : rx.out = bench.rx.out) (hstack : rx.stack = bench.rx.stack)
    (hreset : bench.rx.resetPending = true → rx.resetPending = true)
    (hcounts : Tallies { bench with rx := rx } taken)
    (hordered : Ordered { bench with rx := rx } ready' calling')
    (hsame : ready'.map Prod.snd ++ calling'.toList.map Prod.snd =
      ready.map Prod.snd ++ [completion]) :
    Holds { bench with rx := rx } taken hand ready' calling' := by
  have hidx := hholds.ordered.mem_calling rfl
  have hfrags : ∀ other, (rx.slots other).frag = (bench.rx.slots other).frag := by
    intro other
    by_cases hat : other = idx
    · rw [hat, hfrag]
    · rw [hslots other hat]
  have hdmas : ∀ other, (rx.slots other).dma = (bench.rx.slots other).dma := by
    intro other
    by_cases hat : other = idx
    · rw [hat, hdma]
    · rw [hslots other hat]
  have htailSlot : bench.without = true → rx.tailSlot = bench.rx.tailSlot := by
    intro hwithout
    rw [EmzRx.tailSlot, hrxTail]
    refine hslots _ fun hat => tail_notMem hwithout hholds.tail_lt ?_
    rw [hat]
    exact hidx
  refine ⟨hholds.owned.congr hfrags hdmas ?_ hout (by rw [hnapi, hstack]), hordered, ?_, ?_, ?_,
    ?_, hcounts⟩
  · rw [hlent]
    exact fun _ hmem => hmem
  · exact hholds.inHand.keep hnapi
      (fun hheld => ⟨htailSlot (without_of_holds hheld), by rw [hmemory]⟩)
      (fun _ _ => by rw [hmemory]) hreset
  · change rx.rxTail < emzRxRing
    rw [hrxTail]
    exact hholds.tail_lt
  · exact hholds.stuck.keep rfl hnapi (fun hset => htailSlot (without_of_stuck hset)) hreset
  · rw [hsame]
    exact hholds.completed

/-- The callback goes on with its completion. -/
theorem Ordered.call {idx : Nat} {completion : EmzRxCompletion}
    (hordered : bench.Ordered ready (some (idx, completion)))
    (hslots : ∀ other, other ≠ idx → next.rx.slots other = bench.rx.slots other)
    (hturns : next.turns = bench.turns) (hlent : next.rx.lent = bench.rx.lent)
    (hmemory : next.rx.memory = bench.rx.memory)
    (hreset : bench.rx.resetPending = true → next.rx.resetPending = true)
    (hcalling : next.rx.Calling idx completion) (hbusy : next.rx.dma ≠ .idle) :
    next.Ordered ready (some (idx, completion)) := by
  obtain ⟨hready, hposted⟩ := hordered.calling_ne
  refine ⟨by rw [hlent, hturns, hordered.turns], fun one hone => ?_, fun one hone => ?_,
    ⟨fun hnone => absurd hnone (Option.some_ne_none _), fun hidle => absurd hidle hbusy⟩,
    fun desc hdesc => ?_⟩
  · rw [hslots _ (hready one hone)]
    exact (hordered.filled one hone).mono (by rw [hmemory]) hreset
  · obtain rfl := Option.some.inj hone
    exact hcalling
  · rw [hlent] at hdesc
    rw [hslots _ (hposted desc hdesc), hordered.posted desc hdesc]

/-- The callback has done its slot. -/
theorem Ordered.done {idx : Nat} {completion : EmzRxCompletion}
    (hordered : bench.Ordered ready (some (idx, completion)))
    (hslots : ∀ other, other ≠ idx → next.rx.slots other = bench.rx.slots other)
    (hturns : next.turns = bench.turns) (hlent : next.rx.lent = bench.rx.lent)
    (hmemory : next.rx.memory = bench.rx.memory)
    (hreset : bench.rx.resetPending = true → next.rx.resetPending = true)
    (hfilled : next.rx.Filled (next.rx.slots idx) completion) (hidle : next.rx.dma = .idle) :
    next.Ordered (ready ++ [(idx, completion)]) none := by
  obtain ⟨hready, hposted⟩ := hordered.calling_ne
  refine ⟨?_, fun one hone => ?_, fun one hone => ?_, ⟨fun _ => hidle, fun _ => rfl⟩,
    fun desc hdesc => ?_⟩
  · rw [hlent, hturns, ← hordered.turns, List.map_append, List.append_assoc]
    rfl
  · rcases List.mem_append.mp hone with hold | hnew
    · rw [hslots _ (hready one hold)]
      exact (hordered.filled one hold).mono (by rw [hmemory]) hreset
    · obtain rfl := List.mem_singleton.mp hnew
      exact hfilled
  · exact absurd hone (Option.not_mem_none one)
  · rw [hlent] at hdesc
    rw [hslots _ (hposted desc hdesc), hordered.posted desc hdesc]

/-- The callback goes on. -/
theorem Holds.dma (hholds : bench.Holds taken hand ready calling) :
    ∃ ready' calling', Holds { bench with rx := bench.rx.dmaStep } taken hand ready' calling' := by
  have htallies := hholds.tallies
  cases hcalling : calling with
  | none =>
      have hidle := hholds.ordered.called.mp hcalling
      rw [EmzRx.dmaStep, hidle]
      exact ⟨ready, none, hcalling ▸ hholds⟩
  | some one =>
      obtain ⟨idx, completion⟩ := one
      subst hcalling
      obtain ⟨hdone, hmemory, hcall⟩ := hholds.ordered.calls _ rfl
      rw [EmzRx.dmaStep]
      cases hdma : bench.rx.dma with
      | idle =>
          rw [hdma] at hcall
          exact hcall.elim
      | len at' residue failed =>
          simp only [hdma] at hcall
          obtain ⟨rfl, hfailed, hlen⟩ := hcall
          have hslots : ∀ other, other ≠ at' → Function.update bench.rx.slots at'
              { bench.rx.slots at' with len := emzRxBufLen - min residue emzRxBufLen } other =
              bench.rx.slots other := fun other hne => Function.update_of_ne hne _ _
          refine ⟨ready, some (at', completion), hholds.call hslots ?_ ?_ rfl rfl rfl rfl rfl rfl id
            (htallies.congr rfl rfl rfl rfl rfl rfl)
            (hholds.ordered.call hslots rfl rfl rfl id ⟨?_, ?_, rfl, hfailed, ?_⟩ (by simp)) rfl⟩
          all_goals simp only [EmzRx.setSlot, Function.update_self]
          · exact hdone
          · exact hmemory
          · exact hlen
      | status at' failed =>
          simp only [hdma] at hcall
          obtain ⟨rfl, hfailed, hlen⟩ := hcall
          have hslots : ∀ other, other ≠ at' → Function.update bench.rx.slots at'
              { bench.rx.slots at' with status := failed } other = bench.rx.slots other :=
            fun other hne => Function.update_of_ne hne _ _
          refine ⟨ready, some (at', completion), hholds.call hslots ?_ ?_ rfl rfl rfl rfl rfl rfl id
            (htallies.congr rfl rfl rfl rfl rfl rfl)
            (hholds.ordered.call hslots rfl rfl rfl id ⟨?_, ?_, ?_⟩ ?_) rfl⟩
          · simp only [EmzRx.setSlot, Function.update_self]
          · simp only [EmzRx.setSlot, Function.update_self]
          · simp only [EmzRx.setSlot, Function.update_self, hdone]
          · simp only [EmzRx.setSlot, Function.update_self, hmemory]
          · simp only [EmzRx.setSlot, Function.update_self]
            cases hend : failed with
            | true =>
                rw [hend] at hfailed
                exact ⟨rfl, hfailed.symm, hlen, hfailed⟩
            | false =>
                rw [hend] at hfailed
                exact ⟨rfl, hlen, hfailed, fun hbad => absurd (hfailed.trans hbad) (by decide)⟩
          · cases failed <;> simp
      | gate at' =>
          simp only [hdma] at hcall
          obtain ⟨rfl, hfailed, hlen, hstatus⟩ := hcall
          exact ⟨ready, some (at', completion), hholds.call (fun _ _ => rfl) rfl rfl rfl rfl rfl rfl
            rfl rfl (fun _ => rfl) (htallies.congr rfl rfl rfl rfl rfl rfl)
            (hholds.ordered.call (fun _ _ => rfl) rfl rfl rfl (fun _ => rfl)
              ⟨hdone, hmemory, rfl, hlen, hstatus, fun _ => rfl⟩ (by simp)) rfl⟩
      | done at' =>
          simp only [hdma] at hcall
          obtain ⟨rfl, hlen, hstatus, hpending⟩ := hcall
          have hslots : ∀ other, other ≠ at' → Function.update bench.rx.slots at'
              { bench.rx.slots at' with done := true } other = bench.rx.slots other :=
            fun other hne => Function.update_of_ne hne _ _
          refine ⟨ready ++ [(at', completion)], none, hholds.call hslots ?_ ?_ rfl rfl rfl rfl rfl
            rfl id (htallies.congr rfl rfl rfl rfl rfl rfl)
            (hholds.ordered.done hslots rfl rfl rfl id ⟨?_, ?_, ?_, ?_, hpending⟩ rfl) ?_⟩
          · simp only [EmzRx.setSlot, Function.update_self]
          · simp only [EmzRx.setSlot, Function.update_self]
          · simp only [EmzRx.setSlot, Function.update_self]
          · simp only [EmzRx.setSlot, Function.update_self, hstatus]
          · simp only [EmzRx.setSlot, Function.update_self, hlen]
          · simp only [EmzRx.setSlot, Function.update_self, hmemory]
          · rw [List.map_append, Option.toList_none, List.map_nil, List.append_nil]
            rfl

end EmzRxBench

end EmacZero
