/-
The order of the driver's receive ring: the slots that are done, the one whose callback
runs and those that the DMA has, from the slot that the poll comes to next.
-/
import EmacZero.EmzRxRingOwned

namespace EmacZero

namespace EmzRx

/-- The slot holds what the DMA made of its descriptor. -/
structure Filled (rx : EmzRx) (slot : EmzRxSlot) (completion : EmzRxCompletion) : Prop where
  done : slot.done = true
  status : slot.status = completion.failed
  len : slot.len = completion.frame.length
  memory : rx.memory slot.frag = completion.frame
  reset : completion.failed = true → rx.resetPending = true

/-- A good frame that is long enough. -/
def Good (completion : EmzRxCompletion) : Prop :=
  completion.failed = false ∧ ethHlen ≤ completion.frame.length

/-- What the poll has taken in hand and not judged yet. -/
def Hand (rx : EmzRx) (hand : Option EmzRxCompletion) : Prop :=
  match rx.napi with
  | .status _ => ∃ completion, hand = some completion ∧ rx.Filled rx.tailSlot completion
  | .failError _ =>
      ∃ completion, hand = some completion ∧ completion.failed = true ∧ rx.resetPending = true
  | .failDone _ => hand = none ∧ rx.resetPending = true
  | .frame _ => ∃ completion, hand = some completion ∧ rx.Filled rx.tailSlot completion ∧
      completion.failed = false
  | .short _ => ∃ completion, hand = some completion ∧ completion.failed = false ∧
      completion.frame.length < ethHlen
  | .alloc _ len frag => ∃ completion, hand = some completion ∧ Good completion ∧
      len = completion.frame.length ∧ frag = rx.tailSlot.frag ∧
      rx.memory frag = completion.frame
  | .build _ len frag | .receive _ len frag => ∃ completion, hand = some completion ∧
      Good completion ∧ len = completion.frame.length ∧ rx.memory frag = completion.frame
  | .recycle _ _ | .drop _ => ∃ completion, hand = some completion ∧ Good completion
  | .gate _ | .submit _ | .request _ => hand = none ∧ rx.tailSlot.done = false
  | _ => hand = none

/-- The callback is on its way with a completion. -/
def Calling (rx : EmzRx) (idx : Nat) (completion : EmzRxCompletion) : Prop :=
  (rx.slots idx).done = false ∧ rx.memory (rx.slots idx).frag = completion.frame ∧
    match rx.dma with
    | .idle => False
    | .len at' residue failed => at' = idx ∧ failed = completion.failed ∧
        emzRxBufLen - min residue emzRxBufLen = completion.frame.length
    | .status at' failed => at' = idx ∧ failed = completion.failed ∧
        (rx.slots idx).len = completion.frame.length
    | .gate at' => at' = idx ∧ completion.failed = true ∧
        (rx.slots idx).len = completion.frame.length ∧
        (rx.slots idx).status = completion.failed
    | .done at' => at' = idx ∧ (rx.slots idx).len = completion.frame.length ∧
        (rx.slots idx).status = completion.failed ∧
        (completion.failed = true → rx.resetPending = true)

theorem Filled.mono {rx next : EmzRx} {slot : EmzRxSlot} {completion : EmzRxCompletion}
    (hfilled : rx.Filled slot completion) (hmemory : next.memory slot.frag = rx.memory slot.frag)
    (hreset : rx.resetPending = true → next.resetPending = true) :
    next.Filled slot completion :=
  ⟨hfilled.done, hfilled.status, hfilled.len, hmemory.trans hfilled.memory,
    fun hfailed => hreset (hfilled.reset hfailed)⟩

end EmzRx

namespace EmzRxBench

/-- The slot at `rx_tail` holds no frame and is not posted. -/
def without (bench : EmzRxBench) : Bool := bench.stuck || bench.rx.napi.holds

/-- `rx_tail` is still at a slot that has been posted again. -/
def behind (bench : EmzRxBench) : Bool :=
  match bench.rx.napi with
  | .advance _ => true
  | _ => false

/-- The slots from the one that the poll comes to next, as many as are filled or posted. -/
def turns (bench : EmzRxBench) : List Nat :=
  if bench.without then ringTurns emzRxRing (bench.rx.rxTail + 1) (emzRxRing - 1)
  else if bench.behind then ringTurns emzRxRing (bench.rx.rxTail + 1) emzRxRing
  else ringTurns emzRxRing bench.rx.rxTail emzRxRing

/-- The ring in its order: `ready` is done, `calling` is what the callback runs for, and
the DMA has the rest. -/
structure Ordered (bench : EmzRxBench) (ready : List (Nat × EmzRxCompletion))
    (calling : Option (Nat × EmzRxCompletion)) : Prop where
  turns : ready.map Prod.fst ++ (calling.toList.map Prod.fst ++
    bench.rx.lent.map EmzRxDesc.idx) = bench.turns
  filled : ∀ one ∈ ready, bench.rx.Filled (bench.rx.slots one.1) one.2
  calls : ∀ one ∈ calling, bench.rx.Calling one.1 one.2
  called : calling = none ↔ bench.rx.dma = .idle
  posted : ∀ desc ∈ bench.rx.lent, (bench.rx.slots desc.idx).done = false

/-- What the poll has reported of the completions it has judged. -/
structure Tallies (bench : EmzRxBench) (taken : List EmzRxTaken) : Prop where
  suits : ∀ one ∈ taken, one.Suits
  delivered : bench.delivered = EmzRxTaken.frames taken
  dropped : bench.rx.rxDropped = EmzRxTaken.count .dropped taken
  short : bench.rx.rxLengthErrors = EmzRxTaken.count .short taken
  failed : bench.rx.rxErrors = EmzRxTaken.count .failed taken
  packets : bench.rx.rxPackets = bench.delivered.length
  bytes : bench.rx.rxBytes = (bench.delivered.map List.length).sum

/-- A slot that is stuck: a reset has been requested, and the poll finds nothing done. -/
def Stuck (bench : EmzRxBench) : Prop :=
  bench.stuck = true → bench.rx.resetPending = true ∧ bench.rx.tailSlot.done = false ∧
    (bench.rx.napi = .idle ∨
      ∃ counts, bench.rx.napi = .loop counts ∨ bench.rx.napi = .finish counts)

structure Holds (bench : EmzRxBench) (taken : List EmzRxTaken) (hand : Option EmzRxCompletion)
    (ready : List (Nat × EmzRxCompletion)) (calling : Option (Nat × EmzRxCompletion)) :
    Prop where
  owned : bench.rx.Owned
  ordered : bench.Ordered ready calling
  inHand : bench.rx.Hand hand
  tail_lt : bench.rx.rxTail < emzRxRing
  stuck : bench.Stuck
  completed : bench.completed = taken.map EmzRxTaken.completion ++ (hand.toList ++
    (ready.map Prod.snd ++ calling.toList.map Prod.snd))
  tallies : bench.Tallies taken

variable {bench next : EmzRxBench} {taken : List EmzRxTaken} {hand : Option EmzRxCompletion}
  {ready : List (Nat × EmzRxCompletion)} {calling : Option (Nat × EmzRxCompletion)}

theorem Tallies.congr (htallies : bench.Tallies taken)
    (hdelivered : next.delivered = bench.delivered)
    (hdropped : next.rx.rxDropped = bench.rx.rxDropped)
    (hshort : next.rx.rxLengthErrors = bench.rx.rxLengthErrors)
    (hfailed : next.rx.rxErrors = bench.rx.rxErrors)
    (hpackets : next.rx.rxPackets = bench.rx.rxPackets)
    (hbytes : next.rx.rxBytes = bench.rx.rxBytes) : next.Tallies taken where
  suits := htallies.suits
  delivered := hdelivered.trans htallies.delivered
  dropped := hdropped.trans htallies.dropped
  short := hshort.trans htallies.short
  failed := hfailed.trans htallies.failed
  packets := by rw [hpackets, htallies.packets, hdelivered]
  bytes := by rw [hbytes, htallies.bytes, hdelivered]

/-- One more completion is judged, and reported as what it is judged to be. -/
theorem Tallies.concat (htallies : bench.Tallies taken) {one : EmzRxTaken} (hsuits : one.Suits)
    (hdelivered : next.delivered =
      bench.delivered ++ if one.outcome = .delivered then [one.completion.frame] else [])
    (hdropped : next.rx.rxDropped =
      bench.rx.rxDropped + if one.outcome = .dropped then 1 else 0)
    (hshort : next.rx.rxLengthErrors =
      bench.rx.rxLengthErrors + if one.outcome = .short then 1 else 0)
    (hfailed : next.rx.rxErrors = bench.rx.rxErrors + if one.outcome = .failed then 1 else 0)
    (hpackets : next.rx.rxPackets =
      bench.rx.rxPackets + if one.outcome = .delivered then 1 else 0)
    (hbytes : next.rx.rxBytes =
      bench.rx.rxBytes + if one.outcome = .delivered then one.completion.frame.length else 0) :
    next.Tallies (taken ++ [one]) := by
  have hcount : ∀ outcome, EmzRxTaken.count outcome (taken ++ [one]) =
      EmzRxTaken.count outcome taken + if one.outcome = outcome then 1 else 0 := by
    intro outcome
    rw [EmzRxTaken.count, List.countP_append, List.countP_singleton]
    simp only [decide_eq_true_eq]
    rfl
  refine ⟨fun other hother => ?_, ?_, ?_, ?_, ?_, ?_, ?_⟩
  · rcases List.mem_append.mp hother with hold | hnew
    · exact htallies.suits other hold
    · rw [List.mem_singleton.mp hnew]
      exact hsuits
  · rw [hdelivered, htallies.delivered, EmzRxTaken.frames, EmzRxTaken.frames, List.filter_append,
      List.map_append]
    congr 1
    by_cases hout : one.outcome = .delivered
    · rw [if_pos hout, List.filter_cons_of_pos (by rw [hout]; rfl)]
      rfl
    · rw [if_neg hout, List.filter_cons_of_neg (by rw [decide_eq_true_eq]; exact hout)]
      rfl
  · rw [hdropped, htallies.dropped, hcount]
  · rw [hshort, htallies.short, hcount]
  · rw [hfailed, htallies.failed, hcount]
  · rw [hpackets, htallies.packets, hdelivered, List.length_append]
    split <;> rfl
  · rw [hbytes, htallies.bytes, hdelivered, List.map_append, List.sum_append]
    split <;> rfl

theorem nodup_turns (bench : EmzRxBench) : bench.turns.Nodup := by
  rw [EmzRxBench.turns]
  split
  · exact nodup_ringTurns (Nat.sub_le _ _)
  · split <;> exact nodup_ringTurns (Nat.le_refl _)

theorem lt_of_mem_turns {idx : Nat} (hmem : idx ∈ bench.turns) : idx < emzRxRing := by
  rw [EmzRxBench.turns] at hmem
  split at hmem
  · exact lt_of_mem_ringTurns (by decide) hmem
  · split at hmem <;> exact lt_of_mem_ringTurns (by decide) hmem

theorem round_eq (tail : Nat) (htail : tail < emzRxRing) :
    ringTurns emzRxRing tail emzRxRing =
      tail :: ringTurns emzRxRing (tail + 1) (emzRxRing - 1) := by
  rw [show emzRxRing = emzRxRing - 1 + 1 from rfl, ringTurns_succ]
  exact congrArg (· :: _) (Nat.mod_eq_of_lt htail)

/-- What the poll has in its hands is not among the slots to come. -/
theorem tail_notMem (hwithout : bench.without = true) (htail : bench.rx.rxTail < emzRxRing) :
    bench.rx.rxTail ∉ bench.turns := by
  have hround : (ringTurns emzRxRing bench.rx.rxTail emzRxRing).Nodup :=
    nodup_ringTurns (Nat.le_refl _)
  rw [round_eq _ htail, List.nodup_cons] at hround
  rw [EmzRxBench.turns, if_pos hwithout]
  exact hround.1

namespace Ordered

theorem mem_ready (hordered : bench.Ordered ready calling) {one : Nat × EmzRxCompletion}
    (hmem : one ∈ ready) : one.1 ∈ bench.turns := by
  rw [← hordered.turns]
  exact List.mem_append_left _ (List.mem_map_of_mem hmem)

theorem mem_calling (hordered : bench.Ordered ready calling) {one : Nat × EmzRxCompletion}
    (hmem : one ∈ calling) : one.1 ∈ bench.turns := by
  rw [← hordered.turns]
  exact List.mem_append_right _ (List.mem_append_left _
    (List.mem_map_of_mem (Option.mem_toList.mpr hmem)))

theorem mem_lent (hordered : bench.Ordered ready calling) {desc : EmzRxDesc}
    (hmem : desc ∈ bench.rx.lent) : desc.idx ∈ bench.turns := by
  rw [← hordered.turns]
  exact List.mem_append_right _ (List.mem_append_right _ (List.mem_map_of_mem hmem))

/-- The slots to come are left as they are. -/
theorem keep (hordered : bench.Ordered ready calling) (hturns : next.turns = bench.turns)
    (hlent : next.rx.lent = bench.rx.lent) (hdma : next.rx.dma = bench.rx.dma)
    (hslots : ∀ idx ∈ bench.turns, next.rx.slots idx = bench.rx.slots idx)
    (hmemory : next.rx.memory = bench.rx.memory)
    (hreset : bench.rx.resetPending = true → next.rx.resetPending = true) :
    next.Ordered ready calling where
  turns := by rw [hlent, hturns, hordered.turns]
  filled := fun one hmem => by
    rw [hslots _ (hordered.mem_ready hmem)]
    exact (hordered.filled one hmem).mono (by rw [hmemory]) hreset
  calls := fun one hmem => by
    obtain ⟨hdone, hheld, hcall⟩ := hordered.calls one hmem
    rw [EmzRx.Calling, hslots _ (hordered.mem_calling hmem), hmemory, hdma]
    refine ⟨hdone, hheld, ?_⟩
    cases hat : bench.rx.dma with
    | done idx =>
        rw [hat] at hcall
        exact ⟨hcall.1, hcall.2.1, hcall.2.2.1, fun hfailed => hreset (hcall.2.2.2 hfailed)⟩
    | idle =>
        rw [hat] at hcall
        exact hcall
    | len idx residue failed | status idx failed | gate idx =>
        simpa only [hat] using hcall
  called := by rw [hdma, hordered.called]
  posted := fun desc hmem => by
    rw [hlent] at hmem
    rw [hslots _ (hordered.mem_lent hmem), hordered.posted desc hmem]

end Ordered

end EmzRxBench

namespace EmzRx

variable {rx next : EmzRx} {hand : Option EmzRxCompletion}

/-- What the poll has in its hands is left as it is. -/
theorem Hand.keep (hhand : rx.Hand hand) (hnapi : next.napi = rx.napi)
    (htail : rx.napi.holds = true → next.tailSlot = rx.tailSlot ∧
      next.memory rx.tailSlot.frag = rx.memory rx.tailSlot.frag)
    (hflying : ∀ frag ∈ rx.napi.flying, next.memory frag = rx.memory frag)
    (hreset : rx.resetPending = true → next.resetPending = true) : next.Hand hand := by
  rw [Hand, hnapi]
  rw [Hand] at hhand
  cases hpc : rx.napi with
  | idle | loop counts | progress counts | clear counts | advance counts | kick counts
  | finish counts | short counts | recycle counts frag | drop counts =>
      simpa only [hpc] using hhand
  | status counts =>
      obtain ⟨hslot, hmemory⟩ := htail (by rw [hpc]; rfl)
      simp only [hpc] at hhand ⊢
      obtain ⟨completion, hsome, hfilled⟩ := hhand
      rw [hslot]
      exact ⟨completion, hsome, hfilled.mono hmemory hreset⟩
  | failError counts =>
      simp only [hpc] at hhand ⊢
      obtain ⟨completion, hsome, hfailed, hpending⟩ := hhand
      exact ⟨completion, hsome, hfailed, hreset hpending⟩
  | failDone counts =>
      simp only [hpc] at hhand ⊢
      exact ⟨hhand.1, hreset hhand.2⟩
  | frame counts =>
      obtain ⟨hslot, hmemory⟩ := htail (by rw [hpc]; rfl)
      simp only [hpc] at hhand ⊢
      obtain ⟨completion, hsome, hfilled, hgood⟩ := hhand
      rw [hslot]
      exact ⟨completion, hsome, hfilled.mono hmemory hreset, hgood⟩
  | alloc counts len frag =>
      obtain ⟨hslot, hmemory⟩ := htail (by rw [hpc]; rfl)
      simp only [hpc] at hhand ⊢
      obtain ⟨completion, hsome, hgood, hlen, hfrag, hheld⟩ := hhand
      rw [hslot]
      exact ⟨completion, hsome, hgood, hlen, hfrag, by rw [hfrag, hmemory, ← hfrag, hheld]⟩
  | build counts len frag | receive counts len frag =>
      have hmemory := hflying frag (by rw [hpc]; exact List.mem_singleton_self frag)
      simp only [hpc] at hhand ⊢
      obtain ⟨completion, hsome, hgood, hlen, hheld⟩ := hhand
      exact ⟨completion, hsome, hgood, hlen, hmemory.trans hheld⟩
  | gate counts | submit counts | request counts =>
      obtain ⟨hslot, -⟩ := htail (by rw [hpc]; rfl)
      simp only [hpc] at hhand ⊢
      rw [hslot]
      exact hhand

end EmzRx

end EmacZero
