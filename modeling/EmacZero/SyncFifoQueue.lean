/-
`sync_fifo` as the queue it implements: a bounded memory with an output register
in front of it, over every run of its write and read ports.
-/
import EmacZero.ClockedRun
import EmacZero.SyncFifo

namespace EmacZero

universe u

variable {α : Type u} {depth addrWidth : Nat}

/-- A bounded memory, oldest word first, and the word offered to the reader. -/
structure StagedQueue (α : Type u) (depth : Nat) where
  memory : List α
  output : Option α
  fits : memory.length ≤ depth

namespace StagedQueue

def empty : StagedQueue α depth where
  memory := []
  output := none
  fits := Nat.zero_le depth

variable (queue : StagedQueue α depth)

def pops (rdEn : Bool) : Bool := queue.output.isSome && rdEn

/-- The oldest word of the memory moves to the output once that is free. -/
def moves (rdEn : Bool) : Bool :=
  !queue.memory.isEmpty && (queue.output.isNone || queue.pops rdEn)

def accepts (rdEn : Bool) : Bool :=
  decide (queue.memory.length < depth) || queue.moves rdEn

/-- The word a write adds to the memory, if it is taken. -/
def added (write : Option α) (rdEn : Bool) : List α :=
  if queue.accepts rdEn then write.toList else []

theorem length_added (write : Option α) (rdEn : Bool) :
    (queue.memory.drop (queue.moves rdEn).toNat ++
      queue.added write rdEn).length ≤ depth := by
  have hfits := queue.fits
  have hwrite : write.toList.length ≤ 1 := by cases write <;> simp
  rw [List.length_append, List.length_drop, added]
  cases hmoves : queue.moves rdEn with
  | true =>
      have hpos : 0 < queue.memory.length := by
        apply List.length_pos_of_ne_nil
        intro hnil
        simp [moves, hnil] at hmoves
      have hadded : (if queue.accepts rdEn = true then write.toList else []).length ≤ 1 := by
        split <;> simp [hwrite]
      simp only [Bool.toNat_true]
      omega
  | false =>
      by_cases hroom : queue.memory.length < depth
      · rw [if_pos (by simp [accepts, hroom])]
        simp only [Bool.toNat_false]
        omega
      · rw [if_neg (by simp [accepts, hroom, hmoves])]
        exact hfits

/-- One cycle: what the reader takes goes, what moves and what is accepted come. -/
def cycle (write : Option α) (rdEn : Bool) : StagedQueue α depth where
  memory := queue.memory.drop (queue.moves rdEn).toNat ++ queue.added write rdEn
  output :=
    if queue.moves rdEn then queue.memory.head?
    else if queue.pops rdEn then none
    else queue.output
  fits := queue.length_added write rdEn

theorem memory_cycle (write : Option α) (rdEn : Bool) :
    (queue.cycle write rdEn).memory =
      queue.memory.drop (queue.moves rdEn).toNat ++ queue.added write rdEn := rfl

end StagedQueue

/-- The inputs of `sync_fifo` at one rising edge of `clk`. -/
structure FifoCycle (α : Type u) where
  wrEn : Bool
  wrData : α
  rdEn : Bool

def FifoCycle.write (cycle : FifoCycle α) : Option α :=
  if cycle.wrEn then some cycle.wrData else none

/-- The FIFO and the queue agree on what is stored and on what is offered. -/
structure SyncFifo.Refines (fifo : SyncFifo α addrWidth)
    (queue : StagedQueue α (2 ^ addrWidth)) : Prop where
  valid : fifo.Valid
  memory : fifo.stored = queue.memory
  output : (if fifo.doutValidR then some fifo.doutR else none) = queue.output

namespace SyncFifo

variable {fifo : SyncFifo α addrWidth} {queue : StagedQueue α (2 ^ addrWidth)}

theorem refines_reset (mem : BitVec addrWidth → α) (doutR : α) :
    (reset mem doutR).Refines StagedQueue.empty where
  valid := valid_reset mem doutR
  memory := by simp [stored, reset, occ, StagedQueue.empty]
  output := rfl

namespace Refines

theorem count_eq (hrefines : fifo.Refines queue) :
    fifo.count.toNat = queue.memory.length := by
  rw [← hrefines.memory, length_stored, count]

theorem isSome_output (hrefines : fifo.Refines queue) :
    queue.output.isSome = fifo.doutValidR := by
  rw [← hrefines.output]
  cases fifo.doutValidR <;> rfl

theorem isEmpty_memory (hrefines : fifo.Refines queue) :
    queue.memory.isEmpty = fifo.empty := by
  rw [Bool.eq_iff_iff, empty_iff, List.isEmpty_iff_length_eq_zero, ← hrefines.memory,
    length_stored]

theorem pops_eq (hrefines : fifo.Refines queue) (rdEn : Bool) :
    queue.pops rdEn = fifo.pop rdEn := by
  rw [StagedQueue.pops, hrefines.isSome_output, pop]

theorem moves_eq (hrefines : fifo.Refines queue) (rdEn : Bool) :
    queue.moves rdEn = fifo.issueRead rdEn := by
  rw [StagedQueue.moves, hrefines.isEmpty_memory, hrefines.pops_eq,
    ← Option.not_isSome, hrefines.isSome_output, issueRead]

theorem accepts_eq (hrefines : fifo.Refines queue) (wrEn rdEn : Bool) :
    (wrEn && queue.accepts rdEn) = fifo.pushOk wrEn rdEn := by
  have hle := hrefines.valid.occ_le
  have hfull : (!fifo.full) = decide (queue.memory.length < 2 ^ addrWidth) := by
    rw [Bool.eq_iff_iff, Bool.not_eq_true', decide_eq_true_iff, ← Bool.not_eq_true,
      full_iff, ← hrefines.memory, length_stored]
    omega
  rw [pushOk, hfull, ← hrefines.moves_eq, StagedQueue.accepts]

theorem added_eq (hrefines : fifo.Refines queue) (cycle : FifoCycle α) :
    queue.added cycle.write cycle.rdEn =
      if fifo.pushOk cycle.wrEn cycle.rdEn then [cycle.wrData] else [] := by
  rw [← hrefines.accepts_eq, StagedQueue.added, FifoCycle.write]
  cases cycle.wrEn <;> simp

/-- The oldest stored word is at the read pointer. -/
theorem head?_memory (hrefines : fifo.Refines queue)
    (hpos : 0 < fifo.occ.toNat) :
    queue.memory.head? = some (fifo.mem (fifo.rdPtr.setWidth addrWidth)) := by
  obtain ⟨left, hleft⟩ := Nat.exists_eq_succ_of_ne_zero hpos.ne'
  simp [← hrefines.memory, stored, hleft, List.range_succ_eq_map]

/-- A cycle of the FIFO is a cycle of the queue. -/
theorem clkEdge (hrefines : fifo.Refines queue) (cycle : FifoCycle α) :
    (fifo.clkEdge cycle.wrEn cycle.wrData cycle.rdEn).Refines
      (queue.cycle cycle.write cycle.rdEn) where
  valid := hrefines.valid.clkEdge _ _ _
  memory := by
    rw [stored_clkEdge hrefines.valid, StagedQueue.memory_cycle, hrefines.added_eq,
      hrefines.moves_eq, hrefines.memory]
  output := by
    simp only [StagedQueue.cycle, hrefines.moves_eq, hrefines.pops_eq]
    cases hread : fifo.issueRead cycle.rdEn with
    | true =>
        rw [if_pos rfl, hrefines.head?_memory (issueRead_imp hread)]
        simp [SyncFifo.clkEdge, hread]
    | false =>
        cases hpop : fifo.pop cycle.rdEn <;>
          simp [SyncFifo.clkEdge, hread, hpop, ← hrefines.output]

end Refines

end SyncFifo

/-- The FIFO beside the queue it refines, and the words that went through it. -/
structure SyncFifoBench (α : Type u) (addrWidth : Nat) where
  fifo : SyncFifo α addrWidth
  queue : StagedQueue α (2 ^ addrWidth)
  accepted : List α
  popped : List α

namespace SyncFifoBench

def reset (mem : BitVec addrWidth → α) (doutR : α) : SyncFifoBench α addrWidth where
  fifo := SyncFifo.reset mem doutR
  queue := StagedQueue.empty
  accepted := []
  popped := []

/-- A word is accepted when the memory takes it, popped when `rd_valid` and
`rd_en` are high. -/
def step (bench : SyncFifoBench α addrWidth) (cycle : FifoCycle α) :
    SyncFifoBench α addrWidth where
  fifo := bench.fifo.clkEdge cycle.wrEn cycle.wrData cycle.rdEn
  queue := bench.queue.cycle cycle.write cycle.rdEn
  accepted := bench.accepted ++
    if bench.fifo.pushOk cycle.wrEn cycle.rdEn then [cycle.wrData] else []
  popped := bench.popped ++
    if bench.fifo.pop cycle.rdEn then [bench.fifo.doutR] else []

def run (mem : BitVec addrWidth → α) (doutR : α) (cycles : List (FifoCycle α)) :
    SyncFifoBench α addrWidth :=
  runFrom step (reset mem doutR) cycles

/-- The FIFO follows its queue, and what was accepted and not popped is in it. -/
structure Follows (bench : SyncFifoBench α addrWidth) : Prop where
  refines : bench.fifo.Refines bench.queue
  kept : bench.accepted = bench.popped ++ bench.fifo.words

theorem follows_reset (mem : BitVec addrWidth → α) (doutR : α) :
    (reset mem doutR).Follows where
  refines := SyncFifo.refines_reset mem doutR
  kept := by simp [reset]

theorem Follows.step {bench : SyncFifoBench α addrWidth} (hfollows : bench.Follows)
    (cycle : FifoCycle α) : (bench.step cycle).Follows where
  refines := hfollows.refines.clkEdge cycle
  kept := by
    have hwords := SyncFifo.words_clkEdge hfollows.refines.valid cycle.wrEn cycle.wrData
      cycle.rdEn
    simp only [SyncFifoBench.step, hwords, hfollows.kept]
    cases hpop : bench.fifo.pop cycle.rdEn with
    | false => simp
    | true =>
        have hvalid : bench.fifo.doutValidR = true := by
          rw [SyncFifo.pop, Bool.and_eq_true] at hpop
          exact hpop.1
        simp [SyncFifo.words_of_rdValid hvalid]

theorem follows_run (mem : BitVec addrWidth → α) (doutR : α)
    (cycles : List (FifoCycle α)) : (run mem doutR cycles).Follows :=
  invariant_runFrom (fun _ cycle hfollows => hfollows.step cycle)
    (follows_reset mem doutR) cycles

/-- Words held are at the output after the next cycle at the latest. -/
theorem Follows.offered {bench : SyncFifoBench α addrWidth} (hfollows : bench.Follows)
    (hheld : bench.fifo.rdEmpty = false) (hdout : bench.fifo.doutValidR = false)
    (cycle : FifoCycle α) :
    (bench.step cycle).fifo.doutValidR = true ∧
      some (bench.step cycle).fifo.doutR = bench.fifo.words.head? := by
  have hempty : bench.fifo.empty = false := by
    simpa [SyncFifo.rdEmpty, hdout] using hheld
  have hread : bench.fifo.issueRead cycle.rdEn = true := by
    simp [SyncFifo.issueRead, hempty, hdout]
  have hhead := hfollows.refines.head?_memory (SyncFifo.issueRead_imp hread)
  rw [← hfollows.refines.memory] at hhead
  constructor
  · simp [SyncFifoBench.step, SyncFifo.clkEdge, hread]
  · simp [SyncFifoBench.step, SyncFifo.clkEdge, hread, SyncFifo.words, hdout, hhead]

/-- A word accepted into an empty FIFO waits in its memory. -/
theorem Follows.words_of_rdEmpty {bench : SyncFifoBench α addrWidth}
    (hfollows : bench.Follows) (hempty : bench.fifo.rdEmpty = true)
    {cycle : FifoCycle α} (hwrite : cycle.wrEn = true) :
    (bench.step cycle).fifo.words = [cycle.wrData] ∧
      (bench.step cycle).fifo.doutValidR = false := by
  have hwords := SyncFifo.words_clkEdge hfollows.refines.valid cycle.wrEn cycle.wrData
    cycle.rdEn
  have hpush : bench.fifo.pushOk cycle.wrEn cycle.rdEn = true := by
    rw [SyncFifo.pushOk_of_room, hwrite]
    have hzero := SyncFifo.empty_iff.mp (Bool.and_eq_true_iff.mp hempty).1
    rw [hzero]
    exact Nat.two_pow_pos addrWidth
  rw [SyncFifo.words_eq_nil_iff.mpr hempty, List.drop_nil, hpush] at hwords
  rw [SyncFifo.rdEmpty, Bool.and_eq_true, Bool.not_eq_true'] at hempty
  refine ⟨hwords, ?_⟩
  simp [SyncFifoBench.step, SyncFifo.clkEdge, SyncFifo.issueRead, SyncFifo.pop, hempty]

/-- Over every run of the ports the FIFO is its queue.  Words leave in the order
they were accepted in, none lost or repeated.  A write is accepted when the memory
has room or loses a word in the same cycle, and `wr_overflow` marks the others.
`count` is what the memory holds.  A word written into an empty FIFO is at the
output two edges later, whatever the ports do at the second. -/
theorem queued_run (mem : BitVec addrWidth → α) (doutR : α)
    (cycles : List (FifoCycle α)) (cycle : FifoCycle α) :
    let bench := run mem doutR cycles
    let fifo := bench.fifo
    fifo.Refines bench.queue ∧
      bench.accepted = bench.popped ++ fifo.words ∧
      (bench.step cycle).accepted = bench.accepted ++
        (if cycle.wrEn ∧ (bench.queue.memory.length < 2 ^ addrWidth ∨
          bench.queue.moves cycle.rdEn) then [cycle.wrData] else []) ∧
      (fifo.wrOverflow cycle.wrEn cycle.rdEn = true ↔
        cycle.wrEn ∧ ¬ (bench.queue.memory.length < 2 ^ addrWidth ∨
          bench.queue.moves cycle.rdEn)) ∧
      fifo.count.toNat = bench.queue.memory.length ∧
      bench.accepted.length =
        bench.popped.length + fifo.doutValidR.toNat + fifo.count.toNat ∧
      (fifo.rdEmpty = true → cycle.wrEn = true → ∀ next : FifoCycle α,
        ((bench.step cycle).step next).fifo.doutValidR = true ∧
          ((bench.step cycle).step next).fifo.doutR = cycle.wrData) := by
  intro bench fifo
  have hfollows : bench.Follows := follows_run mem doutR cycles
  have haccepts : fifo.pushOk cycle.wrEn cycle.rdEn = true ↔
      cycle.wrEn ∧ (bench.queue.memory.length < 2 ^ addrWidth ∨
        bench.queue.moves cycle.rdEn) := by
    rw [← hfollows.refines.accepts_eq, StagedQueue.accepts]
    simp
  refine ⟨hfollows.refines, hfollows.kept, ?_, ?_, hfollows.refines.count_eq, ?_, ?_⟩
  · change bench.accepted ++ _ = _
    simp only [haccepts, fifo] at haccepts ⊢
  · rw [SyncFifo.wrOverflow, Bool.and_eq_true, Bool.not_eq_true', ← Bool.not_eq_true,
      haccepts]
    tauto
  · rw [hfollows.kept, List.length_append, SyncFifo.words, List.length_append,
      SyncFifo.length_stored, SyncFifo.count]
    cases fifo.doutValidR <;> simp [fifo, Nat.add_assoc]
  · intro hempty hwrite next
    obtain ⟨hwords, hdout⟩ := hfollows.words_of_rdEmpty hempty hwrite
    have hheld : (bench.step cycle).fifo.rdEmpty = false := by
      rw [← Bool.not_eq_true, ← SyncFifo.words_eq_nil_iff, hwords]
      exact List.cons_ne_nil _ _
    obtain ⟨hvalid, hhead⟩ := (hfollows.step cycle).offered hheld hdout next
    rw [hwords] at hhead
    exact ⟨hvalid, Option.some_inj.mp hhead⟩

end SyncFifoBench

end EmacZero
