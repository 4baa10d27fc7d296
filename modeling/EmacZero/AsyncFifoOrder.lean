/-
`async_fifo` under every interleaving of its clocks: a test bench logs the
words the FIFO accepts and the words it hands out, and compares the two logs
with what the registers hold.
-/
import EmacZero.AsyncFifoRefinement

namespace EmacZero

universe u

variable {α : Type u} {addrWidth : Nat} {ramStyle : RamStyle}

/-- One rising edge of `wr_clk` or of `rd_clk`, with the inputs it sees. -/
inductive FifoEdge (α : Type u) where
  | wr (wrEn : Bool) (wrData : α) (skew : Skew)
  | rd (rdEn : Bool) (skew : Skew)

/-- The FIFO with the words it has accepted and the words popped from it. -/
structure FifoBench (α : Type u) (addrWidth : Nat) (ramStyle : RamStyle) where
  fifo : AsyncFifo α addrWidth ramStyle
  accepted : List α
  popped : List α

namespace FifoBench

def start (mem : BitVec addrWidth → α) (headQ : α) :
    FifoBench α addrWidth ramStyle :=
  ⟨.reset mem headQ, [], []⟩

def step (bench : FifoBench α addrWidth ramStyle) :
    FifoEdge α → FifoBench α addrWidth ramStyle
  | .wr wrEn wrData skew =>
      { bench with
        fifo := bench.fifo.wrEdge wrEn wrData skew
        accepted :=
          if wrEn && !bench.fifo.wrFull then bench.accepted ++ [wrData]
          else bench.accepted }
  | .rd rdEn skew =>
      { bench with
        fifo := bench.fifo.rdEdge rdEn skew
        popped :=
          if bench.fifo.pop rdEn then bench.popped ++ [bench.fifo.rdData]
          else bench.popped }

end FifoBench

namespace AsyncFifo

variable {fifo : AsyncFifo α addrWidth ramStyle}
variable {queue : CrossingQueue α (2 ^ addrWidth) ramStyle.staged}

theorem Refines.occupancy_eq (href : Refines fifo queue) :
    fifo.occupancy = queue.words.length - queue.taken.source.now := by
  have htaken := queue.taken_le_length
  have hroom := queue.length_le_taken
  have hpow : 2 ^ (addrWidth + 1) = 2 ^ addrWidth + 2 ^ addrWidth := by ring
  have hpos := Nat.two_pow_pos addrWidth
  rw [occupancy, href.wrPtrBin, href.rdPtrBin, queue.written_eq,
    toNat_ofNat_sub_ofNat htaken (by omega)]

/-- The stored words are the ones written and not yet taken. -/
theorem Refines.stored_eq (href : Refines fifo queue) :
    fifo.stored = queue.words.drop queue.taken.source.now := by
  have hlength : fifo.stored.length =
      (queue.words.drop queue.taken.source.now).length := by
    simp [stored, href.occupancy_eq]
  refine List.ext_getElem? fun i => ?_
  rcases Nat.lt_or_ge i fifo.stored.length with hin | hout
  · have hoccupied : i < fifo.occupancy := by simpa [stored] using hin
    have hindex : queue.taken.source.now + i < queue.words.length := by
      rw [href.occupancy_eq] at hoccupied
      omega
    rw [List.getElem?_drop, href.mem _ (Nat.le_add_right _ i) hindex]
    simp [stored, List.getElem?_range hoccupied, href.rdPtrBin,
      ← BitVec.ofNat_add, BitVec.setWidth_ofNat_of_le (Nat.le_succ addrWidth)]
  · rw [List.getElem?_eq_none hout, List.getElem?_eq_none (hlength ▸ hout)]

/-- The output stage holds the words taken and not yet popped. -/
theorem Refines.head_eq (href : Refines fifo queue) :
    fifo.head =
      (queue.words.take queue.taken.source.now).drop queue.popped := by
  have hpopped := queue.popped_le
  have hheld := queue.held_le
  have htaken := queue.taken_le_length
  rcases hpopped.eq_or_lt with heq | hlt
  · have hvalid : fifo.headValid = false := by simp [href.headValid, heq]
    rw [List.drop_eq_nil_of_le
      ((List.length_take_le _ _).trans_eq heq.symm)]
    simp [head, hvalid]
  · have hvalid : fifo.headValid = true := by simp [href.headValid, hlt]
    have hstaged : ramStyle.staged = true := by
      by_contra hnot
      have hzero : ramStyle.staged.toNat = 0 := by
        rw [Bool.eq_false_iff.mpr hnot, Bool.toNat_false]
      omega
    have hone : queue.taken.source.now = queue.popped + 1 := by
      simp only [hstaged, Bool.toNat_true] at hheld
      omega
    have hword := href.headQ hlt
    rw [List.drop_take, hone, Nat.add_sub_cancel_left,
      List.take_one, List.head?_drop, hword]
    simp [head, hvalid, hstaged]

theorem Refines.wrEdge_stored (haddr : 1 ≤ addrWidth)
    (href : Refines fifo queue) (wrEn : Bool) (wrData : α) (skew : Skew) :
    (fifo.wrEdge wrEn wrData skew).stored =
      if wrEn && !fifo.wrFull then fifo.stored ++ [wrData]
      else fifo.stored := by
  have hnext := href.wrEdge haddr wrEn wrData skew
  have htaken := queue.taken_le_length
  rw [hnext.stored_eq, href.stored_eq, href.wrFull_eq haddr,
    CrossingQueue.wrEdge_words, CrossingQueue.wrEdge_taken,
    SyncCount.clock_source, Launched.settle_now]
  by_cases haccept : wrEn = true ∧ ¬ queue.Full
  · rw [if_pos haccept, if_pos (by simpa using haccept),
      List.drop_append_of_le_length htaken]
  · rw [if_neg haccept, if_neg (by simpa using haccept)]

theorem wrEdge_mem_of_full {fifo : AsyncFifo α addrWidth ramStyle}
    (hfull : fifo.wrFull = true) (wrEn : Bool) (wrData : α) (skew : Skew) :
    (fifo.wrEdge wrEn wrData skew).mem = fifo.mem := by
  simp [wrEdge, hfull]

end AsyncFifo

namespace FifoBench

/-- What the logs say of the queue the FIFO refines. -/
def Logged (bench : FifoBench α addrWidth ramStyle) : Prop :=
  ∃ queue, bench.fifo.Refines queue ∧ bench.accepted = queue.words ∧
    bench.popped = queue.words.take queue.popped

theorem logged_start (mem : BitVec addrWidth → α) (headQ : α) :
    Logged (start mem headQ : FifoBench α addrWidth ramStyle) :=
  ⟨.empty, AsyncFifo.refines_reset mem headQ, rfl, rfl⟩

theorem logged_wr (haddr : 1 ≤ addrWidth)
    {bench : FifoBench α addrWidth ramStyle} (hlogged : bench.Logged)
    (wrEn : Bool) (wrData : α) (skew : Skew) :
    (bench.step (.wr wrEn wrData skew)).Logged := by
  obtain ⟨queue, href, haccepted, hpopped⟩ := hlogged
  refine ⟨queue.wrEdge wrEn wrData skew,
    href.wrEdge haddr wrEn wrData skew, ?_, ?_⟩
  · simp [step, href.wrFull_eq haddr, CrossingQueue.wrEdge_words, haccepted]
  · have hlength := queue.popped_le_length
    simp only [step, hpopped, CrossingQueue.wrEdge_words,
      CrossingQueue.wrEdge_popped]
    split
    · rw [List.take_append_of_le_length hlength]
    · rfl

theorem logged_rd {bench : FifoBench α addrWidth ramStyle}
    (hlogged : bench.Logged) (rdEn : Bool) (skew : Skew) :
    (bench.step (.rd rdEn skew)).Logged := by
  obtain ⟨queue, href, haccepted, hpopped⟩ := hlogged
  refine ⟨queue.rdEdge rdEn skew, href.rdEdge rdEn skew, haccepted, ?_⟩
  simp only [step, href.pop_eq, CrossingQueue.rdEdge_words,
    CrossingQueue.rdEdge_popped]
  cases hpops : queue.pops rdEn with
  | false => simpa using hpopped
  | true =>
      have hdrained := CrossingQueue.not_drained_of_pops hpops
      rw [if_pos rfl, Bool.toNat_true, List.take_add_one,
        href.rdData_eq hdrained, hpopped, Option.toList_some]

theorem logged_step (haddr : 1 ≤ addrWidth)
    (bench : FifoBench α addrWidth ramStyle) (edge : FifoEdge α)
    (hlogged : bench.Logged) : (bench.step edge).Logged := by
  cases edge with
  | wr wrEn wrData skew => exact logged_wr haddr hlogged wrEn wrData skew
  | rd rdEn skew => exact logged_rd hlogged rdEn skew

theorem logged_run (haddr : 1 ≤ addrWidth) (mem : BitVec addrWidth → α)
    (headQ : α) (edges : List (FifoEdge α)) :
    Logged (runFrom step (start mem headQ : FifoBench α addrWidth ramStyle)
      edges) :=
  invariant_runFrom (logged_step haddr) (logged_start mem headQ) edges

/-- Nothing is lost, repeated or reordered: the accepted words are the popped
words, the word in the output stage and the stored words, in this order. -/
theorem Logged.accepted_eq {bench : FifoBench α addrWidth ramStyle}
    (hlogged : bench.Logged) :
    bench.accepted = bench.popped ++ bench.fifo.head ++ bench.fifo.stored := by
  obtain ⟨queue, href, haccepted, hpopped⟩ := hlogged
  have htake : queue.words.take queue.popped =
      (queue.words.take queue.taken.source.now).take queue.popped := by
    rw [List.take_take, Nat.min_eq_left queue.popped_le]
  rw [haccepted, hpopped, href.head_eq, href.stored_eq, htake,
    List.take_append_drop, List.take_append_drop]

theorem Logged.stored_le_wrDataCount
    {bench : FifoBench α addrWidth ramStyle} (hlogged : bench.Logged) :
    bench.fifo.stored.length ≤ bench.fifo.wrDataCount.toNat := by
  obtain ⟨queue, href, -⟩ := hlogged
  have hlate := queue.taken.second_le_now
  rw [href.stored_eq, href.wrDataCount_toNat, List.length_drop]
  omega

theorem Logged.wrEdge_stored (haddr : 1 ≤ addrWidth)
    {bench : FifoBench α addrWidth ramStyle} (hlogged : bench.Logged)
    (wrEn : Bool) (wrData : α) (skew : Skew) :
    (bench.fifo.wrEdge wrEn wrData skew).stored =
      if wrEn && !bench.fifo.wrFull then bench.fifo.stored ++ [wrData]
      else bench.fifo.stored := by
  obtain ⟨queue, href, -⟩ := hlogged
  exact href.wrEdge_stored haddr wrEn wrData skew

/-- The FIFO is a lossless ordered queue.  After any edges the pops are a
prefix of the accepted writes and the registers hold exactly the rest; the next
accepted write adds its word behind the stored ones, and a refused one changes
no word of the memory. -/
theorem lossless_run (haddr : 2 ≤ addrWidth) (mem : BitVec addrWidth → α)
    (headQ : α) (edges : List (FifoEdge α)) :
    let bench : FifoBench α addrWidth ramStyle :=
      runFrom step (start mem headQ) edges
    bench.popped <+: bench.accepted ∧
    bench.accepted = bench.popped ++ bench.fifo.head ++ bench.fifo.stored ∧
    bench.fifo.stored.length ≤ bench.fifo.wrDataCount.toNat ∧
    (∀ wrData skew, bench.fifo.wrFull = false →
      (bench.fifo.wrEdge true wrData skew).stored =
          bench.fifo.stored ++ [wrData] ∧
        (bench.fifo.wrEdge true wrData skew).head = bench.fifo.head) ∧
    ∀ wrEn wrData skew, bench.fifo.wrFull = true →
      (bench.fifo.wrEdge wrEn wrData skew).stored = bench.fifo.stored ∧
        (bench.fifo.wrEdge wrEn wrData skew).head = bench.fifo.head ∧
        (bench.fifo.wrEdge wrEn wrData skew).mem = bench.fifo.mem := by
  have haddr' : 1 ≤ addrWidth := Nat.le_of_succ_le haddr
  intro bench
  have hlogged : bench.Logged := logged_run haddr' mem headQ edges
  have haccepted := hlogged.accepted_eq
  refine ⟨?_, haccepted, hlogged.stored_le_wrDataCount, ?_, ?_⟩
  · rw [haccepted, List.append_assoc]
    exact List.prefix_append _ _
  · intro wrData skew hroom
    have hstored := hlogged.wrEdge_stored haddr' true wrData skew
    exact ⟨by simpa [hroom] using hstored, rfl⟩
  · intro wrEn wrData skew hfull
    have hstored := hlogged.wrEdge_stored haddr' wrEn wrData skew
    exact ⟨by simpa [hfull] using hstored, rfl,
      AsyncFifo.wrEdge_mem_of_full hfull wrEn wrData skew⟩

/-- Two words through a block memory of four, popped in order. -/
theorem lossless_run_two :
    let bench : FifoBench Nat 2 .block :=
      runFrom step (start (fun _ => 0) 0)
        [.wr true 7 ⟨false, false⟩, .rd true ⟨true, false⟩,
          .wr true 8 ⟨false, true⟩, .rd true ⟨false, false⟩,
          .rd true ⟨false, false⟩, .rd true ⟨false, false⟩]
    bench.popped <+: bench.accepted :=
  (lossless_run (by decide) (fun _ => 0) 0 _).1

end FifoBench

end EmacZero
