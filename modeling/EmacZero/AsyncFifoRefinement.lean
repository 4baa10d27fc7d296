/-
`async_fifo` refines a bounded queue between two clocks: its pointers are the
queue's counts modulo the pointer width, in Gray code, and its flags and words
are the queue's.
-/
import EmacZero.AsyncFifo
import EmacZero.CrossingQueue
import EmacZero.GrayCode

namespace EmacZero

universe u

variable {α : Type u} {addrWidth : Nat} {ramStyle : RamStyle}

theorem gray2bin_bin2gray (bin : BitVec (addrWidth + 1)) :
    gray2bin (bin2gray bin) = bin :=
  grayFold_decode bin

/-- The Gray pointer that stands for a count. -/
def grayCount (addrWidth count : Nat) : BitVec (addrWidth + 1) :=
  bin2gray (BitVec.ofNat (addrWidth + 1) count)

theorem grayCount_inj {low high : Nat} (hle : low ≤ high)
    (hlt : high < low + 2 ^ (addrWidth + 1)) :
    grayCount addrWidth low = grayCount addrWidth high ↔ low = high := by
  rw [← ofNat_eq_ofNat_iff hle hlt]
  exact grayEncode_inj

theorem grayCount_eq_fullPattern_iff (haddr : 1 ≤ addrWidth) {low high : Nat}
    (hle : low ≤ high) (hroom : high ≤ low + 2 ^ addrWidth) :
    grayCount addrWidth high = fullPattern (grayCount addrWidth low) ↔
      high = low + 2 ^ addrWidth := by
  have hhalf := grayEncode_eq_invertTopTwo_iff haddr
    (BitVec.ofNat (addrWidth + 1) high) (BitVec.ofNat (addrWidth + 1) low)
  have hpow : 2 ^ (addrWidth + 1) = 2 ^ addrWidth + 2 ^ addrWidth := by ring
  have hpos := Nat.two_pow_pos addrWidth
  rw [ofNat_add_halfTurn, ofNat_eq_ofNat_iff hroom (by omega)] at hhalf
  exact hhalf

namespace AsyncFifo

/-- The registers of the FIFO, told from the counts of the queue. -/
structure Refines (fifo : AsyncFifo α addrWidth ramStyle)
    (queue : CrossingQueue α (2 ^ addrWidth) ramStyle.staged) : Prop where
  wrPtrBin : fifo.wrPtrBin =
    BitVec.ofNat (addrWidth + 1) queue.written.source.now
  wrPtrGray : fifo.wrPtrGray = queue.written.source.map (grayCount addrWidth)
  wrPtrGraySync1 :
    fifo.wrPtrGraySync1 = queue.written.first.map (grayCount addrWidth)
  wrPtrGraySync2 :
    fifo.wrPtrGraySync2 = grayCount addrWidth queue.written.second
  rdPtrBin : fifo.rdPtrBin =
    BitVec.ofNat (addrWidth + 1) queue.taken.source.now
  rdPtrGray : fifo.rdPtrGray = queue.taken.source.map (grayCount addrWidth)
  rdPtrGraySync1 :
    fifo.rdPtrGraySync1 = queue.taken.first.map (grayCount addrWidth)
  rdPtrGraySync2 :
    fifo.rdPtrGraySync2 = grayCount addrWidth queue.taken.second
  mem : ∀ index, queue.taken.source.now ≤ index → index < queue.words.length →
    queue.words[index]? = some (fifo.mem (BitVec.ofNat addrWidth index))
  headValid :
    fifo.headValid = decide (queue.popped < queue.taken.source.now)
  headQ : queue.popped < queue.taken.source.now →
    queue.words[queue.popped]? = some fifo.headQ

theorem refines_reset (mem : BitVec addrWidth → α) (headQ : α) :
    Refines (reset mem headQ : AsyncFifo α addrWidth ramStyle) .empty := by
  have hzero : grayCount addrWidth 0 = 0 := by simp [grayCount, bin2gray]
  constructor <;>
    simp [reset, CrossingQueue.empty, Launched.map_rest, hzero]

section Views

variable {fifo : AsyncFifo α addrWidth ramStyle}
variable {queue : CrossingQueue α (2 ^ addrWidth) ramStyle.staged}

theorem Refines.wrFull_iff (haddr : 1 ≤ addrWidth)
    (href : Refines fifo queue) : fifo.wrFull = true ↔ queue.Full := by
  have hle : queue.taken.second ≤ queue.words.length :=
    queue.taken.second_le_now.trans queue.taken_le_length
  rw [wrFull, beq_iff_eq, href.wrPtrGray, href.rdPtrGraySync2,
    Launched.map_now, queue.written_eq]
  exact grayCount_eq_fullPattern_iff haddr hle queue.room

theorem Refines.wrFull_eq (haddr : 1 ≤ addrWidth)
    (href : Refines fifo queue) : fifo.wrFull = decide queue.Full := by
  rw [Bool.eq_iff_iff, href.wrFull_iff haddr, decide_eq_true_iff]

theorem Refines.wrDataCount_toNat (href : Refines fifo queue) :
    fifo.wrDataCount.toNat = queue.words.length - queue.taken.second := by
  have hle : queue.taken.second ≤ queue.words.length :=
    queue.taken.second_le_now.trans queue.taken_le_length
  have hroom := queue.room
  have hpow : 2 ^ (addrWidth + 1) = 2 ^ addrWidth + 2 ^ addrWidth := by ring
  have hpos := Nat.two_pow_pos addrWidth
  rw [wrDataCount, href.wrPtrBin, href.rdPtrGraySync2, grayCount,
    gray2bin_bin2gray, queue.written_eq,
    toNat_ofNat_sub_ofNat hle (by omega)]

theorem Refines.memEmpty_iff (href : Refines fifo queue) :
    fifo.memEmpty = true ↔
      queue.taken.source.now = queue.written.second := by
  have hvisible := queue.visible_le_length
  have hroom := queue.length_le_taken
  have hpow : 2 ^ (addrWidth + 1) = 2 ^ addrWidth + 2 ^ addrWidth := by ring
  have hpos := Nat.two_pow_pos addrWidth
  rw [memEmpty, beq_iff_eq, href.rdPtrGray, href.wrPtrGraySync2,
    Launched.map_now, grayCount_inj queue.taken_le (by omega)]

theorem Refines.rdEmpty_eq (href : Refines fifo queue) :
    fifo.rdEmpty = decide queue.Drained := by
  have hpopped := queue.popped_le
  have hheld := queue.held_le
  cases ramStyle with
  | distributed =>
      have hkept : queue.popped = queue.taken.source.now := by
        simp only [RamStyle.staged, Bool.toNat_false] at hheld
        omega
      have hdrained : queue.Drained ↔
          queue.taken.source.now = queue.written.second := by
        rw [← hkept]
        rfl
      rw [rdEmpty, Bool.eq_iff_iff, href.memEmpty_iff, decide_eq_true_iff,
        hdrained]
  | block =>
      have hdrained : queue.Drained ↔
          ¬ queue.popped < queue.taken.source.now :=
        ⟨fun heq => heq.not_lt, fun hge => le_antisymm hpopped (not_lt.mp hge)⟩
      rw [rdEmpty, href.headValid, ← decide_not]
      exact decide_eq_decide.mpr hdrained.symm

theorem Refines.pop_eq (href : Refines fifo queue) (rdEn : Bool) :
    fifo.pop rdEn = queue.pops rdEn := by
  rw [pop, CrossingQueue.pops, href.rdEmpty_eq]

theorem Refines.memRd_eq (href : Refines fifo queue) (rdEn : Bool) :
    fifo.memRd rdEn = queue.takes rdEn := by
  have htaken := queue.taken_le
  cases ramStyle with
  | distributed => exact href.pop_eq rdEn
  | block =>
      have hempty : fifo.memEmpty =
          !decide (queue.taken.source.now < queue.written.second) := by
        rw [Bool.eq_iff_iff, href.memEmpty_iff, Bool.not_eq_true',
          decide_eq_false_iff_not]
        omega
      have hvalid : (!fifo.headValid) = decide queue.Drained := href.rdEmpty_eq
      rw [memRd, hempty, hvalid, href.pop_eq, Bool.not_not]
      rfl

/-- The head of a queue that is not drained is its oldest word not consumed. -/
theorem Refines.rdData_eq (href : Refines fifo queue)
    (hdrained : ¬ queue.Drained) :
    queue.words[queue.popped]? = some fifo.rdData := by
  have hlength := CrossingQueue.popped_lt_length hdrained
  cases ramStyle with
  | distributed =>
      have hkept : queue.popped = queue.taken.source.now :=
        le_antisymm queue.popped_le queue.held_le
      have hmem := href.mem queue.popped hkept.ge hlength
      rw [hmem, rdData, href.rdPtrBin, ← hkept,
        BitVec.setWidth_ofNat_of_le (Nat.le_succ addrWidth)]
  | block =>
      exact href.headQ (lt_of_le_of_ne queue.popped_le hdrained)

end Views

section Edges

variable {fifo : AsyncFifo α addrWidth ramStyle}
variable {queue : CrossingQueue α (2 ^ addrWidth) ramStyle.staged}

theorem grayCount_succ (count : Nat) :
    bin2gray (BitVec.ofNat (addrWidth + 1) count + 1#(addrWidth + 1)) =
      grayCount addrWidth (count + 1) := by
  rw [grayCount, BitVec.ofNat_add]

/-- A word written to a store with room replaces none of the words in it. -/
theorem ofNat_index_ne (hfull : ¬ queue.Full) {index : Nat}
    (htaken : queue.taken.source.now ≤ index)
    (hindex : index < queue.words.length) :
    BitVec.ofNat addrWidth index ≠
      BitVec.ofNat addrWidth queue.words.length := by
  have hroom : queue.words.length < queue.taken.second + 2 ^ addrWidth :=
    lt_of_le_of_ne queue.room hfull
  have hlate := queue.taken.second_le_now
  rw [Ne, ofNat_eq_ofNat_iff hindex.le (by omega)]
  exact hindex.ne

theorem Refines.wrEdge_refused (href : Refines fifo queue)
    {wrEn : Bool} (hrefused : (wrEn && !fifo.wrFull) = false)
    (hqueue : ¬ (wrEn = true ∧ ¬ queue.Full)) (wrData : α) (skew : Skew) :
    Refines (fifo.wrEdge wrEn wrData skew) (queue.wrEdge wrEn wrData skew) := by
  rw [CrossingQueue.wrEdge, dif_neg hqueue]
  constructor
  case mem =>
    simpa [AsyncFifo.wrEdge, hrefused] using href.mem
  case headValid => exact href.headValid
  case headQ => exact href.headQ
  all_goals
    simp [AsyncFifo.wrEdge, hrefused, href.wrPtrBin, href.wrPtrGray,
      href.wrPtrGraySync1, href.wrPtrGraySync2, href.rdPtrBin, href.rdPtrGray,
      href.rdPtrGraySync1, Launched.map_drive, Launched.map_settle,
      Launched.map_sample]

theorem Refines.wrEdge_accepted (href : Refines fifo queue)
    {wrEn : Bool} (haccept : (wrEn && !fifo.wrFull) = true)
    (hqueue : wrEn = true ∧ ¬ queue.Full) (wrData : α) (skew : Skew) :
    Refines (fifo.wrEdge wrEn wrData skew) (queue.wrEdge wrEn wrData skew) := by
  have hbin := href.wrPtrBin
  rw [queue.written_eq] at hbin
  rw [CrossingQueue.wrEdge, dif_pos hqueue]
  constructor
  case mem =>
    intro index htaken hindex
    simp only [AsyncFifo.wrEdge, haccept, if_true, hbin,
      BitVec.setWidth_ofNat_of_le (Nat.le_succ addrWidth)]
    rcases Nat.lt_or_ge index queue.words.length with hold | hnew
    · rw [List.getElem?_append_left hold, Function.update_of_ne
        (ofNat_index_ne hqueue.2 htaken hold)]
      exact href.mem index htaken hold
    · have hlast : index = queue.words.length := by
        simp only [List.length_append, List.length_singleton] at hindex
        omega
      simp [hlast]
  case headValid => exact href.headValid
  case headQ =>
    intro hheld
    have hold : queue.popped < queue.words.length :=
      lt_of_lt_of_le hheld queue.taken_le_length
    rw [List.getElem?_append_left hold]
    exact href.headQ hheld
  all_goals
    simp [AsyncFifo.wrEdge, haccept, href.wrPtrBin, href.wrPtrGray,
      href.wrPtrGraySync1, href.wrPtrGraySync2, href.rdPtrBin, href.rdPtrGray,
      href.rdPtrGraySync1, Launched.map_drive, Launched.map_settle,
      Launched.map_sample, grayCount_succ, BitVec.ofNat_add]

theorem Refines.wrEdge (haddr : 1 ≤ addrWidth) (href : Refines fifo queue)
    (wrEn : Bool) (wrData : α) (skew : Skew) :
    Refines (fifo.wrEdge wrEn wrData skew) (queue.wrEdge wrEn wrData skew) := by
  have haccept : (wrEn && !fifo.wrFull) = true ↔
      wrEn = true ∧ ¬ queue.Full := by
    simp [href.wrFull_eq haddr]
  by_cases hqueue : wrEn = true ∧ ¬ queue.Full
  · exact href.wrEdge_accepted (haccept.mpr hqueue) hqueue wrData skew
  · have hrefused := Bool.eq_false_iff.mpr (mt haccept.mp hqueue)
    exact href.wrEdge_refused hrefused hqueue wrData skew

theorem Refines.rdEdge_headValid (href : Refines fifo queue) (rdEn : Bool)
    (skew : Skew) :
    (fifo.rdEdge rdEn skew).headValid =
      decide ((queue.rdEdge rdEn skew).popped <
        (queue.rdEdge rdEn skew).taken.source.now) := by
  rw [queue.rdEdge_held]
  simp only [AsyncFifo.rdEdge, href.memRd_eq, href.pop_eq, href.headValid]

theorem Refines.rdEdge_headQ (href : Refines fifo queue) (rdEn : Bool)
    (skew : Skew)
    (hheld : (queue.rdEdge rdEn skew).popped <
      (queue.rdEdge rdEn skew).taken.source.now) :
    queue.words[(queue.rdEdge rdEn skew).popped]? =
      some (fifo.rdEdge rdEn skew).headQ := by
  have hkeep := queue.rdEdge_held rdEn skew
  rw [decide_eq_true hheld] at hkeep
  simp only [AsyncFifo.rdEdge, href.memRd_eq]
  by_cases hrefill : (ramStyle.staged && queue.takes rdEn) = true
  · have hpopped := queue.popped_eq_taken_of_refill hrefill
    have htakes : queue.takes rdEn = true := by
      simpa using (Bool.and_eq_true _ _ ▸ hrefill).2
    have hvisible := CrossingQueue.taken_lt_visible_of_takes htakes
    have hlength := hvisible.trans_le queue.visible_le_length
    rw [CrossingQueue.rdEdge_popped, hpopped, href.mem _ le_rfl hlength,
      if_pos hrefill, href.rdPtrBin,
      BitVec.setWidth_ofNat_of_le (Nat.le_succ addrWidth)]
  · rw [if_neg hrefill]
    rw [if_neg hrefill] at hkeep
    cases hpops : queue.pops rdEn with
    | true => simp [hpops] at hkeep
    | false =>
        have hold : queue.popped < queue.taken.source.now := by
          simpa [hpops] using hkeep
        rw [CrossingQueue.rdEdge_popped, hpops, Bool.toNat_false, Nat.add_zero]
        exact href.headQ hold

theorem Refines.rdEdge (href : Refines fifo queue)
    (rdEn : Bool) (skew : Skew) :
    Refines (fifo.rdEdge rdEn skew) (queue.rdEdge rdEn skew) := by
  have htakes := href.memRd_eq rdEn
  have hpops := href.pop_eq rdEn
  constructor
  case mem =>
    intro index htaken hindex
    apply href.mem index _ hindex
    refine le_trans ?_ htaken
    rw [CrossingQueue.rdEdge_taken]
    cases queue.takes rdEn <;> simp
  case headValid => exact href.rdEdge_headValid rdEn skew
  case headQ => exact href.rdEdge_headQ rdEn skew
  all_goals
    cases hvalue : queue.takes rdEn <;>
    simp [AsyncFifo.rdEdge, htakes, hvalue, href.wrPtrBin, href.wrPtrGray,
      href.wrPtrGraySync1, href.rdPtrGraySync2, href.rdPtrBin, href.rdPtrGray,
      href.rdPtrGraySync1, Launched.map_drive, Launched.map_settle,
      Launched.map_sample, grayCount_succ, BitVec.ofNat_add]

end Edges

end AsyncFifo

end EmacZero
