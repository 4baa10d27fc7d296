/-
The `mii_if` receive path under its monitors, and the facts about its FIFO and
its frame counters that hold in every run: the words in the FIFO, the EOF words
among them, and the pop in flight.
-/
import EmacZero.ClockedRun
import EmacZero.MiiIfRx

namespace EmacZero

universe u

variable {Q : Type u} {ports : FifoPorts RxWord Q} {depth lag : Nat}

/-- One rising edge of `mii_rx_clk` or of `clk`. -/
inductive MiiRxEdge where
  | mii (pins : MiiRxIn) (skew : Skew)
  | clk (skew : Skew) (late : Bool)

def isClk : MiiRxEdge → Bool
  | .mii _ _ => false
  | .clk _ _ => true

/-- The receive path with the `RX_DV` envelopes at its pins, the envelopes on
its outputs, and what has gone in and out of its FIFO.  `orphaned` tells that
the EOF word behind the last words in the FIFO has been refused; `seen` runs
along with the frame counter and its copies, without their limits. -/
structure MiiRxBench (Q : Type u) where
  rx : MiiIfRx Q
  received : Envelopes MiiRxIn
  delivered : Envelopes RxByte
  accepted : List RxWord
  popped : Nat
  orphaned : Bool
  seen : SeenCount

/-- The end-of-frame words among some words. -/
def eofs (words : List RxWord) : Nat := words.countP RxWord.eof

@[simp] theorem eofs_append (first second : List RxWord) :
    eofs (first ++ second) = eofs first + eofs second :=
  List.countP_append

@[simp] theorem eofs_singleton (word : RxWord) :
    eofs [word] = word.eof.toNat := by
  cases heof : word.eof <;> simp [eofs, heof]

theorem eofs_take_le {first second : Nat} (hle : first ≤ second)
    (words : List RxWord) : eofs (words.take first) ≤ eofs (words.take second) :=
  (List.take_prefix_take_left hle).sublist.countP_le

theorem eofs_take_add_one {words : List RxWord} {index : Nat} {word : RxWord}
    (hword : words[index]? = some word) :
    eofs (words.take (index + 1)) =
      eofs (words.take index) + word.eof.toNat := by
  rw [List.take_add_one, hword, Option.toList_some, eofs_append, eofs_singleton]

namespace MiiRxBench

def start (fifo : Q) (mem : BitVec 12 → RxByte) (dout : RxByte) :
    MiiRxBench Q :=
  ⟨.reset fifo mem dout, .unseen, .unseen, [], 0, false, .zero⟩

/-- The words in the FIFO. -/
def stored (bench : MiiRxBench Q) : List RxWord :=
  bench.accepted.drop bench.popped

/-- The end-of-frame words that have been popped. -/
def retired (bench : MiiRxBench Q) : Nat :=
  eofs (bench.accepted.take bench.popped)

/-- The last accepted word belongs to a frame whose EOF word has not been
accepted. -/
def frameOpen (bench : MiiRxBench Q) : Bool :=
  match bench.accepted.getLast? with
  | some word => !word.eof
  | none => false

def step (ports : FifoPorts RxWord Q) (bench : MiiRxBench Q) :
    MiiRxEdge → MiiRxBench Q
  | .mii pins skew =>
      { bench with
        rx := bench.rx.miiRxEdge ports pins skew
        received :=
          bench.received.observe (if pins.dv then some pins else none)
        accepted :=
          if bench.rx.rxWrAccept ports then
            bench.accepted ++ [bench.rx.rxWrData]
          else bench.accepted
        orphaned :=
          if bench.rx.rxWrEn && bench.rx.rxWrData.eof then
            !bench.rx.rxWrAccept ports && bench.frameOpen
          else bench.orphaned
        seen :=
          if bench.rx.rxWrAccept ports && bench.rx.rxWrData.eof then
            bench.seen.advance
          else bench.seen }
  | .clk skew late =>
      { bench with
        rx := bench.rx.clkEdge ports skew late
        delivered :=
          bench.delivered.observe (bench.rx.clkEdge ports skew late).gmiiRxOut
        popped := bench.popped +
          (bench.rx.rxRdEn && !ports.rdEmpty bench.rx.rxFifo).toNat
        seen := bench.seen.clock late }

/-- The FIFO, the frame counters and the pop in flight, against the words that
have gone through. -/
structure Tracks (laws : BoundedFifo ports depth lag) (bench : MiiRxBench Q)
    (shown : Nat → Nat) : Prop where
  fifo : laws.Views bench.rx.rxFifo ⟨bench.accepted, bench.popped, shown⟩
  count : bench.rx.rxFrameCount.Tracks bench.seen bench.retired
  committed : bench.seen.committed.now = eofs bench.accepted
  pop : bench.rx.rxRdEn = true → bench.popped < shown 0 ∧
    ∃ word, bench.accepted[bench.popped]? = some word ∧
      bench.rx.rxFrameDonePulse = word.eof
  done : bench.rx.rxRdEn = false → bench.rx.rxFrameDonePulse = false
  load : bench.rx.rxReplayState = .load →
    bench.rx.rxLoadWait = bench.rx.rxRdEn
  pause : bench.rx.rxReplayState ≠ .load →
    bench.rx.rxRdEn = bench.rx.rxFrameDonePulse

theorem tracks_start (laws : BoundedFifo ports depth lag) {fifo : Q}
    (hfifo : laws.Views fifo .empty) (mem : BitVec 12 → RxByte)
    (dout : RxByte) :
    Tracks laws (start fifo mem dout) (fun _ => 0) where
  fifo := hfifo
  count := FrameCount.tracks_reset
  committed := rfl
  pop := by simp [start, MiiIfRx.reset]
  done := fun _ => rfl
  load := by simp [start, MiiIfRx.reset]
  pause := fun _ => rfl

section Step

variable {laws : BoundedFifo ports depth lag} {bench : MiiRxBench Q}
variable {shown : Nat → Nat}

theorem Tracks.popped_le (htracks : Tracks laws bench shown) :
    bench.popped ≤ bench.accepted.length :=
  (laws.popped_le htracks.fifo).trans (laws.shown_le htracks.fifo 0)

theorem Tracks.stored_le (htracks : Tracks laws bench shown) :
    bench.stored.length ≤ depth := by
  have hbound : bench.accepted.length ≤ bench.popped + depth :=
    laws.bounded htracks.fifo
  rw [stored, List.length_drop]
  omega

/-- The frames committed and not retired have their EOF words in the FIFO. -/
theorem retired_add_stored (bench : MiiRxBench Q) :
    bench.retired + eofs bench.stored = eofs bench.accepted := by
  rw [retired, stored, ← eofs_append, List.take_append_drop]

theorem Tracks.rdEmpty_iff (htracks : Tracks laws bench shown) :
    ports.rdEmpty bench.rx.rxFifo = false ↔ bench.popped < shown 0 := by
  have hempty := laws.empty_iff htracks.fifo
  have hle : bench.popped ≤ shown 0 := laws.popped_le htracks.fifo
  rw [← Bool.not_eq_true, hempty]
  exact (lt_iff_le_and_ne.trans (and_iff_right hle)).symm

/-- A pop in flight finds its word. -/
theorem Tracks.pops_eq (htracks : Tracks laws bench shown) :
    (bench.rx.rxRdEn && !ports.rdEmpty bench.rx.rxFifo) = bench.rx.rxRdEn := by
  cases hrdEn : bench.rx.rxRdEn with
  | false => rfl
  | true => simp [htracks.rdEmpty_iff.mpr (htracks.pop hrdEn).1]

theorem Tracks.retired_clk (htracks : Tracks laws bench shown)
    (skew : Skew) (late : Bool) :
    (bench.step ports (.clk skew late)).retired =
      bench.retired + bench.rx.rxFrameDonePulse.toNat := by
  simp only [retired, step, htracks.pops_eq]
  cases hrdEn : bench.rx.rxRdEn with
  | false => simp [htracks.done hrdEn]
  | true =>
      obtain ⟨-, word, hword, hdone⟩ := htracks.pop hrdEn
      rw [Bool.toNat_true, eofs_take_add_one hword, hdone]

theorem Tracks.retired_mii (htracks : Tracks laws bench shown)
    (pins : MiiRxIn) (skew : Skew) :
    (bench.step ports (.mii pins skew)).retired = bench.retired := by
  simp only [retired, step]
  split
  · rw [List.take_append_of_le_length htracks.popped_le]
  · rfl

theorem Tracks.mii (htracks : Tracks laws bench shown) (pins : MiiRxIn)
    (skew : Skew) :
    ∃ shown', (∀ edges, shown edges ≤ shown' edges) ∧
      (∀ edges ≤ 2, shown' edges ≤ shown edges) ∧
      Tracks laws (bench.step ports (.mii pins skew)) shown' := by
  have hretired := htracks.retired_mii pins skew
  obtain ⟨⟨words', popped', shown'⟩, hviews, hwords, hpop, hshown, hunseen⟩ :=
    laws.wrote htracks.fifo (bench.rx.rxWrAccept ports) bench.rx.rxWrData skew
  have haccept : (bench.rx.rxWrAccept ports &&
      !ports.wrFull bench.rx.rxFifo) = bench.rx.rxWrAccept ports := by
    simp [MiiIfRx.rxWrAccept]
  rw [haccept] at hwords
  subst hwords hpop
  refine ⟨shown', hshown, hunseen, hviews, ?_, ?_, ?_, htracks.done,
    htracks.load, htracks.pause⟩
  · rw [hretired]
    simp only [step, MiiIfRx.miiRxEdge]
    cases hcommit : bench.rx.rxWrAccept ports && bench.rx.rxWrData.eof with
    | true => exact htracks.count.commit
    | false => simpa [FrameCount.wrEdge] using htracks.count
  · have hcommitted := htracks.committed
    cases hacc : bench.rx.rxWrAccept ports <;>
      cases heof : bench.rx.rxWrData.eof <;>
      simp [step, hacc, heof, hcommitted]
  · intro hrdEn
    obtain ⟨hlt, word, hword, hdone⟩ := htracks.pop hrdEn
    refine ⟨hlt.trans_le (hshown 0), word, ?_, hdone⟩
    have hindex := (List.getElem?_eq_some_iff.mp hword).1
    simp only [step]
    split
    · rw [List.getElem?_append_left hindex, hword]
    · exact hword

/-- The loader takes a word at this edge. -/
def takes (ports : FifoPorts RxWord Q) (bench : MiiRxBench Q) : Bool :=
  bench.rx.rxReplayState == .load && !bench.rx.rxLoadWait &&
    bench.rx.rxRdWordValid ports

theorem of_takes (htakes : bench.takes ports = true) :
    bench.rx.rxReplayState = .load ∧ bench.rx.rxLoadWait = false ∧
      bench.rx.rxRdWordValid ports = true := by
  simpa [takes, and_assoc] using htakes

theorem replayStep_of_takes (htakes : bench.takes ports = true) :
    (bench.rx.replayStep ports).rxRdEn = true ∧
      (bench.rx.replayStep ports).rxLoadWait = true ∧
      (bench.rx.replayStep ports).rxFrameDonePulse =
        (ports.rdData bench.rx.rxFifo).eof ∧
      ((bench.rx.replayStep ports).rxReplayState ≠ .load →
        (ports.rdData bench.rx.rxFifo).eof = true) := by
  obtain ⟨hstate, hwait, hvalid⟩ := of_takes htakes
  cases heof : (ports.rdData bench.rx.rxFifo).eof <;>
    simp [MiiIfRx.replayStep, hstate, hwait, hvalid, heof]

theorem replayStep_of_not_takes (htakes : bench.takes ports = false) :
    (bench.rx.replayStep ports).rxRdEn = false ∧
      (bench.rx.replayStep ports).rxFrameDonePulse = false ∧
      ((bench.rx.replayStep ports).rxReplayState = .load →
        (bench.rx.replayStep ports).rxLoadWait = false) := by
  cases hstate : bench.rx.rxReplayState with
  | load =>
      cases hwait : bench.rx.rxLoadWait with
      | true => simp [MiiIfRx.replayStep, hstate, hwait]
      | false =>
          have hvalid : bench.rx.rxRdWordValid ports = false := by
            simpa [takes, hstate, hwait] using htakes
          simp [MiiIfRx.replayStep, hstate, hwait, hvalid]
  | idle => simp [MiiIfRx.replayStep, hstate]
  | prime => simp [MiiIfRx.replayStep, hstate]
  | wait => simp [MiiIfRx.replayStep, hstate]
  | send =>
      simp only [MiiIfRx.replayStep, hstate]
      split <;> simp

/-- A word is taken only when no pop is in flight. -/
theorem Tracks.takes_iff (htracks : Tracks laws bench shown) :
    bench.takes ports = true ↔ bench.rx.rxReplayState = .load ∧
      bench.rx.rxRdEn = false ∧ bench.popped < shown 0 := by
  have hvalid : bench.rx.rxRdWordValid ports = true ↔
      bench.popped < shown 0 := by
    rw [← htracks.rdEmpty_iff]
    simp [MiiIfRx.rxRdWordValid]
  simp only [takes, Bool.and_eq_true, beq_iff_eq, Bool.not_eq_true', hvalid,
    and_assoc]
  constructor
  · rintro ⟨hstate, hwait, hlt⟩
    exact ⟨hstate, (htracks.load hstate).symm.trans hwait, hlt⟩
  · rintro ⟨hstate, hrdEn, hlt⟩
    exact ⟨hstate, (htracks.load hstate).trans hrdEn, hlt⟩

theorem Tracks.head_word (htracks : Tracks laws bench shown)
    (hlt : bench.popped < shown 0) :
    bench.accepted[bench.popped]? = some (ports.rdData bench.rx.rxFifo) :=
  laws.word htracks.fifo hlt

/-- The words that have been popped or are about to be. -/
def taken (bench : MiiRxBench Q) : Nat := bench.popped + bench.rx.rxRdEn.toNat

theorem Tracks.taken_le (htracks : Tracks laws bench shown) :
    bench.taken ≤ bench.accepted.length := by
  rw [taken]
  cases hrdEn : bench.rx.rxRdEn with
  | false => exact htracks.popped_le
  | true =>
      exact (htracks.pop hrdEn).1.trans_le (laws.shown_le htracks.fifo 0)

theorem Tracks.taken_clk (htracks : Tracks laws bench shown) (skew : Skew)
    (late : Bool) :
    (bench.step ports (.clk skew late)).taken =
      bench.taken + (bench.takes ports).toNat := by
  simp only [taken, step, htracks.pops_eq, MiiIfRx.clkEdge]
  cases htakes : bench.takes ports with
  | true =>
      rw [(replayStep_of_takes htakes).1, (htracks.takes_iff.mp htakes).2.1]
  | false => rw [(replayStep_of_not_takes htakes).1, Bool.toNat_false]

/-- The word that the loader takes is the first one not taken before. -/
theorem Tracks.taken_word (htracks : Tracks laws bench shown)
    (htakes : bench.takes ports = true) :
    bench.accepted[bench.taken]? = some (ports.rdData bench.rx.rxFifo) := by
  obtain ⟨-, hfree, hlt⟩ := htracks.takes_iff.mp htakes
  rw [taken, hfree]
  exact htracks.head_word hlt

theorem Tracks.clk (htracks : Tracks laws bench shown) (skew : Skew)
    (late : Bool) :
    ∃ shown', (∀ edges, shown (edges + 1) ≤ shown' edges) ∧
      shown' 0 ≤ shown 2 ∧
      Tracks laws (bench.step ports (.clk skew late)) shown' := by
  have hmono : shown 0 ≤ shown 1 := laws.shown_mono htracks.fifo (Nat.zero_le 1)
  have hretired := htracks.retired_clk skew late
  obtain ⟨⟨words', popped', shown'⟩, hviews, hwords, hpop, hshown, hunseen⟩ :=
    laws.read htracks.fifo bench.rx.rxRdEn skew
  subst hwords hpop
  have hcount := htracks.count.rdEdge bench.rx.rxFrameDonePulse late
  rw [← htracks.retired_clk skew late] at hcount
  refine ⟨shown', hshown, hunseen, ?_⟩
  cases htakes : bench.takes ports with
  | true =>
      obtain ⟨hrdEn, hwait, hdone, hstop⟩ := replayStep_of_takes htakes
      obtain ⟨-, hfree, hlt⟩ := htracks.takes_iff.mp htakes
      have hsame : (bench.step ports (.clk skew late)).popped =
          bench.popped := by
        simp [step, hfree]
      exact
        { fifo := hviews
          count := hcount
          committed := htracks.committed
          pop := fun _ => by
            rw [hsame]
            exact ⟨hlt.trans_le (hmono.trans (hshown 0)), _,
              htracks.head_word hlt, hdone⟩
          done := fun hnone => absurd (hrdEn.symm.trans hnone) (by simp)
          load := fun _ => hwait.trans hrdEn.symm
          pause := fun hstate => hrdEn.trans (hdone.trans (hstop hstate)).symm }
  | false =>
      obtain ⟨hrdEn, hdone, hwait⟩ := replayStep_of_not_takes htakes
      exact
        { fifo := hviews
          count := hcount
          committed := htracks.committed
          pop := fun hpops => absurd (hrdEn.symm.trans hpops) (by simp)
          done := fun _ => hdone
          load := fun hstate => (hwait hstate).trans hrdEn.symm
          pause := fun _ => hrdEn.trans hdone.symm }

end Step

end MiiRxBench

end EmacZero
