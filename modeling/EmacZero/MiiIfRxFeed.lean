/-
Envelopes of equal nibbles at the pins of the `mii_if` receive path with the
portable FIFO, and what of them is accepted while `clk` stands still: with
them a FIFO is filled up to the last word.
-/
import EmacZero.MiiIfRxBench

namespace EmacZero

variable {addrWidth : Nat}

namespace AsyncFifo

variable {α : Type*} {fifo : AsyncFifo α addrWidth .distributed}
variable {words : List α} {taken : Nat}

/-- The writer knows of all the words that have been taken. -/
def WriterKnows (fifo : AsyncFifo α addrWidth .distributed) (words : List α)
    (taken : Nat) : Prop :=
  ∃ queue : CrossingQueue α (2 ^ addrWidth) RamStyle.distributed.staged,
    Refines fifo queue ∧ queue.words = words ∧
      queue.taken.source.now = taken ∧ queue.taken.first.now = taken ∧
        queue.taken.second = taken

theorem WriterKnows.wrFull_eq (haddr : 1 ≤ addrWidth)
    (hknows : WriterKnows fifo words taken) :
    fifo.wrFull = decide (words.length = taken + 2 ^ addrWidth) := by
  obtain ⟨queue, href, rfl, -, -, hsecond⟩ := hknows
  rw [href.wrFull_eq haddr]
  exact decide_eq_decide.mpr (by rw [CrossingQueue.Full, hsecond])

/-- Without skew the writer keeps knowing. -/
theorem WriterKnows.wrEdge (haddr : 1 ≤ addrWidth)
    (hknows : WriterKnows fifo words taken) (wrEn : Bool) (word : α) :
    WriterKnows (fifo.wrEdge wrEn word ⟨false, false⟩)
      (if wrEn && !fifo.wrFull then words ++ [word] else words) taken := by
  obtain ⟨queue, href, rfl, hsource, hfirst, hsecond⟩ := hknows
  refine ⟨_, href.wrEdge haddr wrEn word _, ?_⟩
  rw [CrossingQueue.wrEdge_words, CrossingQueue.wrEdge_taken]
  simp [href.wrFull_eq haddr, hsource, hfirst]

/-- Two edges without a write tell the writer of every pop. -/
theorem Refines.writerKnows (haddr : 1 ≤ addrWidth)
    {queue : CrossingQueue α (2 ^ addrWidth) RamStyle.distributed.staged}
    (href : Refines fifo queue) (first second : α) :
    WriterKnows ((fifo.wrEdge false first ⟨false, false⟩).wrEdge false second
      ⟨false, false⟩) queue.words queue.popped := by
  have hkept : queue.taken.source.now = queue.popped :=
    le_antisymm queue.held_le queue.popped_le
  refine ⟨_, (href.wrEdge haddr false first _).wrEdge haddr false second _, ?_⟩
  simp [CrossingQueue.wrEdge_words, hkept]

end AsyncFifo

namespace MiiRxBench

/-- A nibble of an envelope. -/
def nibble : MiiRxEdge := .mii ⟨true, false, 0⟩ ⟨false, false⟩

/-- An `mii_rx_clk` edge between envelopes. -/
def quiet : MiiRxEdge := .mii ⟨false, false, 0⟩ ⟨false, false⟩

/-- Two nibbles at a time. -/
def bytesOf (bytes : Nat) : List MiiRxEdge :=
  (List.replicate bytes [nibble, nibble]).flatten

/-- An envelope of so many and one equal bytes, and the gap behind it. -/
def envelope (bytes : Nat) : List MiiRxEdge :=
  [nibble] ++ bytesOf bytes ++ [nibble, quiet] ++ [quiet, quiet]

section Feed

abbrev PortableBench (addrWidth : Nat) : Type :=
  MiiRxBench (AsyncFifo RxWord addrWidth .distributed)

abbrev portableStep : PortableBench addrWidth → MiiRxEdge →
    PortableBench addrWidth :=
  step (AsyncFifo.ports addrWidth .distributed)

variable {bench : PortableBench addrWidth} {taken : Nat} {full : Bool}

/-- The write side between envelopes, at rest. -/
structure AtRest (bench : PortableBench addrWidth) (full : Bool) : Prop where
  miiRxDvIob : bench.rx.miiRxDvIob = false
  rxNibSel : bench.rx.rxNibSel = false
  rxErLow : bench.rx.rxErLow = false
  rxSfdSeen : bench.rx.rxSfdSeen = false
  rxDvD1 : bench.rx.rxDvD1 = false
  rxWrEn : bench.rx.rxWrEn = false
  rxFifoFullSeen : bench.rx.rxFifoFullSeen = full

/-- The write side in the middle of a byte of the envelope, with the byte
before it, if there is one, on its way into the FIFO. -/
structure MidByte (bench : PortableBench addrWidth) (full staged : Bool) :
    Prop where
  miiRxDvIob : bench.rx.miiRxDvIob = true
  miiRxErIob : bench.rx.miiRxErIob = false
  miiRxdIob : bench.rx.miiRxdIob = 0
  rxNibSel : bench.rx.rxNibSel = false
  rxErLow : bench.rx.rxErLow = false
  rxSfdSeen : bench.rx.rxSfdSeen = false
  rxWrEn : bench.rx.rxWrEn = staged
  rxWrData : staged = true → bench.rx.rxWrData = ⟨false, full, 0⟩
  rxFifoFullSeen : bench.rx.rxFifoFullSeen = full

theorem AtRest.begins (hrest : bench.AtRest full) :
    (portableStep bench nibble).MidByte full false := by
  constructor <;>
    simp [step, MiiRxBench.nibble, MiiIfRx.miiRxEdge, MiiIfRx.rxFullWrite,
      hrest.miiRxDvIob, hrest.rxDvD1, hrest.rxWrEn, hrest.rxFifoFullSeen]

theorem MidByte.nibbles {staged : Bool} (hmid : bench.MidByte full staged)
    (hroom : bench.rx.rxFifo.wrFull = false) :
    (runFrom portableStep bench
      [MiiRxBench.nibble, MiiRxBench.nibble]).MidByte full true := by
  constructor <;>
    simp [step, MiiRxBench.nibble, MiiIfRx.miiRxEdge, MiiIfRx.rxFullWrite,
      MiiIfRx.rxByteNow, MiiIfRx.rxSfdNow, AsyncFifo.ports, hroom,
      hmid.miiRxDvIob, hmid.miiRxErIob, hmid.miiRxdIob, hmid.rxNibSel,
      hmid.rxSfdSeen, hmid.rxWrEn, hmid.rxFifoFullSeen]

/-- Without skew the writer keeps knowing of the words that have been taken. -/
theorem knows_mii (haddr : 1 ≤ addrWidth)
    (hknows : bench.rx.rxFifo.WriterKnows bench.accepted taken)
    (pins : MiiRxIn) :
    (portableStep bench (.mii pins ⟨false, false⟩)).rx.rxFifo.WriterKnows
      (portableStep bench (.mii pins ⟨false, false⟩)).accepted taken := by
  have hnext := hknows.wrEdge haddr
    (bench.rx.rxWrAccept (AsyncFifo.ports addrWidth .distributed))
    bench.rx.rxWrData
  have haccept : (bench.rx.rxWrAccept (AsyncFifo.ports addrWidth .distributed) &&
      !bench.rx.rxFifo.wrFull) =
      bench.rx.rxWrAccept (AsyncFifo.ports addrWidth .distributed) := by
    simp [MiiIfRx.rxWrAccept, AsyncFifo.ports]
  rw [haccept] at hnext
  exact hnext

/-- In the middle of a byte, with these words accepted or about to be. -/
structure Feeding (bench : PortableBench addrWidth) (taken : Nat) (full : Bool)
    (words : List RxWord) : Prop where
  mid : ∃ staged, bench.MidByte full staged ∧
    words = bench.accepted ++ if staged then [⟨false, full, 0⟩] else []
  knows : bench.rx.rxFifo.WriterKnows bench.accepted taken

theorem Feeding.nibbles (haddr : 1 ≤ addrWidth) {words : List RxWord}
    (hfeed : bench.Feeding taken full words)
    (hroom : words.length < taken + 2 ^ addrWidth) :
    (runFrom portableStep bench [nibble, nibble]).Feeding taken full
      (words ++ [⟨false, full, 0⟩]) := by
  obtain ⟨staged, hmid, rfl⟩ := hfeed.mid
  have hlt : bench.accepted.length < taken + 2 ^ addrWidth := by
    rw [List.length_append] at hroom
    omega
  have hfree : bench.rx.rxFifo.wrFull = false := by
    simp [hfeed.knows.wrFull_eq haddr, hlt.ne]
  refine ⟨⟨true, hmid.nibbles hfree, ?_⟩,
    knows_mii haddr (knows_mii haddr hfeed.knows _) _⟩
  have hdata := hmid.rxWrData
  cases staged <;>
    simp_all [step, nibble, MiiIfRx.miiRxEdge, MiiIfRx.rxWrAccept,
      MiiIfRx.rxByteNow, MiiIfRx.rxSfdNow, AsyncFifo.ports,
      hmid.miiRxDvIob, hmid.miiRxdIob, hmid.rxNibSel, hmid.rxWrEn]

theorem Feeding.bytesOf (haddr : 1 ≤ addrWidth) {words : List RxWord}
    (hfeed : bench.Feeding taken full words) (bytes : Nat)
    (hroom : words.length + bytes ≤ taken + 2 ^ addrWidth) :
    (runFrom portableStep bench (bytesOf bytes)).Feeding taken full
      (words ++ List.replicate bytes ⟨false, full, 0⟩) := by
  induction bytes generalizing bench words with
  | zero => simpa [MiiRxBench.bytesOf] using hfeed
  | succ bytes ih =>
      have hnext := ih (hfeed.nibbles haddr (by omega)) (by
        rw [List.length_append, List.length_singleton]
        omega)
      rw [List.append_assoc, List.singleton_append, ← List.replicate_succ]
        at hnext
      exact hnext

/-- The words that an envelope leaves in the FIFO: its EOF word is refused if
its bytes have filled the FIFO up. -/
def wordsOf (bytes : Nat) (full refused : Bool) : List RxWord :=
  List.replicate bytes ⟨false, full, 0⟩ ++
    if refused then [] else [⟨true, full, 0⟩]

theorem length_wordsOf (bytes : Nat) (full : Bool) :
    (wordsOf bytes full true).length = bytes := by
  simp [wordsOf]

theorem eofs_wordsOf (bytes : Nat) (full : Bool) :
    eofs (wordsOf bytes full true) = 0 := by
  simp [wordsOf, eofs, List.countP_replicate]

theorem replicate_append_wordsOf (bytes : Nat) (refused : Bool) :
    List.replicate bytes ⟨false, full, 0⟩ ++ wordsOf 1 full refused =
      wordsOf (bytes + 1) full refused := by
  rw [wordsOf, wordsOf, ← List.append_assoc, List.replicate_append_replicate]

/-- The last byte of an envelope, and its EOF word behind it, are on their way
into the FIFO. -/
structure Closing (bench : PortableBench addrWidth) (full : Bool) : Prop where
  miiRxDvIob : bench.rx.miiRxDvIob = false
  rxNibSel : bench.rx.rxNibSel = false
  rxDvD1 : bench.rx.rxDvD1 = true
  rxWrEn : bench.rx.rxWrEn = true
  rxWrData : bench.rx.rxWrData = ⟨false, full, 0⟩
  rxFifoFullSeen : bench.rx.rxFifoFullSeen = full

theorem Feeding.last (haddr : 1 ≤ addrWidth) {words : List RxWord}
    (hfeed : bench.Feeding taken full words)
    (hroom : words.length < taken + 2 ^ addrWidth) :
    let next := runFrom portableStep bench [nibble, quiet]
    next.Closing full ∧ next.rx.rxFifo.WriterKnows next.accepted taken ∧
      next.accepted = words := by
  obtain ⟨staged, hmid, rfl⟩ := hfeed.mid
  have hlt : bench.accepted.length < taken + 2 ^ addrWidth := by
    rw [List.length_append] at hroom
    omega
  have hfree : bench.rx.rxFifo.wrFull = false := by
    simp [hfeed.knows.wrFull_eq haddr, hlt.ne]
  have hdata := hmid.rxWrData
  refine ⟨?_, knows_mii haddr (knows_mii haddr hfeed.knows _) _, ?_⟩
  · constructor <;>
      simp [step, nibble, quiet, MiiIfRx.miiRxEdge, MiiIfRx.rxFullWrite,
        MiiIfRx.rxByteNow, MiiIfRx.rxSfdNow, AsyncFifo.ports, hfree,
        hmid.miiRxDvIob, hmid.miiRxErIob, hmid.miiRxdIob, hmid.rxNibSel,
        hmid.rxWrEn, hmid.rxFifoFullSeen]
  · cases staged <;>
      simp_all [step, nibble, quiet, MiiIfRx.miiRxEdge, MiiIfRx.rxWrAccept,
        MiiIfRx.rxByteNow, MiiIfRx.rxSfdNow, AsyncFifo.ports,
        hmid.miiRxDvIob, hmid.miiRxdIob, hmid.rxNibSel, hmid.rxWrEn]

theorem Closing.rest (haddr : 1 ≤ addrWidth) (hclose : bench.Closing full)
    (hknows : bench.rx.rxFifo.WriterKnows bench.accepted taken)
    (hroom : bench.accepted.length < taken + 2 ^ addrWidth) :
    let next := runFrom portableStep bench [quiet, quiet]
    let refused := decide (bench.accepted.length + 1 = taken + 2 ^ addrWidth)
    next.AtRest refused ∧ next.rx.rxFifo.WriterKnows next.accepted taken ∧
      next.accepted = bench.accepted ++ wordsOf 1 full refused := by
  have hfree : bench.rx.rxFifo.wrFull = false := by
    simp [hknows.wrFull_eq haddr, hroom.ne]
  have hstaged := knows_mii haddr hknows ⟨false, false, 0⟩
  have haccepted : (portableStep bench quiet).accepted =
      bench.accepted ++ [⟨false, full, 0⟩] := by
    simp [step, quiet, MiiIfRx.rxWrAccept, AsyncFifo.ports, hfree,
      hclose.rxWrEn, hclose.rxWrData]
  have hfull : (portableStep bench quiet).rx.rxFifo.wrFull =
      decide (bench.accepted.length + 1 = taken + 2 ^ addrWidth) := by
    have hlength := congrArg List.length haccepted
    rw [List.length_append, List.length_singleton] at hlength
    rw [← hlength]
    exact hstaged.wrFull_eq haddr
  have heof : (portableStep bench quiet).rx.rxWrData = ⟨true, full, 0⟩ := by
    simp [step, quiet, MiiIfRx.miiRxEdge, MiiIfRx.rxFullWrite, AsyncFifo.ports,
      hfree, hclose.miiRxDvIob, hclose.rxDvD1, hclose.rxNibSel,
      hclose.rxFifoFullSeen]
  have hwrEn : (portableStep bench quiet).rx.rxWrEn = true := by
    simp [step, quiet, MiiIfRx.miiRxEdge, hclose.miiRxDvIob, hclose.rxDvD1]
  have hdv : (portableStep bench quiet).rx.miiRxDvIob = false := rfl
  have hd1 : (portableStep bench quiet).rx.rxDvD1 = false := hclose.miiRxDvIob
  have hclear : (portableStep bench quiet).rx.rxFifoFullSeen = false := by
    simp [step, quiet, MiiIfRx.miiRxEdge, hclose.miiRxDvIob, hclose.rxDvD1]
  refine ⟨?_, knows_mii haddr hstaged _, ?_⟩
  · change (portableStep (portableStep bench quiet) quiet).AtRest _
    generalize portableStep bench quiet = staged at *
    constructor <;>
      simp [step, quiet, MiiIfRx.miiRxEdge, MiiIfRx.rxFullWrite,
        AsyncFifo.ports, hdv, hd1, hwrEn, hclear, hfull]
  · change (portableStep (portableStep bench quiet) quiet).accepted = _
    generalize portableStep bench quiet = staged at *
    by_cases hrefused : bench.accepted.length + 1 = taken + 2 ^ addrWidth <;>
      simp [step, quiet, MiiIfRx.rxWrAccept, AsyncFifo.ports, hwrEn, heof,
        hfull, haccepted, hrefused, wordsOf]

/-- An envelope whose bytes fit into the FIFO is accepted as it is, but for its
EOF word if the bytes have filled the FIFO up. -/
theorem AtRest.feeds (haddr : 1 ≤ addrWidth) (hrest : bench.AtRest full)
    (hknows : bench.rx.rxFifo.WriterKnows bench.accepted taken) (bytes : Nat)
    (hroom : bench.accepted.length + bytes < taken + 2 ^ addrWidth) :
    let next := runFrom portableStep bench (envelope bytes)
    let refused :=
      decide (bench.accepted.length + bytes + 1 = taken + 2 ^ addrWidth)
    next.AtRest refused ∧ next.rx.rxFifo.WriterKnows next.accepted taken ∧
      next.accepted =
        bench.accepted ++ wordsOf (bytes + 1) full refused := by
  have hsame : (portableStep bench nibble).accepted = bench.accepted := by
    simp [step, MiiRxBench.nibble, MiiIfRx.rxWrAccept, hrest.rxWrEn]
  have hbegun : (portableStep bench nibble).Feeding taken full
      bench.accepted :=
    ⟨⟨false, hrest.begins, by simp [hsame]⟩, knows_mii haddr hknows _⟩
  have hfed := hbegun.bytesOf haddr bytes hroom.le
  have hlength : (bench.accepted ++
      List.replicate bytes (⟨false, full, 0⟩ : RxWord)).length =
      bench.accepted.length + bytes := by simp
  obtain ⟨hclose, hknown, haccepted⟩ := hfed.last haddr (hlength ▸ hroom)
  obtain ⟨hrested, hknows', hwords⟩ := hclose.rest haddr hknown
    (by rw [haccepted, hlength]; exact hroom)
  rw [haccepted, hlength] at hrested hwords
  rw [List.append_assoc, replicate_append_wordsOf] at hwords
  simp only [MiiRxBench.envelope, runFrom_append]
  exact ⟨hrested, hknows', hwords⟩

theorem knows_start (mem : BitVec 12 → RxByte) (dout : RxByte)
    (words : BitVec addrWidth → RxWord) (head : RxWord) :
    (start (AsyncFifo.reset words head) mem dout :
      PortableBench addrWidth).rx.rxFifo.WriterKnows [] 0 :=
  ⟨.empty, AsyncFifo.refines_reset words head, rfl, rfl, rfl, rfl⟩

theorem atRest_start (fifo : AsyncFifo RxWord addrWidth .distributed)
    (mem : BitVec 12 → RxByte) (dout : RxByte) :
    (start fifo mem dout).AtRest false := by
  constructor <;> rfl

end Feed

/-- While `clk` stands still, so does the reader. -/
theorem reader_of_mii {Q : Type*} {ports : FifoPorts RxWord Q}
    {bench : MiiRxBench Q} {edges : List MiiRxEdge}
    (hmii : ∀ edge ∈ edges, isClk edge = false) :
    let next := runFrom (step ports) bench edges
    next.rx.toMiiRxReplay = bench.rx.toMiiRxReplay ∧
      next.popped = bench.popped ∧ next.delivered = bench.delivered := by
  induction edges generalizing bench with
  | nil => exact ⟨rfl, rfl, rfl⟩
  | cons edge rest ih =>
      rw [List.forall_mem_cons] at hmii
      cases edge with
      | mii pins skew => exact ih hmii.2
      | clk skew late => simp [isClk] at hmii

theorem envelope_mii (bytes : Nat) :
    ∀ edge ∈ envelope bytes, isClk edge = false := by
  simp only [envelope, bytesOf, nibble, quiet]
  intro edge hedge
  simp at hedge
  grind [isClk]

/-- The receive path of the portable build after some edges. -/
def portable (edges : List MiiRxEdge) :
    MiiRxBench (AsyncFifo RxWord 11 .distributed) :=
  runFrom (step (AsyncFifo.ports 11 .distributed))
    (start (.reset (fun _ => ⟨false, false, 0⟩) ⟨false, false, 0⟩)
      (fun _ => (0, false)) (0, false)) edges

/-- What a first envelope leaves in the FIFO. -/
theorem portable_accepted {bytes : Nat} {refused : Bool}
    (hroom : bytes < 2 ^ 11) (hrefused : refused = decide (bytes + 1 = 2 ^ 11)) :
    (portable (envelope bytes)).accepted =
      wordsOf (bytes + 1) false refused := by
  have hknows := knows_start (fun _ => (0, false)) (0, false)
    (fun _ : BitVec 11 => ⟨false, false, 0⟩) ⟨false, false, 0⟩
  obtain ⟨-, -, hwords⟩ := (atRest_start _ _ _).feeds (by decide) hknows bytes
    (by simpa [start] using hroom)
  simpa [portable, start, hrefused] using hwords

theorem portable_reader {edges : List MiiRxEdge}
    (hmii : ∀ edge ∈ edges, isClk edge = false) :
    (portable edges).rx.rxReplayState = .idle ∧
      (portable edges).rx.rxRdEn = false ∧ (portable edges).popped = 0 := by
  obtain ⟨hreplay, hpopped, -⟩ : (portable edges).rx.toMiiRxReplay = _ ∧ _ :=
    reader_of_mii hmii
  exact ⟨congrArg MiiRxReplay.rxReplayState hreplay,
    congrArg MiiRxReplay.rxRdEn hreplay, hpopped⟩

end MiiRxBench

end EmacZero
