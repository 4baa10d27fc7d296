/-
Runs of the portable `mii_if` receive path in phases: either envelopes come in
while `clk` stands still, or `clk` runs between envelopes until a frame is
retired.
-/
import EmacZero.MiiIfRxDrain
import EmacZero.MiiIfRxReplay

namespace EmacZero

namespace MiiRxBench

/-- `clk` runs and `mii_rx_clk` stands still. -/
def clks (count : Nat) : List MiiRxEdge :=
  List.replicate count (.clk ⟨false, false⟩ false)

/-- The edges after which a frame that is in the FIFO is retired. -/
def drain : List MiiRxEdge := clks (drainEdges (2 ^ 11) 4)

theorem portable_append (first second : List MiiRxEdge) :
    portable (first ++ second) = runFrom portableStep (portable first) second :=
  runFrom_append _ _ _ _

theorem portable_concat (edges : List MiiRxEdge) (edge : MiiRxEdge) :
    portable (edges ++ [edge]) = portableStep (portable edges) edge :=
  portable_append edges [edge]

/-- Words are only added. -/
theorem accepted_grows {bench : PortableBench 11} (edge : MiiRxEdge) :
    bench.accepted <+: (portableStep bench edge).accepted := by
  cases edge with
  | clk skew late => exact List.prefix_rfl
  | mii pins skew =>
      simp only [step]
      split
      · exact List.prefix_append _ _
      · exact List.prefix_rfl

theorem portable_reads {edges : List MiiRxEdge}
    (hshort : (portable edges).accepted.length ≤ 2 ^ 12) :
    Reads (AsyncFifo.bounded (by decide)) (portable edges) := by
  induction edges using List.reverseRecOn with
  | nil =>
      exact reads_start _ (AsyncFifo.views_reset (by decide) _ _) _ _
  | append_singleton edges edge ih =>
      rw [portable_concat] at hshort ⊢
      have hbefore : (portable edges).accepted.length ≤ 2 ^ 12 :=
        (accepted_grows edge).length_le.trans hshort
      have hreads := ih hbefore
      exact hreads.step _ edge (hreads.fits hbefore edge)

/-- The state between envelopes, with these words accepted so far, `retired`
EOF words of them retired at least, and envelopes of at most so many nibbles
received. -/
structure Paused (edges : List MiiRxEdge) (words : List RxWord) (full : Bool)
    (longest retired : Nat) : Prop where
  rest : (portable edges).AtRest full
  accepted : (portable edges).accepted = words
  opened : (portable edges).received.opened = []
  closed : ∀ envelope ∈ (portable edges).received.closed,
    envelope.length ≤ longest
  retired : retired ≤ (portable edges).retired

section Phases

variable {edges : List MiiRxEdge} {words : List RxWord} {full : Bool}
variable {longest retired : Nat}

theorem paused_nil : Paused [] [] false longest 0 where
  rest := atRest_start _ _ _
  accepted := rfl
  opened := rfl
  closed := by simp [portable, start]
  retired := Nat.zero_le _

/-- `clk` edges leave the write side alone. -/
theorem Paused.clk (hpaused : Paused edges words full longest retired)
    (skew : Skew) (late : Bool) :
    Paused (edges ++ [.clk skew late]) words full longest retired := by
  have hrest := hpaused.rest
  constructor
  case retired =>
    rw [portable_concat]
    exact hpaused.retired.trans (retired_le_step _)
  all_goals rw [portable_concat]
  · exact ⟨hrest.miiRxDvIob, hrest.rxNibSel, hrest.rxErLow, hrest.rxSfdSeen,
      hrest.rxDvD1, hrest.rxWrEn, hrest.rxFifoFullSeen⟩
  · exact hpaused.accepted
  · exact hpaused.opened
  · exact hpaused.closed

theorem Paused.clks (hpaused : Paused edges words full longest retired)
    (count : Nat) :
    Paused (edges ++ MiiRxBench.clks count) words full longest retired := by
  induction count with
  | zero => simpa [MiiRxBench.clks] using hpaused
  | succ count ih =>
      have hnext := ih.clk ⟨false, false⟩ false
      rwa [List.append_assoc, MiiRxBench.clks, ← List.replicate_succ'] at hnext

/-- A run of `clk` edges commits nothing. -/
theorem along_clks (bench : PortableBench 11) (count : Nat) :
    Along portableStep (CommitsFew (AsyncFifo.ports 11 .distributed)) bench
      (MiiRxBench.clks count) := by
  induction count generalizing bench with
  | zero => trivial
  | succ count ih => exact ⟨trivial, ih _⟩

theorem countP_clks (count : Nat) :
    (MiiRxBench.clks count).countP isClk = count := by
  simp [MiiRxBench.clks, List.countP_replicate, isClk]

/-- With EOF words left in the FIFO, `clk` runs until the next one is retired. -/
theorem Paused.drain (hpaused : Paused edges words full longest retired)
    (hfew : eofs words ≤ 15) (hleft : retired < eofs words) :
    Paused (edges ++ MiiRxBench.drain) words full longest (retired + 1) := by
  have hnext := hpaused.clks (drainEdges (2 ^ 11) 4)
  refine { hnext with retired := ?_ }
  rcases hpaused.retired.eq_or_lt with heq | hlt
  · obtain ⟨shown, hord⟩ := portable_ordered edges
    have hsplit := retired_add_stored (portable edges)
    rw [hpaused.accepted] at hsplit
    have hwaits := hord.waits (by omega) (replay_states_run _ _ _ edges) (by omega)
    have hless := hwaits.run MiiRxBench.drain (along_clks _ _)
      (countP_clks _).ge
    rw [← heq, ← portable_append] at hless
    exact hless
  · have hgrows : (portable edges).retired ≤
        (portable (edges ++ MiiRxBench.drain)).retired := by
      rw [portable_append]
      exact retired_le_run _ _
    exact hlt.trans_le hgrows

/-- Between envelopes the writer comes to know of the words that have been
popped. -/
theorem Paused.quiets (hpaused : Paused edges words full longest retired) :
    Paused (edges ++ [quiet, quiet]) words full longest retired ∧
      (portable (edges ++ [quiet, quiet])).popped = (portable edges).popped ∧
      (portable (edges ++ [quiet, quiet])).rx.rxFifo.WriterKnows words
        (portable edges).popped := by
  have hrest := hpaused.rest
  have hfull := hrest.rxFifoFullSeen
  have haccepted : (portable (edges ++ [quiet, quiet])).accepted = words := by
    rw [portable_append]
    simp [step, quiet, MiiIfRx.rxWrAccept, MiiIfRx.miiRxEdge,
      hrest.miiRxDvIob, hrest.rxDvD1, hrest.rxWrEn, hpaused.accepted]
  refine ⟨⟨?_, haccepted, ?_, ?_, ?_⟩, ?_, ?_⟩
  · rw [portable_append]
    constructor <;>
      simp [step, quiet, MiiIfRx.miiRxEdge, MiiIfRx.rxFullWrite,
        hrest.miiRxDvIob, hrest.rxDvD1, hrest.rxWrEn, hfull]
  · rw [portable_append]
    simp [step, quiet]
  · rw [portable_append]
    simpa [step, quiet, Envelopes.all_of_idle, hpaused.opened]
      using hpaused.closed
  · rw [portable_append]
    exact hpaused.retired.trans (retired_le_run _ _)
  · rw [portable_append]
    rfl
  · obtain ⟨shown, hord⟩ := portable_ordered edges
    obtain ⟨queue, href, hview⟩ := hord.tracks.fifo
    rw [FifoView.mk.injEq] at hview
    have hknows := href.writerKnows (by decide) (portable edges).rx.rxWrData
      (portableStep (portable edges) quiet).rx.rxWrData
    rw [← hview.1, ← hview.2.1, hpaused.accepted] at hknows
    rw [portable_append]
    simpa [step, quiet, MiiIfRx.rxWrAccept, MiiIfRx.miiRxEdge,
      AsyncFifo.ports, hrest.miiRxDvIob, hrest.rxDvD1, hrest.rxWrEn]
      using hknows

theorem received_bytesOf (bench : PortableBench 11) (bytes : Nat) :
    (runFrom portableStep bench (bytesOf bytes)).received =
      ⟨bench.received.closed, bench.received.opened ++
        List.replicate (2 * bytes) ⟨true, false, 0⟩⟩ := by
  induction bytes generalizing bench with
  | zero => simp [bytesOf]
  | succ bytes ih =>
      have hnext := ih (runFrom portableStep bench [nibble, nibble])
      rw [← runFrom_append] at hnext
      refine hnext.trans ?_
      rw [Nat.mul_succ, Nat.add_comm, List.replicate_add]
      simp [step, nibble]

theorem received_close (bench : PortableBench 11) :
    (runFrom portableStep bench [nibble, quiet, quiet, quiet]).received =
      ⟨bench.received.closed ++
        [bench.received.opened ++ [⟨true, false, 0⟩]], []⟩ := by
  simp [step, nibble, quiet, Envelopes.observe]

theorem received_envelope {bench : PortableBench 11}
    (hopened : bench.received.opened = []) (bytes : Nat) :
    (runFrom portableStep bench (envelope bytes)).received =
      ⟨bench.received.closed ++
        [List.replicate (2 * (bytes + 1)) ⟨true, false, 0⟩], []⟩ := by
  have hclose := received_close
    (runFrom portableStep (portableStep bench nibble) (bytesOf bytes))
  rw [received_bytesOf] at hclose
  have hbegun : (portableStep bench nibble).received =
      ⟨bench.received.closed, [⟨true, false, 0⟩]⟩ := by
    simp [step, nibble, hopened, Envelopes.observe]
  have hpins : [(⟨true, false, 0⟩ : MiiRxIn)] ++
      List.replicate (2 * bytes) ⟨true, false, 0⟩ ++ [⟨true, false, 0⟩] =
        List.replicate (2 * (bytes + 1)) ⟨true, false, 0⟩ := by
    rw [Nat.mul_succ, ← List.replicate_one, List.replicate_append_replicate,
      List.replicate_append_replicate]
    congr 1
    omega
  rw [hbegun] at hclose
  dsimp only at hclose
  rw [hpins] at hclose
  simp only [envelope, runFrom_append]
  exact hclose

/-- An envelope whose bytes fit comes in between the others. -/
theorem Paused.envelope (hpaused : Paused edges words full longest retired)
    {taken : Nat}
    (hknows : (portable edges).rx.rxFifo.WriterKnows words taken)
    (bytes : Nat) (refused : Bool)
    (hroom : words.length + bytes < taken + 2 ^ 11)
    (hrefused : refused = decide (words.length + bytes + 1 = taken + 2 ^ 11))
    (hlongest : 2 * (bytes + 1) ≤ longest) :
    Paused (edges ++ MiiRxBench.envelope bytes)
        (words ++ wordsOf (bytes + 1) full refused) refused longest retired ∧
      (portable (edges ++ MiiRxBench.envelope bytes)).rx.rxFifo.WriterKnows
        (words ++ wordsOf (bytes + 1) full refused) taken := by
  have hreceived := received_envelope hpaused.opened bytes
  have hknows' := hpaused.accepted.symm ▸ hknows
  obtain ⟨hrest, hknown, haccepted⟩ := hpaused.rest.feeds (by decide) hknows'
    bytes (by rwa [hpaused.accepted])
  rw [← portable_append] at hrest hknown haccepted hreceived
  rw [hpaused.accepted, ← hrefused] at hrest haccepted
  rw [haccepted] at hknown
  refine ⟨⟨hrest, haccepted, by rw [hreceived], ?_, ?_⟩, hknown⟩
  · rw [hreceived]
    intro envelope henvelope
    rcases List.mem_append.mp henvelope with hold | hnew
    · exact hpaused.closed envelope hold
    · rw [List.mem_singleton.mp hnew, List.length_replicate]
      exact hlongest
  · rw [portable_append]
    exact hpaused.retired.trans (retired_le_run _ _)

/-- With more EOF words retired than lie before a word, the word is popped. -/
theorem Paused.popped_gt (hpaused : Paused edges words full longest retired)
    (front rest : List RxWord) (hwords : words = front ++ rest)
    (hretired : eofs front < retired) :
    front.length < (portable edges).popped := by
  by_contra hle
  have hmost := hpaused.retired
  rw [MiiRxBench.retired, hpaused.accepted, hwords,
    List.take_append_of_le_length (not_lt.mp hle)] at hmost
  have hfront : eofs (front.take (portable edges).popped) ≤ eofs front :=
    (List.take_sublist _ _).countP_le
  omega

theorem eofs_wordsOf_accepted (bytes : Nat) (full : Bool) :
    eofs (wordsOf bytes full false) = 1 := by
  simp [wordsOf, eofs, List.countP_replicate]

theorem framesOf_append_replicate (words : List RxWord) (bytes : Nat)
    (full : Bool) :
    framesOf (words ++ List.replicate bytes ⟨false, full, 0⟩) =
      ⟨(framesOf words).past,
        (framesOf words).part ++ List.replicate bytes (0, full)⟩ := by
  induction bytes with
  | zero => simp
  | succ bytes ih =>
      rw [List.replicate_succ', ← List.append_assoc, framesOf_concat, ih,
        RxFrames.add_byte _ rfl, List.replicate_succ', ← List.append_assoc]

theorem framesOf_append_wordsOf (words : List RxWord) (bytes : Nat)
    (full : Bool) :
    framesOf (words ++ wordsOf bytes full false) =
      ⟨(framesOf words).past ++
        [((framesOf words).part ++ List.replicate bytes (0, full), full)],
        []⟩ := by
  rw [wordsOf, if_neg Bool.false_ne_true, ← List.append_assoc, framesOf_concat,
    framesOf_append_replicate, RxFrames.add_eof _ rfl]

/-- A frame of one byte, then one whose bytes fill the FIFO, and with the first
one retired two more of one byte. -/
def joinRun (bytes : Nat) : List MiiRxEdge :=
  MiiRxBench.envelope 0 ++ MiiRxBench.envelope bytes ++ MiiRxBench.drain ++
    [quiet, quiet] ++ MiiRxBench.envelope 0 ++ MiiRxBench.drain ++
    [quiet, quiet] ++ MiiRxBench.envelope 0 ++ MiiRxBench.drain

def joinWords (bytes : Nat) : List RxWord :=
  wordsOf 1 false false ++ wordsOf (bytes + 1) false true ++
    wordsOf 1 true false ++ wordsOf 1 false false

theorem joinRun_paused {bytes : Nat} (hfill : bytes + 3 = 2 ^ 11) :
    Paused (joinRun bytes) (joinWords bytes) false (2 * (bytes + 1)) 3 := by
  have hone : ∀ full, (wordsOf 1 full false).length = 2 := fun _ => rfl
  have hlong := length_wordsOf (bytes + 1) false
  have heofs := eofs_wordsOf_accepted 1
  have hnone := eofs_wordsOf (bytes + 1) false
  have hbyte : ∀ full, wordsOf 1 full false =
      [⟨false, full, 0⟩] ++ [⟨true, full, 0⟩] := fun _ => rfl
  have hnil : Paused [] [] false (2 * (bytes + 1)) 0 := paused_nil
  have hknows : (portable []).rx.rxFifo.WriterKnows [] 0 := knows_start _ _ _ _
  -- the second frame fills the FIFO, and its EOF word is refused
  obtain ⟨hpaused, hknows⟩ := hnil.envelope hknows 0 false (by simp) (by simp)
    (by omega)
  obtain ⟨hpaused, -⟩ := hpaused.envelope hknows bytes true
    (by simp [hone]; omega) (by simp [hone]; omega) le_rfl
  have hpaused := hpaused.drain (by simp [heofs, hnone])
    (by simp [heofs, hnone])
  -- the first frame is gone: there is room for the third
  have hpopped := hpaused.popped_gt [⟨false, false, 0⟩]
    ([⟨true, false, 0⟩] ++ wordsOf (bytes + 1) false true) rfl (by decide)
  obtain ⟨hpaused, -, hknows⟩ := hpaused.quiets
  obtain ⟨hpaused, -⟩ := hpaused.envelope hknows 0 false
    (by simp [hone, hlong] at hpopped ⊢; omega)
    (by simp [hone, hlong] at hpopped ⊢; omega) (by omega)
  have hpaused := hpaused.drain (by simp [heofs, hnone])
    (by simp [heofs, hnone])
  have hpopped := hpaused.popped_gt
    (wordsOf 1 false false ++ wordsOf (bytes + 1) false true ++
      [⟨false, true, 0⟩]) [⟨true, true, 0⟩] (by simp [hbyte])
    (by simp [heofs, hnone])
  obtain ⟨hpaused, -, hknows⟩ := hpaused.quiets
  obtain ⟨hpaused, -⟩ := hpaused.envelope hknows 0 false
    (by simp [hone, hlong] at hpopped ⊢; omega)
    (by simp [hone, hlong] at hpopped ⊢; omega) (by omega)
  exact hpaused.drain (by simp [heofs, hnone]) (by simp [heofs, hnone])

theorem framesOf_joinWords (bytes : Nat) :
    framesOf (joinWords bytes) =
      ⟨[([(0, false)], false),
        (List.replicate (bytes + 1) (0, false) ++ [(0, true)], true),
        ([(0, false)], false)], []⟩ := by
  have hfirst : framesOf (wordsOf 1 false false) =
      ⟨[([(0, false)], false)], []⟩ := rfl
  have hrefused : wordsOf (bytes + 1) false true =
      List.replicate (bytes + 1) ⟨false, false, 0⟩ := by simp [wordsOf]
  rw [joinWords, framesOf_append_wordsOf, framesOf_append_wordsOf, hrefused,
    framesOf_append_replicate, hfirst]
  rfl

/-- The bytes of the second frame come out with the one of the third. -/
theorem joinRun_delivered {bytes : Nat} (hfill : bytes + 3 = 2 ^ 11) :
    List.replicate (bytes + 1) (0, false) ++ [(0, true)] ∈
      (portable (joinRun bytes)).delivered.closed := by
  have hpaused := joinRun_paused hfill
  have hone : ∀ full, (wordsOf 1 full false).length = 2 := fun _ => rfl
  have hlong := length_wordsOf (bytes + 1) false
  have hlength : (joinWords bytes).length = bytes + 7 := by
    simp [joinWords, hone, hlong]
    omega
  have hreads := @portable_reads (joinRun bytes)
    (by rw [hpaused.accepted, hlength]; omega)
  have hlast := hpaused.popped_gt
    (wordsOf 1 false false ++ wordsOf (bytes + 1) false true ++
      wordsOf 1 true false ++ [⟨false, false, 0⟩]) [⟨true, false, 0⟩]
    (by simp [joinWords, wordsOf])
    (by simp [eofs_wordsOf_accepted, eofs_wordsOf])
  have htaken : (joinWords bytes).length ≤ (portable (joinRun bytes)).taken := by
    rw [taken, hlength]
    simp [hone, hlong] at hlast
    omega
  have hreplayed := hreads.replaying.replayed
  rw [hpaused.accepted, List.take_of_length_le htaken] at hreplayed
  rw [framesOf_joinWords] at hreplayed
  refine hreplayed.mem ?_
  simp [RxFrames.replays, replay, shown, flagLast]

end Phases

end MiiRxBench

end EmacZero
