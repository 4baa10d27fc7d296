/-
`mii_tx_saf` in every run: both buffers follow their ports, the framer is at a
whole frame of one of them, and so the FIFOs never fill up with words of frames
that are not committed, and the frame counters never meet a turn apart.
-/
import Mathlib.Data.List.DropRight
import EmacZero.MiiTxSafBench

namespace EmacZero

namespace MiiTxBench

variable {maxFrame addrWidth : Nat} {bench : MiiTxBench addrWidth}

/-- The settings that the module is meant for. -/
structure Sized (maxFrame addrWidth : Nat) : Prop where
  pos : 1 ≤ maxFrame
  counted : maxFrame ≤ 16383
  fits : maxFrame < 2 ^ addrWidth

theorem Sized.depth (hsized : Sized maxFrame addrWidth) : 1 < 2 ^ addrWidth :=
  hsized.pos.trans_lt hsized.fits

theorem Sized.addr (hsized : Sized maxFrame addrWidth) : 1 ≤ addrWidth := by
  by_contra hzero
  have hdepth := hsized.depth
  rw [Nat.lt_one_iff.mp (Nat.lt_of_not_le hzero)] at hdepth
  exact absurd hdepth (by decide)

/-- The transmitter and its monitors, told from the queues of the two ports. -/
structure Holds (maxFrame : Nat) (bench : MiiTxBench addrWidth)
    (dat : PacketQueue MiiTxWord (2 ^ addrWidth) RamStyle.distributed.staged)
    (ctl : PacketQueue MiiTxWord (2 ^ 6) RamStyle.distributed.staged) : Prop where
  datBuffer :
    Buffers bench.tx.dat dat (bench.dat.cut maxFrame) bench.datSeen bench.datDone
  ctlBuffer : Buffers bench.tx.ctl ctl bench.ctl bench.ctlSeen bench.ctlDone
  cutting : Cutting maxFrame bench.tx bench.dat
  ctlFits : ∀ frame ∈ ctl.frames, frame.length ≤ 2 ^ 6
  rdEn : bench.tx.st = .idle → bench.tx.rdEn = false
  datServes : Serves bench.tx.toMiiTxFramer dat bench.datDone (!bench.tx.srcCtl)
  ctlServes : Serves bench.tx.toMiiTxFramer ctl bench.ctlDone bench.tx.srcCtl

theorem holds_start (hsized : Sized maxFrame addrWidth)
    (datMem : BitVec addrWidth → MiiTxWord) (ctlMem : BitVec 6 → MiiTxWord)
    (headQ : MiiTxWord) :
    Holds maxFrame (start datMem ctlMem headQ : MiiTxBench addrWidth) .empty .empty where
  datBuffer := by
    have hlog : (start datMem ctlMem headQ : MiiTxBench addrWidth).dat.cut maxFrame =
        .empty := FrameLog.cut_empty hsized.pos
    rw [hlog]
    exact buffers_reset datMem headQ
  ctlBuffer := buffers_reset ctlMem headQ
  cutting := cutting_start hsized.pos datMem ctlMem headQ
  ctlFits := fun _ hframe => absurd hframe List.not_mem_nil
  rdEn := fun _ => rfl
  datServes := .waiting PacketQueue.readTo_empty (Or.inl rfl)
  ctlServes := .waiting PacketQueue.readTo_empty (Or.inl rfl)

section Steps

variable {dat : PacketQueue MiiTxWord (2 ^ addrWidth) RamStyle.distributed.staged}
variable {ctl : PacketQueue MiiTxWord (2 ^ 6) RamStyle.distributed.staged}

theorem wrAccept_and (tx : MiiTxSaf addrWidth) (i : MiiTxIn) :
    (tx.wrAccept i && !tx.dat.wrFull) = tx.wrAccept i := by
  rw [MiiTxSaf.wrAccept]
  cases i.sAxisTvalid <;> cases tx.dat.wrFull <;> simp

theorem ctlWrAccept_and (tx : MiiTxSaf addrWidth) (i : MiiTxIn) :
    (tx.ctlWrAccept i && !tx.ctl.wrFull) = tx.ctlWrAccept i := by
  rw [MiiTxSaf.ctlWrAccept]
  cases i.ctlAxisTvalid <;> cases tx.ctl.wrFull <;> simp

/-- Frames that are committed with all their words in the store are no longer
than the store. -/
theorem frames_fit {depth retired taken : Nat}
    {queue : PacketQueue MiiTxWord depth RamStyle.distributed.staged}
    (hread : queue.ReadTo retired taken)
    (hfits : ∀ frame ∈ queue.frames, frame.length ≤ depth)
    (offer last : Bool) (word : MiiTxWord) (skew : Skew) :
    ∀ frame ∈ (queue.wrEdge offer word last skew).frames, frame.length ≤ depth := by
  have hroom := (queue.queue.wrEdge offer word skew).length_le_popped
  have hpopped := hread.popped_le
  have hwords := queue.words_eq
  intro frame hframe
  rw [PacketQueue.wrEdge_frames] at hframe
  split at hframe
  · rename_i haccept
    rw [Bool.and_eq_true, PacketQueue.accepts_iff] at haccept
    rcases List.mem_append.mp hframe with hold | hnew
    · exact hfits frame hold
    · rw [List.mem_singleton.mp hnew, List.length_append]
      rw [CrossingQueue.wrEdge_words, if_pos haccept.1, hwords,
        CrossingQueue.wrEdge_popped] at hroom
      simp only [List.length_append, RamStyle.staged, Bool.toNat_false] at hroom
      omega
  · exact hfits frame hframe

theorem Holds.datFits (hsized : Sized maxFrame addrWidth)
    (hholds : Holds maxFrame bench dat ctl) :
    ∀ frame ∈ dat.frames, frame.length ≤ 16383 := by
  intro frame hframe
  have hmem := List.mem_map_of_mem (f := MiiTxWord.bytes) hframe
  rw [hholds.datBuffer.whole] at hmem
  have hle := FrameLog.length_cut_le bench.dat _ hmem
  rw [MiiTxFramer.length_bytes] at hle
  exact hle.trans hsized.counted

theorem Holds.clkEdge (hsized : Sized maxFrame addrWidth)
    (hholds : Holds maxFrame bench dat ctl) (i : MiiTxIn) (datSkew ctlSkew : Skew) :
    ∃ dat' ctl', Holds maxFrame (bench.clkEdge maxFrame i datSkew ctlSkew) dat' ctl' := by
  have hcut := hholds.cutting.cut_next hsized.pos hsized.counted i
  have hdat := hholds.datBuffer.wrEdge hsized.addr (bench.tx.wrAccept i)
    (bench.tx.effLast maxFrame i) i.sAxisTdata datSkew
  have hctl := hholds.ctlBuffer.wrEdge (by decide) (bench.tx.ctlWrAccept i)
    i.ctlAxisTlast i.ctlAxisTdata ctlSkew
  rw [wrAccept_and] at hdat
  rw [ctlWrAccept_and] at hctl
  obtain ⟨taken, hread⟩ := hholds.ctlServes.readTo
  rw [← hcut] at hdat
  refine ⟨_, _, hdat, hctl, ?_, ?_, hholds.rdEn, hholds.datServes.wrEdge _ _ _ datSkew,
    hholds.ctlServes.wrEdge _ _ _ ctlSkew⟩
  · exact hholds.cutting.clkEdge hsized.pos hsized.counted i datSkew ctlSkew
  · exact frames_fit hread hholds.ctlFits _ _ _ _

/-- The framer starts a frame only where the counters show one. -/
theorem Holds.pick (hsized : Sized maxFrame addrWidth)
    (hholds : Holds maxFrame bench dat ctl) (hst : bench.tx.st = .idle)
    (caught : MiiTxCatch) (hstart : (bench.tx.miiTxEdge caught).st ≠ .idle) :
    ((bench.tx.miiTxEdge caught).srcCtl = true → bench.ctlDone < ctl.seen3) ∧
      ((bench.tx.miiTxEdge caught).srcCtl = false → bench.datDone < dat.seen3) := by
  obtain ⟨_, hdatRead⟩ := hholds.datServes.readTo
  obtain ⟨_, hctlRead⟩ := hholds.ctlServes.readTo
  have hnext : (bench.tx.miiTxEdge caught).toMiiTxFramer =
      bench.tx.idleEdge bench.tx.ctlReady bench.tx.datReady := MiiTxFramer.edge_idle hst
  rw [hnext, MiiTxFramer.idleEdge] at hstart ⊢
  split
  · rename_i hready
    constructor
    · intro hctl
      have hctl : bench.tx.ctlReady = true := hctl
      rw [MiiTxSaf.ctlReady, Bool.and_eq_true] at hctl
      exact (hholds.ctlBuffer.follows.pending_iff (by decide) hctlRead).mp hctl.1
    · intro hctl
      have hctl : bench.tx.ctlReady = false := hctl
      rw [hctl, Bool.false_or, MiiTxSaf.datReady, Bool.and_eq_true, Bool.and_eq_true]
        at hready
      exact (hholds.datBuffer.follows.pending_iff
        (show RamStyle.distributed.staged.toNat + 1 < 2 ^ addrWidth from hsized.depth)
        hdatRead).mp hready.1.1
  · rename_i hready
    rw [if_neg hready] at hstart
    exact absurd hst hstart

theorem Holds.miiEdge (hsized : Sized maxFrame addrWidth)
    (hholds : Holds maxFrame bench dat ctl) (caught : MiiTxCatch) :
    Holds maxFrame (bench.miiEdge caught)
      (dat.rdEdge bench.tx.datRdEn caught.datSkew caught.datLate)
      (ctl.rdEdge bench.tx.ctlRdEn caught.ctlSkew caught.ctlLate) := by
  have hdatFits := hholds.datFits hsized
  have hctlFits : ∀ frame ∈ ctl.frames, frame.length ≤ 16383 := fun frame hframe =>
    (hholds.ctlFits frame hframe).trans (by decide)
  have hdatWord : (!bench.tx.srcCtl) = true → bench.tx.rdData = bench.tx.dat.rdData := by
    intro hsrc
    rw [Bool.not_eq_true'] at hsrc
    rw [MiiTxSaf.rdData, hsrc, if_neg Bool.false_ne_true]
  have hctlWord : bench.tx.srcCtl = true → bench.tx.rdData = bench.tx.ctl.rdData := by
    intro hsrc
    rw [MiiTxSaf.rdData, hsrc, if_pos rfl]
  have hcutting := hholds.cutting
  refine ⟨hholds.datBuffer.rdEdge _ _ _ _, hholds.ctlBuffer.rdEdge _ _ _ _,
    ⟨hcutting.dropping, hcutting.frameBytes, hcutting.short⟩, hholds.ctlFits,
    MiiTxFramer.edge_rdEn, ?_, ?_⟩
  · by_cases hst : bench.tx.st = .idle
    · exact hholds.datServes.rdEdge_idle hst (hholds.rdEn hst)
        (fun hstart hsrc => (hholds.pick hsized hst caught hstart).2
          ((Bool.not_eq_true' _).mp hsrc)) caught.datSkew caught.datLate
    · have hsrc : (bench.miiEdge caught).tx.srcCtl = bench.tx.srcCtl :=
        MiiTxFramer.edge_srcCtl hst
      rw [hsrc]
      exact hholds.datServes.rdEdge_busy hholds.datBuffer.follows
        hholds.datBuffer.marked hdatFits hst hdatWord caught.datSkew caught.datLate
  · by_cases hst : bench.tx.st = .idle
    · exact hholds.ctlServes.rdEdge_idle hst (hholds.rdEn hst)
        (fun hstart hsrc => (hholds.pick hsized hst caught hstart).1 hsrc)
        caught.ctlSkew caught.ctlLate
    · have hsrc : (bench.miiEdge caught).tx.srcCtl = bench.tx.srcCtl :=
        MiiTxFramer.edge_srcCtl hst
      rw [hsrc]
      exact hholds.ctlServes.rdEdge_busy hholds.ctlBuffer.follows
        hholds.ctlBuffer.marked hctlFits hst hctlWord caught.ctlSkew caught.ctlLate

theorem holds_step (hsized : Sized maxFrame addrWidth) (bench : MiiTxBench addrWidth)
    (edge : MiiTxEdge) (hholds : ∃ dat ctl, Holds maxFrame bench dat ctl) :
    ∃ dat ctl, Holds maxFrame (bench.step maxFrame edge) dat ctl := by
  obtain ⟨dat, ctl, hholds⟩ := hholds
  cases edge with
  | clk i datSkew ctlSkew => exact hholds.clkEdge hsized i datSkew ctlSkew
  | mii caught => exact ⟨_, _, hholds.miiEdge hsized caught⟩

end Steps

/-- The words behind the last one that ends a frame. -/
def uncommitted (stored : List MiiTxWord) : List MiiTxWord :=
  stored.rtakeWhile fun word => !word.last

/-- A buffer that takes frames of at most `bound` bytes, with the counts of the
frames committed to it and of those sent. -/
structure Unwedged (fifo : PacketFifo MiiTxWord addrWidth .distributed) (bound : Nat)
    (seen : SeenCount) (retired : Nat) : Prop where
  uncommitted : (uncommitted fifo.fifo.stored).length < bound
  full : fifo.fifo.occupancy = 2 ^ addrWidth → ∃ word ∈ fifo.fifo.stored, word.last = true
  written : fifo.count.wrCountBin = BitVec.ofNat (addrWidth + 1) seen.committed.now
  read : fifo.count.rdCountBin = BitVec.ofNat (addrWidth + 1) retired
  counts : retired ≤ seen.committed.now ∧
    seen.committed.now < retired + 2 ^ (addrWidth + 1)
  pending : fifo.pending = false → retired = seen.seen3

section Unwedged

/-- The words of whole frames end with the last word of one. -/
theorem last_of_flatten {frames : List (List MiiTxWord)}
    (hmarked : ∀ frame ∈ frames, Marked frame) (hne : ∀ frame ∈ frames, frame ≠ [])
    {front : List MiiTxWord} {word : MiiTxWord}
    (hflat : frames.flatten = front ++ [word]) : word.last = true := by
  rcases List.eq_nil_or_concat frames with rfl | ⟨init, frame, rfl⟩
  · simp at hflat
  · have hmem : frame ∈ init.concat frame := by simp
    rcases List.eq_nil_or_concat frame with rfl | ⟨body, final, rfl⟩
    · exact absurd rfl (hne _ hmem)
    · have hword : word = final := by
        simp only [List.concat_eq_append, List.flatten_append, List.flatten_singleton,
          ← List.append_assoc] at hflat
        exact (List.singleton_inj.mp (List.append_inj' hflat rfl).2).symm
      rw [hword]
      have hlast := hmarked _ hmem body.length final (by simp)
      exact hlast.mpr (by simp)

theorem uncommitted_append {front opened : List MiiTxWord}
    (hopened : ∀ word ∈ opened, word.last = false)
    (hfront : ∀ init word, front = init ++ [word] → word.last = true) :
    uncommitted (front ++ opened) = opened := by
  have hall : ∀ word ∈ opened.reverse, (!word.last) = true := fun word hword => by
    rw [hopened word (List.mem_reverse.mp hword)]
    rfl
  rw [uncommitted, List.rtakeWhile, List.reverse_append,
    List.takeWhile_append_of_pos hall]
  rcases List.eq_nil_or_concat front with rfl | ⟨init, word, rfl⟩
  · simp
  · have hlast := hfront init word (List.concat_eq_append)
    simp [hlast]

theorem unwedged_of_buffers {fifo : PacketFifo MiiTxWord addrWidth .distributed}
    {queue : PacketQueue MiiTxWord (2 ^ addrWidth) RamStyle.distributed.staged}
    {log : FrameLog (BitVec 8)} {seen : SeenCount} {retired taken bound : Nat}
    (hbuffers : Buffers fifo queue log seen retired)
    (hread : queue.ReadTo retired taken) (hpart : log.part.length < bound)
    (hbound : bound ≤ 2 ^ addrWidth) (hdepth : 1 < 2 ^ addrWidth) :
    Unwedged fifo bound seen retired := by
  have hpopped := hread.popped_le
  have hkept : queue.queue.popped = queue.queue.taken.source.now :=
    le_antisymm queue.queue.popped_le queue.queue.held_le
  have hstored : fifo.fifo.stored =
      queue.frames.flatten.drop queue.queue.popped ++ queue.opened := by
    rw [hbuffers.follows.fifo.stored_eq, ← hkept, queue.words_eq,
      List.drop_append_of_le_length hpopped]
  have hfront : ∀ init word,
      queue.frames.flatten.drop queue.queue.popped = init ++ [word] →
        word.last = true := by
    intro init word hdrop
    have hsplit := List.take_append_drop queue.queue.popped queue.frames.flatten
    rw [hdrop, ← List.append_assoc] at hsplit
    exact last_of_flatten hbuffers.marked queue.frames_ne hsplit.symm
  have hopened : queue.opened.length < bound := by
    rw [← MiiTxFramer.length_bytes, hbuffers.part]
    exact hpart
  have hseen3 := queue.seen3_le_frames
  have hcommitted := queue.committed_eq
  have hdepth' : RamStyle.distributed.staged.toNat + 1 < 2 ^ addrWidth := hdepth
  have hcounts := hbuffers.follows.count
  rw [hbuffers.seen]
  refine ⟨?_, ?_, hcounts.wrCountBin, hcounts.rdCountBin, ⟨?_, ?_⟩, ?_⟩
  · rw [hstored, uncommitted_append hbuffers.unmarked hfront]
    exact hopened
  · intro hfull
    have hlength : fifo.fifo.stored.length = 2 ^ addrWidth := by
      rw [← hfull, AsyncFifo.stored, List.length_map, List.length_range]
    rw [hstored, List.length_append] at hlength
    rcases List.eq_nil_or_concat (queue.frames.flatten.drop queue.queue.popped) with
      hnil | ⟨init, word, hconcat⟩
    · rw [hnil, List.length_nil] at hlength
      omega
    · rw [List.concat_eq_append] at hconcat
      refine ⟨word, ?_, hfront init word hconcat⟩
      rw [hstored, hconcat]
      simp
  · rw [hcommitted]
    exact hread.retired_le.trans hseen3
  · rw [hcommitted]
    exact PacketFifo.length_lt_turn hdepth' hread
  · intro hpending
    have hnot : ¬ retired < queue.seen3 := fun hlt => by
      rw [(hbuffers.follows.pending_iff hdepth' hread).mpr hlt] at hpending
      cases hpending
    exact le_antisymm hread.retired_le (not_lt.mp hnot)

end Unwedged

/-- A control frame has at most 64 bytes. -/
def CtlFits (bench : MiiTxBench addrWidth) : MiiTxEdge → Prop
  | .clk i _ _ =>
      (i.ctlAxisTvalid && bench.tx.ctlAxisTready && !i.ctlAxisTlast) = true →
        bench.ctl.part.length + 1 < 64
  | .mii _ => True

instance (bench : MiiTxBench addrWidth) (edge : MiiTxEdge) :
    Decidable (bench.CtlFits edge) := by
  cases edge <;> unfold CtlFits <;> infer_instance

theorem ctl_short_step (bench : MiiTxBench addrWidth) (edge : MiiTxEdge)
    (hfits : bench.CtlFits edge) (hshort : bench.ctl.part.length < 64) :
    (bench.step maxFrame edge).ctl.part.length < 64 := by
  cases edge with
  | mii caught => exact hshort
  | clk i datSkew ctlSkew =>
      simp only [step, clkEdge]
      split
      · rename_i htaken
        cases hlast : i.ctlAxisTlast with
        | true => exact Nat.zero_lt_succ 63
        | false =>
            have hnext := hfits (by rw [htaken, hlast]; rfl)
            simpa [FrameLog.add] using hnext
      · exact hshort

/-- The FIFO of data frames never fills up with bytes of a frame that is not
committed, however long the source goes on without `tlast`, and its counters
tell whether a frame is left; so with the control frames, if none is longer than
their FIFO. -/
theorem unwedged_run (hsized : Sized maxFrame addrWidth)
    (datMem : BitVec addrWidth → MiiTxWord) (ctlMem : BitVec 6 → MiiTxWord)
    (headQ : MiiTxWord) (edges : List MiiTxEdge) :
    let bench := runFrom (step maxFrame) (start datMem ctlMem headQ) edges
    Unwedged bench.tx.dat maxFrame bench.datSeen bench.datDone ∧
      (Along (step maxFrame) CtlFits (start datMem ctlMem headQ) edges →
        Unwedged bench.tx.ctl 64 bench.ctlSeen bench.ctlDone) := by
  intro bench
  have hrun : ∃ dat ctl, Holds maxFrame bench dat ctl :=
    invariant_runFrom (holds_step hsized)
      ⟨_, _, holds_start hsized datMem ctlMem headQ⟩ edges
  obtain ⟨dat, ctl, hholds⟩ := hrun
  obtain ⟨_, hdatRead⟩ := hholds.datServes.readTo
  obtain ⟨_, hctlRead⟩ := hholds.ctlServes.readTo
  refine ⟨unwedged_of_buffers hholds.datBuffer hdatRead hholds.cutting.short
    hsized.fits.le hsized.depth, fun hfits => ?_⟩
  have hinv : ∀ (bench : MiiTxBench addrWidth) (edge : MiiTxEdge), CtlFits bench edge →
      bench.ctl.part.length < 64 →
        (bench.step maxFrame edge).ctl.part.length < 64 :=
    ctl_short_step
  have hstart : (start datMem ctlMem headQ : MiiTxBench addrWidth).ctl.part.length < 64 :=
    Nat.zero_lt_succ 63
  have hshort : bench.ctl.part.length < 64 := invariant_along hinv hstart hfits
  exact unwedged_of_buffers hholds.ctlBuffer hctlRead hshort le_rfl (by decide)

/-- A source that never ends its frame, behind a control frame of two bytes. -/
def endless : List MiiTxEdge :=
  [.clk ⟨1, true, false, 7, true, false⟩ ⟨false, false⟩ ⟨false, false⟩,
    .clk ⟨2, true, false, 8, true, true⟩ ⟨false, false⟩ ⟨false, false⟩] ++
  List.replicate 9 (.clk ⟨3, true, false, 0, false, false⟩ ⟨false, false⟩ ⟨false, false⟩) ++
  List.replicate 6 (.mii ⟨true, ⟨false, false⟩, false, ⟨false, false⟩, false⟩)

theorem unwedged_run_endless :
    let start : MiiTxBench 3 := start (fun _ => ⟨false, 0⟩) (fun _ => ⟨false, 0⟩) ⟨false, 0⟩
    let bench := runFrom (step 4) start endless
    Unwedged bench.tx.dat 4 bench.datSeen bench.datDone ∧
      Unwedged bench.tx.ctl 64 bench.ctlSeen bench.ctlDone := by
  have hrun := unwedged_run (⟨by decide, by decide, by decide⟩ : Sized 4 3)
    (fun _ => ⟨false, 0⟩) (fun _ => ⟨false, 0⟩) ⟨false, 0⟩ endless
  exact ⟨hrun.1, hrun.2 (by decide +kernel)⟩

end MiiTxBench

end EmacZero
