/-
`mii_tx_saf` under its monitors: the frames handed over at its two ports, what
its counters have counted, and the nibbles on the wire.  Each of its buffers
holds the frames of its port, the data frames cut at `MAX_FRAME`.
-/
import EmacZero.ClockedRun
import EmacZero.FrameLog
import EmacZero.MiiTxFrames

namespace EmacZero

/-- A rising edge of `clk` or of `mii_tx_clk`. -/
inductive MiiTxEdge where
  | clk (i : MiiTxIn) (datSkew ctlSkew : Skew)
  | mii (caught : MiiTxCatch)
deriving Repr, DecidableEq

/-- The transmitter; the frames handed over; how far their counts have come
through, and how many have been sent; the source of each frame started, `true`
for control; and the wire. -/
structure MiiTxBench (addrWidth : Nat) where
  tx : MiiTxSaf addrWidth
  dat : FrameLog (BitVec 8)
  ctl : FrameLog (BitVec 8)
  datSeen : SeenCount
  ctlSeen : SeenCount
  datDone : Nat
  ctlDone : Nat
  started : List Bool
  wire : Spaced (BitVec 4)

namespace MiiTxBench

variable {maxFrame addrWidth : Nat}

def start (datMem : BitVec addrWidth → MiiTxWord) (ctlMem : BitVec 6 → MiiTxWord)
    (headQ : MiiTxWord) : MiiTxBench addrWidth where
  tx := .reset datMem ctlMem headQ
  dat := .empty
  ctl := .empty
  datSeen := .zero
  ctlSeen := .zero
  datDone := 0
  ctlDone := 0
  started := []
  wire := .unseen

def clkEdge (maxFrame : Nat) (bench : MiiTxBench addrWidth) (i : MiiTxIn)
    (datSkew ctlSkew : Skew) : MiiTxBench addrWidth :=
  { bench with
    tx := bench.tx.clkEdge maxFrame i datSkew ctlSkew
    dat :=
      if i.sAxisTvalid && bench.tx.sAxisTready then
        bench.dat.add i.sAxisTdata i.sAxisTlast
      else bench.dat
    ctl :=
      if i.ctlAxisTvalid && bench.tx.ctlAxisTready then
        bench.ctl.add i.ctlAxisTdata i.ctlAxisTlast
      else bench.ctl
    datSeen :=
      if bench.tx.wrAccept i && bench.tx.effLast maxFrame i then
        bench.datSeen.advance
      else bench.datSeen
    ctlSeen :=
      if bench.tx.ctlWrAccept i && i.ctlAxisTlast then bench.ctlSeen.advance
      else bench.ctlSeen }

def miiEdge (bench : MiiTxBench addrWidth) (caught : MiiTxCatch) :
    MiiTxBench addrWidth :=
  { bench with
    tx := bench.tx.miiTxEdge caught
    datSeen := bench.datSeen.clock caught.datLate
    ctlSeen := bench.ctlSeen.clock caught.ctlLate
    datDone := bench.datDone + (bench.tx.done && !bench.tx.srcCtl).toNat
    ctlDone := bench.ctlDone + (bench.tx.done && bench.tx.srcCtl).toNat
    started :=
      if bench.tx.st = .idle ∧ (bench.tx.miiTxEdge caught).st ≠ .idle then
        bench.started ++ [(bench.tx.miiTxEdge caught).srcCtl]
      else bench.started
    wire := bench.wire.observe bench.tx.miiOut }

def step (maxFrame : Nat) (bench : MiiTxBench addrWidth) :
    MiiTxEdge → MiiTxBench addrWidth
  | .clk i datSkew ctlSkew => bench.clkEdge maxFrame i datSkew ctlSkew
  | .mii caught => bench.miiEdge caught

end MiiTxBench

/-- A buffer of `mii_tx_saf` with a queue that it follows, and the frames of
that queue. -/
structure Buffers {addrWidth : Nat}
    (fifo : PacketFifo MiiTxWord addrWidth .distributed)
    (queue : PacketQueue MiiTxWord (2 ^ addrWidth) RamStyle.distributed.staged)
    (log : FrameLog (BitVec 8)) (seen : SeenCount) (retired : Nat) : Prop where
  follows : fifo.Follows queue retired
  seen : seen = queue.toSeenCount
  whole : queue.frames.map MiiTxWord.bytes = log.whole
  part : MiiTxWord.bytes queue.opened = log.part
  marked : ∀ frame ∈ queue.frames, Marked frame
  unmarked : ∀ word ∈ queue.opened, word.last = false

/-- What the framer does about one of the buffers: nothing while it is idle or
at a frame of the other one. -/
inductive Serves {depth : Nat} {staged : Bool} (framer : MiiTxFramer)
    (queue : PacketQueue MiiTxWord depth staged) (retired : Nat) (chosen : Bool) :
    Prop
  | waiting (hread : queue.ReadTo retired 0)
      (hother : framer.st = .idle ∨ chosen = false) :
      Serves framer queue retired chosen
  | sending {frame : List MiiTxWord} {taken : Nat} (hchosen : chosen = true)
      (hready : queue.Ready retired) (hframe : queue.frames[retired]? = some frame)
      (hsending : framer.Sending frame taken) (hread : queue.ReadTo retired taken) :
      Serves framer queue retired chosen

section Buffers

variable {addrWidth retired : Nat}
variable {fifo : PacketFifo MiiTxWord addrWidth .distributed}
variable {queue : PacketQueue MiiTxWord (2 ^ addrWidth) RamStyle.distributed.staged}
variable {log : FrameLog (BitVec 8)} {seen : SeenCount}

theorem buffers_reset (mem : BitVec addrWidth → MiiTxWord) (headQ : MiiTxWord) :
    Buffers (.reset mem headQ) .empty .empty .zero 0 where
  follows := PacketFifo.follows_reset mem headQ
  seen := rfl
  whole := rfl
  part := rfl
  marked := fun _ hframe => absurd hframe List.not_mem_nil
  unmarked := fun _ hword => absurd hword List.not_mem_nil

/-- The word that ends a frame is the only one marked. -/
theorem marked_concat {words : List MiiTxWord}
    (hwords : ∀ word ∈ words, word.last = false) (data : BitVec 8) :
    Marked (words ++ [⟨true, data⟩]) := by
  intro index word hword
  rw [List.length_append, List.length_singleton]
  rcases Nat.lt_or_ge index words.length with hlt | hge
  · rw [List.getElem?_append_left hlt] at hword
    have hfalse := hwords word (List.mem_of_getElem? hword)
    simp only [hfalse, Bool.false_eq_true, false_iff]
    omega
  · rw [List.getElem?_append_right hge, List.getElem?_singleton] at hword
    split at hword
    · rename_i hzero
      rw [← Option.some.inj hword]
      simp only [true_iff]
      omega
    · cases hword

theorem Buffers.wrEdge (haddr : 1 ≤ addrWidth)
    (hbuffers : Buffers fifo queue log seen retired) (wrEn last : Bool)
    (data : BitVec 8) (skew : Skew) :
    Buffers (fifo.wrEdge wrEn ⟨last, data⟩ last skew)
      (queue.wrEdge wrEn ⟨last, data⟩ last skew)
      (if wrEn && !fifo.wrFull then log.add data last else log)
      (if wrEn && !fifo.wrFull && last then seen.advance else seen) retired := by
  obtain ⟨hfollows, hseen, hwhole, hpart, hmarked, hunmarked⟩ := hbuffers
  have hnext := hfollows.wrEdge haddr wrEn ⟨last, data⟩ last skew
  rw [hfollows.accepts_eq haddr]
  cases haccept : queue.accepts wrEn with
  | false =>
      have hframes : (queue.wrEdge wrEn ⟨last, data⟩ last skew).frames =
          queue.frames := by
        simp [PacketQueue.wrEdge_frames, haccept]
      have hopened : (queue.wrEdge wrEn ⟨last, data⟩ last skew).opened =
          queue.opened := by
        simp [PacketQueue.wrEdge_opened, haccept]
      refine ⟨hnext, ?_, ?_, ?_, ?_, ?_⟩
      · simp [PacketQueue.wrEdge, haccept, hseen]
      · rw [hframes]
        exact hwhole
      · rw [hopened]
        exact hpart
      · rw [hframes]
        exact hmarked
      · rw [hopened]
        exact hunmarked
  | true =>
      have hopened : (queue.wrEdge wrEn ⟨last, data⟩ last skew).opened =
          if last then [] else queue.opened ++ [⟨last, data⟩] := by
        simp [PacketQueue.wrEdge_opened, haccept]
      have hframes : (queue.wrEdge wrEn ⟨last, data⟩ last skew).frames =
          if last then queue.frames ++ [queue.opened ++ [⟨last, data⟩]]
          else queue.frames := by
        simp [PacketQueue.wrEdge_frames, haccept]
      cases last with
      | true =>
          refine ⟨hnext, ?_, ?_, ?_, ?_, ?_⟩
          · simp [PacketQueue.wrEdge, haccept, hseen]
          · rw [hframes]
            simp [FrameLog.add, ← hwhole, ← hpart, MiiTxWord.bytes]
          · rw [hopened]
            simp [FrameLog.add, MiiTxWord.bytes]
          · rw [hframes]
            intro frame hframe
            rcases List.mem_append.mp hframe with hold | hnew
            · exact hmarked frame hold
            · rw [List.mem_singleton.mp hnew]
              exact marked_concat hunmarked data
          · rw [hopened]
            simp
      | false =>
          refine ⟨hnext, ?_, ?_, ?_, ?_, ?_⟩
          · simp [PacketQueue.wrEdge, haccept, hseen]
          · rw [hframes]
            simpa [FrameLog.add] using hwhole
          · rw [hopened]
            simp [FrameLog.add, ← hpart, MiiTxWord.bytes]
          · rw [hframes]
            exact hmarked
          · rw [hopened]
            intro word hword
            rcases List.mem_append.mp hword with hold | hnew
            · exact hunmarked word hold
            · rw [List.mem_singleton.mp hnew]

theorem Buffers.rdEdge (hbuffers : Buffers fifo queue log seen retired)
    (rdEn done : Bool) (skew : Skew) (late : Bool) :
    Buffers (fifo.rdEdge rdEn done skew late) (queue.rdEdge rdEn skew late) log
      (seen.clock late) (retired + done.toNat) where
  follows := hbuffers.follows.rdEdge rdEn done skew late
  seen := by rw [hbuffers.seen]; rfl
  whole := hbuffers.whole
  part := hbuffers.part
  marked := hbuffers.marked
  unmarked := hbuffers.unmarked

end Buffers

section Serves

variable {addrWidth depth retired : Nat} {staged chosen : Bool}
variable {framer : MiiTxFramer}

theorem Serves.readTo {queue : PacketQueue MiiTxWord depth staged}
    (hserves : Serves framer queue retired chosen) :
    ∃ taken, queue.ReadTo retired taken := by
  cases hserves with
  | waiting hread => exact ⟨0, hread⟩
  | sending _ _ _ _ hread => exact ⟨_, hread⟩

theorem Serves.wrEdge {queue : PacketQueue MiiTxWord depth staged}
    (hserves : Serves framer queue retired chosen) (offer : Bool)
    (word : MiiTxWord) (last : Bool) (skew : Skew) :
    Serves framer (queue.wrEdge offer word last skew) retired chosen := by
  cases hserves with
  | waiting hread hother => exact .waiting (hread.wrEdge offer word last skew) hother
  | sending hchosen hready hframe hsending hread =>
      have hsame : (queue.wrEdge offer word last skew).frames[retired]? =
          queue.frames[retired]? := by
        have hlt := (List.getElem?_eq_some_iff.mp hframe).1
        obtain ⟨more, hmore⟩ := queue.wrEdge_frames_prefix word skew offer last
        rw [← hmore, List.getElem?_append_left hlt]
      exact .sending hchosen (hready.wrEdge offer word last skew)
        (hsame.trans hframe) hsending (hread.wrEdge offer word last skew)

variable {fifo : PacketFifo MiiTxWord addrWidth .distributed}
variable {queue : PacketQueue MiiTxWord (2 ^ addrWidth) RamStyle.distributed.staged}
variable {rdData : MiiTxWord} {ctlReady datReady next : Bool}

/-- An edge of `mii_tx_clk` in S_IDLE: the next frame may be taken up. -/
theorem Serves.rdEdge_idle (hserves : Serves framer queue retired chosen)
    (hst : framer.st = .idle) (hrdEn : framer.rdEn = false)
    (hpick : (framer.edge rdData ctlReady datReady).st ≠ .idle → next = true →
      retired < queue.seen3) (skew : Skew) (late : Bool) :
    Serves (framer.edge rdData ctlReady datReady)
      (queue.rdEdge (framer.rdEn && chosen) skew late)
      (retired + (framer.done && chosen).toNat) next := by
  have hdone : framer.done = false := by simp [MiiTxFramer.done, hst]
  have hread : queue.ReadTo retired 0 := by
    cases hserves with
    | waiting hread => exact hread
    | sending _ _ _ hsending => exact absurd hst hsending.not_idle
  rw [hrdEn, hdone, Bool.false_and]
  by_cases hnext : (framer.edge rdData ctlReady datReady).st = .idle
  · exact .waiting (hread.rdEdge_idle skew late) (Or.inl hnext)
  · cases next with
    | false => exact .waiting (hread.rdEdge_idle skew late) (Or.inr rfl)
    | true =>
        have hready := PacketQueue.ready_rdEdge (hpick hnext rfl) false skew late
        obtain ⟨frame, hframe, -⟩ := hready.exists_frame
        rw [MiiTxFramer.edge_idle hst] at hnext ⊢
        exact .sending rfl hready hframe (MiiTxFramer.sending_idleEdge hnext hst)
          (hread.rdEdge_idle skew late)

/-- An edge of `mii_tx_clk` in the other states. -/
theorem Serves.rdEdge_busy (hfollows : fifo.Follows queue retired)
    (hserves : Serves framer queue retired chosen)
    (hmarked : ∀ frame ∈ queue.frames, Marked frame)
    (hfits : ∀ frame ∈ queue.frames, frame.length ≤ 16383)
    (hst : framer.st ≠ .idle) (hword : chosen = true → rdData = fifo.rdData)
    (skew : Skew) (late : Bool) :
    Serves (framer.edge rdData ctlReady datReady)
      (queue.rdEdge (framer.rdEn && chosen) skew late)
      (retired + (framer.done && chosen).toNat) chosen := by
  cases hserves with
  | waiting hread hother =>
      obtain rfl := hother.resolve_left hst
      rw [Bool.and_false, Bool.and_false]
      exact .waiting (hread.rdEdge_idle skew late) (Or.inr rfl)
  | @sending frame taken hchosen hready hframe hsending hread =>
      have hmem := List.mem_of_getElem? hframe
      have hnotDrained : taken < frame.length → ¬ queue.queue.Drained :=
        PacketFifo.not_drained_of_visible hready hread hframe
      have hmore := PacketQueue.ready_rdEdge hready.seen (framer.rdEn && chosen) skew late
      rw [hchosen, Bool.and_true, Bool.and_true]
      rw [hchosen, Bool.and_true] at hmore
      cases hdone : framer.done with
      | true =>
          obtain ⟨hidle, -, hrdEn, htaken⟩ := hsending.edge_done hdone
          rw [hrdEn] at hmore ⊢
          exact .waiting ((hread.rdEdge_idle skew late).retire hmore hframe htaken)
            (Or.inl hidle)
      | false =>
          have hnext : framer.nib = true → taken < frame.length →
              frame[taken]? = some rdData := fun _ htaken => by
            rw [hword hchosen]
            exact hfollows.rdData_eq hread (hnotDrained htaken) hframe htaken
          refine .sending rfl hmore hframe (hsending.edge (hmarked frame hmem)
            (hfits frame hmem) (queue.frames_ne frame hmem) hnext hdone) ?_
          cases hrdEn : framer.rdEn with
          | false => exact hread.rdEdge_idle skew late
          | true =>
              have htaken := hsending.taken_lt hrdEn
              exact hread.rdEdge_pop (hnotDrained htaken) hframe htaken skew late

end Serves

namespace MiiTxBench

variable {maxFrame addrWidth : Nat} {bench : MiiTxBench addrWidth}

/-- The write side knows how long the open frame is, and whether the rest of it
is being discarded. -/
structure Cutting (maxFrame : Nat) (tx : MiiTxSaf addrWidth)
    (log : FrameLog (BitVec 8)) : Prop where
  dropping : tx.dropping = decide (maxFrame ≤ log.part.length)
  frameBytes : tx.frameBytes.toNat = (log.cut maxFrame).part.length
  short : (log.cut maxFrame).part.length < maxFrame

section Cutting

variable {tx : MiiTxSaf addrWidth} {log : FrameLog (BitVec 8)}

theorem cutting_start (hpos : 1 ≤ maxFrame) (datMem : BitVec addrWidth → MiiTxWord)
    (ctlMem : BitVec 6 → MiiTxWord) (headQ : MiiTxWord) :
    Cutting maxFrame (.reset datMem ctlMem headQ) .empty := by
  have hnot : ¬ maxFrame ≤ 0 := Nat.not_le_of_lt hpos
  refine ⟨?_, ?_, ?_⟩
  · simp [MiiTxSaf.reset, FrameLog.empty, hnot]
  · rw [FrameLog.cut_empty hpos]
    rfl
  · rw [FrameLog.cut_empty hpos]
    exact hpos

theorem Cutting.reachedLimit (hpos : 1 ≤ maxFrame) (hmax : maxFrame ≤ 16383)
    (hcutting : Cutting maxFrame tx log) :
    tx.reachedLimit maxFrame = decide ((log.cut maxFrame).part.length + 1 = maxFrame) := by
  have hbytes := hcutting.frameBytes
  have hlimit : (BitVec.ofNat 14 maxFrame - 1).toNat = maxFrame - 1 := by
    have hone : (1 : BitVec 14).toNat = 1 := rfl
    rw [BitVec.toNat_sub, BitVec.toNat_ofNat, hone]
    omega
  rw [MiiTxSaf.reachedLimit, Bool.eq_iff_iff, beq_iff_eq, decide_eq_true_iff,
    ← BitVec.toNat_inj, hlimit, hbytes]
  omega

variable {i : MiiTxIn}

theorem sAxisTready_of_dropping (hdrop : tx.dropping = true) : tx.sAxisTready = true := by
  simp [MiiTxSaf.sAxisTready, hdrop]

theorem wrAccept_of_dropping (hdrop : tx.dropping = true) : tx.wrAccept i = false := by
  simp [MiiTxSaf.wrAccept, hdrop]

theorem wrAccept_of_keeping (hkeep : tx.dropping = false) :
    tx.wrAccept i = (i.sAxisTvalid && tx.sAxisTready) := by
  simp [MiiTxSaf.wrAccept, MiiTxSaf.sAxisTready, hkeep]

/-- The words that go into the FIFO are those of the frames cut at the limit. -/
theorem Cutting.cut_next (hpos : 1 ≤ maxFrame) (hmax : maxFrame ≤ 16383)
    (hcutting : Cutting maxFrame tx log) (i : MiiTxIn) :
    (if i.sAxisTvalid && tx.sAxisTready then log.add i.sAxisTdata i.sAxisTlast
      else log).cut maxFrame =
      if tx.wrAccept i then
        (log.cut maxFrame).add i.sAxisTdata (tx.effLast maxFrame i)
      else log.cut maxFrame := by
  have hdropping := hcutting.dropping
  cases hdrop : tx.dropping with
  | true =>
      rw [hdrop, eq_comm, decide_eq_true_iff] at hdropping
      rw [wrAccept_of_dropping hdrop, if_neg Bool.false_ne_true]
      split
      · exact FrameLog.cut_add_rest hpos hdropping _ _
      · rfl
  | false =>
      rw [hdrop, eq_comm, decide_eq_false_iff_not, not_le] at hdropping
      have hreached := hcutting.reachedLimit hpos hmax
      rw [FrameLog.cut_part hdropping] at hreached
      rw [wrAccept_of_keeping hdrop, MiiTxSaf.effLast, hreached]
      split
      · exact FrameLog.cut_add hpos hdropping _ _
      · rfl

theorem Cutting.clkEdge (hpos : 1 ≤ maxFrame) (hmax : maxFrame ≤ 16383)
    (hcutting : Cutting maxFrame tx log) (i : MiiTxIn) (datSkew ctlSkew : Skew) :
    Cutting maxFrame (tx.clkEdge maxFrame i datSkew ctlSkew)
      (if i.sAxisTvalid && tx.sAxisTready then log.add i.sAxisTdata i.sAxisTlast
        else log) := by
  have hcut := hcutting.cut_next hpos hmax i
  have hreached := hcutting.reachedLimit hpos hmax
  have hshort := hcutting.short
  refine ⟨?_, ?_, ?_⟩
  · have hdropping := hcutting.dropping
    simp only [MiiTxSaf.clkEdge]
    cases hdrop : tx.dropping with
    | true =>
        rw [hdrop, eq_comm, decide_eq_true_iff] at hdropping
        rw [sAxisTready_of_dropping hdrop, Bool.and_true]
        cases i.sAxisTvalid with
        | false => simp [hdropping]
        | true =>
            cases i.sAxisTlast with
            | true => simpa [FrameLog.add] using Nat.ne_of_gt hpos
            | false => simpa [FrameLog.add] using Nat.le_succ_of_le hdropping
    | false =>
        rw [hdrop, eq_comm, decide_eq_false_iff_not, not_le] at hdropping
        rw [FrameLog.cut_part hdropping] at hreached
        rw [wrAccept_of_keeping hdrop, MiiTxSaf.forcedCut, hreached]
        cases i.sAxisTvalid && tx.sAxisTready with
        | false => simpa using hdropping
        | true =>
            cases i.sAxisTlast with
            | true => simpa [FrameLog.add] using Nat.ne_of_gt hpos
            | false =>
                simp only [FrameLog.add, Bool.false_eq_true, if_false, if_true,
                  Bool.true_and, Bool.not_false, Bool.and_true, List.length_append,
                  List.length_singleton, decide_eq_decide]
                omega
  · rw [hcut]
    simp only [MiiTxSaf.clkEdge, MiiTxSaf.effLast, hreached, FrameLog.add]
    split
    · split
      · rfl
      · rw [MiiTxFramer.dcnt_succ (by rw [hcutting.frameBytes]; omega),
          hcutting.frameBytes, List.length_append, List.length_singleton]
    · exact hcutting.frameBytes
  · rw [hcut]
    simp only [MiiTxSaf.effLast, hreached, FrameLog.add]
    split
    · split
      · exact hpos
      · rename_i hmore
        simp only [Bool.or_eq_true, decide_eq_true_eq, not_or] at hmore
        rw [List.length_append, List.length_singleton]
        omega
    · exact hshort

end Cutting

end MiiTxBench

end EmacZero
