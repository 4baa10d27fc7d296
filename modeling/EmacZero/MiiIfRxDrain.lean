/-
The `mii_if` receive path does not wedge as long as the FIFO never fills up
with data behind which no EOF word is committed: while a committed frame waits,
the replay machine reaches its EOF word in a bounded number of `clk` edges.
-/
import EmacZero.MiiIfRxFeed
import EmacZero.MiiIfRxPending

namespace EmacZero

universe u

variable {Q : Type u} {ports : FifoPorts RxWord Q} {depth lag : Nat}

namespace MiiRxBench

/-- A data word takes the last free slot only while an EOF word is in the
FIFO. -/
def KeepsCommit (ports : FifoPorts RxWord Q) (depth : Nat)
    (bench : MiiRxBench Q) : MiiRxEdge → Prop
  | .mii _ _ => bench.rx.rxWrAccept ports = true →
      bench.rx.rxWrData.eof = false → bench.stored.length + 1 = depth →
        0 < eofs bench.stored
  | .clk _ _ => True

/-- No overflow that loses a frame boundary for good, and few enough frames
for the counters. -/
def Drainable (ports : FifoPorts RxWord Q) (depth : Nat)
    (bench : MiiRxBench Q) (edge : MiiRxEdge) : Prop :=
  bench.CommitsFew ports edge ∧ bench.KeepsCommit ports depth edge

instance (bench : MiiRxBench Q) (edge : MiiRxEdge) :
    Decidable (bench.Drainable ports depth edge) :=
  match edge with
  | .mii _ _ => inferInstanceAs (Decidable (_ ∧ (_ → _ → _ → _)))
  | .clk _ _ => inferInstanceAs (Decidable (_ ∧ True))

/-- The replay machine's counters while it sends a frame. -/
structure Replays (bench : MiiRxBench Q) : Prop where
  prime : bench.rx.rxReplayState = .prime → 0 < bench.rx.rxReplayLen.toNat
  wait : bench.rx.rxReplayState = .wait →
    bench.rx.rxReplayIndex = 0 ∧ 0 < bench.rx.rxReplayLen.toNat
  send : bench.rx.rxReplayState = .send →
    bench.rx.rxReplayIndex.toNat < bench.rx.rxReplayLen.toNat

section Full

variable {laws : BoundedFifo ports depth lag} {bench : MiiRxBench Q}
variable {shown : Nat → Nat}

/-- A full FIFO holds an EOF word. -/
def FullCommitted (depth : Nat) (bench : MiiRxBench Q) : Prop :=
  bench.stored.length = depth → 0 < eofs bench.stored

theorem Tracks.fullCommitted_mii (htracks : Tracks laws bench shown)
    (hfull : bench.FullCommitted depth) (pins : MiiRxIn) (skew : Skew)
    (hkeeps : bench.KeepsCommit ports depth (.mii pins skew)) :
    (bench.step ports (.mii pins skew)).FullCommitted depth := by
  intro hlength
  rw [htracks.stored_mii] at hlength ⊢
  cases haccept : bench.rx.rxWrAccept ports with
  | false => exact hfull (by simpa [haccept] using hlength)
  | true =>
      cases heof : bench.rx.rxWrData.eof with
      | true => simp [heof]
      | false =>
          have hlast : bench.stored.length + 1 = depth := by
            simpa [haccept] using hlength
          have hcommit := hkeeps haccept heof hlast
          simpa [heof] using hcommit

theorem Tracks.fullCommitted_clk (htracks : Tracks laws bench shown)
    (hfull : bench.FullCommitted depth) (skew : Skew) (late : Bool) :
    (bench.step ports (.clk skew late)).FullCommitted depth := by
  intro hlength
  have hstored : (bench.step ports (.clk skew late)).stored =
      bench.accepted.drop (bench.popped + bench.rx.rxRdEn.toNat) := by
    simp only [stored, step, htracks.pops_eq]
  have hmost := htracks.stored_le
  rw [hstored] at hlength ⊢
  rw [stored, List.length_drop] at hmost
  rw [List.length_drop] at hlength
  cases hrdEn : bench.rx.rxRdEn with
  | false =>
      rw [hrdEn, Bool.toNat_false, Nat.add_zero] at hlength
      exact hfull (by rw [stored, List.length_drop, hlength])
  | true =>
      have hsome := (htracks.pop hrdEn).1.trans_le (laws.shown_le htracks.fifo 0)
      rw [hrdEn, Bool.toNat_true] at hlength
      dsimp only at hsome
      omega

end Full

section Replay

variable {bench : MiiRxBench Q}

theorem replays_start (fifo : Q) (mem : BitVec 12 → RxByte) (dout : RxByte) :
    (start fifo mem dout).Replays := by
  constructor <;> simp [start, MiiIfRx.reset]

theorem Replays.clk (hreplays : bench.Replays) (skew : Skew) (late : Bool) :
    (bench.step ports (.clk skew late)).Replays := by
  cases hstate : bench.rx.rxReplayState with
  | idle =>
      have hnext := @MiiIfRx.replayStep_idle _ ports _ hstate
      constructor <;> simp only [step, MiiIfRx.clkEdge, hnext] <;>
        split <;> simp
  | load =>
      cases hwait : bench.rx.rxLoadWait with
      | true =>
          constructor <;> simp [step, MiiIfRx.clkEdge,
            MiiIfRx.replayStep_loadWait hstate hwait, hstate]
      | false =>
          cases hvalid : bench.rx.rxRdWordValid ports with
          | false =>
              constructor <;> simp [step, MiiIfRx.clkEdge,
                MiiIfRx.replayStep_loadEmpty hstate hwait hvalid, hstate]
          | true =>
              cases heof : (ports.rdData bench.rx.rxFifo).eof with
              | false =>
                  constructor <;> simp [step, MiiIfRx.clkEdge,
                    MiiIfRx.replayStep_loadByte hstate hwait hvalid heof, hstate]
              | true =>
                  by_cases hcount : bench.rx.rxLoadCount = 0
                  · constructor <;> simp [step, MiiIfRx.clkEdge, hcount,
                      MiiIfRx.replayStep_loadEof hstate hwait hvalid heof]
                  · have hpos : 0 < bench.rx.rxLoadCount.toNat :=
                      Nat.pos_of_ne_zero (fun hzero =>
                        hcount (BitVec.eq_of_toNat_eq (by simpa using hzero)))
                    constructor <;> simp [step, MiiIfRx.clkEdge, hpos,
                      MiiIfRx.replayStep_loadEof hstate hwait hvalid heof]
  | prime =>
      have hlen := hreplays.prime hstate
      constructor <;> simp [step, MiiIfRx.clkEdge,
        MiiIfRx.replayStep_prime hstate, hlen]
  | wait =>
      obtain ⟨hindex, hlen⟩ := hreplays.wait hstate
      constructor <;> simp [step, MiiIfRx.clkEdge,
        MiiIfRx.replayStep_wait hstate, hindex, hlen]
  | send =>
      have hlt := hreplays.send hstate
      rcases hlt.nat_succ_le.eq_or_lt with hlast | hmore
      · constructor <;> simp [step, MiiIfRx.clkEdge,
          MiiIfRx.replayStep_sendLast hstate hlast]
      · have hnext := MiiIfRx.index_add_one hlt
        constructor <;> simp [step, MiiIfRx.clkEdge,
          MiiIfRx.replayStep_sendMore hstate hmore]
        omega

/-- The cost of the longest frame that the replay machine can be told to send
with a FIFO full of words to take before it. -/
def costMax (depth : Nat) : Nat := 2 * depth + 2 ^ 16 + 4

theorem replay_states_run (fifo : Q) (mem : BitVec 12 → RxByte) (dout : RxByte)
    (edges : List MiiRxEdge) :
    (runFrom (step ports) (start fifo mem dout) edges).Replays := by
  refine invariant_runFrom (fun bench edge hreplays => ?_)
    (replays_start fifo mem dout) edges
  cases edge with
  | mii pins skew => exact ⟨hreplays.prime, hreplays.wait, hreplays.send⟩
  | clk skew late => exact hreplays.clk skew late

/-- How many more `clk` edges it takes at most to retire the frame whose EOF
word is among the first `target` words, once these show and the frame is
counted. -/
def cost (bench : MiiRxBench Q) (target : Nat) : Nat :=
  if bench.rx.rxFrameDonePulse then 1
  else
    match bench.rx.rxReplayState with
    | .load => 2 * (target - bench.popped) + (!bench.rx.rxRdEn).toNat
    | .idle => 2 * (target - bench.popped) + 2
    | .prime => 2 * (target - bench.popped) + 4 + bench.rx.rxReplayLen.toNat
    | .wait => 2 * (target - bench.popped) + 3 + bench.rx.rxReplayLen.toNat
    | .send => 2 * (target - bench.popped) + 2 +
        (bench.rx.rxReplayLen.toNat - bench.rx.rxReplayIndex.toNat)

variable {laws : BoundedFifo ports depth lag} {shown : Nat → Nat}
variable {target : Nat}

theorem cost_pos (hlt : bench.popped < target) : 0 < bench.cost target := by
  unfold cost
  split
  · exact Nat.one_pos
  · split <;> omega

theorem cost_le (hlt : target ≤ bench.popped + depth) :
    bench.cost target ≤ costMax depth := by
  have hlen := bench.rx.rxReplayLen.isLt
  have hbit := (!bench.rx.rxRdEn).toNat_le
  unfold cost costMax
  split
  · omega
  · split <;> omega

theorem Tracks.cost_clk (htracks : Tracks laws bench shown)
    (hreplays : bench.Replays) (hdone : bench.rx.rxFrameDonePulse = false)
    (hlt : bench.popped < target) (hshown : target ≤ shown 0)
    (hpending : bench.rx.rxFramePendingSys = true) (skew : Skew)
    (late : Bool) :
    (bench.step ports (.clk skew late)).cost target < bench.cost target := by
  have hvalid : bench.rx.rxRdWordValid ports = true := by
    simp [MiiIfRx.rxRdWordValid, htracks.rdEmpty_iff.mpr (hlt.trans_le hshown)]
  cases hstate : bench.rx.rxReplayState with
  | idle =>
      have hnext := @MiiIfRx.replayStep_idle _ ports _ hstate
      have hrdEn := (htracks.pause (by simp [hstate])).trans hdone
      simp [cost, hdone, hstate, hrdEn, hpending, hvalid, step,
        MiiIfRx.clkEdge, hnext]
  | load =>
      have hwait := htracks.load hstate
      cases hrdEn : bench.rx.rxRdEn with
      | true =>
          have hpops := htracks.pops_eq
          rw [hrdEn] at hwait hpops
          simp [cost, hdone, hstate, hrdEn, step, MiiIfRx.clkEdge, hpops,
            MiiIfRx.replayStep_loadWait hstate hwait]
          omega
      | false =>
          rw [hrdEn] at hwait
          cases heof : (ports.rdData bench.rx.rxFifo).eof with
          | false =>
              simp [cost, hdone, hstate, hrdEn, step, MiiIfRx.clkEdge,
                MiiIfRx.replayStep_loadByte hstate hwait hvalid heof]
          | true =>
              simp [cost, hdone, hstate, hrdEn, step, MiiIfRx.clkEdge,
                MiiIfRx.replayStep_loadEof hstate hwait hvalid heof]
              omega
  | prime =>
      have hnext := @MiiIfRx.replayStep_prime _ ports _ hstate
      have hrdEn := (htracks.pause (by simp [hstate])).trans hdone
      simp [cost, hdone, hstate, hrdEn, step, MiiIfRx.clkEdge, hnext]
  | wait =>
      have hnext := @MiiIfRx.replayStep_wait _ ports _ hstate
      have hrdEn := (htracks.pause (by simp [hstate])).trans hdone
      obtain ⟨hindex, hlen⟩ := hreplays.wait hstate
      simp [cost, hdone, hstate, hrdEn, hindex, step, MiiIfRx.clkEdge,
        hnext]
  | send =>
      have hrdEn := (htracks.pause (by simp [hstate])).trans hdone
      have hlt := hreplays.send hstate
      rcases hlt.nat_succ_le.eq_or_lt with hlast | hmore
      · simp [cost, hdone, hstate, hrdEn, step, MiiIfRx.clkEdge,
          MiiIfRx.replayStep_sendLast hstate hlast]
        omega
      · have hnext := MiiIfRx.index_add_one hlt
        simp [cost, hdone, hstate, hrdEn, step, MiiIfRx.clkEdge,
          MiiIfRx.replayStep_sendMore hstate hmore]
        omega

end Replay

/-- What a frame waits for that is committed and not retired: first, for
`settle` more edges, that its EOF word shows and that it is counted, and then
that the replay machine gets to its EOF word. -/
structure Waits (laws : BoundedFifo ports depth lag) (frames target settle left : Nat)
    (bench : MiiRxBench Q) : Prop where
  ordered : ∃ shown, Ordered laws bench shown ∧ target ≤ shown settle
  few : eofs bench.stored ≤ 15
  replays : bench.Replays
  retired : bench.retired = frames
  written : target ≤ bench.accepted.length
  committed : frames < eofs (bench.accepted.take target)
  counted : frames < bench.seen.after settle
  settled : settle = 0 → bench.cost target ≤ left
  settling : settle ≠ 0 → settle + costMax depth ≤ left

section Progress

variable {laws : BoundedFifo ports depth lag} {bench : MiiRxBench Q}
variable {frames target settle left : Nat}

theorem retired_le_step (edge : MiiRxEdge) :
    bench.retired ≤ (bench.step ports edge).retired := by
  cases edge with
  | clk skew late => exact eofs_take_le (Nat.le_add_right _ _) _
  | mii pins skew =>
      simp only [retired, step]
      split
      · exact ((List.prefix_append _ _).take _).sublist.countP_le
      · exact le_rfl

theorem retired_le_run (bench : MiiRxBench Q) (more : List MiiRxEdge) :
    bench.retired ≤ (runFrom (step ports) bench more).retired := by
  induction more generalizing bench with
  | nil => exact le_rfl
  | cons edge rest ih => exact (retired_le_step edge).trans (ih _)

theorem Waits.popped_lt (hwaits : Waits laws frames target settle left bench) :
    bench.popped < target := by
  by_contra hge
  have hle := eofs_take_le (not_lt.mp hge) bench.accepted
  have hretired := hwaits.retired
  have hcommitted := hwaits.committed
  rw [MiiRxBench.retired] at hretired
  omega

theorem Waits.left_pos (hwaits : Waits laws frames target settle left bench) :
    0 < left := by
  by_cases hsettle : settle = 0
  · exact (cost_pos hwaits.popped_lt).trans_le (hwaits.settled hsettle)
  · have hleft := hwaits.settling hsettle
    omega

theorem Waits.mii (hwaits : Waits laws frames target settle left bench)
    (pins : MiiRxIn) (skew : Skew)
    (hcommit : bench.CommitsFew ports (.mii pins skew)) :
    Waits laws frames target settle left
      (bench.step ports (.mii pins skew)) := by
  obtain ⟨shown, hord, hshown⟩ := hwaits.ordered
  obtain ⟨shown', hgrows, hnext⟩ := hord.mii pins skew
  have hlength : bench.accepted.length ≤
      (bench.step ports (.mii pins skew)).accepted.length := by
    simp only [step]
    split <;> simp
  have hcounted : bench.seen.after settle ≤
      (bench.step ports (.mii pins skew)).seen.after settle := by
    simp only [step]
    split
    · exact bench.seen.after_advance settle
    · exact le_rfl
  exact
    { ordered := ⟨shown', hnext, hshown.trans (hgrows settle)⟩
      few := hord.tracks.few_mii hwaits.few pins skew hcommit
      replays := ⟨hwaits.replays.prime, hwaits.replays.wait, hwaits.replays.send⟩
      retired := (hord.tracks.retired_mii pins skew).trans hwaits.retired
      written := hwaits.written.trans hlength
      committed := by
        rw [eofs_take_mii pins skew hwaits.written]
        exact hwaits.committed
      counted := hwaits.counted.trans_le hcounted
      settled := hwaits.settled
      settling := hwaits.settling }

theorem Waits.clk (hwaits : Waits laws frames target settle left bench)
    (skew : Skew) (late : Bool) :
    frames < (bench.step ports (.clk skew late)).retired ∨
      Waits laws frames target (settle - 1) (left - 1)
        (bench.step ports (.clk skew late)) := by
  obtain ⟨shown, hord, hshown⟩ := hwaits.ordered
  have htracks := hord.tracks
  have hretired := htracks.retired_clk skew late
  rw [hwaits.retired] at hretired
  cases hdone : bench.rx.rxFrameDonePulse with
  | true =>
      rw [hdone, Bool.toNat_true] at hretired
      exact Or.inl (Nat.lt_of_lt_of_eq (Nat.lt_succ_self frames) hretired.symm)
  | false =>
      rw [hdone, Bool.toNat_false] at hretired
      obtain ⟨shown', hgrows, hnext⟩ := hord.clk skew late
      have hroom : target ≤
          (bench.step ports (.clk skew late)).popped + depth :=
        hwaits.written.trans (laws.bounded hnext.tracks.fifo)
      have hmost := cost_le hroom
      have hnearer : shown settle ≤ shown' (settle - 1) := by
        refine (laws.shown_mono htracks.fifo ?_).trans (hgrows (settle - 1))
        omega
      have hcounted : bench.seen.after settle ≤
          (bench.seen.clock late).after (settle - 1) := by
        refine le_trans ?_ (bench.seen.after_clock late (settle - 1))
        exact bench.seen.after_mono (by omega)
      refine Or.inr
        { ordered := ⟨shown', hnext, hshown.trans hnearer⟩
          few := few_clk hwaits.few skew late
          replays := hwaits.replays.clk skew late
          retired := hretired
          written := hwaits.written
          committed := hwaits.committed
          counted := hwaits.counted.trans_le hcounted
          settled := fun hnone => ?_
          settling := fun hsome => ?_ }
      · by_cases hsettle : settle = 0
        · subst hsettle
          have hpending := (htracks.count.pending_iff hord.retired
            (htracks.seen3_lt hwaits.few)).mpr
              (hwaits.retired.trans_lt hwaits.counted)
          have hcost := htracks.cost_clk hwaits.replays hdone
            hwaits.popped_lt hshown hpending skew late
          have hleft := hwaits.settled rfl
          omega
        · have hleft := hwaits.settling hsettle
          omega
      · have hleft := hwaits.settling (by omega)
        omega

/-- The frame is retired within a bounded number of `clk` edges. -/
theorem Waits.run (hwaits : Waits laws frames target settle left bench)
    (more : List MiiRxEdge)
    (hmore : Along (step ports) (CommitsFew ports) bench more)
    (henough : left ≤ more.countP isClk) :
    frames < (runFrom (step ports) bench more).retired := by
  refine reached_along (fun bench => frames < bench.retired)
    (fun left bench => ∃ settle, Waits laws frames target settle left bench)
    ?_ ?_ ?_ hmore (Or.inr ⟨settle, hwaits⟩) henough
  · intro bench edge _ hreached
    exact hreached.trans_le (retired_le_step edge)
  · rintro bench edge left hcommit ⟨settle, hleft⟩
    cases edge with
    | mii pins skew => exact Or.inr ⟨settle, hleft.mii pins skew hcommit⟩
    | clk skew late =>
        exact (hleft.clk skew late).imp_right fun hnext => ⟨settle - 1, hnext⟩
  · rintro bench ⟨settle, hnone⟩
    exact hnone.left_pos.false

/-- The edges of `clk` that it takes to retire a frame from any state. -/
def drainEdges (depth lag : Nat) : Nat := max lag 4 + costMax depth

/-- While EOF words are in the FIFO, the oldest of them is on its way out. -/
theorem Ordered.waits {shown : Nat → Nat} (hord : Ordered laws bench shown)
    (hfew : eofs bench.stored ≤ 15) (hreplays : bench.Replays)
    (heofs : 0 < eofs bench.stored) :
    Waits laws bench.retired bench.accepted.length (max lag 4)
      (drainEdges depth lag) bench := by
  have hsplit := retired_add_stored bench
  have hcommitted := hord.tracks.committed
  have hall : shown lag = bench.accepted.length :=
    laws.shown_all hord.tracks.fifo
  have hsettle : 4 ≤ max lag 4 := le_max_right _ _
  exact
    { ordered := ⟨shown, hord,
        hall.ge.trans (laws.shown_mono hord.tracks.fifo (le_max_left _ _))⟩
      few := hfew
      replays := hreplays
      retired := rfl
      written := le_rfl
      committed := by
        rw [List.take_length]
        omega
      counted := by
        have hseen : bench.seen.committed.now ≤ bench.seen.after (max lag 4) :=
          bench.seen.after_mono hsettle
        omega
      settled := by omega
      settling := fun _ => le_rfl }

/-- The states of the runs in which the FIFO never fills up with data behind
which no frame is committed. -/
structure Drains (laws : BoundedFifo ports depth lag) (bench : MiiRxBench Q) :
    Prop where
  ordered : ∃ shown, Ordered laws bench shown
  few : eofs bench.stored ≤ 15
  replays : bench.Replays
  full : bench.FullCommitted depth

theorem drains_start (hdepth : 0 < depth) (laws : BoundedFifo ports depth lag)
    {fifo : Q} (hfifo : laws.Views fifo .empty) (mem : BitVec 12 → RxByte)
    (dout : RxByte) : Drains laws (start fifo mem dout) where
  ordered := ⟨_, ordered_start laws hfifo mem dout⟩
  few := Nat.zero_le 15
  replays := replays_start fifo mem dout
  full := fun hnone => absurd hnone.symm hdepth.ne'

theorem Drains.step (bench : MiiRxBench Q) (edge : MiiRxEdge)
    (hdrain : bench.Drainable ports depth edge) (hinv : Drains laws bench) :
    Drains laws (bench.step ports edge) := by
  have hnext := exists_ordered_step bench edge hinv.ordered
  obtain ⟨shown, hord⟩ := hinv.ordered
  cases edge with
  | mii pins skew =>
      exact
        { ordered := hnext
          few := hord.tracks.few_mii hinv.few pins skew hdrain.1
          replays := ⟨hinv.replays.prime, hinv.replays.wait,
            hinv.replays.send⟩
          full := hord.tracks.fullCommitted_mii hinv.full pins skew hdrain.2 }
  | clk skew late =>
      exact
        { ordered := hnext
          few := few_clk hinv.few skew late
          replays := hinv.replays.clk skew late
          full := hord.tracks.fullCommitted_clk hinv.full skew late }

/-- With an EOF word in the FIFO the frame counters differ. -/
theorem Tracks.counted {shown : Nat → Nat} (htracks : Tracks laws bench shown)
    (hfew : eofs bench.stored ≤ 15) (heofs : 0 < eofs bench.stored) :
    bench.rx.rxFrameCount.wrCountBin ≠ bench.rx.rxFrameCount.rdCountBin := by
  have hsplit := retired_add_stored bench
  have hcommitted := htracks.committed
  rw [htracks.count.wrCountBin, htracks.count.rdCountBin, ne_comm, Ne,
    ofNat_eq_ofNat_iff] <;> omega

/-- As long as no data word takes the last free slot without an EOF word in
the FIFO, and fewer than fifteen wait at each commit, the path does not wedge:
a full FIFO holds an EOF word, its frame is counted, and the reader retires it
within a bounded number of `clk` edges. -/
theorem drains_run (hdepth : 0 < depth) (laws : BoundedFifo ports depth lag)
    {fifo : Q} (hfifo : laws.Views fifo .empty) (mem : BitVec 12 → RxByte)
    (dout : RxByte) (edges : List MiiRxEdge)
    (hdrain : Along (step ports) (Drainable ports depth) (start fifo mem dout)
      edges) :
    let bench := runFrom (step ports) (start fifo mem dout) edges
    bench.stored.length = depth →
      0 < eofs bench.stored ∧
        bench.rx.rxFrameCount.wrCountBin ≠ bench.rx.rxFrameCount.rdCountBin ∧
        ∀ more, Along (step ports) (CommitsFew ports) bench more →
          drainEdges depth lag ≤ more.countP isClk →
            bench.retired < (runFrom (step ports) bench more).retired := by
  intro bench hfull
  have hinv : Drains laws bench :=
    invariant_along Drains.step (drains_start hdepth laws hfifo mem dout) hdrain
  obtain ⟨shown, hord⟩ := hinv.ordered
  have heofs := hinv.full hfull
  have hwaits := hord.waits hinv.few hinv.replays heofs
  exact ⟨heofs, hord.tracks.counted hinv.few heofs, fun more hmore henough =>
    hwaits.run more hmore henough⟩

/-- A FIFO of four words, filled by an envelope of three bytes. -/
def filled : PortableBench 2 :=
  runFrom portableStep
    (start (.reset (fun _ => ⟨false, false, 0⟩) ⟨false, false, 0⟩)
      (fun _ => (0, false)) (0, false)) (envelope 2)

theorem drains_run_filled :
    filled.stored.length = 2 ^ 2 ∧ 0 < eofs filled.stored ∧
      ∀ more, Along portableStep
        (CommitsFew (AsyncFifo.ports 2 .distributed)) filled more →
          drainEdges (2 ^ 2) 4 ≤ more.countP isClk →
            filled.retired < (runFrom portableStep filled more).retired := by
  have hfull : filled.stored.length = 2 ^ 2 := by decide +kernel
  obtain ⟨heofs, -, hdrains⟩ := drains_run (by decide)
    (AsyncFifo.bounded (by decide)) (AsyncFifo.views_reset (by decide) _ _) _ _
    (envelope 2) (by decide +kernel) hfull
  exact ⟨hfull, heofs, hdrains⟩

end Progress

section Wedge

variable {laws : BoundedFifo ports depth lag} {bench : MiiRxBench Q}

/-- The FIFO is full of words without an EOF word, and the replay machine has
nothing to start with. -/
structure Wedged (laws : BoundedFifo ports depth lag) (bench : MiiRxBench Q) :
    Prop where
  ordered : ∃ shown, Ordered laws bench shown
  full : bench.stored.length = depth
  noEof : eofs bench.stored = 0
  idle : bench.rx.rxReplayState = .idle
  rest : bench.rx.rxRdEn = false

theorem Wedged.not_pending (hwedged : Wedged laws bench) :
    bench.rx.rxFramePendingSys = false := by
  obtain ⟨shown, hord⟩ := hwedged.ordered
  have hsplit := retired_add_stored bench
  have hcommitted := hord.tracks.committed
  have hseen := bench.seen.seen3_le_now
  have hnone := hwedged.noEof
  have hpending : bench.rx.rxFramePendingSys = true ↔
      bench.retired < bench.seen.seen3 :=
    hord.tracks.count.pending_iff hord.retired (by omega)
  rw [← Bool.not_eq_true, hpending]
  omega

/-- Every further word is refused, and nothing is read. -/
theorem Wedged.step (hwedged : Wedged laws bench) (edge : MiiRxEdge) :
    Wedged laws (bench.step ports edge) ∧
      (bench.step ports edge).accepted = bench.accepted ∧
      (bench.step ports edge).popped = bench.popped := by
  have hordered := exists_ordered_step bench edge hwedged.ordered
  obtain ⟨shown, hord⟩ := hwedged.ordered
  cases edge with
  | mii pins skew =>
      have hrefused : bench.rx.rxWrAccept ports = false := by
        by_contra haccept
        obtain ⟨shown', hnext⟩ := hordered
        have hmost := hnext.tracks.stored_le
        rw [hord.tracks.stored_mii, if_pos (by simpa using haccept),
          List.length_append, hwedged.full] at hmost
        simp at hmost
      have hsame : (bench.step ports (.mii pins skew)).stored =
          bench.stored := by
        rw [hord.tracks.stored_mii, hrefused]
        rfl
      refine ⟨⟨hordered, ?_, ?_, hwedged.idle, hwedged.rest⟩, ?_, rfl⟩
      · rw [hsame]
        exact hwedged.full
      · rw [hsame]
        exact hwedged.noEof
      · simp [MiiRxBench.step, hrefused]
  | clk skew late =>
      have hstep := @MiiIfRx.replayStep_idle _ ports _ hwedged.idle
      rw [hwedged.not_pending] at hstep
      have hpopped : (bench.step ports (.clk skew late)).popped =
          bench.popped := by
        simp [MiiRxBench.step, hwedged.rest]
      have hsame : (bench.step ports (.clk skew late)).stored =
          bench.stored := by
        rw [stored, hpopped]
        rfl
      refine ⟨⟨hordered, ?_, ?_, ?_, ?_⟩, rfl, hpopped⟩
      · rw [hsame]
        exact hwedged.full
      · rw [hsame]
        exact hwedged.noEof
      · simp [MiiRxBench.step, MiiIfRx.clkEdge, hstep]
      · simp [MiiRxBench.step, MiiIfRx.clkEdge, hstep]

theorem Wedged.run (hwedged : Wedged laws bench) (more : List MiiRxEdge) :
    let next := runFrom (MiiRxBench.step ports) bench more
    Wedged laws next ∧ next.accepted = bench.accepted ∧
      next.popped = bench.popped := by
  induction more generalizing bench with
  | nil => exact ⟨hwedged, rfl, rfl⟩
  | cons edge rest ih =>
      obtain ⟨hnext, haccepted, hpopped⟩ := hwedged.step edge
      obtain ⟨hlast, haccepted', hpopped'⟩ := ih hnext
      exact ⟨hlast, haccepted'.trans haccepted, hpopped'.trans hpopped⟩

end Wedge

/-- An envelope as long as the FIFO is deep leaves it full of data, as its EOF
word is refused. -/
theorem portable_wedged {bytes : Nat} (hfill : bytes + 1 = 2 ^ 11) :
    Wedged (AsyncFifo.bounded (by decide)) (portable (envelope bytes)) := by
  have hwords : (portable (envelope bytes)).accepted =
      wordsOf (bytes + 1) false true :=
    portable_accepted (by omega) (decide_eq_true hfill).symm
  obtain ⟨hidle, hrest, hpopped⟩ := portable_reader (envelope_mii bytes)
  have hstored : (portable (envelope bytes)).stored =
      wordsOf (bytes + 1) false true := by
    rw [stored, hpopped, hwords, List.drop_zero]
  refine ⟨portable_ordered _, ?_, ?_, hidle, hrest⟩
  · rw [hstored, length_wordsOf, hfill]
  · rw [hstored, eofs_wordsOf]

/-- One envelope of 2048 bytes before `clk` runs fills the FIFO, and its EOF
word is refused: the replay machine stays idle and every further word is
refused, whatever comes. -/
theorem long_frame_wedges :
    let bench := portable (envelope 2047)
    bench.stored.length = 2048 ∧ eofs bench.stored = 0 ∧
      bench.rx.rxReplayState = .idle ∧
      ∀ more,
        (runFrom portableStep bench more).accepted = bench.accepted ∧
        (runFrom portableStep bench more).popped = bench.popped ∧
        (runFrom portableStep bench more).rx.rxReplayState = .idle := by
  have hwedged := @portable_wedged 2047 rfl
  generalize portable (envelope 2047) = bench at hwedged
  refine ⟨hwedged.full, hwedged.noEof, hwedged.idle, fun more => ?_⟩
  obtain ⟨hnext, haccepted, hpopped⟩ := hwedged.run more
  exact ⟨haccepted, hpopped, hnext.idle⟩

end MiiRxBench

end EmacZero
