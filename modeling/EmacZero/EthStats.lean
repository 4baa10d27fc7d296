/-
The receive counters of `eth_stats`, as `eth_mac_sys` feeds them: frames and errors
are counted where the stream hands over a TLAST word, the rest on the pulses that
the receiver raises at the end of a frame.
-/
import EmacZero.EthMacRxDelivery

namespace EmacZero

variable {w : Nat}

/-- The receive inputs of `eth_stats` in one cycle. -/
structure EthStatsIn where
  gmiiRxDv : Bool
  rxFrameGood : Bool
  rxFrameBad : Bool
  stat : EthMacRxStat
  clrRx : Bool
deriving Repr, DecidableEq

/-- The receive counters, `STAT_CNT_W` bits each. -/
structure EthStats (w : Nat) where
  rxFrameCnt : BitVec w
  rxByteCnt : BitVec w
  rxCrcErrCnt : BitVec w
  rxErrAlignCnt : BitVec w
  rxErrOverflowCnt : BitVec w
  rxErrOversizeCnt : BitVec w
  rxErrCsumCnt : BitVec w
  rxBcastCnt : BitVec w
  rxMcastCnt : BitVec w
  rxSize64Cnt : BitVec w
  rxSize65To127Cnt : BitVec w
  rxSize128To255Cnt : BitVec w
  rxSize256To511Cnt : BitVec w
  rxSize512To1023Cnt : BitVec w
  rxSize1024To1518Cnt : BitVec w
  rxSizeJumboCnt : BitVec w
  rxDropCnt : BitVec w
deriving Repr, DecidableEq

/-- `SAT_INC` -/
def satInc (cnt : BitVec w) : BitVec w :=
  if cnt = BitVec.allOnes w then cnt else cnt + 1

/-- Count an event. -/
def countEvent (event : Bool) (cnt : BitVec w) : BitVec w :=
  if event then satInc cnt else cnt

/-- A size bucket: lengths above `low`, up to `high`. -/
def sizeBucket (low high : Nat) (len : BitVec 14) : Bool :=
  decide (low < len.toNat) && decide (len.toNat ≤ high)

def bucket64 (len : BitVec 14) : Bool := len == 64
def bucket65To127 : BitVec 14 → Bool := sizeBucket 64 127
def bucket128To255 : BitVec 14 → Bool := sizeBucket 127 255
def bucket256To511 : BitVec 14 → Bool := sizeBucket 255 511
def bucket512To1023 : BitVec 14 → Bool := sizeBucket 511 1023
def bucket1024To1518 : BitVec 14 → Bool := sizeBucket 1023 1518
def bucketJumbo (len : BitVec 14) : Bool := decide (1518 < len.toNat)

namespace EthStats

def reset : EthStats w := ⟨0, 0, 0, 0, 0, 0, 0, 0, 0, 0, 0, 0, 0, 0, 0, 0, 0⟩

/-- A rising edge of `clk`. -/
def clkEdge (stats : EthStats w) (i : EthStatsIn) : EthStats w :=
  let done := i.stat.statDone
  let len := i.stat.statLen
  if i.clrRx then reset
  else
    { rxFrameCnt := countEvent (i.rxFrameGood || i.rxFrameBad) stats.rxFrameCnt
      rxByteCnt := countEvent i.gmiiRxDv stats.rxByteCnt
      rxCrcErrCnt := countEvent i.rxFrameBad stats.rxCrcErrCnt
      rxErrAlignCnt := countEvent (done && i.stat.statErrAlign) stats.rxErrAlignCnt
      rxErrOverflowCnt :=
        countEvent (done && i.stat.statErrOverflow) stats.rxErrOverflowCnt
      rxErrOversizeCnt :=
        countEvent (done && i.stat.statErrOversize) stats.rxErrOversizeCnt
      rxErrCsumCnt := countEvent (done && i.stat.statErrCsum) stats.rxErrCsumCnt
      rxBcastCnt := countEvent (done && i.stat.statIsBcast) stats.rxBcastCnt
      rxMcastCnt := countEvent (done && i.stat.statIsMcast) stats.rxMcastCnt
      rxSize64Cnt := countEvent (done && bucket64 len) stats.rxSize64Cnt
      rxSize65To127Cnt := countEvent (done && bucket65To127 len) stats.rxSize65To127Cnt
      rxSize128To255Cnt :=
        countEvent (done && bucket128To255 len) stats.rxSize128To255Cnt
      rxSize256To511Cnt :=
        countEvent (done && bucket256To511 len) stats.rxSize256To511Cnt
      rxSize512To1023Cnt :=
        countEvent (done && bucket512To1023 len) stats.rxSize512To1023Cnt
      rxSize1024To1518Cnt :=
        countEvent (done && bucket1024To1518 len) stats.rxSize1024To1518Cnt
      rxSizeJumboCnt := countEvent (done && bucketJumbo len) stats.rxSizeJumboCnt
      rxDropCnt := countEvent i.stat.statDrop stats.rxDropCnt }

/-- The counters of `stat_done` pulses by length. -/
def sizeCounters : List ((EthStats w → BitVec w) × (EthMacRxStat → Bool)) :=
  [(rxSize64Cnt, fun stat => bucket64 stat.statLen),
    (rxSize65To127Cnt, fun stat => bucket65To127 stat.statLen),
    (rxSize128To255Cnt, fun stat => bucket128To255 stat.statLen),
    (rxSize256To511Cnt, fun stat => bucket256To511 stat.statLen),
    (rxSize512To1023Cnt, fun stat => bucket512To1023 stat.statLen),
    (rxSize1024To1518Cnt, fun stat => bucket1024To1518 stat.statLen),
    (rxSizeJumboCnt, fun stat => bucketJumbo stat.statLen)]

/-- The counters of `stat_done` pulses, and which pulses each one counts. -/
def pulseCounters : List ((EthStats w → BitVec w) × (EthMacRxStat → Bool)) :=
  [(rxErrAlignCnt, EthMacRxStat.statErrAlign),
    (rxErrOverflowCnt, EthMacRxStat.statErrOverflow),
    (rxErrOversizeCnt, EthMacRxStat.statErrOversize),
    (rxErrCsumCnt, EthMacRxStat.statErrCsum), (rxBcastCnt, EthMacRxStat.statIsBcast),
    (rxMcastCnt, EthMacRxStat.statIsMcast)] ++ sizeCounters

theorem pulseCounters_clkEdge (stats : EthStats w) {i : EthStatsIn}
    (hclear : i.clrRx = false) :
    ∀ counter ∈ pulseCounters, counter.1 (stats.clkEdge i) =
      countEvent (i.stat.statDone && counter.2 i.stat) (counter.1 stats) := by
  simp [pulseCounters, sizeCounters, clkEdge, hclear]

theorem pulseCounters_reset :
    ∀ counter ∈ pulseCounters, counter.1 (reset : EthStats w) = 0 := by
  simp [pulseCounters, sizeCounters, reset]

end EthStats

/-- A saturating counter after so many events. -/
def Counts (cnt : BitVec w) (events : Nat) : Prop :=
  cnt.toNat = min events (2 ^ w - 1)

theorem counts_zero : Counts (0 : BitVec w) 0 := by
  simp [Counts]

theorem Counts.countEvent {cnt : BitVec w} {events : Nat} (hcounts : Counts cnt events)
    (event : Bool) : Counts (EmacZero.countEvent event cnt) (events + event.toNat) := by
  unfold Counts at hcounts ⊢
  have hpos := Nat.two_pow_pos w
  cases event with
  | false => simpa [EmacZero.countEvent] using hcounts
  | true =>
      simp only [EmacZero.countEvent, if_true, satInc, Bool.toNat_true]
      by_cases hfull : cnt = BitVec.allOnes w
      · rw [if_pos hfull]
        rw [hfull, BitVec.toNat_allOnes] at hcounts
        rw [hfull, BitVec.toNat_allOnes]
        omega
      · have hne : cnt.toNat ≠ 2 ^ w - 1 := by
          rw [← BitVec.toNat_allOnes, ne_eq, BitVec.toNat_inj]
          exact hfull
        have hlt : cnt.toNat + 1 < 2 ^ w := by
          have := cnt.isLt
          omega
        have hw : 0 < w := by
          by_contra hzero
          obtain rfl : w = 0 := by omega
          simp at hlt
        have hone : (1 : BitVec w).toNat = 1 := BitVec.toNat_one hw
        rw [if_neg hfull, BitVec.toNat_add_of_lt (by omega), hone]
        omega

/-- Below saturation a counter is exact. -/
theorem Counts.exact {cnt : BitVec w} {events : Nat} (hcounts : Counts cnt events)
    (hbelow : cnt ≠ BitVec.allOnes w) : cnt.toNat = events := by
  have hne : cnt.toNat ≠ 2 ^ w - 1 := by
    rw [← BitVec.toNat_allOnes, ne_eq, BitVec.toNat_inj]
    exact hbelow
  unfold Counts at hcounts
  omega

/-- The classification pulses of a kind. -/
def StatPulse.isDone (sort : EthMacRxStat → Bool) : StatPulse → Bool
  | .done stat => sort stat
  | .drop => false

def StatPulse.isDrop : StatPulse → Bool
  | .done _ => false
  | .drop => true

def MacWord.closesBad (word : MacWord) : Bool := word.last && word.err

variable {params : EthMacRxParams}

theorem EthMacRx.countP_pulsesNow_done (rx : EthMacRx params)
    (sort : EthMacRxStat → Bool) :
    rx.pulsesNow.countP (StatPulse.isDone sort) =
      (rx.statDone && sort rx.toEthMacRxStat).toNat := by
  cases hdone : rx.statDone <;> cases hdrop : rx.statDrop <;>
    cases hsort : sort rx.toEthMacRxStat <;>
    simp [EthMacRx.pulsesNow, hdone, hdrop, hsort, StatPulse.isDone]

theorem EthMacRx.countP_pulsesNow_drop (rx : EthMacRx params) :
    rx.pulsesNow.countP StatPulse.isDrop = rx.statDrop.toNat := by
  cases hdone : rx.statDone <;> cases hdrop : rx.statDrop <;>
    simp [EthMacRx.pulsesNow, hdone, hdrop, StatPulse.isDrop]

/-! What one envelope contributes. -/

/-- The envelope carries a frame for this station. -/
def RxEnvelope.passes (params : EthMacRxParams) (envelope : RxEnvelope) : Bool :=
  match payload envelope.beats with
  | none => false
  | some frame => forStation params frame

/-- It is delivered with the error flag. -/
def RxEnvelope.deliveredBad (params : EthMacRxParams) (envelope : RxEnvelope) : Bool :=
  (envelopeWords params envelope).any MacWord.closesBad

/-- One pulse for a frame for this station, of one kind; none for any other. -/
theorem framePulse_eq (envelope : RxEnvelope) :
    (envelope.passes params = true →
      (∃ stat, framePulse params envelope = [.done stat]) ∨
        framePulse params envelope = [.drop]) ∧
      (envelope.passes params = false → framePulse params envelope = []) := by
  unfold RxEnvelope.passes framePulse
  cases payload envelope.beats with
  | none => simp
  | some frame =>
      cases hstation : forStation params frame with
      | false => simp [started, hstation]
      | true =>
          cases hroom : startRoom frame <;> simp [started, hstation, hroom]

theorem countP_last_begun (frame : List RxBeat) :
    (begun frame).countP MacWord.last = 0 := by
  rw [List.countP_eq_zero]
  intro word hword
  simp [ (begins_begun frame).last word hword]

/-- As many closing words as `stat_done` pulses. -/
theorem countP_envelopeWords (envelope : RxEnvelope) :
    (envelopeWords params envelope).countP MacWord.last =
      (framePulse params envelope).countP (StatPulse.isDone fun _ => true) := by
  unfold envelopeWords framePulse
  cases payload envelope.beats with
  | none => rfl
  | some frame =>
      cases hstarted : started params frame with
      | false =>
          cases hstation : forStation params frame <;>
            simp [hstarted, hstation, StatPulse.isDone]
      | true =>
          simp [hstarted, countP_last_begun, closing, StatPulse.isDone]

theorem countP_closesBad_envelopeWords (envelope : RxEnvelope) :
    (envelopeWords params envelope).countP MacWord.closesBad =
      (envelope.deliveredBad params).toNat := by
  unfold RxEnvelope.deliveredBad envelopeWords
  cases payload envelope.beats with
  | none => rfl
  | some frame =>
      cases hstarted : started params frame with
      | false => simp [hstarted]
      | true =>
          have hbegun : (begun frame).countP MacWord.closesBad = 0 := by
            rw [List.countP_eq_zero]
            intro word hword
            simp [MacWord.closesBad, (begins_begun frame).last word hword]
          have hany : (begun frame).any MacWord.closesBad = false := by
            rw [List.any_eq_false]
            exact List.countP_eq_zero.mp hbegun
          simp only [hstarted, if_true, List.countP_append, List.any_append, hbegun, hany]
          cases herr : frameErr params envelope frame <;>
            simp [closing, MacWord.closesBad, herr]

theorem countP_framePulse (envelope : RxEnvelope) :
    (framePulse params envelope).countP (StatPulse.isDone fun _ => true) +
        (framePulse params envelope).countP StatPulse.isDrop =
      (envelope.passes params).toNat := by
  obtain ⟨hpasses, hother⟩ := @framePulse_eq params envelope
  cases hfor : envelope.passes params with
  | false => simp [hother hfor]
  | true =>
      rcases hpasses hfor with ⟨stat, hdone⟩ | hdrop
      · simp [hdone, StatPulse.isDone, StatPulse.isDrop]
      · simp [hdrop, StatPulse.isDone, StatPulse.isDrop]

/-- A count over all envelopes is the sum of theirs. -/
theorem countP_flatMap_eq {β : Type} {words : RxEnvelope → List β} {sort : β → Bool}
    {kind : RxEnvelope → Bool}
    (hone : ∀ envelope, (words envelope).countP sort = (kind envelope).toNat)
    (envelopes : List RxEnvelope) :
    (envelopes.flatMap words).countP sort = envelopes.countP kind := by
  induction envelopes with
  | nil => rfl
  | cons envelope rest ih =>
      rw [List.flatMap_cons, List.countP_append, ih, hone, List.countP_cons]
      cases kind envelope <;> simp [Nat.add_comm]

theorem countP_flatMap_congr {β γ : Type} {words : RxEnvelope → List β}
    {others : RxEnvelope → List γ} {sort : β → Bool} {kind : γ → Bool}
    (hone : ∀ envelope, (words envelope).countP sort = (others envelope).countP kind)
    (envelopes : List RxEnvelope) :
    (envelopes.flatMap words).countP sort = (envelopes.flatMap others).countP kind := by
  induction envelopes with
  | nil => rfl
  | cons envelope rest ih =>
      rw [List.flatMap_cons, List.flatMap_cons, List.countP_append, List.countP_append,
        ih, hone]

theorem countP_pulses (envelopes : List RxEnvelope) :
    (envelopes.flatMap (framePulse params)).countP (StatPulse.isDone fun _ => true) +
        (envelopes.flatMap (framePulse params)).countP StatPulse.isDrop =
      envelopes.countP (RxEnvelope.passes params) := by
  induction envelopes with
  | nil => rfl
  | cons envelope rest ih =>
      have hone := @countP_framePulse params envelope
      have hcons : (envelope :: rest).countP (RxEnvelope.passes params) =
          rest.countP (RxEnvelope.passes params) + (envelope.passes params).toNat := by
        rw [List.countP_cons]
        cases envelope.passes params <;> rfl
      rw [List.flatMap_cons, List.countP_append, List.countP_append, hcons, ← ih]
      omega

/-- A length of at least 64 is in one bucket, a shorter one in none. -/
theorem sum_buckets (len : BitVec 14) :
    (bucket64 len).toNat + (bucket65To127 len).toNat + (bucket128To255 len).toNat +
      (bucket256To511 len).toNat + (bucket512To1023 len).toNat +
      (bucket1024To1518 len).toNat + (bucketJumbo len).toNat =
        (decide (64 ≤ len.toNat)).toNat := by
  have h64 : bucket64 len = decide (len.toNat = 64) := by
    rw [bucket64, Bool.eq_iff_iff, beq_iff_eq, decide_eq_true_iff, ← BitVec.toNat_inj]
    rfl
  simp only [h64, bucket65To127, bucket128To255, bucket256To511, bucket512To1023,
    bucket1024To1518, bucketJumbo, sizeBucket, ← Bool.decide_and, Bool.toNat,
    Bool.cond_decide]
  split_ifs <;> omega

/-- The inputs of receiver and counters in one cycle. -/
structure MacStatsIn where
  pins : EthMacRxIn
  clrRx : Bool
deriving Repr, DecidableEq

/-- The receiver under observation, and its counters. -/
structure MacStatsBench (params : EthMacRxParams) (w : Nat) where
  mac : MacRxBench params
  stats : EthStats w

namespace MacStatsBench

variable {bench : MacStatsBench params w}

def start (mem : BitVec params.axisFifoAddrWidth → MacWord) (doutR : MacWord) :
    MacStatsBench params w where
  mac := .start mem doutR
  stats := .reset

/-- `rx_tlast_hs` -/
def rxTlastHs (rx : EthMacRx params) (pins : EthMacRxIn) : Bool :=
  rx.mAxisTaken pins && rx.fifo.doutR.last

def statsIn (rx : EthMacRx params) (cycle : MacStatsIn) : EthStatsIn where
  gmiiRxDv := cycle.pins.gmiiRxDv
  rxFrameGood := rxTlastHs rx cycle.pins && !rx.fifo.doutR.err
  rxFrameBad := rxTlastHs rx cycle.pins && rx.fifo.doutR.err
  stat := rx.toEthMacRxStat
  clrRx := cycle.clrRx

def step (bench : MacStatsBench params w) (cycle : MacStatsIn) :
    MacStatsBench params w where
  mac := bench.mac.step cycle.pins
  stats := bench.stats.clkEdge (statsIn bench.mac.rx cycle)

theorem mac_run (start : MacStatsBench params w) (cycles : List MacStatsIn) :
    (runFrom step start cycles).mac =
      runFrom MacRxBench.step start.mac (cycles.map MacStatsIn.pins) := by
  induction cycles generalizing start with
  | nil => rfl
  | cons cycle rest ih => exact ih (start.step cycle)

/-- Every counter has counted the words handed over, or the pulses raised, of its
kind. -/
structure Tallies (bench : MacStatsBench params w) : Prop where
  rxFrame : Counts bench.stats.rxFrameCnt (bench.mac.taken.countP MacWord.last)
  rxCrcErr : Counts bench.stats.rxCrcErrCnt (bench.mac.taken.countP MacWord.closesBad)
  rxDrop : Counts bench.stats.rxDropCnt (bench.mac.pulses.countP StatPulse.isDrop)
  pulse : ∀ counter ∈ EthStats.pulseCounters, Counts (counter.1 bench.stats)
    (bench.mac.pulses.countP (StatPulse.isDone counter.2))

theorem countP_taken_step (bench : MacRxBench params) (pins : EthMacRxIn)
    (sort : MacWord → Bool) :
    (bench.step pins).taken.countP sort =
      bench.taken.countP sort +
        (bench.rx.mAxisTaken pins && sort bench.rx.fifo.doutR).toNat := by
  cases htaken : bench.rx.mAxisTaken pins <;>
    cases hsort : sort bench.rx.fifo.doutR <;>
    simp [MacRxBench.step, htaken, hsort]

theorem Tallies.step (htallies : bench.Tallies) {cycle : MacStatsIn}
    (hclear : cycle.clrRx = false) : (bench.step cycle).Tallies := by
  refine ⟨?_, ?_, ?_, ?_⟩
  · have hcounts := htallies.rxFrame.countEvent (rxTlastHs bench.mac.rx cycle.pins)
    simp only [MacStatsBench.step, countP_taken_step, EthStats.clkEdge, statsIn, hclear,
      ← Bool.and_or_distrib_left, Bool.not_or_self, Bool.and_true]
    exact hcounts
  · have hcounts := htallies.rxCrcErr.countEvent
      (rxTlastHs bench.mac.rx cycle.pins && bench.mac.rx.fifo.doutR.err)
    rw [MacStatsBench.step, countP_taken_step]
    simpa [EthStats.clkEdge, statsIn, hclear, rxTlastHs, MacWord.closesBad,
      Bool.and_assoc] using hcounts
  · have hcounts := htallies.rxDrop.countEvent bench.mac.rx.statDrop
    rw [← EthMacRx.countP_pulsesNow_drop, ← List.countP_append] at hcounts
    simpa [MacStatsBench.step, MacRxBench.step, EthStats.clkEdge, statsIn, hclear]
      using hcounts
  · intro counter hcounter
    have hcounts := (htallies.pulse counter hcounter).countEvent
      (bench.mac.rx.statDone && counter.2 bench.mac.rx.toEthMacRxStat)
    have hnext := EthStats.pulseCounters_clkEdge bench.stats
      (show (statsIn bench.mac.rx cycle).clrRx = false from hclear) counter hcounter
    rw [← EthMacRx.countP_pulsesNow_done, ← List.countP_append] at hcounts
    rw [MacStatsBench.step, hnext]
    exact hcounts

theorem tallies_run (mem : BitVec params.axisFifoAddrWidth → MacWord) (doutR : MacWord)
    {cycles : List MacStatsIn} (hclear : ∀ cycle ∈ cycles, cycle.clrRx = false) :
    (runFrom step (start mem doutR : MacStatsBench params w) cycles).Tallies := by
  induction cycles using List.reverseRecOn with
  | nil =>
      refine ⟨counts_zero, counts_zero, counts_zero, ?_⟩
      intro counter hcounter
      rw [runFrom_nil, start, EthStats.pulseCounters_reset counter hcounter]
      exact counts_zero
  | append_singleton cycles cycle ih =>
      rw [runFrom_append]
      have hbefore := ih fun cycle hcycle => hclear cycle (List.mem_append_left _ hcycle)
      exact hbefore.step (hclear cycle (List.mem_append_right _ List.mem_cons_self))

end MacStatsBench

/-- No counter that the balance needs is at its maximum. -/
structure EthStats.Below (stats : EthStats w) : Prop where
  rxFrame : stats.rxFrameCnt ≠ BitVec.allOnes w
  rxCrcErr : stats.rxCrcErrCnt ≠ BitVec.allOnes w
  rxDrop : stats.rxDropCnt ≠ BitVec.allOnes w
  size : ∀ counter ∈ EthStats.sizeCounters, counter.1 stats ≠ BitVec.allOnes w

/-- All the size buckets together. -/
def EthStats.sizeTotal (stats : EthStats w) : Nat :=
  (sizeCounters.map fun counter => (counter.1 stats).toNat).sum

theorem countP_isDone_cons (pulse : StatPulse) (rest : List StatPulse)
    (sort : EthMacRxStat → Bool) :
    (pulse :: rest).countP (StatPulse.isDone sort) =
      rest.countP (StatPulse.isDone sort) + (pulse.isDone sort).toNat := by
  rw [List.countP_cons]
  cases pulse.isDone sort <;> rfl

theorem countP_isDone_sum (w : Nat) (pulses : List StatPulse) :
    ((EthStats.sizeCounters : List ((EthStats w → BitVec w) × _)).map fun counter =>
        pulses.countP (StatPulse.isDone counter.2)).sum =
      pulses.countP (StatPulse.isDone fun stat => decide (64 ≤ stat.statLen.toNat)) := by
  induction pulses with
  | nil => rfl
  | cons pulse rest ih =>
      simp only [EthStats.sizeCounters, List.map_cons, List.map_nil, List.sum_cons,
        List.sum_nil, countP_isDone_cons] at ih ⊢
      have hone : ∀ stat : EthMacRxStat, _ := fun stat => sum_buckets stat.statLen
      rw [← ih]
      cases pulse with
      | drop =>
          simp only [StatPulse.isDone, Bool.toNat_false]
          omega
      | done stat =>
          have hone := sum_buckets stat.statLen
          simp only [StatPulse.isDone]
          omega

/-- A closing word is on its way while `stat_done` is up. -/
theorem EthMacRx.Phase.statDone_clkEdge {rx : EthMacRx params} {pins : EthMacRxIn}
    {opened : List RxBeat} {ended : Option (List RxBeat × EthMacRxIn)}
    (hphase : rx.Phase opened ended) (hdone : (rx.clkEdge pins).statDone = true) :
    (rx.clkEdge pins).pushEnR = true := by
  change rx.pushEn pins = true
  have hcheck : rx.state = .crcCheck ∧ rx.frameStarted = true := by
    cases hstate : rx.state <;> cases hstarted : rx.frameStarted <;>
      simp [EthMacRx.clkEdge, EthMacRx.nextStat, hstate, hstarted] at hdone ⊢
  cases hphase with
  | crcCheck hstate hframe hrec her hcrc =>
      have hclose := hrec.closeNow_eq hstate
      rw [← hrec.frameStarted, hcheck.2] at hclose
      simp [EthMacRx.pushEn, hclose]
  | idle hstate _ => simp [hstate] at hcheck
  | preamble hstate _ _ _ _ => simp [hstate] at hcheck
  | data hstate _ _ _ _ => simp [hstate] at hcheck
  | drop hstate _ _ => simp [hstate] at hcheck

namespace MacRxBench

/-- A frame's pulse comes with its closing word. -/
theorem statDone_run (haddr : 2 ≤ params.axisFifoAddrWidth)
    (mem : BitVec params.axisFifoAddrWidth → MacWord) (doutR : MacWord)
    (cycles : List EthMacRxIn) :
    (runFrom step (start mem doutR) cycles).rx.statDone = true →
      (runFrom step (start mem doutR) cycles).rx.pushEnR = true := by
  induction cycles using List.reverseRecOn with
  | nil =>
      intro hdone
      simp [start, EthMacRx.reset] at hdone
  | append_singleton cycles pins _ =>
      rw [runFrom_append]
      exact (follows_run haddr mem doutR cycles).2.phase.statDone_clkEdge

end MacRxBench

namespace MacStatsBench

variable {bench : MacStatsBench params w}

/-- The FIFO is empty and no word is on its way into it. -/
def Drained (bench : MacStatsBench params w) : Prop :=
  bench.mac.rx.fifo.rdEmpty = true ∧ bench.mac.rx.pushEnR = false

theorem Drained.taken_eq (hdrained : bench.Drained) (hfollows : bench.mac.Follows) :
    bench.mac.taken =
      bench.mac.closed.flatMap (envelopeWords params) ++ bench.mac.queuing := by
  have hsent := hfollows.sent
  rw [MacRxBench.sent, SyncFifo.words_eq_nil_iff.mpr hdrained.1, hdrained.2] at hsent
  simpa using hsent

theorem countP_queuing {sort : MacWord → Bool} (bench : MacRxBench params)
    (hsort : ∀ word : MacWord, word.last = false → sort word = false) :
    bench.queuing.countP sort = 0 := by
  rw [List.countP_eq_zero]
  intro word hword
  simp [hsort word (bench.begins_queuing.last word hword)]

/-- Receive accounting is exact. -/
theorem accounts_run (haddr : 2 ≤ params.axisFifoAddrWidth)
    (mem : BitVec params.axisFifoAddrWidth → MacWord) (doutR : MacWord)
    (cycles : List MacStatsIn) (hclear : ∀ cycle ∈ cycles, cycle.clrRx = false) :
    let bench : MacStatsBench params w := runFrom step (start mem doutR) cycles
    bench.mac.pulses ++ bench.mac.rx.pulsesNow =
        bench.mac.closed.flatMap (framePulse params) ∧
      (∀ envelope ∈ bench.mac.closed,
        (envelope.passes params = true →
          (∃ stat, framePulse params envelope = [.done stat]) ∨
            framePulse params envelope = [.drop]) ∧
        (envelope.passes params = false → framePulse params envelope = [])) ∧
      (bench.stats.Below → bench.Drained →
        bench.stats.rxFrameCnt.toNat =
            bench.mac.pulses.countP (StatPulse.isDone fun _ => true) ∧
          bench.stats.rxCrcErrCnt.toNat =
            bench.mac.closed.countP (RxEnvelope.deliveredBad params) ∧
          bench.stats.rxDropCnt.toNat = bench.mac.pulses.countP StatPulse.isDrop ∧
          bench.stats.rxFrameCnt.toNat + bench.stats.rxDropCnt.toNat +
              bench.mac.rx.statDrop.toNat =
            bench.mac.closed.countP (RxEnvelope.passes params) ∧
          bench.stats.sizeTotal = bench.mac.pulses.countP
            (StatPulse.isDone fun stat => decide (64 ≤ stat.statLen.toNat))) := by
  intro bench
  have hmac : bench.mac = runFrom MacRxBench.step (MacRxBench.start mem doutR)
      (cycles.map MacStatsIn.pins) := mac_run _ _
  have hfollows : bench.mac.Follows := hmac ▸ (MacRxBench.follows_run haddr mem doutR _).2
  have hstatDone : bench.mac.rx.statDone = true → bench.mac.rx.pushEnR = true :=
    hmac ▸ MacRxBench.statDone_run haddr mem doutR _
  have htallies : bench.Tallies := tallies_run mem doutR hclear
  refine ⟨hfollows.pulses, fun envelope _ => framePulse_eq envelope, ?_⟩
  intro hbelow hdrained
  have hdone : bench.mac.rx.statDone = false := by
    cases hdone : bench.mac.rx.statDone with
    | false => rfl
    | true => simp [hdrained.2] at hstatDone; simp [hstatDone] at hdone
  have htaken := hdrained.taken_eq hfollows
  have hdones : bench.mac.pulses.countP (StatPulse.isDone fun _ => true) =
      (bench.mac.closed.flatMap (framePulse params)).countP
        (StatPulse.isDone fun _ => true) := by
    rw [← hfollows.pulses, List.countP_append, EthMacRx.countP_pulsesNow_done, hdone]
    rfl
  have hdrops : bench.mac.pulses.countP StatPulse.isDrop + bench.mac.rx.statDrop.toNat =
      (bench.mac.closed.flatMap (framePulse params)).countP StatPulse.isDrop := by
    rw [← hfollows.pulses, List.countP_append, EthMacRx.countP_pulsesNow_drop]
  have hframes : bench.stats.rxFrameCnt.toNat =
      bench.mac.pulses.countP (StatPulse.isDone fun _ => true) := by
    rw [htallies.rxFrame.exact hbelow.rxFrame, htaken, List.countP_append,
      countP_queuing bench.mac (fun _ hlast => hlast), hdones]
    exact countP_flatMap_congr countP_envelopeWords _
  have hdropped := htallies.rxDrop.exact hbelow.rxDrop
  refine ⟨hframes, ?_, hdropped, ?_, ?_⟩
  · rw [htallies.rxCrcErr.exact hbelow.rxCrcErr, htaken, List.countP_append,
      countP_queuing bench.mac (fun word hlast => by simp [MacWord.closesBad, hlast])]
    exact countP_flatMap_eq countP_closesBad_envelopeWords _
  · rw [hframes, hdropped, Nat.add_assoc, hdrops, hdones]
    exact countP_pulses _
  · rw [EthStats.sizeTotal, ← countP_isDone_sum w]
    congr 1
    apply List.map_congr_left
    intro counter hcounter
    exact (htallies.pulse counter (List.mem_append_right _ hcounter)).exact
      (hbelow.size counter hcounter)

/-- An SFD with these bytes behind it, and a gap. -/
def framePins (tready : Bool) (bytes : List (BitVec 8)) : List EthMacRxIn :=
  (0xD5 :: bytes).map (wirePins tready) ++ List.replicate 6 (quietPins tready)

def soundBytes : List (BitVec 8) := List.replicate 6 0xFF ++ List.replicate 54 0x11

/-- A sound frame of 64 bytes, a runt, a frame for another station, a frame that
overflows the FIFO of 16 words, one that finds no room, and then the FIFO drains. -/
def mixedCycles : List MacStatsIn :=
  (framePins true (soundBytes ++ fcsOf soundBytes) ++
    framePins true (List.replicate 6 0xFF) ++ framePins true (List.replicate 20 0x22) ++
    framePins false (List.replicate 20 0xFF) ++ framePins false (List.replicate 20 0xFF) ++
    List.replicate 40 (quietPins true)).map fun pins => ⟨pins, false⟩

def mixedParams : EthMacRxParams := ⟨false, 4, 1520, 9020, false, by decide, by decide⟩

/-- Five frames, of them four for this station: three delivered, two of these with
the error flag, and one dropped. -/
theorem accounts_run_mixed :
    let bench : MacStatsBench mixedParams 32 :=
      runFrom step (start (fun _ => plainWord 0) (plainWord 0)) mixedCycles
    bench.mac.closed.length = 5 ∧ bench.stats.rxFrameCnt.toNat = 3 ∧
      bench.stats.rxCrcErrCnt.toNat = 2 ∧ bench.stats.rxDropCnt.toNat = 1 ∧
      bench.stats.sizeTotal = 1 ∧
      bench.mac.pulses ++ bench.mac.rx.pulsesNow =
        bench.mac.closed.flatMap (framePulse mixedParams) ∧
      bench.stats.rxFrameCnt.toNat =
        bench.mac.pulses.countP (StatPulse.isDone fun _ => true) ∧
      bench.stats.rxFrameCnt.toNat + bench.stats.rxDropCnt.toNat +
          bench.mac.rx.statDrop.toNat =
        bench.mac.closed.countP (RxEnvelope.passes mixedParams) := by
  obtain ⟨hpulses, -, hdrained⟩ := accounts_run (w := 32) (by decide)
    (fun _ : BitVec mixedParams.axisFifoAddrWidth => plainWord 0) (plainWord 0)
    mixedCycles (by decide +kernel)
  obtain ⟨hframes, -, -, hbalance, -⟩ := hdrained
    ⟨by decide +kernel, by decide +kernel, by decide +kernel, by decide +kernel⟩
    ⟨by decide +kernel, by decide +kernel⟩
  exact ⟨by decide +kernel, by decide +kernel, by decide +kernel, by decide +kernel,
    by decide +kernel, hpulses, hframes, hbalance⟩

end MacStatsBench

end EmacZero
