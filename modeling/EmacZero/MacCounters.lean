/-
The counters of the MAC behind its registers: those of `eth_stats` and `eth_pause`, the
registers that show them and the pulses that clear them.
-/
import EmacZero.AxiliteRegs
import EmacZero.EthPause
import EmacZero.EthStats

namespace EmacZero

variable {w : Nat}

/-- The transmit inputs of `eth_stats` in one cycle: one of each for the two framers. -/
structure EthStatsTxIn where
  gmiiTxEn : Bool
  gmiiTxEn2 : Bool
  txFrameDone : Bool
  txFrameDone2 : Bool
  clrTx : Bool
deriving Repr, DecidableEq

/-- The transmit counters of `eth_stats`. -/
structure EthStatsTx (w : Nat) where
  txFrameCnt : BitVec w
  txByteCnt : BitVec w
deriving Repr, DecidableEq

/-- `sat_add2` -/
def satAdd2 (cnt : BitVec w) (a b : Bool) : BitVec w :=
  let sum : BitVec (w + 1) :=
    cnt.setWidth (w + 1) + (BitVec.ofBool a).setWidth (w + 1) + (BitVec.ofBool b).setWidth (w + 1)
  if sum.getLsbD w then BitVec.allOnes w else sum.setWidth w

namespace EthStatsTx

def clkEdge (stats : EthStatsTx w) (i : EthStatsTxIn) : EthStatsTx w :=
  if i.clrTx then ⟨0, 0⟩
  else
    { txFrameCnt :=
        if i.txFrameDone || i.txFrameDone2 then
          satAdd2 stats.txFrameCnt i.txFrameDone i.txFrameDone2
        else stats.txFrameCnt
      txByteCnt :=
        if i.gmiiTxEn || i.gmiiTxEn2 then satAdd2 stats.txByteCnt i.gmiiTxEn i.gmiiTxEn2
        else stats.txByteCnt }

end EthStatsTx

/-- A counter of `eth_pause`: cleared or, short of its maximum, incremented. -/
def pauseCnt (statClr event : Bool) (cnt : BitVec 32) : BitVec 32 :=
  if statClr then 0 else if event && cnt != 0xFFFFFFFF then cnt + 1 else cnt

theorem EthPauseTimer.clkEdge_pauseRxCnt (params : EthPauseParams) (timer : EthPauseTimer)
    (i : PauseRxIn) :
    (timer.clkEdge params i).pauseRxCnt = pauseCnt i.statClr timer.prxEvt timer.pauseRxCnt :=
  rfl

theorem EthPauseTx.clkEdge_pauseTxCnt (gen : EthPauseTx) (i : PauseTxIn) :
    (gen.clkEdge i).pauseTxCnt =
      pauseCnt i.statClr (gen.txState == .done) gen.pauseTxCnt := by
  rw [EthPauseTx.clkEdge, pauseCnt]
  cases i.statClr with
  | true => rfl
  | false =>
      cases hstate : gen.txState with
      | idle => cases i.cfgPauseTxSend <;> rfl
      | run =>
          cases i.pauseTready with
          | false => rfl
          | true =>
              by_cases hend : gen.txIdx = 59
              · simp only [hend, if_true]
                rfl
              · simp only [hend, if_true, if_false]
                rfl
      | done =>
          by_cases hfull : gen.pauseTxCnt = 0xFFFFFFFF
          · simp only [hfull]
            rfl
          · have hne : (gen.pauseTxCnt != 0xFFFFFFFF) = true := bne_iff_ne.mpr hfull
            simp only [hne, hfull, if_false]
            rfl

/-- What the counters count in one cycle. -/
structure MacCountersIn where
  tx : EthStatsTxIn
  rx : EthStatsIn
  prxEvt : Bool
  ptxDone : Bool
deriving Repr, DecidableEq

structure MacCounters where
  tx : EthStatsTx 32
  rx : EthStats 32
  pauseRxCnt : BitVec 32
  pauseTxCnt : BitVec 32
deriving Repr, DecidableEq

namespace MacCounters

def reset : MacCounters := ⟨⟨0, 0⟩, .reset, 0, 0⟩

/-- A rising edge of `clk`, with the clear pulses of the register block. -/
def clkEdge (counters : MacCounters) (pulses : CsrPulses) (i : MacCountersIn) :
    MacCounters where
  tx := counters.tx.clkEdge { i.tx with clrTx := pulses.statClrTx }
  rx := counters.rx.clkEdge { i.rx with clrRx := pulses.statClrRx }
  pauseRxCnt := pauseCnt pulses.statClrPause i.prxEvt counters.pauseRxCnt
  pauseTxCnt := pauseCnt pulses.statClrPause i.ptxDone counters.pauseTxCnt

/-- The counters on the inputs of the register block. -/
def status (counters : MacCounters) (other : CsrStatus) : CsrStatus :=
  { other with
    statTxFrameCnt := counters.tx.txFrameCnt
    statTxByteCnt := counters.tx.txByteCnt
    statRxFrameCnt := counters.rx.rxFrameCnt
    statRxByteCnt := counters.rx.rxByteCnt
    statRxErrCnt := counters.rx.rxCrcErrCnt
    statRxErrAlignCnt := counters.rx.rxErrAlignCnt
    statRxErrOverflowCnt := counters.rx.rxErrOverflowCnt
    statRxErrOversizeCnt := counters.rx.rxErrOversizeCnt
    statRxBcastCnt := counters.rx.rxBcastCnt
    statRxMcastCnt := counters.rx.rxMcastCnt
    statRxSize64Cnt := counters.rx.rxSize64Cnt
    statRxSize65To127Cnt := counters.rx.rxSize65To127Cnt
    statRxSize128To255Cnt := counters.rx.rxSize128To255Cnt
    statRxSize256To511Cnt := counters.rx.rxSize256To511Cnt
    statRxSize512To1023Cnt := counters.rx.rxSize512To1023Cnt
    statRxSize1024To1518Cnt := counters.rx.rxSize1024To1518Cnt
    statRxSizeJumboCnt := counters.rx.rxSizeJumboCnt
    statRxDropCnt := counters.rx.rxDropCnt
    statRxErrCsumCnt := counters.rx.rxErrCsumCnt
    statPauseRxCnt := counters.pauseRxCnt
    statPauseTxCnt := counters.pauseTxCnt }

end MacCounters

/-- The counter that a register shows, the events that it counts in a cycle, and the pulse
that clears it. -/
structure MacCounter where
  cnt : MacCounters → BitVec 32
  events : MacCountersIn → Nat
  clr : CsrPulses → Bool

/-- A receive counter, which counts at most one event a cycle. -/
def MacCounter.ofRx (cnt : EthStats 32 → BitVec 32) (event : EthStatsIn → Bool) : MacCounter where
  cnt counters := cnt counters.rx
  events i := (event i.rx).toNat
  clr := CsrPulses.statClrRx

/-- A receive counter of frames that the receiver has classified. -/
def MacCounter.ofDone (cnt : EthStats 32 → BitVec 32) (sort : EthMacRxStat → Bool) : MacCounter :=
  .ofRx cnt fun i => i.stat.statDone && sort i.stat

def Csr.counter : Csr → Option MacCounter
  | .txFrame => some
      { cnt := fun counters => counters.tx.txFrameCnt
        events := fun i => i.tx.txFrameDone.toNat + i.tx.txFrameDone2.toNat
        clr := CsrPulses.statClrTx }
  | .txByte => some
      { cnt := fun counters => counters.tx.txByteCnt
        events := fun i => i.tx.gmiiTxEn.toNat + i.tx.gmiiTxEn2.toNat
        clr := CsrPulses.statClrTx }
  | .rxFrame => some (.ofRx EthStats.rxFrameCnt fun i => i.rxFrameGood || i.rxFrameBad)
  | .rxByte => some (.ofRx EthStats.rxByteCnt EthStatsIn.gmiiRxDv)
  | .rxErr => some (.ofRx EthStats.rxCrcErrCnt EthStatsIn.rxFrameBad)
  | .rxErrAlign => some (.ofDone EthStats.rxErrAlignCnt EthMacRxStat.statErrAlign)
  | .rxErrOverflow => some (.ofDone EthStats.rxErrOverflowCnt EthMacRxStat.statErrOverflow)
  | .rxErrOversize => some (.ofDone EthStats.rxErrOversizeCnt EthMacRxStat.statErrOversize)
  | .rxBcast => some (.ofDone EthStats.rxBcastCnt EthMacRxStat.statIsBcast)
  | .rxMcast => some (.ofDone EthStats.rxMcastCnt EthMacRxStat.statIsMcast)
  | .rxSize64 => some (.ofDone EthStats.rxSize64Cnt fun stat => bucket64 stat.statLen)
  | .rxSize65To127 =>
      some (.ofDone EthStats.rxSize65To127Cnt fun stat => bucket65To127 stat.statLen)
  | .rxSize128To255 =>
      some (.ofDone EthStats.rxSize128To255Cnt fun stat => bucket128To255 stat.statLen)
  | .rxSize256To511 =>
      some (.ofDone EthStats.rxSize256To511Cnt fun stat => bucket256To511 stat.statLen)
  | .rxSize512To1023 =>
      some (.ofDone EthStats.rxSize512To1023Cnt fun stat => bucket512To1023 stat.statLen)
  | .rxSize1024To1518 =>
      some (.ofDone EthStats.rxSize1024To1518Cnt fun stat => bucket1024To1518 stat.statLen)
  | .rxSizeJumbo => some (.ofDone EthStats.rxSizeJumboCnt fun stat => bucketJumbo stat.statLen)
  | .rxDrop => some (.ofRx EthStats.rxDropCnt fun i => i.stat.statDrop)
  | .rxErrCsum => some (.ofDone EthStats.rxErrCsumCnt EthMacRxStat.statErrCsum)
  | .pauseRxCnt => some
      { cnt := MacCounters.pauseRxCnt
        events := fun i => i.prxEvt.toNat
        clr := CsrPulses.statClrPause }
  | .pauseTxCnt => some
      { cnt := MacCounters.pauseTxCnt
        events := fun i => i.ptxDone.toNat
        clr := CsrPulses.statClrPause }
  | _ => none

/-- What a saturating counter holds after a cycle: its events added, up to its maximum. -/
def SatAdds (before after : BitVec w) (events : Nat) : Prop :=
  after.toNat = min (before.toNat + events) (2 ^ w - 1)

theorem satAdds_countEvent (cnt : BitVec w) (event : Bool) :
    SatAdds cnt (countEvent event cnt) event.toNat := by
  have hcounts : Counts cnt cnt.toNat := by
    have hlt := cnt.isLt
    unfold Counts
    omega
  exact hcounts.countEvent event

theorem satAdds_satAdd2 (hw : 0 < w) (cnt : BitVec w) (a b : Bool) :
    SatAdds cnt (satAdd2 cnt a b) (a.toNat + b.toNat) := by
  have hlt := cnt.isLt
  have ha := a.toNat_le
  have hb := b.toNat_le
  have hpow : 2 ^ (w + 1) = 2 ^ w + 2 ^ w := by omega
  have hpos : 2 ≤ 2 ^ w := Nat.le_self_pow (Nat.ne_of_gt hw) 2
  have hbit : ∀ bit : Bool, ((BitVec.ofBool bit).setWidth (w + 1)).toNat = bit.toNat := by
    intro bit
    have hone := bit.toNat_le
    rw [BitVec.toNat_setWidth, BitVec.toNat_ofBool]
    exact Nat.mod_eq_of_lt (by omega)
  have hsum : (cnt.setWidth (w + 1) + (BitVec.ofBool a).setWidth (w + 1) +
      (BitVec.ofBool b).setWidth (w + 1)).toNat = cnt.toNat + a.toNat + b.toNat := by
    have hwide : (cnt.setWidth (w + 1)).toNat = cnt.toNat := by
      rw [BitVec.toNat_setWidth]
      exact Nat.mod_eq_of_lt (by omega)
    have hfirst : (cnt.setWidth (w + 1) + (BitVec.ofBool a).setWidth (w + 1)).toNat =
        cnt.toNat + a.toNat := by
      rw [BitVec.toNat_add, hbit, hwide]
      exact Nat.mod_eq_of_lt (by omega)
    rw [BitVec.toNat_add, hbit, hfirst]
    exact Nat.mod_eq_of_lt (by omega)
  have hcarry : (cnt.setWidth (w + 1) + (BitVec.ofBool a).setWidth (w + 1) +
      (BitVec.ofBool b).setWidth (w + 1)).getLsbD w =
        decide (2 ^ w ≤ cnt.toNat + a.toNat + b.toNat) := by
    rw [BitVec.getLsbD, hsum, Nat.testBit_eq_decide_div_mod_eq, Bool.eq_iff_iff,
      decide_eq_true_iff, decide_eq_true_iff]
    constructor
    · intro hodd
      by_contra hsmall
      rw [Nat.div_eq_of_lt (Nat.lt_of_not_le hsmall)] at hodd
      exact absurd hodd (by decide)
    · intro hlarge
      have hone : (cnt.toNat + a.toNat + b.toNat) / 2 ^ w = 1 :=
        Nat.div_eq_of_lt_le (by omega) (by omega)
      rw [hone]
  unfold SatAdds satAdd2
  dsimp only
  rw [hcarry]
  by_cases hfull : 2 ^ w ≤ cnt.toNat + a.toNat + b.toNat
  · rw [if_pos (decide_eq_true hfull), BitVec.toNat_allOnes]
    omega
  · rw [if_neg (by rw [decide_eq_true_iff]; exact hfull), BitVec.toNat_setWidth, hsum,
      Nat.mod_eq_of_lt (Nat.lt_of_not_le hfull)]
    omega

theorem satAdds_pauseCnt (cnt : BitVec 32) (event : Bool) :
    SatAdds cnt (pauseCnt false event cnt) event.toNat := by
  have hsame : pauseCnt false event cnt = countEvent event cnt := by
    rw [pauseCnt, countEvent, satInc, if_neg Bool.false_ne_true]
    cases event with
    | false => rfl
    | true =>
        by_cases hfull : cnt = 0xFFFFFFFF
        · rw [hfull]
          rfl
        · have hne : (cnt != 0xFFFFFFFF) = true := bne_iff_ne.mpr hfull
          rw [hne, Bool.and_self, if_pos rfl, if_pos rfl]
          exact (if_neg hfull).symm
  rw [hsame]
  exact satAdds_countEvent cnt event

/-- A counter is cleared by its pulse, and without it takes its events. -/
structure MacCounter.Counts (counter : MacCounter) : Prop where
  cleared : ∀ (counters : MacCounters) (pulses : CsrPulses) (i : MacCountersIn),
    counter.clr pulses = true → counter.cnt (counters.clkEdge pulses i) = 0
  counted : ∀ (counters : MacCounters) (pulses : CsrPulses) (i : MacCountersIn),
    counter.clr pulses = false →
      SatAdds (counter.cnt counters) (counter.cnt (counters.clkEdge pulses i)) (counter.events i)

theorem counts_ofRx {cnt : EthStats 32 → BitVec 32} {event : EthStatsIn → Bool}
    (hreset : cnt .reset = 0)
    (hcounts : ∀ (stats : EthStats 32) (i : EthStatsIn), i.clrRx = false →
      cnt (stats.clkEdge i) = countEvent (event i) (cnt stats))
    (hclr : ∀ i clrRx, event { i with clrRx } = event i) :
    (MacCounter.ofRx cnt event).Counts where
  cleared counters pulses i hclear := by
    change cnt (counters.rx.clkEdge { i.rx with clrRx := pulses.statClrRx }) = 0
    rw [EthStats.clkEdge]
    exact (congrArg cnt (if_pos hclear)).trans hreset
  counted counters pulses i hclear := by
    change SatAdds (cnt counters.rx)
      (cnt (counters.rx.clkEdge { i.rx with clrRx := pulses.statClrRx })) (event i.rx).toNat
    rw [hcounts _ _ hclear, ← hclr i.rx pulses.statClrRx]
    exact satAdds_countEvent _ _

theorem counts_ofPause {cnt : MacCounters → BitVec 32} {event : MacCountersIn → Bool}
    (hedge : ∀ (counters : MacCounters) (pulses : CsrPulses) (i : MacCountersIn),
      cnt (counters.clkEdge pulses i) = pauseCnt pulses.statClrPause (event i) (cnt counters)) :
    (MacCounter.mk cnt (fun i => (event i).toNat) CsrPulses.statClrPause).Counts where
  cleared counters pulses i hclear := by
    change cnt (counters.clkEdge pulses i) = 0
    rw [hedge, pauseCnt]
    exact if_pos hclear
  counted counters pulses i hclear := by
    change pulses.statClrPause = false at hclear
    dsimp only
    rw [hedge, hclear]
    exact satAdds_pauseCnt _ _

/-- The transmit counters add the events of both framers. -/
theorem counts_ofTx {cnt : EthStatsTx 32 → BitVec 32} {first second : EthStatsTxIn → Bool}
    (hreset : cnt ⟨0, 0⟩ = 0)
    (hcounts : ∀ (stats : EthStatsTx 32) (i : EthStatsTxIn), i.clrTx = false →
      cnt (stats.clkEdge i) =
        if first i || second i then satAdd2 (cnt stats) (first i) (second i) else cnt stats)
    (hfirst : ∀ i clrTx, first { i with clrTx } = first i)
    (hsecond : ∀ i clrTx, second { i with clrTx } = second i) :
    (MacCounter.mk (fun counters => cnt counters.tx)
      (fun i => (first i.tx).toNat + (second i.tx).toNat) CsrPulses.statClrTx).Counts where
  cleared counters pulses i hclear := by
    change cnt (counters.tx.clkEdge { i.tx with clrTx := pulses.statClrTx }) = 0
    rw [EthStatsTx.clkEdge]
    exact (congrArg cnt (if_pos hclear)).trans hreset
  counted counters pulses i hclear := by
    change SatAdds (cnt counters.tx)
      (cnt (counters.tx.clkEdge { i.tx with clrTx := pulses.statClrTx }))
      ((first i.tx).toNat + (second i.tx).toNat)
    have hadds := satAdds_satAdd2 (by decide) (cnt counters.tx) (first i.tx) (second i.tx)
    rw [hcounts _ _ hclear, hfirst, hsecond]
    cases hevent : first i.tx || second i.tx with
    | true => exact hadds
    | false =>
        obtain ⟨hnone, hnone'⟩ := Bool.or_eq_false_iff.mp hevent
        have hlt := (cnt counters.tx).isLt
        rw [if_neg Bool.false_ne_true, hnone, hnone']
        unfold SatAdds
        change _ = min (_ + 0) _
        omega

theorem Csr.counter_counts {csr : Csr} {counter : MacCounter}
    (hcounter : csr.counter = some counter) : counter.Counts := by
  have hrx : ∀ (cnt : EthStats 32 → BitVec 32) (event : EthStatsIn → Bool),
      some (MacCounter.ofRx cnt event) = some counter → cnt .reset = 0 →
      (∀ (stats : EthStats 32) (i : EthStatsIn), i.clrRx = false →
        cnt (stats.clkEdge i) = countEvent (event i) (cnt stats)) →
      (∀ i clrRx, event { i with clrRx } = event i) → counter.Counts := by
    intro cnt event heq hreset hcounts hclr
    rw [← Option.some.inj heq]
    exact counts_ofRx hreset hcounts hclr
  cases csr with
  | txFrame =>
      rw [← Option.some.inj hcounter]
      exact @counts_ofTx _ EthStatsTxIn.txFrameDone EthStatsTxIn.txFrameDone2 rfl
        (fun _ _ hclear => by simp [EthStatsTx.clkEdge, hclear]) (fun _ _ => rfl) fun _ _ => rfl
  | txByte =>
      rw [← Option.some.inj hcounter]
      exact @counts_ofTx _ EthStatsTxIn.gmiiTxEn EthStatsTxIn.gmiiTxEn2 rfl
        (fun _ _ hclear => by simp [EthStatsTx.clkEdge, hclear]) (fun _ _ => rfl) fun _ _ => rfl
  | pauseRxCnt =>
      rw [← Option.some.inj hcounter]
      exact counts_ofPause fun _ _ _ => rfl
  | pauseTxCnt =>
      rw [← Option.some.inj hcounter]
      exact counts_ofPause fun _ _ _ => rfl
  -- a receive counter, or a register that shows none
  | _ =>
      first
        | exact absurd hcounter.symm (Option.some_ne_none _)
        | exact hrx _ _ hcounter rfl (fun _ _ hclear => by simp [EthStats.clkEdge, hclear])
            fun _ _ => rfl

/-- A read of the register answers with its counter. -/
theorem Csr.read_counter {csr : Csr} {counter : MacCounter}
    (hcounter : csr.counter = some counter) (params : AxiliteParams) (file : CsrFile)
    (counters : MacCounters) (other : CsrStatus) :
    file.read params (counters.status other) csr = counter.cnt counters := by
  cases csr with
  | _ =>
      first
        | exact absurd hcounter.symm (Option.some_ne_none _)
        | rw [← Option.some.inj hcounter]; rfl

end EmacZero
