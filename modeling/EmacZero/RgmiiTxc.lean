/-
The transmit clock of `rgmii_if`: how a speed is taken from another clock domain, the
pattern that stands for TXC, and the pulses an observer of the pattern sees.
-/
import Mathlib.Data.BitVec
import Mathlib.Data.List.Chain
import EmacZero.ClockedRun

namespace EmacZero

/-- `RGMII_SPEEDS`: "ALL", "1G_ONLY" and "10_100". -/
inductive RgmiiSpeeds where
  | all | only1G | slow
deriving Repr, DecidableEq

namespace RgmiiSpeeds

def support1G (speeds : RgmiiSpeeds) : Bool := speeds == .all || speeds == .only1G
def support100 (speeds : RgmiiSpeeds) : Bool := speeds == .all || speeds == .slow
def support10 (speeds : RgmiiSpeeds) : Bool := speeds == .all || speeds == .slow
def supportSlow (speeds : RgmiiSpeeds) : Bool := speeds.support100 || speeds.support10

end RgmiiSpeeds

/-- The registers of `rgmii_if` on `clk_txc`. -/
structure RgmiiTxc where
  spdS1 : BitVec 2
  spdS2 : BitVec 2
  spdS3 : BitVec 2
  spdRun : BitVec 2
  txRstNS1 : Bool
  txRstNS2 : Bool
  txSpd : BitVec 2
  txLive : Bool
  txPh : BitVec 6
  txcD1 : Bool
  txcD2 : Bool
deriving Repr, DecidableEq

namespace RgmiiTxc

def reset : RgmiiTxc := ⟨0, 0, 0, 0, false, false, 0, false, 0, false, false⟩

section Edge

variable (speeds : RgmiiSpeeds) (txc : RgmiiTxc)

def spdOk : Bool := txc.spdS3 == txc.spdS2 && txc.spdRun == 3

def is1gTx : Bool := speeds.support1G && (txc.txSpd == 0 || txc.txSpd == 3)
def is100Tx : Bool := speeds.support100 && txc.txSpd == 1

def lastPh : BitVec 6 := if txc.is100Tx speeds then 4 else 49
def txcRise : BitVec 7 := if txc.is100Tx speeds then 2 else 25
def txcFall : BitVec 7 := if txc.is100Tx speeds then 7 else 75

def txS1 : BitVec 7 := txc.txPh ++ 0#1
def txS2 : BitVec 7 := txc.txPh ++ 1#1

def txWrap : Bool := !speeds.supportSlow || (txc.lastPh speeds).ule txc.txPh

/-- The slot is one of the high ones. -/
def highSlot (slot : BitVec 7) : Bool :=
  (txc.txcRise speeds).ule slot && slot.ult (txc.txcFall speeds)

/-- A rising edge of `clk_txc`, with what its first flops take for `cfg_speed`. -/
def clkEdge (cfgSpeed : BitVec 2) : RgmiiTxc where
  spdS1 := cfgSpeed
  spdS2 := txc.spdS1
  spdS3 := txc.spdS2
  spdRun :=
    if txc.spdS3 ≠ txc.spdS2 then 0
    else if txc.spdRun ≠ 3 then txc.spdRun + 1
    else txc.spdRun
  txRstNS1 := true
  txRstNS2 := txc.txRstNS1
  txSpd :=
    if !txc.txRstNS2 then 0
    else if (!txc.txLive || txc.txWrap speeds) && txc.spdOk then txc.spdS2
    else txc.txSpd
  txLive :=
    if !txc.txRstNS2 then false
    else txc.txLive || txc.spdOk
  txPh :=
    if !txc.txRstNS2 then 0
    else if !txc.txLive || txc.txWrap speeds then 0
    else txc.txPh + 1
  txcD1 :=
    if !txc.txRstNS2 || !txc.txLive then false
    else if txc.is1gTx speeds then true
    else if speeds.supportSlow then txc.highSlot speeds txc.txS1
    else false
  txcD2 :=
    if !txc.txRstNS2 || !txc.txLive then false
    else if txc.is1gTx speeds then false
    else if speeds.supportSlow then txc.highSlot speeds txc.txS2
    else false

/-- A speed goes into `tx_spd` at this edge. -/
def takesSpeed : Bool :=
  txc.txRstNS2 && (!txc.txLive || txc.txWrap speeds) && txc.spdOk

end Edge

end RgmiiTxc

/-- A pulse that has ended, and for how many slots the line was low before it. -/
structure Pulse where
  low : Nat
  high : Nat
deriving Repr, DecidableEq

/-- The pulses of a line, and for how long it has been high or low since. -/
structure PulseTrace where
  pulses : List Pulse
  high : Nat
  low : Nat
deriving Repr, DecidableEq

namespace PulseTrace

def unseen : PulseTrace := ⟨[], 0, 0⟩

def observe (trace : PulseTrace) (slot : Bool) : PulseTrace :=
  if slot then { trace with high := trace.high + 1 }
  else if trace.high = 0 then { trace with low := trace.low + 1 }
  else ⟨trace.pulses ++ [⟨trace.low, trace.high⟩], 0, 1⟩

end PulseTrace

/-- Low slots of a period before its pulse, the pulse, and the low slots behind it. -/
structure TxcRate where
  lead : Nat
  pulse : Nat
  tail : Nat
deriving Repr, DecidableEq

namespace TxcRate

def period (rate : TxcRate) : Nat := rate.lead + rate.pulse + rate.tail

/-- The pattern of a period. -/
def high (rate : TxcRate) (count : Nat) : Bool :=
  decide (rate.lead ≤ count ∧ count < rate.lead + rate.pulse)

def rate1G : TxcRate := ⟨0, 1, 1⟩
def rate100 : TxcRate := ⟨2, 5, 3⟩
def rate10 : TxcRate := ⟨25, 50, 25⟩

def rates : List TxcRate := [rate1G, rate100, rate10]

theorem high_iff {rate : TxcRate} {count : Nat} :
    rate.high count = true ↔ rate.lead ≤ count ∧ count < rate.lead + rate.pulse :=
  decide_eq_true_iff

end TxcRate

/-- What `rgmii_if` sends at a setting of `tx_spd`. -/
def txcRate (speeds : RgmiiSpeeds) (spd : BitVec 2) : TxcRate :=
  if speeds.support1G && (spd == 0 || spd == 3) then .rate1G
  else if speeds.support100 && spd == 1 then .rate100
  else .rate10

/-! What the pattern registers take, in slots of the period. -/

namespace RgmiiTxc

variable {speeds : RgmiiSpeeds} {txc : RgmiiTxc}

/-- The slot of the period that comes first in the next cycle. -/
def slot (speeds : RgmiiSpeeds) (txc : RgmiiTxc) : Nat :=
  2 * txc.txPh.toNat % (txcRate speeds txc.txSpd).period

theorem toNat_append_zero : ∀ ph : BitVec 6, (ph ++ 0#1).toNat = 2 * ph.toNat := by decide

theorem toNat_append_one : ∀ ph : BitVec 6, (ph ++ 1#1).toNat = 2 * ph.toNat + 1 := by
  decide

theorem toNat_add_one : ∀ {run : BitVec 2}, run ≠ 3 → (run + 1).toNat = run.toNat + 1 := by
  decide

theorem toNat_succ_ph : ∀ {ph : BitVec 6}, ph.toNat < 49 →
    (ph + 1).toNat = ph.toNat + 1 := by
  decide

theorem spd_cases : ∀ spd : BitVec 2, spd = 0 ∨ spd = 1 ∨ spd = 2 ∨ spd = 3 := by decide

/-- The three kinds of period. -/
theorem rate_cases (speeds : RgmiiSpeeds) (txc : RgmiiTxc) :
    (txc.is1gTx speeds = true ∧ txcRate speeds txc.txSpd = .rate1G ∧
      txc.lastPh speeds = 49) ∨
    (txc.is1gTx speeds = false ∧ txcRate speeds txc.txSpd = .rate100 ∧
      txc.lastPh speeds = 4 ∧ txc.txcRise speeds = 2 ∧ txc.txcFall speeds = 7) ∨
    (txc.is1gTx speeds = false ∧ txcRate speeds txc.txSpd = .rate10 ∧
      txc.lastPh speeds = 49 ∧ txc.txcRise speeds = 25 ∧ txc.txcFall speeds = 75) := by
  obtain hspd | hspd | hspd | hspd := spd_cases txc.txSpd <;> cases speeds <;>
    simp [is1gTx, txcRate, lastPh, txcRise, txcFall, is100Tx, hspd,
      RgmiiSpeeds.support1G, RgmiiSpeeds.support100]

theorem txcRate_mem (speeds : RgmiiSpeeds) (spd : BitVec 2) :
    txcRate speeds spd ∈ TxcRate.rates := by
  cases speeds <;> revert spd <;> decide

theorem supportSlow_of_ne (hslow : speeds ≠ .only1G) : speeds.supportSlow = true := by
  cases speeds with
  | all => rfl
  | only1G => exact absurd rfl hslow
  | slow => rfl

/-- The two slots of a cycle behind `tx_live`. -/
theorem clkEdge_slots (hslow : speeds ≠ .only1G) (hrst : txc.txRstNS2 = true)
    (hlive : txc.txLive = true) (hph : txc.txPh.ule (txc.lastPh speeds) = true)
    (cfgSpeed : BitVec 2) :
    let rate := txcRate speeds txc.txSpd
    (txc.clkEdge speeds cfgSpeed).txcD1 = rate.high (txc.slot speeds) ∧
      (txc.clkEdge speeds cfgSpeed).txcD2 = rate.high (txc.slot speeds + 1) := by
  intro rate
  have hsupport := supportSlow_of_ne hslow
  rw [BitVec.ule, decide_eq_true_iff] at hph
  simp only [clkEdge, hrst, hlive, hsupport, Bool.not_true, Bool.or_false, if_true,
    Bool.false_eq_true, if_false, rate, slot, highSlot, txS1, txS2, BitVec.ule,
    BitVec.ult, toNat_append_zero, toNat_append_one, ← Bool.decide_and]
  rcases rate_cases speeds txc with
    ⟨h1g, hrate, -⟩ | ⟨h1g, hrate, hlast, hrise, hfall⟩ | ⟨h1g, hrate, hlast, hrise, hfall⟩
  · have hslot : 2 * txc.txPh.toNat % TxcRate.rate1G.period = 0 := Nat.mul_mod_right 2 _
    rw [h1g, hrate, hslot]
    exact ⟨rfl, rfl⟩
  · have hslot : 2 * txc.txPh.toNat % TxcRate.rate100.period = 2 * txc.txPh.toNat := by
      rw [hlast] at hph
      exact Nat.mod_eq_of_lt (Nat.lt_of_le_of_lt (Nat.mul_le_mul_left 2 hph) (by decide))
    rw [h1g, hrate, hslot, hrise, hfall]
    exact ⟨rfl, rfl⟩
  · have hslot : 2 * txc.txPh.toNat % TxcRate.rate10.period = 2 * txc.txPh.toNat := by
      rw [hlast] at hph
      exact Nat.mod_eq_of_lt (Nat.lt_of_le_of_lt (Nat.mul_le_mul_left 2 hph) (by decide))
    rw [h1g, hrate, hslot, hrise, hfall]
    exact ⟨rfl, rfl⟩

theorem slot_le (speeds : RgmiiSpeeds) (txc : RgmiiTxc) :
    txc.slot speeds + 2 ≤ (txcRate speeds txc.txSpd).period := by
  rw [slot]
  rcases rate_cases speeds txc with ⟨-, hrate, -⟩ | ⟨-, hrate, -⟩ | ⟨-, hrate, -⟩ <;>
    rw [hrate] <;> simp only [TxcRate.period, TxcRate.rate1G, TxcRate.rate100,
      TxcRate.rate10] <;> omega

/-- The counter wraps at the end of a period. -/
theorem slot_wrap (hslow : speeds ≠ .only1G) (hph : txc.txPh.ule (txc.lastPh speeds) = true)
    (hwrap : txc.txWrap speeds = true) :
    txc.slot speeds + 2 = (txcRate speeds txc.txSpd).period := by
  have hlastPh : txc.txPh = txc.lastPh speeds := by
    rw [txWrap, supportSlow_of_ne hslow, Bool.not_true, Bool.false_or] at hwrap
    rw [BitVec.ule, decide_eq_true_iff] at hph hwrap
    exact BitVec.eq_of_toNat_eq (Nat.le_antisymm hph hwrap)
  rw [slot, hlastPh]
  rcases rate_cases speeds txc with ⟨-, hrate, hlast⟩ | ⟨-, hrate, hlast, -⟩ |
    ⟨-, hrate, hlast, -⟩ <;> rw [hrate, hlast] <;> decide

/-- Elsewhere it counts on. -/
theorem ph_next (hwrap : txc.txWrap speeds = false) :
    (txc.txPh + 1).ule (txc.lastPh speeds) = true ∧
      2 * (txc.txPh + 1).toNat = 2 * txc.txPh.toNat + 2 := by
  rw [txWrap, Bool.or_eq_false_iff, BitVec.ule, decide_eq_false_iff_not, Nat.not_le] at hwrap
  have hmax : (txc.lastPh speeds).toNat ≤ 49 := by
    rcases rate_cases speeds txc with ⟨-, -, hlast⟩ | ⟨-, -, hlast, -⟩ | ⟨-, -, hlast, -⟩ <;>
      rw [hlast] <;> decide
  have hnext := toNat_succ_ph (Nat.lt_of_lt_of_le hwrap.2 hmax)
  rw [BitVec.ule, decide_eq_true_iff, hnext]
  exact ⟨hwrap.2, Nat.mul_succ 2 _⟩

theorem slot_zero (hph : txc.txPh = 0) : txc.slot speeds = 0 := by
  rw [slot, hph]
  exact Nat.zero_mod _

theorem ule_of_zero (hph : txc.txPh = 0) : txc.txPh.ule (txc.lastPh speeds) = true := by
  rw [hph, BitVec.ule]
  exact decide_eq_true (Nat.zero_le _)

/-- A speed is taken: the counter starts with it. -/
theorem clkEdge_takes (htakes : txc.takesSpeed speeds = true) (cfgSpeed : BitVec 2) :
    (txc.clkEdge speeds cfgSpeed).txSpd = txc.spdS2 ∧
      (txc.clkEdge speeds cfgSpeed).txLive = true ∧
      (txc.clkEdge speeds cfgSpeed).txPh = 0 := by
  simp only [takesSpeed, Bool.and_eq_true, Bool.or_eq_true, Bool.not_eq_true'] at htakes
  obtain ⟨⟨hrst, hlive | hwrap⟩, hok⟩ := htakes
  · simp [clkEdge, hrst, hlive, hok]
  · simp [clkEdge, hrst, hwrap, hok]

/-- None is taken: the old one stays, live or not. -/
theorem clkEdge_keeps (htakes : txc.takesSpeed speeds = false) (hrst : txc.txRstNS2 = true)
    (cfgSpeed : BitVec 2) :
    (txc.clkEdge speeds cfgSpeed).txSpd = txc.txSpd ∧
      (txc.clkEdge speeds cfgSpeed).txLive = txc.txLive := by
  simp only [takesSpeed, hrst, Bool.true_and] at htakes
  cases hlive : txc.txLive with
  | false => simp_all [clkEdge]
  | true => simp_all [clkEdge]

theorem clkEdge_reset (speeds : RgmiiSpeeds) (hrst : txc.txRstNS2 = false) (cfgSpeed : BitVec 2) :
    (txc.clkEdge speeds cfgSpeed).txLive = false ∧
      (txc.clkEdge speeds cfgSpeed).txPh = 0 := by
  simp [clkEdge, hrst]

/-- Without a speed the line is low and the counter waits. -/
theorem clkEdge_quiet (speeds : RgmiiSpeeds) (hlive : txc.txLive = false) (cfgSpeed : BitVec 2) :
    (txc.clkEdge speeds cfgSpeed).txcD1 = false ∧
      (txc.clkEdge speeds cfgSpeed).txcD2 = false ∧
      (txc.clkEdge speeds cfgSpeed).txPh = 0 := by
  simp [clkEdge, hlive]

/-- Behind `tx_live` the counter counts modulo the period. -/
theorem clkEdge_ph (speeds : RgmiiSpeeds) (hrst : txc.txRstNS2 = true)
    (hlive : txc.txLive = true) (cfgSpeed : BitVec 2) :
    (txc.clkEdge speeds cfgSpeed).txPh =
      if txc.txWrap speeds then 0 else txc.txPh + 1 := by
  simp [clkEdge, hrst, hlive]

end RgmiiTxc

/-! A period on the line. -/

section Phase

/-- The last pulse was a whole one, and the line has been low since for its tail and
`more`. -/
def Behind (trace : PulseTrace) (more : Nat) : Prop :=
  ∀ last ∈ trace.pulses.getLast?, ∃ rate ∈ TxcRate.rates,
    last.high = rate.pulse ∧ rate.tail + more ≤ trace.low

/-- The line `count` slots into a period. -/
inductive Phase (rate : TxcRate) (trace : PulseTrace) (count : Nat) : Prop
  | lead (hcount : count ≤ rate.lead) (hhigh : trace.high = 0)
      (hbehind : Behind trace count)
  | pulse (hlead : rate.lead < count) (hcount : count ≤ rate.lead + rate.pulse)
      (hhigh : trace.high = count - rate.lead) (hbehind : Behind trace rate.lead)
  | tail (hcount : rate.lead + rate.pulse < count) (hhigh : trace.high = 0)
      (hlast : ∃ low, trace.pulses.getLast? = some ⟨low, rate.pulse⟩)
      (hlow : count - (rate.lead + rate.pulse) ≤ trace.low)

/-- Between two pulses the line is low for as long as the shorter of them is high. -/
def Apart (before after : Pulse) : Prop := min before.high after.high ≤ after.low

variable {rate : TxcRate} {trace : PulseTrace} {count : Nat}

theorem pulse_pos : ∀ rate ∈ TxcRate.rates, 0 < rate.pulse := by decide

theorem tail_pos : ∀ rate ∈ TxcRate.rates, 0 < rate.tail := by decide

/-- The pulses of any two rates in a row. -/
theorem min_pulse_le : ∀ rate ∈ TxcRate.rates, ∀ other ∈ TxcRate.rates,
    min other.pulse rate.pulse ≤ other.tail + rate.lead := by decide

theorem Phase.high_le (hphase : Phase rate trace count) : trace.high ≤ rate.pulse := by
  cases hphase with
  | lead hcount hhigh hbehind => exact hhigh ▸ Nat.zero_le _
  | pulse hlead hcount hhigh hbehind => omega
  | tail hcount hhigh hlast hlow => exact hhigh ▸ Nat.zero_le _

/-- A period is over: the next may be of any rate. -/
theorem Phase.next (hrate : rate ∈ TxcRate.rates) (hphase : Phase rate trace rate.period)
    (other : TxcRate) : Phase other trace 0 := by
  have htail := tail_pos rate hrate
  rw [TxcRate.period] at hphase
  cases hphase with
  | lead hcount => omega
  | pulse hlead hcount => omega
  | tail hcount hhigh hlast hlow =>
      refine .lead (Nat.zero_le _) hhigh ?_
      intro last hmem
      obtain ⟨low, hsame⟩ := hlast
      rw [hsame] at hmem
      obtain rfl := Option.some_inj.mp hmem
      exact ⟨rate, hrate, rfl, by omega⟩

theorem Phase.wrapped (hrate : rate ∈ TxcRate.rates) (hphase : Phase rate trace count)
    (hcount : count ≤ rate.period) : Phase rate trace (count % rate.period) := by
  rcases Nat.lt_or_eq_of_le hcount with hlt | heq
  · rw [Nat.mod_eq_of_lt hlt]
    exact hphase
  · rw [heq] at hphase ⊢
    rw [Nat.mod_self]
    exact hphase.next hrate rate

/-- One slot: the pulse that it may end is whole and far enough from the last. -/
theorem Phase.observe (hrate : rate ∈ TxcRate.rates) (hphase : Phase rate trace count)
    (hchain : trace.pulses.IsChain Apart) :
    let after := trace.observe (rate.high count)
    Phase rate after (count + 1) ∧ after.pulses.IsChain Apart ∧
      ∀ pulse ∈ after.pulses, pulse ∈ trace.pulses ∨ pulse.high = rate.pulse := by
  intro after
  have hpulse := pulse_pos rate hrate
  cases hphase with
  | lead hcount hhigh hbehind =>
      by_cases hfirst : count = rate.lead
      · have hafter : after = { trace with high := trace.high + 1 } := by
          simp only [after, PulseTrace.observe]
          rw [if_pos (TxcRate.high_iff.mpr (by omega))]
        rw [hafter]
        refine ⟨.pulse (by omega) (by omega) ?_ ?_, hchain, fun _ => Or.inl⟩
        · simp only [hhigh, hfirst]
          omega
        · rw [← hfirst]
          exact hbehind
      · have hafter : after = { trace with low := trace.low + 1 } := by
          simp only [after, PulseTrace.observe]
          rw [if_neg (mt TxcRate.high_iff.mp (by omega)), if_pos hhigh]
        rw [hafter]
        refine ⟨.lead (by omega) hhigh ?_, hchain, fun _ => Or.inl⟩
        intro last hmem
        obtain ⟨other, hother, hsame, hlow⟩ := hbehind last hmem
        exact ⟨other, hother, hsame, Nat.succ_le_succ hlow⟩
  | pulse hlead hcount hhigh hbehind =>
      by_cases hmore : count < rate.lead + rate.pulse
      · have hafter : after = { trace with high := trace.high + 1 } := by
          simp only [after, PulseTrace.observe]
          rw [if_pos (TxcRate.high_iff.mpr (by omega))]
        rw [hafter]
        refine ⟨.pulse (by omega) (by omega) ?_ hbehind, hchain, fun _ => Or.inl⟩
        simp only [hhigh]
        omega
      · have hwhole : trace.high = rate.pulse := by omega
        have hafter : after = ⟨trace.pulses ++ [⟨trace.low, trace.high⟩], 0, 1⟩ := by
          simp only [after, PulseTrace.observe]
          rw [if_neg (mt TxcRate.high_iff.mp (by omega)), if_neg (by omega)]
        rw [hafter, hwhole]
        refine ⟨.tail (by omega) rfl ⟨trace.low, by simp⟩ (by simp only; omega), ?_, ?_⟩
        · rw [List.isChain_append]
          refine ⟨hchain, .singleton _, ?_⟩
          intro last hmem next hnext
          obtain ⟨other, hother, hsame, hlow⟩ := hbehind last hmem
          rw [List.head?_cons, Option.mem_some] at hnext
          rw [← hnext, Apart, hsame]
          exact (min_pulse_le rate hrate other hother).trans hlow
        · intro pulse hmem
          rcases List.mem_append.mp hmem with hold | hnew
          · exact Or.inl hold
          · rw [List.mem_singleton.mp hnew]
            exact Or.inr rfl
  | tail hcount hhigh hlast hlow =>
      have hafter : after = { trace with low := trace.low + 1 } := by
        simp only [after, PulseTrace.observe]
        rw [if_neg (mt TxcRate.high_iff.mp (by omega)), if_pos hhigh]
      rw [hafter]
      exact ⟨.tail (by omega) hhigh hlast (by simp only; omega), hchain, fun _ => Or.inl⟩

end Phase

/-- The registers, the samples of `cfg_speed` so far, the speeds taken, and the line. -/
structure TxcBench where
  txc : RgmiiTxc
  samples : List (BitVec 2)
  taken : List (BitVec 2)
  trace : PulseTrace
deriving Repr, DecidableEq

namespace TxcBench

def start : TxcBench := ⟨.reset, [], [], .unseen⟩

def step (speeds : RgmiiSpeeds) (bench : TxcBench) (cfgSpeed : BitVec 2) : TxcBench where
  txc := bench.txc.clkEdge speeds cfgSpeed
  samples := bench.samples ++ [cfgSpeed]
  taken := if bench.txc.takesSpeed speeds then bench.taken ++ [bench.txc.spdS2] else bench.taken
  trace :=
    (bench.trace.observe (bench.txc.clkEdge speeds cfgSpeed).txcD1).observe
      (bench.txc.clkEdge speeds cfgSpeed).txcD2

/-- What has gone into the synchronizer: what its flops hold from reset on, and the
samples. -/
def carried (bench : TxcBench) : List (BitVec 2) := [0, 0, 0] ++ bench.samples

/-- The synchronizer holds the last samples, the last of its flops for as long as
`spd_run` counts. -/
def Settling (bench : TxcBench) : Prop :=
  List.replicate (bench.txc.spdRun.toNat + 1) bench.txc.spdS3 ++
    [bench.txc.spdS2, bench.txc.spdS1] <:+ bench.carried

variable {speeds : RgmiiSpeeds} {bench : TxcBench} {cfgSpeed : BitVec 2}

theorem carried_step : (bench.step speeds cfgSpeed).carried = bench.carried ++ [cfgSpeed] :=
  rfl

theorem settling_start : start.Settling := List.suffix_rfl

theorem Settling.step (hsettling : bench.Settling) :
    (bench.step speeds cfgSpeed).Settling := by
  obtain ⟨front, hfront⟩ := hsettling
  rw [Settling, carried_step, ← hfront]
  change List.replicate
    ((if bench.txc.spdS3 ≠ bench.txc.spdS2 then 0
      else if bench.txc.spdRun ≠ 3 then bench.txc.spdRun + 1
      else bench.txc.spdRun : BitVec 2).toNat + 1) bench.txc.spdS2 ++
    [bench.txc.spdS1, cfgSpeed] <:+ _
  by_cases hsame : bench.txc.spdS3 = bench.txc.spdS2
  · rw [if_neg (not_not_intro hsame), hsame]
    by_cases hrun : bench.txc.spdRun = 3
    · rw [if_neg (not_not_intro hrun), hrun]
      exact ⟨front ++ [bench.txc.spdS2], by simp [List.replicate_succ]⟩
    · have hcount := RgmiiTxc.toNat_add_one hrun
      rw [if_pos hrun, hcount, List.replicate_succ']
      exact ⟨front, by simp⟩
  · rw [if_pos hsame]
    exact ⟨front ++ List.replicate (bench.txc.spdRun.toNat + 1) bench.txc.spdS3, by simp⟩

/-- The synchronized value has been the same for five cycles. -/
theorem Settling.five (hsettling : bench.Settling) (hok : bench.txc.spdOk = true) :
    List.replicate 5 bench.txc.spdS2 ++ [bench.txc.spdS1] <:+ bench.carried := by
  simp only [RgmiiTxc.spdOk, Bool.and_eq_true, beq_iff_eq] at hok
  rw [Settling, hok.1, hok.2] at hsettling
  exact hsettling

/-- The line against the registers: in a period of the speed in use, with every pulse
behind it that of a speed taken. -/
structure Tracks (speeds : RgmiiSpeeds) (bench : TxcBench) : Prop where
  settling : bench.Settling
  released : bench.txc.txRstNS2 = true → bench.txc.txRstNS1 = true
  idle : bench.txc.txRstNS2 = false → bench.txc.txSpd = 0
  live : bench.txc.txLive = true → bench.txc.txRstNS2 = true ∧ bench.txc.txSpd ∈ bench.taken
  unsent : bench.txc.txLive = false → bench.trace.pulses = [] ∧ bench.trace.high = 0
  counter : bench.txc.txPh.ule (bench.txc.lastPh speeds) = true
  phase : Phase (txcRate speeds bench.txc.txSpd) bench.trace (bench.txc.slot speeds)
  chain : bench.trace.pulses.IsChain Apart
  pulses : ∀ pulse ∈ bench.trace.pulses, ∃ spd ∈ bench.taken,
    pulse.high = (txcRate speeds spd).pulse
  taken : ∀ spd ∈ bench.taken, List.replicate 5 spd <:+: bench.carried

/-- A speed is taken at the end of a period, where the synchronizer has held it for five
cycles. -/
def TakenWell (bench : TxcBench) (speeds : RgmiiSpeeds) (cfgSpeed : BitVec 2) : Prop :=
  let next := bench.step speeds cfgSpeed
  next.txc.txSpd ≠ bench.txc.txSpd ∨ next.txc.txLive ≠ bench.txc.txLive →
    (bench.txc.txLive = true →
      (txcRate speeds bench.txc.txSpd).period ∣ 2 * (bench.txc.txPh.toNat + 1)) ∧
    next.txc.txSpd = bench.txc.spdS2 ∧
    List.replicate 5 bench.txc.spdS2 ++ [bench.txc.spdS1] <:+ bench.carried

theorem tracks_start (speeds : RgmiiSpeeds) : start.Tracks speeds where
  settling := settling_start
  released hrst := absurd hrst (by decide)
  idle _ := rfl
  live hlive := absurd hlive (by decide)
  unsent _ := ⟨rfl, rfl⟩
  counter := by cases speeds <;> rfl
  phase := by
    rw [RgmiiTxc.slot_zero rfl]
    exact .lead (Nat.zero_le _) rfl (by simp [Behind, start, PulseTrace.unseen])
  chain := .nil
  pulses pulse hmem := absurd hmem List.not_mem_nil
  taken spd hmem := absurd hmem List.not_mem_nil

theorem txc_step : (bench.step speeds cfgSpeed).txc = bench.txc.clkEdge speeds cfgSpeed := rfl

theorem trace_step : (bench.step speeds cfgSpeed).trace =
    (bench.trace.observe (bench.txc.clkEdge speeds cfgSpeed).txcD1).observe
      (bench.txc.clkEdge speeds cfgSpeed).txcD2 := rfl

theorem mem_taken_step {spd : BitVec 2} : spd ∈ (bench.step speeds cfgSpeed).taken ↔
    spd ∈ bench.taken ∨ bench.txc.takesSpeed speeds = true ∧ spd = bench.txc.spdS2 := by
  rw [TxcBench.step]
  cases bench.txc.takesSpeed speeds with
  | false => simp
  | true => simp

/-- The line before a speed is taken. -/
theorem Tracks.quiet (htracks : bench.Tracks speeds) (hlive : bench.txc.txLive = false)
    (cfgSpeed : BitVec 2) :
    (bench.step speeds cfgSpeed).trace.pulses = [] ∧
      (bench.step speeds cfgSpeed).trace.high = 0 := by
  obtain ⟨hpulses, hhigh⟩ := htracks.unsent hlive
  obtain ⟨hfirst, hsecond, -⟩ := RgmiiTxc.clkEdge_quiet speeds hlive cfgSpeed
  rw [trace_step, hfirst, hsecond]
  simp [PulseTrace.observe, hpulses, hhigh]

/-- The line over a cycle of a period. -/
theorem Tracks.line (htracks : bench.Tracks speeds) (hslow : speeds ≠ .only1G)
    (hlive : bench.txc.txLive = true) (cfgSpeed : BitVec 2) :
    Phase (txcRate speeds bench.txc.txSpd) (bench.step speeds cfgSpeed).trace
        (bench.txc.slot speeds + 2) ∧
      (bench.step speeds cfgSpeed).trace.pulses.IsChain Apart ∧
      ∀ pulse ∈ (bench.step speeds cfgSpeed).trace.pulses, pulse ∈ bench.trace.pulses ∨
        pulse.high = (txcRate speeds bench.txc.txSpd).pulse := by
  have hrate := RgmiiTxc.txcRate_mem speeds bench.txc.txSpd
  obtain ⟨hfirst, hsecond⟩ := RgmiiTxc.clkEdge_slots hslow (htracks.live hlive).1 hlive
    htracks.counter cfgSpeed
  obtain ⟨hphase, hchain, hpulses⟩ := htracks.phase.observe hrate htracks.chain
  obtain ⟨hphase, hchain, hmore⟩ := hphase.observe hrate hchain
  rw [trace_step, hfirst, hsecond]
  refine ⟨hphase, hchain, ?_⟩
  intro pulse hmem
  rcases hmore pulse hmem with hold | hnew
  · exact hpulses pulse hold
  · exact Or.inr hnew

/-- The next cycle, of the same period or the next one. -/
theorem Tracks.phase_step (htracks : bench.Tracks speeds) (hslow : speeds ≠ .only1G) :
    Phase (txcRate speeds (bench.step speeds cfgSpeed).txc.txSpd)
      (bench.step speeds cfgSpeed).trace ((bench.step speeds cfgSpeed).txc.slot speeds) := by
  cases hlive : bench.txc.txLive with
  | false =>
      obtain ⟨hpulses, hhigh⟩ := htracks.quiet hlive cfgSpeed
      have hph := (RgmiiTxc.clkEdge_quiet speeds hlive cfgSpeed).2.2
      rw [txc_step, RgmiiTxc.slot_zero hph]
      refine .lead (Nat.zero_le _) hhigh ?_
      intro last hmem
      rw [hpulses] at hmem
      exact absurd hmem (by simp)
  | true =>
      have hline := (htracks.line hslow hlive cfgSpeed).1
      have hrate := RgmiiTxc.txcRate_mem speeds bench.txc.txSpd
      obtain ⟨hrst, -⟩ := htracks.live hlive
      have hph := RgmiiTxc.clkEdge_ph speeds hrst hlive cfgSpeed
      cases hwrap : bench.txc.txWrap speeds with
      | true =>
          rw [hwrap, if_pos rfl] at hph
          rw [RgmiiTxc.slot_wrap hslow htracks.counter hwrap] at hline
          rw [txc_step, RgmiiTxc.slot_zero hph]
          exact hline.next hrate _
      | false =>
          have htakes : bench.txc.takesSpeed speeds = false := by
            simp [RgmiiTxc.takesSpeed, hlive, hwrap]
          have hspd := (RgmiiTxc.clkEdge_keeps htakes hrst cfgSpeed).1
          have hcount := (RgmiiTxc.ph_next hwrap).2
          have hwrapped := hline.wrapped hrate (RgmiiTxc.slot_le speeds bench.txc)
          rw [hwrap, if_neg Bool.false_ne_true] at hph
          change Phase (txcRate speeds (bench.txc.clkEdge speeds cfgSpeed).txSpd) _
            (2 * (bench.txc.clkEdge speeds cfgSpeed).txPh.toNat %
              (txcRate speeds (bench.txc.clkEdge speeds cfgSpeed).txSpd).period)
          rw [hspd, hph, hcount]
          rw [RgmiiTxc.slot, Nat.mod_add_mod] at hwrapped
          exact hwrapped

theorem Tracks.live_stays (htracks : bench.Tracks speeds) (hlive : bench.txc.txLive = true) :
    (bench.step speeds cfgSpeed).txc.txLive = true := by
  rw [txc_step, RgmiiTxc.clkEdge, (htracks.live hlive).1, hlive]
  rfl

theorem Tracks.step (htracks : bench.Tracks speeds) (hslow : speeds ≠ .only1G)
    (cfgSpeed : BitVec 2) : (bench.step speeds cfgSpeed).Tracks speeds where
  settling := htracks.settling.step
  released _ := rfl
  idle := by
    intro hnext
    have hrst : bench.txc.txRstNS2 = false := by
      cases hrst : bench.txc.txRstNS2 with
      | false => rfl
      | true => exact absurd ((htracks.released hrst).symm.trans hnext) (by decide)
    rw [txc_step, RgmiiTxc.clkEdge, hrst]
    rfl
  live := by
    intro hnext
    cases hrst : bench.txc.txRstNS2 with
    | false =>
        have hdead := (RgmiiTxc.clkEdge_reset speeds hrst cfgSpeed).1
        exact absurd (hdead.symm.trans hnext) Bool.false_ne_true
    | true =>
        refine ⟨htracks.released hrst, mem_taken_step.mpr ?_⟩
        cases htakes : bench.txc.takesSpeed speeds with
        | true => exact Or.inr ⟨rfl, (RgmiiTxc.clkEdge_takes htakes cfgSpeed).1⟩
        | false =>
            obtain ⟨hspd, hlive⟩ := RgmiiTxc.clkEdge_keeps htakes hrst cfgSpeed
            change (bench.txc.clkEdge speeds cfgSpeed).txSpd ∈ _ ∨ _
            rw [hspd]
            exact Or.inl (htracks.live (hlive.symm.trans hnext)).2
  unsent := by
    intro hnext
    cases hlive : bench.txc.txLive with
    | false => exact htracks.quiet hlive cfgSpeed
    | true => exact absurd ((htracks.live_stays hlive).symm.trans hnext) (by decide)
  counter := by
    cases hlive : bench.txc.txLive with
    | false =>
        exact RgmiiTxc.ule_of_zero (RgmiiTxc.clkEdge_quiet speeds hlive cfgSpeed).2.2
    | true =>
        have hrst := (htracks.live hlive).1
        have hph := RgmiiTxc.clkEdge_ph speeds hrst hlive cfgSpeed
        cases hwrap : bench.txc.txWrap speeds with
        | true =>
            rw [hwrap, if_pos rfl] at hph
            exact RgmiiTxc.ule_of_zero hph
        | false =>
            have htakes : bench.txc.takesSpeed speeds = false := by
              simp [RgmiiTxc.takesSpeed, hlive, hwrap]
            have hspd := (RgmiiTxc.clkEdge_keeps htakes hrst cfgSpeed).1
            have hlast : (bench.txc.clkEdge speeds cfgSpeed).lastPh speeds =
                bench.txc.lastPh speeds := by
              rw [RgmiiTxc.lastPh, RgmiiTxc.lastPh, RgmiiTxc.is100Tx, RgmiiTxc.is100Tx, hspd]
            rw [hwrap, if_neg Bool.false_ne_true] at hph
            rw [txc_step, hlast, hph]
            exact (RgmiiTxc.ph_next hwrap).1
  phase := htracks.phase_step hslow
  chain := by
    cases hlive : bench.txc.txLive with
    | false =>
        rw [(htracks.quiet hlive cfgSpeed).1]
        exact .nil
    | true => exact (htracks.line hslow hlive cfgSpeed).2.1
  pulses := by
    intro pulse hmem
    cases hlive : bench.txc.txLive with
    | false =>
        rw [(htracks.quiet hlive cfgSpeed).1] at hmem
        exact absurd hmem List.not_mem_nil
    | true =>
        rcases (htracks.line hslow hlive cfgSpeed).2.2 pulse hmem with hold | hnew
        · obtain ⟨spd, hspd, hhigh⟩ := htracks.pulses pulse hold
          exact ⟨spd, mem_taken_step.mpr (Or.inl hspd), hhigh⟩
        · exact ⟨_, mem_taken_step.mpr (Or.inl (htracks.live hlive).2), hnew⟩
  taken := by
    intro spd hmem
    rw [carried_step]
    rcases mem_taken_step.mp hmem with hold | ⟨htakes, rfl⟩
    · exact (htracks.taken spd hold).trans (List.prefix_append _ _).isInfix
    · simp only [RgmiiTxc.takesSpeed, Bool.and_eq_true] at htakes
      have hfive := (htracks.settling.five htakes.2).isInfix
      exact ((List.prefix_append _ _).isInfix.trans hfive).trans
        (List.prefix_append _ _).isInfix

theorem Tracks.takenWell (htracks : bench.Tracks speeds) (hslow : speeds ≠ .only1G)
    (cfgSpeed : BitVec 2) : bench.TakenWell speeds cfgSpeed := by
  intro hchange
  have htakes : bench.txc.takesSpeed speeds = true := by
    by_contra hkeeps
    rw [Bool.not_eq_true] at hkeeps
    cases hrst : bench.txc.txRstNS2 with
    | true =>
        obtain ⟨hspd, hlive⟩ := RgmiiTxc.clkEdge_keeps hkeeps hrst cfgSpeed
        exact hchange.elim (absurd hspd) (absurd hlive)
    | false =>
        have hspd : (bench.txc.clkEdge speeds cfgSpeed).txSpd = 0 := by
          simp [RgmiiTxc.clkEdge, hrst]
        have hdead := (RgmiiTxc.clkEdge_reset speeds hrst cfgSpeed).1
        have hlive : bench.txc.txLive = false := by
          by_contra hlive
          rw [Bool.not_eq_false] at hlive
          exact absurd ((htracks.live hlive).1.symm.trans hrst) (by decide)
        exact hchange.elim (absurd (hspd.trans (htracks.idle hrst).symm))
          (absurd (hdead.trans hlive.symm))
  have hspd := (RgmiiTxc.clkEdge_takes htakes cfgSpeed).1
  simp only [RgmiiTxc.takesSpeed, Bool.and_eq_true, Bool.or_eq_true,
    Bool.not_eq_true'] at htakes
  obtain ⟨⟨-, hboundary⟩, hok⟩ := htakes
  refine ⟨?_, hspd, htracks.settling.five hok⟩
  intro hlive
  have hwrap := hboundary.resolve_left (by simp [hlive])
  have hperiod := RgmiiTxc.slot_wrap hslow htracks.counter hwrap
  refine Nat.dvd_of_mod_eq_zero ?_
  calc 2 * (bench.txc.txPh.toNat + 1) % (txcRate speeds bench.txc.txSpd).period
      = (bench.txc.slot speeds + 2) % (txcRate speeds bench.txc.txSpd).period := by
        rw [RgmiiTxc.slot, Nat.mod_add_mod, Nat.mul_succ]
    _ = 0 := by rw [hperiod, Nat.mod_self]

theorem samples_run (bench : TxcBench) (samples : List (BitVec 2)) :
    (runFrom (step speeds) bench samples).samples = bench.samples ++ samples := by
  induction samples generalizing bench with
  | nil => simp
  | cons cfgSpeed rest ih =>
      rw [runFrom_cons, ih]
      exact List.append_assoc bench.samples [cfgSpeed] rest

/-- Where 10/100 is supported, every high run of the TXC pattern that has ended is a
whole pulse of a speed that was taken, and the present one is no longer than that of the
speed in use.  Between two pulses the line is low for at least as long as the shorter of
them.  A speed is taken only where a period ends and the synchronized value has been the
same for five cycles, and so only where five values in a row carried it, the zeros that
reset leaves in the synchronizer before the samples. -/
theorem pulses_run (speeds : RgmiiSpeeds) (hslow : speeds ≠ .only1G)
    (samples : List (BitVec 2)) :
    let bench := runFrom (step speeds) start samples
    (∀ pulse ∈ bench.trace.pulses, ∃ spd ∈ bench.taken,
      pulse.high = (txcRate speeds spd).pulse) ∧
    bench.trace.pulses.IsChain Apart ∧
    bench.trace.high ≤ (txcRate speeds bench.txc.txSpd).pulse ∧
    (bench.txc.txLive = true → bench.txc.txSpd ∈ bench.taken) ∧
    (∀ spd ∈ bench.taken, List.replicate 5 spd <:+: [0, 0, 0] ++ samples) ∧
    Along (step speeds) (fun bench => bench.TakenWell speeds) start samples := by
  intro bench
  have hstep : ∀ (bench : TxcBench) (cfgSpeed : BitVec 2), bench.Tracks speeds →
      (bench.step speeds cfgSpeed).Tracks speeds :=
    fun _ cfgSpeed htracks => htracks.step hslow cfgSpeed
  have htracks : bench.Tracks speeds :=
    invariant_runFrom hstep (tracks_start speeds) samples
  have hcarried : bench.carried = [0, 0, 0] ++ samples := by
    rw [carried, samples_run]
    rfl
  refine ⟨htracks.pulses, htracks.chain, htracks.phase.high_le,
    fun hlive => (htracks.live hlive).2, ?_, ?_⟩
  · rw [← hcarried]
    exact htracks.taken
  · have htrue : Along (step speeds) (fun _ _ => True) start samples :=
      along_of_forall (fun _ _ => trivial) start samples
    have hkeeps : ∀ (bench : TxcBench) (cfgSpeed : BitVec 2), True → bench.Tracks speeds →
        (bench.step speeds cfgSpeed).Tracks speeds :=
      fun bench cfgSpeed _ => hstep bench cfgSpeed
    have htaken : ∀ (bench : TxcBench) (cfgSpeed : BitVec 2), True → bench.Tracks speeds →
        bench.TakenWell speeds cfgSpeed :=
      fun _ cfgSpeed _ htracks => htracks.takenWell hslow cfgSpeed
    exact along_of_invariant hkeeps htaken (tracks_start speeds) htrue

/-- 1G from reset on, 100M behind it: a short pulse, and two of five slots apart. -/
theorem pulses_run_change :
    let bench := runFrom (step .all) start (List.replicate 6 0 ++ List.replicate 60 1)
    bench.taken = [0, 1, 1, 1] ∧ bench.trace.pulses.IsChain Apart := by
  intro bench
  exact ⟨by decide +kernel, (pulses_run .all (by decide) _).2.1⟩

/-- Two samples of 1G behind reset are enough for it. -/
theorem pulses_run_fromReset :
    ∃ samples : List (BitVec 2), ∃ spd ∈ (runFrom (step .all) start samples).taken,
      ¬ List.replicate 5 spd <:+: samples := by
  refine ⟨[0, 0, 1, 1, 1, 1, 1, 1], 0, by decide, by decide⟩

end TxcBench

end EmacZero
