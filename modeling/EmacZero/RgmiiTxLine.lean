/-
The pins of `rgmii_if` at a constant 10 or 100 Mbit/s: every period of TXC shows the nibble
that was taken before it, on both edges.
-/
import EmacZero.GmiiCdcTxWire
import EmacZero.RgmiiIfTx

namespace EmacZero

/-- The pins in a slot of a period that shows this cycle. -/
def periodSlot (rate : TxcRate) (cycle : RgmiiRxIn) (count : Nat) : RgmiiSlot where
  txc := rate.high count
  txd := cycle.rxdRising
  txCtl := if 2 * count < rate.period then cycle.rxCtlRising else cycle.rxCtlFalling

/-- An observer so many slots into the period: before its pulse, in it or behind it. -/
inductive InPeriod (rate : TxcRate) (cycle : RgmiiRxIn) (done : List RgmiiRxIn) (count : Nat)
    (line : RgmiiLine) : Prop
  | before (hcount : count ≤ rate.lead) (hlevel : line.level = false)
      (hcycles : line.cycles = done) : InPeriod rate cycle done count line
  | within (hlead : rate.lead < count) (hcount : count ≤ rate.lead + rate.pulse)
      (hlevel : line.level = true) (hrising : line.rising = (cycle.rxdRising, cycle.rxCtlRising))
      (hcycles : line.cycles = done) : InPeriod rate cycle done count line
  | behind (hpulse : rate.lead + rate.pulse < count) (hlevel : line.level = false)
      (hcycles : line.cycles = done ++ [cycle]) : InPeriod rate cycle done count line

/-- The pulse rises in the first half of the period and falls in the second one. -/
def TxcRate.Centred (rate : TxcRate) : Prop :=
  2 * rate.lead < rate.period ∧ rate.period ≤ 2 * (rate.lead + rate.pulse) ∧ 0 < rate.pulse ∧
    0 < rate.tail

instance (rate : TxcRate) : Decidable rate.Centred :=
  inferInstanceAs (Decidable (_ < _ ∧ _ ≤ _ ∧ _ < _ ∧ _ < _))

section Period

variable {rate : TxcRate} {cycle : RgmiiRxIn} {done : List RgmiiRxIn} {count : Nat}
variable {line : RgmiiLine}

theorem InPeriod.observe (hline : InPeriod rate cycle done count line) (hrate : rate.Centred)
    (hsame : cycle.rxdFalling = cycle.rxdRising) :
    InPeriod rate cycle done (count + 1) (line.observe (periodSlot rate cycle count)) := by
  obtain ⟨hrise, hfall, hpulse, -⟩ := hrate
  obtain ⟨rising, falling, ctlRising, ctlFalling⟩ := cycle
  obtain rfl : falling = rising := hsame
  rw [RgmiiLine.observe, periodSlot]
  cases hline with
  | before hcount hlevel hcycles =>
      by_cases hlead : count = rate.lead
      · have hhigh : rate.high count = true := TxcRate.high_iff.mpr (by omega)
        rw [hhigh, hlevel, if_pos (show (true && !false) = true from rfl),
          if_pos (by rw [hlead]; exact hrise)]
        exact .within (by omega) (by omega) rfl rfl hcycles
      · have hlow : rate.high count = false := by
          rw [← Bool.not_eq_true, TxcRate.high_iff]
          omega
        rw [hlow, hlevel]
        exact .before (by omega) hlevel hcycles
  | within hlead hcount hlevel hrising hcycles =>
      by_cases hlast : count = rate.lead + rate.pulse
      · have hlow : rate.high count = false := by
          rw [← Bool.not_eq_true, TxcRate.high_iff]
          omega
        rw [hlow, hlevel, if_neg (show ¬ (false && !true) = true from Bool.false_ne_true),
          if_pos (show (!false && true) = true from rfl), if_neg (by rw [hlast]; omega),
          hrising, hcycles]
        exact .behind (by omega) rfl rfl
      · have hhigh : rate.high count = true := TxcRate.high_iff.mpr (by omega)
        rw [hhigh, hlevel]
        exact .within (by omega) (by omega) hlevel hrising hcycles
  | behind hbehind hlevel hcycles =>
      have hlow : rate.high count = false := by
        rw [← Bool.not_eq_true, TxcRate.high_iff]
        omega
      rw [hlow, hlevel]
      exact .behind (by omega) hlevel hcycles

/-- At its end a period is the one before the next. -/
theorem InPeriod.next (hline : InPeriod rate cycle done rate.period line) (hrate : rate.Centred)
    (other : RgmiiRxIn) : InPeriod rate other (done ++ [cycle]) 0 line := by
  obtain ⟨-, -, -, htail⟩ := hrate
  rw [TxcRate.period] at hline
  cases hline with
  | before hcount => omega
  | within _ hcount => omega
  | behind _ hlevel hcycles => exact .before (Nat.zero_le _) hlevel hcycles

/-- The cycles that have been seen are those before the period, or its own as well. -/
theorem InPeriod.cycles (hline : InPeriod rate cycle done count line) :
    line.cycles = done ∨ line.cycles = done ++ [cycle] := by
  cases hline with
  | before _ _ hcycles => exact .inl hcycles
  | within _ _ _ _ hcycles => exact .inl hcycles
  | behind _ _ hcycles => exact .inr hcycles

end Period

/-- 10 or 100 Mbit/s, in a build that has them. -/
structure SlowSpeed (speeds : RgmiiSpeeds) (speed : BitVec 2) : Prop where
  built : speeds ≠ .only1G
  slow : is1g speed = false

/-- The `clk_125` cycles of a period of TXC. -/
def nibbleCycles125 (speed : BitVec 2) : Nat := if speed = 1 then 5 else 50

section Speed

variable {speeds : RgmiiSpeeds} {speed : BitVec 2}

theorem SlowSpeed.cases (hslow : SlowSpeed speeds speed) :
    (speeds = .all ∨ speeds = .slow) ∧ (speed = 1 ∨ speed = 2) := by
  obtain ⟨hbuilt, hspeed⟩ := hslow
  refine ⟨?_, ?_⟩
  · cases speeds with
    | all => exact .inl rfl
    | only1G => exact absurd rfl hbuilt
    | slow => exact .inr rfl
  · revert hspeed
    revert speed
    decide

theorem SlowSpeed.rate (hslow : SlowSpeed speeds speed) :
    (txcRate speeds speed).Centred ∧
      (txcRate speeds speed).period = 2 * nibbleCycles125 speed := by
  obtain ⟨rfl | rfl, rfl | rfl⟩ := hslow.cases <;> decide

/-- A byte is held for two periods of TXC, and the gap takes at least 24 of them. -/
theorem SlowSpeed.held (hslow : SlowSpeed speeds speed) :
    byteCycles speed = 2 * nibbleCycles125 speed ∧
      24 * nibbleCycles125 speed ≤ gapCycles speed := by
  obtain ⟨-, rfl | rfl⟩ := hslow.cases <;> decide

end Speed

namespace RgmiiIfTx

variable {speeds : RgmiiSpeeds} {speed : BitVec 2} {rgmii : RgmiiIfTx} {gmii : GmiiTxIn}

/-- The speed has been taken everywhere and the counter is within its period. -/
structure Settled (speeds : RgmiiSpeeds) (speed : BitVec 2) (rgmii : RgmiiIfTx) : Prop where
  carried : rgmii.clock.spdS1 = speed ∧ rgmii.clock.spdS2 = speed ∧ rgmii.clock.spdS3 = speed
  released : rgmii.clock.txRstNS2 = true ∧ rgmii.clock.txRstNS1 = true
  live : rgmii.clock.txLive = true
  taken : rgmii.clock.txSpd = speed ∧ rgmii.data.spdD = speed
  counter : rgmii.clock.txPh.toNat < nibbleCycles125 speed

/-- What the period shows after a nibble has been taken. -/
def shows (rgmii : RgmiiIfTx) : RgmiiRxIn :=
  ⟨rgmii.data.txNib, rgmii.data.txNib, rgmii.data.txEnQ, rgmii.data.txEnQ ^^ rgmii.data.txErQ⟩

theorem Settled.lastPh (hslow : SlowSpeed speeds speed)
    (hsettled : Settled speeds speed rgmii) :
    (rgmii.clock.lastPh speeds).toNat + 1 = nibbleCycles125 speed ∧
      (rgmii.lastPhD speeds).toNat + 1 = nibbleCycles125 speed ∧
      (rgmii.txN speeds).toNat = nibbleCycles125 speed := by
  obtain ⟨htxSpd, hspdD⟩ := hsettled.taken
  rw [RgmiiTxc.lastPh, RgmiiTxc.is100Tx, lastPhD, txN, is100D, htxSpd, hspdD]
  obtain ⟨rfl | rfl, rfl | rfl⟩ := hslow.cases <;> decide

/-- A nibble is taken in the last cycle of a period. -/
theorem Settled.loads_iff (hslow : SlowSpeed speeds speed)
    (hsettled : Settled speeds speed rgmii) :
    rgmii.loads speeds = true ↔ rgmii.clock.txPh.toNat + 1 = nibbleCycles125 speed := by
  obtain ⟨-, hlast, -⟩ := hsettled.lastPh hslow
  rw [loads, beq_iff_eq, ← hlast, Nat.add_right_cancel_iff, BitVec.toNat_inj]

theorem Settled.txWrap_eq (hslow : SlowSpeed speeds speed)
    (hsettled : Settled speeds speed rgmii) :
    rgmii.clock.txWrap speeds = rgmii.loads speeds := by
  obtain ⟨hlast, -⟩ := hsettled.lastPh hslow
  have hlt := hsettled.counter
  rw [RgmiiTxc.txWrap, RgmiiTxc.supportSlow_of_ne hslow.built, Bool.eq_iff_iff,
    hsettled.loads_iff hslow, Bool.not_true, Bool.false_or, BitVec.ule, decide_eq_true_iff]
  omega

/-- The counter after an edge. -/
theorem Settled.ph_edge (hslow : SlowSpeed speeds speed)
    (hsettled : Settled speeds speed rgmii) (gmii : GmiiTxIn) :
    (rgmii.edge speeds gmii speed).clock.txPh.toNat =
      if rgmii.loads speeds then 0 else rgmii.clock.txPh.toNat + 1 := by
  have hwrap := hsettled.txWrap_eq hslow
  have hlt := hsettled.counter
  have hnext : (rgmii.edge speeds gmii speed).clock.txPh =
      if rgmii.loads speeds then 0 else rgmii.clock.txPh + 1 := by
    simp [edge, RgmiiTxc.clkEdge, hsettled.released.1, hsettled.live, hwrap]
  rw [hnext]
  split
  · rfl
  · refine RgmiiTxc.toNat_succ_ph ?_
    have hsmall : nibbleCycles125 speed ≤ 50 := by
      rw [nibbleCycles125]
      split <;> decide
    have hnot := mt (hsettled.loads_iff hslow).mpr ‹_›
    omega

theorem Settled.edge (hslow : SlowSpeed speeds speed) (hsettled : Settled speeds speed rgmii)
    (gmii : GmiiTxIn) : Settled speeds speed (rgmii.edge speeds gmii speed) where
  carried := ⟨rfl, hsettled.carried.1, hsettled.carried.2.1⟩
  released := ⟨hsettled.released.2, rfl⟩
  live := by simp [RgmiiIfTx.edge, RgmiiTxc.clkEdge, hsettled.released.1, hsettled.live]
  taken := by
    refine ⟨?_, hsettled.taken.1⟩
    simp only [RgmiiIfTx.edge, RgmiiTxc.clkEdge, hsettled.released.1, hsettled.carried.2.1,
      hsettled.taken.1, ite_self, Bool.not_true, Bool.false_eq_true, if_false]
  counter := by
    rw [hsettled.ph_edge hslow]
    split
    · rw [nibbleCycles125]
      split <;> decide
    · have hnot := mt (hsettled.loads_iff hslow).mpr ‹_›
      have hlt := hsettled.counter
      omega

/-- What the pins show after an edge is the slots of the period that the edge is in. -/
theorem Settled.slots (hslow : SlowSpeed speeds speed) (hsettled : Settled speeds speed rgmii)
    (gmii later : GmiiTxIn) :
    (rgmii.edge speeds gmii speed).slot1 speeds later =
        periodSlot (txcRate speeds speed) rgmii.shows (2 * rgmii.clock.txPh.toNat) ∧
      (rgmii.edge speeds gmii speed).slot2 speeds later =
        periodSlot (txcRate speeds speed) rgmii.shows (2 * rgmii.clock.txPh.toNat + 1) := by
  obtain ⟨hlast, -, htxN⟩ := hsettled.lastPh hslow
  have hlt := hsettled.counter
  have hperiod := hslow.rate.2
  obtain ⟨hd1, hd2⟩ := RgmiiTxc.clkEdge_slots hslow.built hsettled.released.1 hsettled.live
    (by rw [BitVec.ule, decide_eq_true_iff]; omega) speed
  have hslot : rgmii.clock.slot speeds = 2 * rgmii.clock.txPh.toNat := by
    rw [RgmiiTxc.slot, hsettled.taken.1, hperiod]
    exact Nat.mod_eq_of_lt (by omega)
  rw [hsettled.taken.1, hslot] at hd1 hd2
  have his1g : (rgmii.edge speeds gmii speed).is1gD speeds = false := by
    change (speeds.support1G && (rgmii.clock.txSpd == 0 || rgmii.clock.txSpd == 3)) = false
    rw [hsettled.taken.1]
    obtain ⟨-, rfl | rfl⟩ := hslow.cases <;> exact Bool.and_false _
  have hctl (slot : BitVec 7) : rgmii.ctlOf speeds slot =
      if 2 * slot.toNat < (txcRate speeds speed).period then rgmii.shows.rxCtlRising
      else rgmii.shows.rxCtlFalling := by
    rw [ctlOf, BitVec.ult, htxN, hperiod]
    simp only [decide_eq_true_iff, Nat.mul_lt_mul_left (show 0 < 2 by decide)]
    rfl
  have hsupport := RgmiiTxc.supportSlow_of_ne hslow.built
  constructor
  · simp only [slot1, his1g, hsupport, Bool.false_eq_true, if_false, if_true, periodSlot]
    congr 1
    exact (hctl _).trans (by rw [RgmiiTxc.txS1, RgmiiTxc.toNat_append_zero])
  · simp only [slot2, his1g, hsupport, Bool.false_eq_true, if_false, if_true, periodSlot]
    congr 1
    exact (hctl _).trans (by rw [RgmiiTxc.txS2, RgmiiTxc.toNat_append_one])

end RgmiiIfTx

end EmacZero
