/-
How long `eth_pause` holds the transmitter: the run of the prescaler and the timer
behind a load, and the dividers that `eth_mac_sys` computes from its clock.
-/
import Mathlib.Algebra.Order.Ring.Nat
import EmacZero.EthPause

namespace EmacZero

/-- A 32-bit integer of the elaborator: none where the value does not fit. -/
def int32 (value : Nat) : Option Nat := if value < 2 ^ 31 then some value else none

/-- `PAUSE_DIV_1G` of `eth_mac_sys` before it is cut to 16 bits. -/
def pauseDiv1G (clkFreqHz : Nat) : Option Nat := do
  let quotient ← int32 (clkFreqHz / 1953125)
  let rest ← int32 (clkFreqHz % 1953125)
  int32 (quotient + if rest ≠ 0 then 1 else 0)

/-- A quantum of `factor` cycles in `divisor`, in cycles of the clock rounded up. -/
def pauseDiv (factor divisor round clkFreqHz : Nat) : Option Nat := do
  let quotient ← int32 (clkFreqHz / divisor)
  let rest ← int32 (clkFreqHz % divisor)
  let whole ← int32 (factor * quotient)
  let part ← int32 (factor * rest)
  let raised ← int32 (part + round)
  int32 (whole + raised / divisor)

/-- `PAUSE_DIV_100M` -/
def pauseDiv100M : Nat → Option Nat := pauseDiv 2 390625 390624

/-- `PAUSE_DIV_10M` -/
def pauseDiv10M : Nat → Option Nat := pauseDiv 4 78125 78124

/-- The dividers that `eth_mac_sys` hands to `eth_pause`. -/
def sysPauseParams (clkFreqHz : Nat) : EthPauseParams where
  tickDiv1G := BitVec.ofNat 16 ((pauseDiv1G clkFreqHz).getD 0)
  tickDiv100M := BitVec.ofNat 16 ((pauseDiv100M clkFreqHz).getD 0)
  tickDiv10M := BitVec.ofNat 16 ((pauseDiv10M clkFreqHz).getD 0)

/-- Bits a second at a setting of `cfg_speed`. -/
def lineRate (cfgSpeed : BitVec 2) : Nat :=
  if cfgSpeed = 0 then 1000000000 else if cfgSpeed = 1 then 100000000 else 10000000

section Dividers

variable {factor divisor round clkFreqHz : Nat}

/-- Rounding up a multiple of a quotient, taken apart so that nothing grows large. -/
theorem split_ceil (hpos : 0 < divisor) :
    factor * (clkFreqHz / divisor) + (factor * (clkFreqHz % divisor) + round) / divisor =
      (factor * clkFreqHz + round) / divisor := by
  have hsplit : factor * clkFreqHz =
      divisor * (factor * (clkFreqHz / divisor)) + factor * (clkFreqHz % divisor) := by
    calc factor * clkFreqHz
        = factor * (divisor * (clkFreqHz / divisor) + clkFreqHz % divisor) := by
          rw [Nat.div_add_mod]
      _ = divisor * (factor * (clkFreqHz / divisor)) + factor * (clkFreqHz % divisor) := by
          rw [Nat.mul_add, Nat.mul_left_comm]
  rw [hsplit, Nat.add_assoc, Nat.mul_add_div hpos]

theorem int32_of_lt {value : Nat} (hlt : value < 2 ^ 31) : int32 value = some value :=
  if_pos hlt

theorem pauseDiv1G_eq (hmax : clkFreqHz ≤ 1279000000) :
    pauseDiv1G clkFreqHz = some ((clkFreqHz + 1953124) / 1953125) := by
  have hquotient : clkFreqHz / 1953125 < 2 ^ 31 := by omega
  have hrest : clkFreqHz % 1953125 < 2 ^ 31 := by omega
  have hsum : clkFreqHz / 1953125 + (if clkFreqHz % 1953125 ≠ 0 then 1 else 0) =
      (clkFreqHz + 1953124) / 1953125 := by
    split <;> omega
  simp only [pauseDiv1G, int32_of_lt hquotient, int32_of_lt hrest, Option.bind_eq_bind,
    Option.bind_some]
  rw [hsum]
  exact int32_of_lt (by omega)

/-- The result is exact, and no intermediate result leaves 32 bits. -/
theorem pauseDiv_eq (hpos : 0 < divisor) (hclk : clkFreqHz < 2 ^ 31)
    (hround : factor * divisor + round < 2 ^ 31)
    (hresult : (factor * clkFreqHz + round) / divisor < 2 ^ 31) :
    pauseDiv factor divisor round clkFreqHz =
      some ((factor * clkFreqHz + round) / divisor) := by
  have hsum := @split_ceil factor divisor round clkFreqHz hpos
  have hquotient := int32_of_lt ((Nat.div_le_self clkFreqHz divisor).trans_lt hclk)
  have hrest := int32_of_lt ((Nat.mod_le clkFreqHz divisor).trans_lt hclk)
  have hpart : factor * (clkFreqHz % divisor) ≤ factor * divisor :=
    Nat.mul_le_mul_left factor (Nat.mod_lt clkFreqHz hpos).le
  have hraised := int32_of_lt ((Nat.add_le_add_right hpart round).trans_lt hround)
  have hrests := int32_of_lt ((hpart.trans (Nat.le_add_right _ round)).trans_lt hround)
  rw [← hsum] at hresult ⊢
  have hwhole := int32_of_lt ((Nat.le_add_right _ _).trans_lt hresult)
  simp only [pauseDiv, hquotient, hrest, hwhole, hrests, hraised, int32_of_lt hresult,
    Option.bind_eq_bind, Option.bind_some]

theorem pauseDiv100M_eq (hmax : clkFreqHz ≤ 1279000000) :
    pauseDiv100M clkFreqHz = some ((2 * clkFreqHz + 390624) / 390625) := by
  apply pauseDiv_eq <;> omega

theorem pauseDiv10M_eq (hmax : clkFreqHz ≤ 1279000000) :
    pauseDiv10M clkFreqHz = some ((4 * clkFreqHz + 78124) / 78125) := by
  apply pauseDiv_eq <;> omega

end Dividers

namespace EthPauseTimer

variable {params : EthPauseParams}

/-- The divider of each speed covers a quantum, 512 bit times, and fits its parameter. -/
theorem tickDiv_covers {clkFreqHz : Nat} (hpos : 1 ≤ clkFreqHz)
    (hmax : clkFreqHz ≤ 1279000000) (i : PauseRxIn) :
    1 ≤ (tickDiv (sysPauseParams clkFreqHz) i).toNat ∧
      512 * clkFreqHz ≤ (tickDiv (sysPauseParams clkFreqHz) i).toNat * lineRate i.cfgSpeed := by
  rw [tickDiv, lineRate, sysPauseParams, pauseDiv1G_eq hmax, pauseDiv100M_eq hmax,
    pauseDiv10M_eq hmax]
  split
  · rw [BitVec.toNat_ofNat, Option.getD_some, Nat.mod_eq_of_lt (by omega)]
    omega
  · split
    · rw [BitVec.toNat_ofNat, Option.getD_some, Nat.mod_eq_of_lt (by omega)]
      omega
    · rw [BitVec.toNat_ofNat, Option.getD_some, Nat.mod_eq_of_lt (by omega)]
      omega

/-- The flop beside the timer says whether any of it remains. -/
def Agrees (timer : EthPauseTimer) : Prop :=
  timer.txPausedR = (timer.pauseRemaining != 0)

theorem sub_one_ne_zero (left : BitVec 16) : (left - 1 != 0) = !(left == 1) := by
  rw [bne, Bool.not_inj_iff, Bool.eq_iff_iff, beq_iff_eq, beq_iff_eq]
  grind

theorem Agrees.clkEdge {timer : EthPauseTimer} (hagrees : timer.Agrees) (i : PauseRxIn) :
    (timer.clkEdge params i).Agrees := by
  rw [Agrees] at hagrees
  simp only [Agrees, EthPauseTimer.clkEdge]
  cases timer.pauseLoad i with
  | true => rfl
  | false =>
      cases timer.pauseTick with
      | false => exact hagrees
      | true =>
          cases hzero : timer.pauseRemaining != 0 with
          | false =>
              rw [bne_eq_false_iff_eq] at hzero
              simp [hagrees, hzero]
          | true =>
              simp only [hagrees, hzero, Bool.true_and, if_true, Bool.false_eq_true, if_false,
                sub_one_ne_zero]
              cases timer.pauseRemaining == 1 <;> rfl

theorem agrees_run (cycles : List PauseRxIn) :
    (runFrom (clkEdge params) reset cycles).Agrees := by
  have hstep : ∀ (timer : EthPauseTimer) (i : PauseRxIn), timer.Agrees →
      (timer.clkEdge params i).Agrees := fun _ i hagrees => hagrees.clkEdge i
  have hreset : reset.Agrees := rfl
  exact invariant_runFrom hstep hreset cycles

/-- The timer `count` edges after a load of `quanta`. -/
structure Held (divider quanta count : Nat) (timer : EthPauseTimer) : Prop where
  tickCnt : timer.tickCnt.toNat = count % divider
  pauseTick : timer.pauseTick = decide (0 < count ∧ count % divider = 0)
  remaining : timer.pauseRemaining.toNat = quanta - (count - 1) / divider

theorem held_load {timer : EthPauseTimer} {i : PauseRxIn}
    (hload : timer.pauseLoad i = true) (divider : Nat) :
    Held divider i.rxPauseQuanta.toNat 0 (timer.clkEdge params i) where
  tickCnt := by simp [clkEdge, hload]
  pauseTick := by simp [clkEdge, hload]
  remaining := by simp [clkEdge, hload]

theorem succ_mod {divider : Nat} (hpos : 0 < divider) (count : Nat) :
    (count + 1) % divider =
      if divider - 1 ≤ count % divider then 0 else count % divider + 1 := by
  have hlt := Nat.mod_lt count hpos
  split
  · rename_i hlast
    have hsum : count % divider + 1 = divider := by omega
    rw [← Nat.mod_add_mod, hsum, Nat.mod_self]
  · rename_i hbefore
    rw [← Nat.mod_add_mod, Nat.mod_eq_of_lt (by omega)]

section Step

variable {timer : EthPauseTimer} {i : PauseRxIn} {quanta count : Nat}

theorem ule_tickCnt (hcnt : timer.tickCnt.toNat = count % (tickDiv params i).toNat)
    (hdivider : 1 ≤ (tickDiv params i).toNat) :
    (tickDiv params i - 1).ule timer.tickCnt =
      decide ((tickDiv params i).toNat - 1 ≤ count % (tickDiv params i).toNat) := by
  have hlast : (tickDiv params i - 1).toNat = (tickDiv params i).toNat - 1 :=
    BitVec.toNat_sub_of_le hdivider
  rw [BitVec.ule_eq_decide, hcnt, hlast]

/-- One edge without a load. -/
theorem Held.clkEdge (hheld : Held (tickDiv params i).toNat quanta count timer)
    (hdivider : 1 ≤ (tickDiv params i).toNat) (hquiet : timer.pauseLoad i = false) :
    Held (tickDiv params i).toNat quanta (count + 1) (timer.clkEdge params i) where
  tickCnt := by
    have hlt := Nat.mod_lt count hdivider
    have hfits := (tickDiv params i).isLt
    simp only [EthPauseTimer.clkEdge, hquiet, Bool.false_eq_true, if_false,
      ule_tickCnt hheld.tickCnt hdivider, decide_eq_true_iff, succ_mod hdivider]
    split
    · rfl
    · rw [BitVec.toNat_add, hheld.tickCnt]
      apply Nat.mod_eq_of_lt
      change count % _ + 1 < 2 ^ 16
      omega
  pauseTick := by
    simp only [EthPauseTimer.clkEdge, hquiet, Bool.false_eq_true, if_false,
      ule_tickCnt hheld.tickCnt hdivider, succ_mod hdivider]
    by_cases hlast : (tickDiv params i).toNat - 1 ≤ count % (tickDiv params i).toNat <;>
      simp [hlast]
  remaining := by
    simp only [EthPauseTimer.clkEdge, hquiet, Bool.false_eq_true, if_false,
      Nat.add_sub_cancel]
    have hremaining := hheld.remaining
    by_cases htick : 0 < count ∧ count % (tickDiv params i).toNat = 0
    · obtain ⟨before, rfl⟩ := Nat.exists_eq_succ_of_ne_zero htick.1.ne'
      have hdiv := Nat.succ_div_of_mod_eq_zero htick.2
      rw [hheld.pauseTick, decide_eq_true htick, Nat.succ_eq_add_one, hdiv]
      rw [Nat.succ_eq_add_one, Nat.add_sub_cancel] at hremaining
      cases hzero : timer.pauseRemaining != 0 with
      | false =>
          rw [bne_eq_false_iff_eq] at hzero
          rw [hzero] at hremaining ⊢
          simp at hremaining ⊢
          omega
      | true =>
          have hpos : 1 ≤ timer.pauseRemaining.toNat := by
            rw [bne_iff_ne, ne_eq, ← BitVec.toNat_inj] at hzero
            exact Nat.pos_of_ne_zero hzero
          have hless : (timer.pauseRemaining - 1).toNat = timer.pauseRemaining.toNat - 1 :=
            BitVec.toNat_sub_of_le hpos
          rw [Bool.true_and, if_pos rfl, hless, hremaining]
          exact Nat.sub_sub _ _ _
    · rw [hheld.pauseTick, decide_eq_false htick, Bool.false_and, if_neg Bool.false_ne_true,
        hremaining]
      cases count with
      | zero => rfl
      | succ before =>
          have hmod : (before + 1) % (tickDiv params i).toNat ≠ 0 := by
            intro hmod
            exact htick ⟨Nat.succ_pos before, hmod⟩
          rw [Nat.succ_div_of_mod_ne_zero hmod, Nat.add_sub_cancel]

end Step

/-- The edges behind a load, none of them a load, all at its speed. -/
theorem held_along {load : PauseRxIn} {quanta count : Nat} {timer : EthPauseTimer}
    (hheld : Held (tickDiv params load).toNat quanta count timer)
    (hdivider : 1 ≤ (tickDiv params load).toNat) {after : List PauseRxIn}
    (hquiet : Along (clkEdge params)
      (fun timer i => i.cfgSpeed = load.cfgSpeed ∧ timer.pauseLoad i = false) timer after) :
    Held (tickDiv params load).toNat quanta (count + after.length)
      (runFrom (clkEdge params) timer after) := by
  induction after generalizing count timer with
  | nil => exact hheld
  | cons i rest ih =>
      obtain ⟨⟨hspeed, hload⟩, hrest⟩ := hquiet
      have hsame : tickDiv params i = tickDiv params load := by
        rw [tickDiv, tickDiv, hspeed]
      rw [← hsame] at hheld hdivider
      have hnext := hheld.clkEdge hdivider hload
      rw [hsame] at hnext hdivider
      rw [List.length_cons, Nat.add_comm rest.length 1, ← Nat.add_assoc]
      exact ih hnext hrest

/-- `tx_paused` a number of cycles after a load that no other has followed. -/
theorem Held.txPausedR {divider quanta count : Nat} {timer : EthPauseTimer}
    (hheld : Held divider quanta count timer) (hagrees : timer.Agrees)
    (hdivider : 1 ≤ divider) :
    timer.txPausedR = decide (quanta ≠ 0 ∧ count ≤ quanta * divider) := by
  have hremaining := hheld.remaining
  rw [hagrees, Bool.eq_iff_iff, bne_iff_ne, ne_eq, ← BitVec.toNat_inj, decide_eq_true_iff]
  change ¬ timer.pauseRemaining.toNat = 0 ↔ _
  rw [hremaining, Nat.sub_eq_zero_iff_le, Nat.not_le, Nat.div_lt_iff_lt_mul hdivider]
  cases quanta with
  | zero => simp
  | succ quanta =>
      have hpos : 0 < (quanta + 1) * divider := Nat.mul_pos (Nat.succ_pos quanta) hdivider
      constructor
      · intro hlt
        exact ⟨Nat.succ_ne_zero quanta, by omega⟩
      · rintro ⟨-, hle⟩
        omega

/-- In every state reached `tx_paused` says whether anything remains of the pause.
After a load of N quanta without another one behind it, at a constant speed with a tick
divider D of at least 1, it is high for the N D + 1 cycles from the load on, and not at
all where N is 0, whatever the timer and its prescaler did before.  With the dividers
of `eth_mac_sys`, which fit 32 and 16 bits, these cycles last N times 512 bit times. -/
theorem hold_run (params : EthPauseParams) (before : List PauseRxIn) :
    (runFrom (clkEdge params) reset before).txPausedR =
        ((runFrom (clkEdge params) reset before).pauseRemaining != 0) ∧
    (∀ (load : PauseRxIn) (after : List PauseRxIn),
      (runFrom (clkEdge params) reset before).pauseLoad load = true →
      1 ≤ (tickDiv params load).toNat →
      Along (clkEdge params)
        (fun timer i => i.cfgSpeed = load.cfgSpeed ∧ timer.pauseLoad i = false)
        ((runFrom (clkEdge params) reset before).clkEdge params load) after →
      (runFrom (clkEdge params) reset (before ++ load :: after)).txPausedR =
        decide (load.rxPauseQuanta.toNat ≠ 0 ∧
          after.length ≤ load.rxPauseQuanta.toNat * (tickDiv params load).toNat)) ∧
    (∀ clkFreqHz, 1 ≤ clkFreqHz → clkFreqHz ≤ 1279000000 →
      ∃ div1G div100M div10M, pauseDiv1G clkFreqHz = some div1G ∧
        pauseDiv100M clkFreqHz = some div100M ∧ pauseDiv10M clkFreqHz = some div10M ∧
        div1G < 2 ^ 16 ∧ div100M < 2 ^ 16 ∧ div10M < 2 ^ 16 ∧
        ∀ (i : PauseRxIn) (quanta : Nat),
          1 ≤ (tickDiv (sysPauseParams clkFreqHz) i).toNat ∧
          quanta * 512 * clkFreqHz ≤
            (quanta * (tickDiv (sysPauseParams clkFreqHz) i).toNat + 1) *
              lineRate i.cfgSpeed) := by
  refine ⟨agrees_run before, ?_, ?_⟩
  · intro load after hload hdivider hquiet
    have hstart := @held_load params _ load hload (tickDiv params load).toNat
    have hheld := held_along hstart hdivider hquiet
    have hagrees := @agrees_run params (before ++ load :: after)
    rw [runFrom_append, runFrom_cons] at hagrees ⊢
    rw [Nat.zero_add] at hheld
    exact hheld.txPausedR hagrees hdivider
  · intro clkFreqHz hpos hmax
    refine ⟨_, _, _, pauseDiv1G_eq hmax, pauseDiv100M_eq hmax, pauseDiv10M_eq hmax,
      by omega, by omega, by omega, ?_⟩
    intro i quanta
    obtain ⟨hdivider, hcovers⟩ := tickDiv_covers hpos hmax i
    refine ⟨hdivider, ?_⟩
    calc quanta * 512 * clkFreqHz
        = quanta * (512 * clkFreqHz) := Nat.mul_assoc _ _ _
      _ ≤ quanta * ((tickDiv (sysPauseParams clkFreqHz) i).toNat * lineRate i.cfgSpeed) :=
          Nat.mul_le_mul_left quanta hcovers
      _ = quanta * (tickDiv (sysPauseParams clkFreqHz) i).toNat * lineRate i.cfgSpeed :=
          (Nat.mul_assoc _ _ _).symm
      _ ≤ (quanta * (tickDiv (sysPauseParams clkFreqHz) i).toNat + 1) *
            lineRate i.cfgSpeed :=
          Nat.mul_le_mul_right _ (Nat.le_succ _)

/-- Two quanta at a divider of 3: paused for seven cycles. -/
theorem hold_run_two :
    let params : EthPauseParams := ⟨3, 3, 3⟩
    let idle : PauseRxIn := ⟨0, true, true, 2, false⟩
    (runFrom (clkEdge params) reset
        ([idle, idle] ++ idle :: List.replicate 6 idle)).txPausedR = true ∧
      (runFrom (clkEdge params) reset
        ([idle, idle] ++ idle :: List.replicate 7 idle)).txPausedR = false ∧
      ∃ divider, pauseDiv1G 125000000 = some divider ∧ divider < 2 ^ 16 := by
  intro params idle
  have hlast := (hold_run params [idle, idle]).2.1 idle (List.replicate 6 idle)
    (by decide) (by decide) (by decide)
  have hpast := (hold_run params [idle, idle]).2.1 idle (List.replicate 7 idle)
    (by decide) (by decide) (by decide)
  obtain ⟨divider, _, _, hdivider, -, -, hfits, -⟩ :=
    (hold_run params []).2.2 125000000 (by decide) (by decide)
  exact ⟨hlast, hpast, divider, hdivider, hfits⟩

end EthPauseTimer

end EmacZero
