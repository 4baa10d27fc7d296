/-
A transaction of `mdio_master` cycle by cycle: what the edges of `mdc` show of it on the wire,
and what comes in.
-/
import EmacZero.MdioSys
import EmacZero.MdioWave

namespace EmacZero

namespace MdcDivider

variable (divider : MdcDivider)

theorem toNat_last : divider.last.toNat = divider.period - 1 := by
  have hfits := divider.fits
  have hfour := divider.four_le
  rw [last, BitVec.toNat_ofNat]
  exact Nat.mod_eq_of_lt (by omega)

theorem rise_lt_last : divider.rise.toNat < divider.last.toNat := by
  have hfits := divider.fits
  have hfour := divider.four_le
  have hrise : divider.rise.toNat = divider.period / 2 - 1 := by
    rw [rise, BitVec.toNat_ofNat]
    exact Nat.mod_eq_of_lt (by omega)
  rw [hrise, toNat_last]
  omega

end MdcDivider

/-- The divider counts within its period, and `mdc` is high in the second part of it. -/
structure Ticking (divider : MdcDivider) (master : MdioMaster) : Prop where
  bound : master.mdcDiv.toNat < divider.period
  mdc : master.mdc = decide (divider.rise.toNat < master.mdcDiv.toNat)

section Ticking

variable {divider : MdcDivider} {master : MdioMaster} {cmdValid : Bool} {cmd : MdioCmd}
  {mdioI : Bool}

theorem mdcFalling_iff :
    master.mdcFalling divider = true ↔ master.mdcDiv.toNat + 1 = divider.period := by
  have hfour := divider.four_le
  rw [MdioMaster.mdcFalling, beq_iff_eq, ← BitVec.toNat_inj, divider.toNat_last]
  omega

theorem mdcRising_iff :
    master.mdcRising divider = true ↔ master.mdcDiv.toNat = divider.rise.toNat := by
  rw [MdioMaster.mdcRising, beq_iff_eq, ← BitVec.toNat_inj]

/-- The counter of the divider. -/
theorem mdcDiv_step (hticking : Ticking divider master) :
    (master.clkEdge divider cmdValid cmd mdioI).mdcDiv.toNat =
      if master.mdcFalling divider then 0 else master.mdcDiv.toNat + 1 := by
  have hbound := hticking.bound
  have hlast := divider.toNat_last
  have hfits := divider.fits
  have hfalling := @mdcFalling_iff divider master
  change (if master.mdcDiv ≥ divider.last then 0 else master.mdcDiv + 1).toNat = _
  by_cases hend : master.mdcDiv.toNat + 1 = divider.period
  · have hge : master.mdcDiv ≥ divider.last := by
      rw [ge_iff_le, BitVec.le_def]
      omega
    rw [if_pos hge, if_pos (hfalling.mpr hend)]
    rfl
  · have hlt : ¬ master.mdcDiv ≥ divider.last := by
      rw [ge_iff_le, BitVec.le_def]
      omega
    rw [if_neg hlt, if_neg fun htrue => hend (hfalling.mp htrue), BitVec.toNat_add]
    exact Nat.mod_eq_of_lt (by omega : master.mdcDiv.toNat + 1 < 2 ^ 16)

theorem ticking_step (hticking : Ticking divider master) :
    Ticking divider (master.clkEdge divider cmdValid cmd mdioI) := by
  have hbound := hticking.bound
  have hfour := divider.four_le
  have hrise := divider.rise_lt_last
  have hlast := divider.toNat_last
  have hdiv := @mdcDiv_step divider master cmdValid cmd mdioI hticking
  have hfalling := @mdcFalling_iff divider master
  have hrising := @mdcRising_iff divider master
  refine ⟨?_, ?_⟩
  · rw [hdiv]
    split
    · omega
    · rename_i hmore
      rw [hfalling] at hmore
      omega
  · rw [hdiv]
    change (if master.mdcRising divider then true
      else if master.mdcFalling divider then false else master.mdc) = _
    rw [hticking.mdc]
    by_cases hup : master.mdcRising divider = true
    · have hthere := hrising.mp hup
      have hmore : ¬ master.mdcFalling divider = true := by
        rw [hfalling]
        omega
      rw [if_pos hup, if_neg hmore]
      exact (decide_eq_true (by omega)).symm
    · have hnot : master.mdcDiv.toNat ≠ divider.rise.toNat := fun heq => hup (hrising.mpr heq)
      rw [if_neg hup]
      split
      · exact (decide_eq_false (Nat.not_lt_zero _)).symm
      · rw [decide_eq_decide]
        omega

/-- `mdc` rises once in each period. -/
theorem rises_iff (hticking : Ticking divider master) :
    (!master.mdc && (master.clkEdge divider cmdValid cmd mdioI).mdc) =
      master.mdcRising divider := by
  have hrising := @mdcRising_iff divider master
  have hmdc : (master.clkEdge divider cmdValid cmd mdioI).mdc =
      if master.mdcRising divider then true
      else if master.mdcFalling divider then false
      else master.mdc := rfl
  rw [hmdc, hticking.mdc]
  cases hup : master.mdcRising divider with
  | true =>
      have hthere := hrising.mp hup
      rw [decide_eq_false (by omega), if_pos rfl]
      rfl
  | false =>
      rw [if_neg Bool.false_ne_true]
      split
      · rw [Bool.and_false]
      · rw [Bool.not_and_self]

/-- At a falling edge `mdc` is high. -/
theorem mdc_of_falling (hticking : Ticking divider master)
    (hfalling : master.mdcFalling divider = true) :
    master.mdc = true ∧ master.mdcRising divider = false ∧
      (master.clkEdge divider cmdValid cmd mdioI).mdc = false := by
  have hfour := divider.four_le
  have hthere := mdcFalling_iff.mp hfalling
  have hrise := divider.rise_lt_last
  have hlast := divider.toNat_last
  have hnot : master.mdcRising divider = false := by
    rw [← Bool.not_eq_true, mdcRising_iff]
    omega
  refine ⟨?_, hnot, ?_⟩
  · rw [hticking.mdc]
    exact decide_eq_true (by omega)
  · change (if master.mdcRising divider then true
      else if master.mdcFalling divider then false else master.mdc) = false
    rw [hnot, hfalling]
    rfl

/-- Within a transaction, away from the falling edge. -/
theorem clkEdge_between (hbusy : master.state ≠ .idle)
    (hbetween : master.mdcFalling divider = false) :
    master.clkEdge divider cmdValid cmd mdioI =
      { master with
        cmdDone := false
        mdcDiv := (master.clkEdge divider cmdValid cmd mdioI).mdcDiv
        mdc := if master.mdcRising divider then true else master.mdc
        mdioISampled := if master.mdcRising divider then mdioI else master.mdioISampled } := by
  simp only [MdioMaster.clkEdge, MdioMaster.coreEdge, if_neg hbusy, hbetween, Bool.false_eq_true,
    if_false]

/-- Within a transaction, at the falling edge. -/
theorem clkEdge_falls (hbusy : master.state ≠ .idle)
    (hfalling : master.mdcFalling divider = true) :
    master.clkEdge divider cmdValid cmd mdioI =
      { master.fallEdge with
        mdcDiv := (master.clkEdge divider cmdValid cmd mdioI).mdcDiv
        mdc := (master.clkEdge divider cmdValid cmd mdioI).mdc
        mdioISampled := (master.clkEdge divider cmdValid cmd mdioI).mdioISampled } := by
  simp only [MdioMaster.clkEdge, MdioMaster.coreEdge, if_neg hbusy, hfalling, if_true]

end Ticking

/-! A command on the wire. -/

/-- The place of the next rising edge. -/
def MdioMaster.ahead (master : MdioMaster) : Nat :=
  if master.mdc then master.place + 1 else master.place

/-- What the master has of the data that comes in. -/
structure MdioListening (log : MdioLog) (master : MdioMaster) (lead skip : Nat) : Prop where
  sampled : master.mdc = true → 48 ≤ master.place →
    log.heard[lead + master.place - skip]? = some master.mdioISampled
  data : master.state = .data → ∃ first, master.shiftReg =
    ((log.heard.drop (lead + 48 - skip)).take master.bitCnt.toNat).foldl MdioMaster.shiftIn first
  done : master.state = .done →
    master.cmdRdata = wireWord ((log.heard.drop (lead + 49 - skip)).take 16)

/-- The transaction of the command is on the wire up to the last rising edge. -/
structure MdioSending (log : MdioLog) (master : MdioMaster) (lead skip : Nat) : Prop where
  walking : MdioWalking log.cmd master
  answers : log.answers = []
  lead_le : lead ≤ 1
  skip_le : skip ≤ 1
  skip_ahead : skip ≤ master.ahead
  seen : log.seen = List.replicate lead none ++
    ((List.range master.ahead).drop skip).map log.cmd.wave
  heard : log.heard.length = log.seen.length
  listening : log.cmd.drives = false → MdioListening log master lead skip

section Sending

variable {divider : MdcDivider} {master : MdioMaster} {log : MdioLog} {lead skip : Nat}
  {cmdValid : Bool} {cmd : MdioCmd} {mdioI : Bool}

theorem MdioSending.length_heard (hsending : MdioSending log master lead skip) :
    log.heard.length = lead + (master.ahead - skip) := by
  rw [hsending.heard, hsending.seen, List.length_append, List.length_replicate, List.length_map,
    List.length_drop, List.length_range]

/-- A cycle away from both edges of `mdc`. -/
theorem sending_quiet (hsending : MdioSending log master lead skip)
    (hbetween : master.mdcFalling divider = false) (hlow : master.mdcRising divider = false) :
    MdioSending (log.note master false mdioI) (master.clkEdge divider cmdValid cmd mdioI) lead
      skip := by
  have hwalking := hsending.walking
  have hedge := @clkEdge_between divider master cmdValid cmd mdioI hwalking.busy hbetween
  have hnote : log.note master false mdioI = log := by
    rw [MdioLog.note, hwalking.quiet]
    rfl
  rw [hlow, if_neg Bool.false_ne_true, if_neg Bool.false_ne_true] at hedge
  rw [hnote, hedge]
  refine ⟨⟨hwalking.within, hwalking.isWrite, hwalking.phyAddr, hwalking.regAddr, hwalking.c45En,
    hwalking.c45Op, hwalking.pin, hwalking.shiftReg, rfl⟩, hsending.answers, hsending.lead_le,
    hsending.skip_le, hsending.skip_ahead, hsending.seen, hsending.heard, fun hdrives => ?_⟩
  have hlistening := hsending.listening hdrives
  exact ⟨hlistening.sampled, hlistening.data, hlistening.done⟩

/-- The divider goes on under the transaction. -/
theorem MdioWalking.ticks {cmd : MdioCmd} (hwalking : MdioWalking cmd master) (mdcDiv : BitVec 16)
    (mdc mdioISampled : Bool) :
    MdioWalking cmd
      { master with mdcDiv := mdcDiv, mdc := mdc, mdioISampled := mdioISampled } :=
  ⟨hwalking.within, hwalking.isWrite, hwalking.phyAddr, hwalking.regAddr, hwalking.c45En,
    hwalking.c45Op, hwalking.pin, hwalking.shiftReg, hwalking.quiet⟩

/-- A rising edge: the bit is seen, and what comes in is sampled. -/
theorem sending_rise (hticking : Ticking divider master)
    (hsending : MdioSending log master lead skip) (hrising : master.mdcRising divider = true) :
    MdioSending (log.note master true mdioI) (master.clkEdge divider cmdValid cmd mdioI) lead
      skip := by
  have hwalking := hsending.walking
  have hlow : master.mdc = false := by
    rw [hticking.mdc, mdcRising_iff.mp hrising]
    exact decide_eq_false (Nat.lt_irrefl _)
  have hbetween : master.mdcFalling divider = false := by
    rw [← Bool.not_eq_true]
    intro hfalling
    have hhigh := (@mdc_of_falling divider master cmdValid cmd mdioI hticking hfalling).1
    exact Bool.false_ne_true (hlow.symm.trans hhigh)
  have hahead : master.ahead = master.place := by
    rw [MdioMaster.ahead, hlow]
    rfl
  have hlength := hsending.length_heard
  have hskip := hsending.skip_ahead
  have hone := hsending.skip_le
  rw [hahead] at hlength hskip
  have hedge := @clkEdge_between divider master cmdValid cmd mdioI hwalking.busy hbetween
  rw [hrising, if_pos rfl, if_pos rfl] at hedge
  have hnote : log.note master true mdioI =
      { log with seen := log.seen ++ [master.pin], heard := log.heard ++ [mdioI] } := by
    rw [MdioLog.note, hwalking.quiet]
    rfl
  rw [hnote, hedge]
  have hnext : (List.range (master.place + 1)).drop skip =
      (List.range master.place).drop skip ++ [master.place] := by
    rw [List.range_succ, List.drop_append_of_le_length (by rw [List.length_range]; exact hskip)]
  refine ⟨⟨hwalking.within, hwalking.isWrite, hwalking.phyAddr, hwalking.regAddr, hwalking.c45En,
    hwalking.c45Op, hwalking.pin, hwalking.shiftReg, rfl⟩, hsending.answers, hsending.lead_le,
    hsending.skip_le, Nat.le_succ_of_le hskip, ?_, ?_, fun hdrives => ⟨fun _ _ => ?_,
    fun hstate => ?_, fun hstate => ?_⟩⟩
  · change log.seen ++ [master.pin] =
      _ ++ ((List.range (master.place + 1)).drop skip).map log.cmd.wave
    rw [hnext, List.map_append, ← List.append_assoc, hsending.seen, hahead, hwalking.pin]
    rfl
  · change (log.heard ++ [mdioI]).length = (log.seen ++ [master.pin]).length
    rw [List.length_append, List.length_append, hsending.heard]
    rfl
  · change (log.heard ++ [mdioI])[lead + master.place - skip]? = some mdioI
    rw [show lead + master.place - skip = log.heard.length by omega]
    exact List.getElem?_concat_length
  · obtain ⟨first, hfirst⟩ := (hsending.listening hdrives).data hstate
    have hplace : master.place = 48 + master.bitCnt.toNat := by
      rw [MdioMaster.place, show master.state = .data from hstate]
    refine ⟨first, ?_⟩
    change master.shiftReg = (((log.heard ++ [mdioI]).drop (lead + 48 - skip)).take
      master.bitCnt.toNat).foldl MdioMaster.shiftIn first
    rw [List.drop_append_of_le_length (by omega),
      List.take_append_of_le_length (by rw [List.length_drop]; omega)]
    exact hfirst
  · have hplace : master.place = 65 := by
      rw [MdioMaster.place, show master.state = .done from hstate]
      exact if_neg fun htrue =>
        Bool.false_ne_true (hdrives.symm.trans (hwalking.driveData.symm.trans htrue))
    change master.cmdRdata = wireWord (((log.heard ++ [mdioI]).drop (lead + 49 - skip)).take 16)
    rw [List.drop_append_of_le_length (by omega),
      List.take_append_of_le_length (by rw [List.length_drop]; omega)]
    exact (hsending.listening hdrives).done hstate

/-- Bits that are shifted in take their places whatever was there before. -/
theorem toNat_shifted (bits : List Bool) :
    ∃ value, ∀ first : BitVec 16, (bits.foldl MdioMaster.shiftIn first).toNat =
      (first.toNat * 2 ^ bits.length + value) % 65536 := by
  induction bits with
  | nil =>
      refine ⟨0, fun first => ?_⟩
      have hlt := first.isLt
      rw [List.foldl_nil, List.length_nil, Nat.pow_zero, Nat.mul_one, Nat.add_zero]
      exact (Nat.mod_eq_of_lt hlt).symm
  | cons bit rest ih =>
      obtain ⟨value, hvalue⟩ := ih
      refine ⟨bit.toNat * 2 ^ rest.length + value, fun first => ?_⟩
      have hmul : (2 * first.toNat + bit.toNat) * 2 ^ rest.length =
          first.toNat * 2 ^ (rest.length + 1) + bit.toNat * 2 ^ rest.length := by
        rw [Nat.add_mul, Nat.pow_succ']
        congr 1
        rw [Nat.mul_comm 2, Nat.mul_assoc]
      rw [List.foldl_cons, hvalue, MdioMaster.toNat_shiftIn, List.length_cons, ← Nat.add_assoc,
        ← hmul, Nat.add_mod, Nat.mod_mul_mod, ← Nat.add_mod]

/-- Sixteen bits and more leave nothing of what was there before. -/
theorem shifted_full {bits : List Bool} (hlength : 16 ≤ bits.length) (first : BitVec 16) :
    bits.foldl MdioMaster.shiftIn first = wireWord bits := by
  obtain ⟨value, hvalue⟩ := toNat_shifted bits
  obtain ⟨more, hmore⟩ := Nat.exists_eq_add_of_le hlength
  have hflush : ∀ start : BitVec 16,
      (bits.foldl MdioMaster.shiftIn start).toNat = value % 65536 := by
    intro start
    rw [hvalue, hmore, Nat.pow_add, Nat.mul_left_comm, Nat.add_mod, Nat.mul_mod_right,
      Nat.zero_add, Nat.mod_mod]
  apply BitVec.eq_of_toNat_eq
  rw [wireWord, hflush, hflush]

/-- A bit that the state machine shifts in at a falling edge. -/
theorem listening_fall (hskip : skip ≤ 1)
    (hlistening : MdioListening log master lead skip) (hhigh : master.mdc = true)
    (hstate : master.state = .data) :
    (∃ first, MdioMaster.shiftIn master.shiftReg master.mdioISampled =
      ((log.heard.drop (lead + 48 - skip)).take (master.bitCnt.toNat + 1)).foldl
        MdioMaster.shiftIn first) ∧
      (master.bitCnt.toNat = 16 →
        MdioMaster.shiftIn master.shiftReg master.mdioISampled =
          wireWord ((log.heard.drop (lead + 49 - skip)).take 16)) := by
  have hplace : master.place = 48 + master.bitCnt.toNat := by rw [MdioMaster.place, hstate]
  have hsampled := hlistening.sampled hhigh (by omega)
  obtain ⟨first, hfirst⟩ := hlistening.data hstate
  have hthere : (log.heard.drop (lead + 48 - skip))[master.bitCnt.toNat]? =
      some master.mdioISampled := by
    rw [List.getElem?_drop, ← hsampled]
    congr 1
    omega
  have hbits : MdioMaster.shiftIn master.shiftReg master.mdioISampled =
      ((log.heard.drop (lead + 48 - skip)).take (master.bitCnt.toNat + 1)).foldl
        MdioMaster.shiftIn first := by
    rw [List.take_add_one, hthere, List.foldl_append, ← hfirst]
    rfl
  refine ⟨⟨first, hbits⟩, fun hlast => ?_⟩
  rw [hlast] at hbits hthere
  obtain ⟨hfew, -⟩ := List.getElem?_eq_some_iff.mp hthere
  rw [List.length_drop] at hfew
  have hdata : 16 ≤ ((log.heard.drop (lead + 49 - skip)).take 16).length := by
    rw [List.length_take, List.length_drop]
    omega
  -- the bit of the turnaround is the first of seventeen
  obtain ⟨turn, hturn⟩ : ∃ turn, (log.heard.drop (lead + 48 - skip)).take (16 + 1) =
      turn :: (log.heard.drop (lead + 49 - skip)).take 16 := by
    rw [List.drop_eq_getElem_cons (by omega), List.take_succ_cons,
      show lead + 48 - skip + 1 = lead + 49 - skip by omega]
    exact ⟨_, rfl⟩
  rw [hbits, hturn, List.foldl_cons, shifted_full hdata]

/-- How a read comes into and out of its data. -/
theorem fallEdge_reads (hdriveData : master.driveData = false) :
    (master.fallEdge.state = .data →
      master.state = .ta2 ∧ master.fallEdge.bitCnt = 0 ∨
        master.state = .data ∧ ¬ master.bitCnt ≥ 16 ∧
          master.fallEdge.bitCnt = master.bitCnt + 1 ∧
          master.fallEdge.shiftReg =
            MdioMaster.shiftIn master.shiftReg master.mdioISampled) ∧
      (master.fallEdge.state = .done → master.state = .data ∧ master.bitCnt ≥ 16 ∧
        master.fallEdge.cmdRdata =
          MdioMaster.shiftIn master.shiftReg master.mdioISampled) := by
  cases hstate : master.state with
  | data =>
      simp only [MdioMaster.fallEdge, hstate, hdriveData, Bool.false_eq_true, if_false]
      by_cases hend : master.bitCnt ≥ 16
      · simp only [if_pos hend]
        refine ⟨fun hnext => ?_, fun _ => ⟨trivial, hend, trivial⟩⟩
        cases hnext
      · simp only [if_neg hend]
        refine ⟨fun _ => .inr ⟨trivial, hend, trivial, trivial⟩, fun hnext => ?_⟩
        cases hnext
  | pre | phy | reg =>
      simp only [MdioMaster.fallEdge, hstate]
      constructor <;> intro hnext <;> split at hnext <;> cases hnext
  | _ => simp [MdioMaster.fallEdge, hstate, hdriveData]

/-- A falling edge before the last. -/
theorem sending_fall (hticking : Ticking divider master)
    (hsending : MdioSending log master lead skip) (hfalling : master.mdcFalling divider = true)
    (hmore : master.state ≠ .done) :
    MdioSending (log.note master false mdioI) (master.clkEdge divider cmdValid cmd mdioI) lead
      skip := by
  have hwalking := hsending.walking
  obtain ⟨hhigh, -, hlow⟩ := @mdc_of_falling divider master cmdValid cmd mdioI hticking hfalling
  obtain ⟨hnext, hplace⟩ := hwalking.fall hmore
  have hedge := @clkEdge_falls divider master cmdValid cmd mdioI hwalking.busy hfalling
  have hticks := hnext.ticks (master.clkEdge divider cmdValid cmd mdioI).mdcDiv
    (master.clkEdge divider cmdValid cmd mdioI).mdc
    (master.clkEdge divider cmdValid cmd mdioI).mdioISampled
  rw [← hedge] at hticks
  have hthere : (master.clkEdge divider cmdValid cmd mdioI).place = master.place + 1 := by
    rw [hedge, ← hplace]
    rfl
  have hahead : (master.clkEdge divider cmdValid cmd mdioI).ahead = master.ahead := by
    rw [MdioMaster.ahead, MdioMaster.ahead, hlow, hhigh, hthere]
    rfl
  have hnote : log.note master false mdioI = log := by
    rw [MdioLog.note, hwalking.quiet]
    rfl
  rw [hnote]
  refine ⟨hticks, hsending.answers, hsending.lead_le, hsending.skip_le, ?_, ?_, hsending.heard,
    fun hdrives => ?_⟩
  · rw [hahead]
    exact hsending.skip_ahead
  · rw [hahead]
    exact hsending.seen
  · obtain ⟨hdata, hdone⟩ := fallEdge_reads (hwalking.driveData.trans hdrives)
    have hfall := fun hstate => listening_fall hsending.skip_le (hsending.listening hdrives) hhigh
      hstate
    refine ⟨fun htrue => absurd (hlow.symm.trans htrue) Bool.false_ne_true, fun hstate => ?_,
      fun hstate => ?_⟩
    · rw [hedge] at hstate ⊢
      rcases hdata hstate with ⟨-, hcnt⟩ | ⟨hstate, hfew, hcnt, hshiftReg⟩
      · refine ⟨master.fallEdge.shiftReg, ?_⟩
        change _ = ((log.heard.drop (lead + 48 - skip)).take
          master.fallEdge.bitCnt.toNat).foldl MdioMaster.shiftIn _
        rw [hcnt]
        rfl
      · obtain ⟨⟨first, hbits⟩, -⟩ := hfall hstate
        refine ⟨first, ?_⟩
        have htoNat : (master.bitCnt + 1).toNat = master.bitCnt.toNat + 1 := by
          have hlt : ¬ 16 ≤ master.bitCnt.toNat := hfew
          exact Nat.mod_eq_of_lt (Nat.succ_lt_succ (by omega : master.bitCnt.toNat < 63))
        change master.fallEdge.shiftReg = ((log.heard.drop (lead + 48 - skip)).take
          master.fallEdge.bitCnt.toNat).foldl MdioMaster.shiftIn first
        rw [hcnt, hshiftReg, htoNat]
        exact hbits
    · rw [hedge] at hstate ⊢
      obtain ⟨hstate, hend, hrdata⟩ := hdone hstate
      have hwithin := hwalking.within
      simp only [MdioMaster.Within, hstate, hwalking.driveData.trans hdrives,
        Bool.false_eq_true, if_false] at hwithin
      have hge : 16 ≤ master.bitCnt.toNat := hend
      change master.fallEdge.cmdRdata = _
      rw [hrdata]
      exact (hfall hstate).2 (by omega)

/-! The whole transaction. -/

namespace MdioCmd

variable {cmd : MdioCmd}

theorem length_frame : cmd.frame.length = 32 := by
  rw [frame, List.length_append, length_body]
  rfl

theorem le_stop : 64 ≤ cmd.stop := by
  rw [stop]
  split <;> decide

theorem stop_le : cmd.stop ≤ 65 := by
  rw [stop]
  split <;> decide

theorem wave_whole :
    (List.range (cmd.stop + 1)).map cmd.wave =
      List.replicate 33 (some true) ++ cmd.frame ++ List.replicate (cmd.stop - 64) none := by
  have hstop : cmd.stop + 1 = 33 + 32 + (cmd.stop - 64) := by
    have hle := @le_stop cmd
    omega
  rw [hstop, List.range_add, List.range_add, List.map_append, List.map_append, List.map_map,
    List.map_map]
  refine congrArg₂ (· ++ ·) (congrArg₂ (· ++ ·) rfl ?_) ?_
  · refine List.ext_getElem (by rw [List.length_map, List.length_range, length_frame]) ?_
    intro index hindex hframe
    rw [List.getElem_map, List.getElem_range, Function.comp_apply, wave, if_neg (by omega),
      Nat.add_sub_cancel_left, List.getD_eq_getElem _ _ hframe]
  · rw [List.eq_replicate_iff]
    refine ⟨by rw [List.length_map, List.length_range], fun bit hbit => ?_⟩
    obtain ⟨place, -, rfl⟩ := List.mem_map.mp hbit
    exact wave_over (Nat.le_add_right 65 place)

/-- What is seen from the first bit on, or from the second. -/
theorem wave_seen {skip : Nat} (hskip : skip ≤ 33) (lead : Nat) :
    List.replicate lead none ++ ((List.range (cmd.stop + 1)).drop skip).map cmd.wave =
      cmd.wire lead (33 - skip) (cmd.stop - 64) := by
  rw [List.map_drop, wave_whole, List.append_assoc,
    List.drop_append_of_le_length (by rw [List.length_replicate]; exact hskip),
    List.drop_replicate, wire]
  simp only [List.append_assoc]

end MdioCmd

theorem MdioWalking.place_le {cmd : MdioCmd} (hwalking : MdioWalking cmd master) :
    master.place ≤ cmd.stop := by
  have hwithin := hwalking.within
  have hstop := @MdioCmd.le_stop cmd
  have hdriveData := hwalking.driveData
  rw [MdioMaster.place]
  rw [MdioMaster.Within] at hwithin
  cases hstate : master.state with
  | idle => exact Nat.zero_le _
  | data =>
      simp only [hstate, hdriveData] at hwithin ⊢
      rw [MdioCmd.stop]
      split at hwithin
      · rw [if_pos ‹_›]
        omega
      · rw [if_neg ‹_›]
        omega
  | done =>
      rw [MdioCmd.stop, ← hdriveData]
  | _ =>
      simp only [hstate] at hwithin ⊢
      omega

/-- What has been seen is the beginning of the transaction. -/
theorem MdioSending.underway (hsending : MdioSending log master lead skip) : log.Underway := by
  have hplace := hsending.walking.place_le
  have hskip := hsending.skip_le
  have hahead : master.ahead ≤ log.cmd.stop + 1 := by
    rw [MdioMaster.ahead]
    split <;> omega
  obtain ⟨more, hmore⟩ := Nat.exists_eq_add_of_le hahead
  refine ⟨hsending.answers, lead, 33 - skip, log.cmd.stop - 64, hsending.lead_le, by omega, ?_⟩
  rw [hsending.seen, ← MdioCmd.wave_seen (by omega) lead]
  refine List.prefix_append_right_inj _ |>.mpr ((List.IsPrefix.drop ?_ skip).map _)
  rw [hmore, List.range_add]
  exact List.prefix_append _ _

/-- The last falling edge: the transaction is over and its answer is there. -/
theorem sending_last (hticking : Ticking divider master)
    (hsending : MdioSending log master lead skip) (hfalling : master.mdcFalling divider = true)
    (hlast : master.state = .done) :
    log.Shaped lead (33 - skip) (log.cmd.stop - 64) ∧
      log.Gives lead (33 - skip) master.cmdRdata ∧
      log.note master false mdioI = log ∧
      (master.clkEdge divider cmdValid cmd mdioI).state = .idle ∧
      (master.clkEdge divider cmdValid cmd mdioI).mdioOe = false ∧
      (master.clkEdge divider cmdValid cmd mdioI).cmdDone = true ∧
      (master.clkEdge divider cmdValid cmd mdioI).cmdRdata = master.cmdRdata := by
  have hwalking := hsending.walking
  have hskip := hsending.skip_le
  obtain ⟨hhigh, -, -⟩ := @mdc_of_falling divider master cmdValid cmd mdioI hticking hfalling
  have hplace : master.place = log.cmd.stop := by
    rw [MdioMaster.place, hlast, MdioCmd.stop, ← hwalking.driveData]
  have hahead : master.ahead = log.cmd.stop + 1 := by
    rw [MdioMaster.ahead, hhigh, hplace]
    rfl
  have hedge := @clkEdge_falls divider master cmdValid cmd mdioI hwalking.busy hfalling
  have hfall : master.fallEdge =
      { master with cmdDone := true, mdioOe := false, state := .idle } := by
    simp only [MdioMaster.fallEdge, hlast]
  rw [hfall] at hedge
  refine ⟨⟨hsending.lead_le, by omega, ?_, hsending.heard⟩, fun hdrives => ?_, ?_, ?_⟩
  · rw [hsending.seen, hahead, MdioCmd.wave_seen (by omega)]
  · rw [(hsending.listening hdrives).done hlast,
      show lead + (33 - skip) + 16 = lead + 49 - skip by omega]
  · rw [MdioLog.note, hwalking.quiet]
    rfl
  · rw [hedge]
    exact ⟨rfl, rfl, rfl, rfl⟩

end Sending

end EmacZero
