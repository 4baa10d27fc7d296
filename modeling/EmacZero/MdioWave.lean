/-
A transaction of `mdio_master` as a wave on the wire: one falling edge of `mdc` after the
other.
-/
import EmacZero.MdioMaster
import Mathlib.Data.List.GetD

namespace EmacZero

variable {cmd : MdioCmd} {master : MdioMaster}

namespace MdioCmd

/-- What is on the wire after so many falling edges of `mdc`. -/
def wave (cmd : MdioCmd) (place : Nat) : Option Bool :=
  if place ≤ 32 then some true else cmd.frame.getD (place - 33) none

/-- The falling edge that ends the transaction.  A read takes one more than a write. -/
def stop (cmd : MdioCmd) : Nat := if cmd.drives then 64 else 65

theorem wave_header {index : Nat} (hindex : index < 14) :
    cmd.wave (33 + index) = some (cmd.header.getD index false) := by
  have hlength : cmd.header.length = 14 := rfl
  have hlt : index < (cmd.header.map some).length := by
    rw [List.length_map, hlength]
    exact hindex
  rw [wave, if_neg (by omega), Nat.add_sub_cancel_left, frame, List.getD_append _ _ _ _ hlt,
    List.getD_eq_getElem _ _ hlt, List.getElem_map, List.getD_eq_getElem]

theorem header_phy {index : Nat} (hindex : index < 5) :
    cmd.header.getD (4 + index) false = cmd.phy.getLsbD (4 - index) := by
  have hcases : index = 0 ∨ index = 1 ∨ index = 2 ∨ index = 3 ∨ index = 4 := by omega
  rcases hcases with rfl | rfl | rfl | rfl | rfl <;> rfl

theorem header_reg {index : Nat} (hindex : index < 5) :
    cmd.header.getD (9 + index) false = cmd.reg.getLsbD (4 - index) := by
  have hcases : index = 0 ∨ index = 1 ∨ index = 2 ∨ index = 3 ∨ index = 4 := by omega
  rcases hcases with rfl | rfl | rfl | rfl | rfl <;> rfl

theorem wave_body {index : Nat} (hindex : 14 ≤ index) :
    cmd.wave (33 + index) = cmd.body.getD (index - 14) none := by
  have hlength : (cmd.header.map some).length = 14 := rfl
  rw [wave, if_neg (by omega), Nat.add_sub_cancel_left, frame,
    List.getD_append_right _ _ _ _ (by omega), hlength]

theorem length_body : cmd.body.length = 18 := by
  rw [body]
  split <;> rfl

theorem wave_data (hdrives : cmd.drives = true) {index : Nat} (hindex : index < 16) :
    cmd.wave (49 + index) = some (cmd.wdata.getLsbD (15 - index)) := by
  have hlength : index < (wireBits cmd.wdata).length := by
    rw [wireBits, List.length_map, List.length_range]
    exact hindex
  have hbody : cmd.body = [some true, some false] ++ (wireBits cmd.wdata).map some := by
    rw [body, if_pos hdrives]
    rfl
  have hplace : 49 + index = 33 + (16 + index) := by omega
  have hdata : 16 + index - 14 = 2 + index := by omega
  rw [hplace, wave_body (Nat.le_add_right_of_le (by decide)), hdata, hbody,
    List.getD_append_right _ _ _ _ (Nat.le_add_right 2 index)]
  change ((wireBits cmd.wdata).map some).getD (2 + index - 2) none = _
  rw [Nat.add_sub_cancel_left, List.getD_eq_getElem _ _ (by rw [List.length_map]; exact hlength),
    List.getElem_map]
  simp only [wireBits, List.getElem_map, List.getElem_range]

/-- The turnaround of a write. -/
theorem wave_turnaround (hdrives : cmd.drives = true) :
    cmd.wave 47 = some true ∧ cmd.wave 48 = some false := by
  have hbody : cmd.body = [some true, some false] ++ (wireBits cmd.wdata).map some := by
    rw [body, if_pos hdrives]
    rfl
  refine ⟨(wave_body (Nat.le_refl 14)).trans ?_, (wave_body (Nat.le_succ 14)).trans ?_⟩ <;>
    rw [hbody] <;> rfl

theorem wave_released (hdrives : cmd.drives = false) {place : Nat} (hplace : 47 ≤ place) :
    cmd.wave place = none := by
  obtain ⟨index, rfl⟩ := Nat.exists_eq_add_of_le hplace
  have hbody : cmd.body = List.replicate 18 none := by
    rw [body, hdrives]
    rfl
  rw [show 47 + index = 33 + (14 + index) by omega, wave_body (Nat.le_add_right 14 index), hbody,
    List.getD_eq_getElem?_getD, List.getElem?_replicate]
  split <;> rfl

theorem wave_over {place : Nat} (hplace : 65 ≤ place) : cmd.wave place = none := by
  obtain ⟨index, rfl⟩ := Nat.exists_eq_add_of_le hplace
  rw [show 65 + index = 33 + (32 + index) by omega, wave_body (by omega), List.getD_eq_default]
  rw [length_body]
  omega

end MdioCmd

/-! The state machine along the wave. -/

namespace MdioMaster

theorem toNat_shiftIn (shiftReg : BitVec 16) (bit : Bool) :
    (shiftIn shiftReg bit).toNat = (2 * shiftReg.toNat + bit.toNat) % 65536 := by
  have hbit := (BitVec.ofBool bit).isLt
  rw [shiftIn, BitVec.toNat_append, ← Nat.shiftLeft_add_eq_or_of_lt hbit, Nat.shiftLeft_eq,
    BitVec.toNat_setWidth, BitVec.toNat_ofBool]
  have hone := bit.toNat_le
  omega

theorem shiftIn_false (shiftReg : BitVec 16) : shiftIn shiftReg false = shiftReg <<< 1 := by
  apply BitVec.eq_of_toNat_eq
  rw [toNat_shiftIn, BitVec.toNat_shiftLeft, Nat.shiftLeft_eq, Nat.mul_comm]
  rfl

/-- How many falling edges the state machine has taken. -/
def place (master : MdioMaster) : Nat :=
  match master.state with
  | .idle => 0
  | .pre => master.bitCnt.toNat
  | .st1 => 32
  | .st2 => 33
  | .op1 => 34
  | .op2 => 35
  | .phy => 36 + master.bitCnt.toNat
  | .reg => 41 + master.bitCnt.toNat
  | .ta1 => 46
  | .ta2 => 47
  | .data => 48 + master.bitCnt.toNat
  | .done => if master.driveData then 64 else 65

/-- The counter is within what the state counts. -/
def Within (master : MdioMaster) : Prop :=
  match master.state with
  | .idle => False
  | .pre => master.bitCnt.toNat < 32
  | .phy => master.bitCnt.toNat < 5
  | .reg => master.bitCnt.toNat < 5
  | .data => master.bitCnt.toNat < if master.driveData then 16 else 17
  | _ => True

end MdioMaster

/-- The master is at the transaction of this command. -/
structure MdioWalking (cmd : MdioCmd) (master : MdioMaster) : Prop where
  within : master.Within
  isWrite : master.isWrite = cmd.write
  phyAddr : master.phyAddr = cmd.phy
  regAddr : master.regAddr = cmd.reg
  c45En : master.c45En = cmd.c45En
  c45Op : master.c45Op = cmd.c45Op
  pin : master.pin = cmd.wave master.place
  shiftReg : cmd.drives = true → master.shiftReg = cmd.wdata <<< (master.place - 48)
  quiet : master.cmdDone = false

namespace MdioWalking

theorem busy (hwalking : MdioWalking cmd master) : master.state ≠ .idle := by
  intro hidle
  have hwithin := hwalking.within
  rw [MdioMaster.Within, hidle] at hwithin
  exact hwithin

theorem driveData (hwalking : MdioWalking cmd master) : master.driveData = cmd.drives := by
  rw [MdioMaster.driveData, MdioCmd.drives, hwalking.c45En, hwalking.c45Op, hwalking.isWrite]

/-- The master drives the wire where the wave says so. -/
theorem oe_of_wave (hwalking : MdioWalking cmd master) {bit : Bool}
    (hwave : cmd.wave master.place = some bit) : master.mdioOe = true := by
  have hpin := hwalking.pin
  rw [hwave, MdioMaster.pin] at hpin
  cases hoe : master.mdioOe with
  | true => rfl
  | false =>
      rw [hoe] at hpin
      exact absurd hpin.symm (Option.some_ne_none bit)

/-- Before the data the shift register is as it was loaded. -/
theorem shift_early (hwalking : MdioWalking cmd master) (hplace : master.place ≤ 48) {place : Nat}
    (hnext : place ≤ 48) (hdrives : cmd.drives = true) :
    master.shiftReg = cmd.wdata <<< (place - 48) := by
  rw [hwalking.shiftReg hdrives, Nat.sub_eq_zero_of_le hplace, Nat.sub_eq_zero_of_le hnext]

theorem fall_pre (hwalking : MdioWalking cmd master) (hstate : master.state = .pre) :
    MdioWalking cmd master.fallEdge ∧ master.fallEdge.place = master.place + 1 := by
  have hwithin := hwalking.within
  simp only [MdioMaster.Within, hstate] at hwithin
  have hplace : master.place = master.bitCnt.toNat := by rw [MdioMaster.place, hstate]
  have hcnt : (master.bitCnt + 1).toNat = master.bitCnt.toNat + 1 :=
    Nat.mod_eq_of_lt (Nat.succ_lt_succ (by omega : master.bitCnt.toNat < 63))
  by_cases hend : master.bitCnt ≥ 31
  · have hedge : master.fallEdge =
        { master with
          cmdDone := false
          mdioO := true
          mdioOe := true
          bitCnt := master.bitCnt + 1
          state := .st1 } := by
      simp only [MdioMaster.fallEdge, hstate, if_pos hend]
    have hthere : master.bitCnt.toNat + 1 = 32 := by
      have hge : 31 ≤ master.bitCnt.toNat := hend
      omega
    rw [hedge, hplace, hthere]
    exact ⟨⟨trivial, hwalking.isWrite, hwalking.phyAddr, hwalking.regAddr, hwalking.c45En,
      hwalking.c45Op, rfl, hwalking.shift_early (by omega) (by decide : 32 ≤ 48), rfl⟩, rfl⟩
  · have hedge : master.fallEdge =
        { master with
          cmdDone := false
          mdioO := true
          mdioOe := true
          bitCnt := master.bitCnt + 1
          state := .pre } := by
      simp only [MdioMaster.fallEdge, hstate, if_neg hend]
    have hthere : master.bitCnt.toNat + 1 < 32 := by
      have hlt : ¬ 31 ≤ master.bitCnt.toNat := hend
      omega
    rw [hedge, hplace, ← hcnt]
    rw [← hcnt] at hthere
    refine ⟨⟨hthere, hwalking.isWrite, hwalking.phyAddr, hwalking.regAddr, hwalking.c45En,
      hwalking.c45Op, ?_, hwalking.shift_early (by omega) ?_, rfl⟩, rfl⟩
    · change some true = cmd.wave (master.bitCnt + 1).toNat
      rw [MdioCmd.wave, if_pos hthere.le]
    · change (master.bitCnt + 1).toNat ≤ 48
      omega

/-- The command that is latched. -/
def Latches (master next : MdioMaster) : Prop :=
  next.isWrite = master.isWrite ∧ next.phyAddr = master.phyAddr ∧
    next.regAddr = master.regAddr ∧ next.c45En = master.c45En ∧ next.c45Op = master.c45Op

/-- A falling edge within the transaction. -/
theorem fall_next (hwalking : MdioWalking cmd master) {next : MdioMaster} {place : Nat}
    (hwithin : next.Within) (hnext : next.place = place) (hpin : next.pin = cmd.wave place)
    (hshift : cmd.drives = true → next.shiftReg = cmd.wdata <<< (place - 48))
    (hlatches : Latches master next) (hquiet : next.cmdDone = false) :
    MdioWalking cmd next := by
  obtain ⟨hisWrite, hphyAddr, hregAddr, hc45En, hc45Op⟩ := hlatches
  rw [← hnext] at hpin hshift
  exact ⟨hwithin, hisWrite.trans hwalking.isWrite, hphyAddr.trans hwalking.phyAddr,
    hregAddr.trans hwalking.regAddr, hc45En.trans hwalking.c45En, hc45Op.trans hwalking.c45Op,
    hpin, hshift, hquiet⟩

/-- A bit of the header. -/
theorem fall_bit (hwalking : MdioWalking cmd master) {index : Nat} {next : MdioMaster}
    (hplace : master.place = 32 + index) (hindex : index < 14) (hwithin : next.Within)
    (hnext : next.place = 33 + index) (hoe : next.mdioOe = master.mdioOe)
    (hbit : next.mdioO = cmd.header.getD index false) (hlatches : Latches master next)
    (hshiftReg : next.shiftReg = master.shiftReg) (hquiet : next.cmdDone = false) :
    MdioWalking cmd next ∧ next.place = master.place + 1 := by
  have hdriven : ∃ bit, cmd.wave master.place = some bit := by
    rw [hplace]
    cases index with
    | zero => exact ⟨true, rfl⟩
    | succ index =>
        rw [show 32 + (index + 1) = 33 + index by omega]
        exact ⟨_, MdioCmd.wave_header (by omega)⟩
  obtain ⟨bit, hwave⟩ := hdriven
  refine ⟨hwalking.fall_next hwithin hnext ?_ (fun hdrives => ?_) hlatches hquiet, by omega⟩
  · rw [MdioMaster.pin, hoe, hwalking.oe_of_wave hwave, if_pos rfl, hbit,
      MdioCmd.wave_header hindex]
  · rw [hshiftReg]
    exact hwalking.shift_early (by omega) (by omega) hdrives

theorem fall_header (hwalking : MdioWalking cmd master)
    (hstate : master.state = .st1 ∨ master.state = .st2 ∨ master.state = .op1 ∨
      master.state = .op2) :
    MdioWalking cmd master.fallEdge ∧ master.fallEdge.place = master.place + 1 := by
  rcases hstate with hstate | hstate | hstate | hstate
  · have hplace : master.place = 32 + 0 := by rw [MdioMaster.place, hstate]
    have hedge : master.fallEdge =
        { master with cmdDone := false, mdioO := false, state := .st2 } := by
      simp only [MdioMaster.fallEdge, hstate]
    rw [hedge]
    exact hwalking.fall_bit hplace (by decide) trivial rfl rfl rfl
      ⟨rfl, rfl, rfl, rfl, rfl⟩ rfl rfl
  · have hplace : master.place = 32 + 1 := by rw [MdioMaster.place, hstate]
    have hedge : master.fallEdge =
        { master with cmdDone := false, mdioO := !master.c45En, state := .op1 } := by
      simp only [MdioMaster.fallEdge, hstate]
    rw [hedge]
    refine hwalking.fall_bit hplace (by decide) trivial rfl rfl ?_
      ⟨rfl, rfl, rfl, rfl, rfl⟩ rfl rfl
    change (!master.c45En) = !cmd.c45En
    rw [hwalking.c45En]
  · have hplace : master.place = 32 + 2 := by rw [MdioMaster.place, hstate]
    have hedge : master.fallEdge =
        { master with
          cmdDone := false
          mdioO := if master.c45En then master.c45Op.getLsbD 1 else !master.isWrite
          state := .op2 } := by
      simp only [MdioMaster.fallEdge, hstate]
    rw [hedge]
    refine hwalking.fall_bit hplace (by decide) trivial rfl rfl ?_
      ⟨rfl, rfl, rfl, rfl, rfl⟩ rfl rfl
    change (if master.c45En then master.c45Op.getLsbD 1 else !master.isWrite) =
      cmd.opcode.getLsbD 1
    rw [hwalking.c45En, hwalking.c45Op, hwalking.isWrite, MdioCmd.opcode]
    cases cmd.c45En with
    | true => rfl
    | false =>
        rw [if_neg Bool.false_ne_true, if_neg Bool.false_ne_true]
        cases cmd.write <;> decide
  · have hplace : master.place = 32 + 3 := by rw [MdioMaster.place, hstate]
    have hedge : master.fallEdge =
        { master with
          cmdDone := false
          mdioO := if master.c45En then master.c45Op.getLsbD 0 else master.isWrite
          state := .phy
          bitCnt := 0 } := by
      simp only [MdioMaster.fallEdge, hstate]
    rw [hedge]
    refine hwalking.fall_bit hplace (by decide) (Nat.succ_pos 4) rfl rfl ?_
      ⟨rfl, rfl, rfl, rfl, rfl⟩ rfl rfl
    change (if master.c45En then master.c45Op.getLsbD 0 else master.isWrite) =
      cmd.opcode.getLsbD 0
    rw [hwalking.c45En, hwalking.c45Op, hwalking.isWrite, MdioCmd.opcode]
    cases cmd.c45En with
    | true => rfl
    | false =>
        rw [if_neg Bool.false_ne_true, if_neg Bool.false_ne_true]
        cases cmd.write <;> decide

theorem bitCnt_last (hcnt : master.bitCnt.toNat < 5) :
    (master.bitCnt ≥ 4 → master.bitCnt.toNat = 4) ∧
      (¬ master.bitCnt ≥ 4 → (master.bitCnt + 1).toNat = master.bitCnt.toNat + 1 ∧
        master.bitCnt.toNat + 1 < 5) := by
  refine ⟨fun hend => ?_, fun hmore => ⟨?_, ?_⟩⟩
  · have hge : 4 ≤ master.bitCnt.toNat := hend
    omega
  · exact Nat.mod_eq_of_lt (Nat.succ_lt_succ (by omega : master.bitCnt.toNat < 63))
  · have hlt : ¬ 4 ≤ master.bitCnt.toNat := hmore
    omega

theorem fall_phy (hwalking : MdioWalking cmd master) (hstate : master.state = .phy) :
    MdioWalking cmd master.fallEdge ∧ master.fallEdge.place = master.place + 1 := by
  have hwithin := hwalking.within
  simp only [MdioMaster.Within, hstate] at hwithin
  have hplace : master.place = 32 + (4 + master.bitCnt.toNat) := by
    rw [MdioMaster.place, hstate]
    exact Nat.add_assoc 32 4 _
  have hbit : master.phyAddr.getLsbD (4 - master.bitCnt.toNat) =
      cmd.header.getD (4 + master.bitCnt.toNat) false := by
    rw [hwalking.phyAddr, MdioCmd.header_phy hwithin]
  obtain ⟨hlast, hmore⟩ := bitCnt_last hwithin
  by_cases hend : master.bitCnt ≥ 4
  · have hedge : master.fallEdge =
        { master with
          cmdDone := false
          mdioO := master.phyAddr.getLsbD (4 - master.bitCnt.toNat)
          bitCnt := 0
          state := .reg } := by
      simp only [MdioMaster.fallEdge, hstate, if_pos hend]
    rw [hedge]
    refine hwalking.fall_bit hplace (by omega) (Nat.succ_pos 4) ?_ rfl hbit
      ⟨rfl, rfl, rfl, rfl, rfl⟩ rfl rfl
    rw [hlast hend]
    rfl
  · obtain ⟨hcnt, hfew⟩ := hmore hend
    have hedge : master.fallEdge =
        { master with
          cmdDone := false
          mdioO := master.phyAddr.getLsbD (4 - master.bitCnt.toNat)
          bitCnt := master.bitCnt + 1
          state := .phy } := by
      simp only [MdioMaster.fallEdge, hstate, if_neg hend]
    rw [hedge]
    refine hwalking.fall_bit hplace (by omega) ?_ ?_ rfl hbit ⟨rfl, rfl, rfl, rfl, rfl⟩ rfl rfl
    · change (master.bitCnt + 1).toNat < 5
      rw [hcnt]
      exact hfew
    · change 36 + (master.bitCnt + 1).toNat = _
      omega

theorem fall_reg (hwalking : MdioWalking cmd master) (hstate : master.state = .reg) :
    MdioWalking cmd master.fallEdge ∧ master.fallEdge.place = master.place + 1 := by
  have hwithin := hwalking.within
  simp only [MdioMaster.Within, hstate] at hwithin
  have hplace : master.place = 32 + (9 + master.bitCnt.toNat) := by
    rw [MdioMaster.place, hstate]
    exact Nat.add_assoc 32 9 _
  have hbit : master.regAddr.getLsbD (4 - master.bitCnt.toNat) =
      cmd.header.getD (9 + master.bitCnt.toNat) false := by
    rw [hwalking.regAddr, MdioCmd.header_reg hwithin]
  obtain ⟨hlast, hmore⟩ := bitCnt_last hwithin
  by_cases hend : master.bitCnt ≥ 4
  · have hedge : master.fallEdge =
        { master with
          cmdDone := false
          mdioO := master.regAddr.getLsbD (4 - master.bitCnt.toNat)
          bitCnt := master.bitCnt + 1
          state := .ta1 } := by
      simp only [MdioMaster.fallEdge, hstate, if_pos hend]
    rw [hedge]
    refine hwalking.fall_bit hplace (by omega) trivial ?_ rfl hbit
      ⟨rfl, rfl, rfl, rfl, rfl⟩ rfl rfl
    rw [hlast hend]
    rfl
  · obtain ⟨hcnt, hfew⟩ := hmore hend
    have hedge : master.fallEdge =
        { master with
          cmdDone := false
          mdioO := master.regAddr.getLsbD (4 - master.bitCnt.toNat)
          bitCnt := master.bitCnt + 1
          state := .reg } := by
      simp only [MdioMaster.fallEdge, hstate, if_neg hend]
    rw [hedge]
    refine hwalking.fall_bit hplace (by omega) ?_ ?_ rfl hbit ⟨rfl, rfl, rfl, rfl, rfl⟩ rfl rfl
    · change (master.bitCnt + 1).toNat < 5
      rw [hcnt]
      exact hfew
    · change 41 + (master.bitCnt + 1).toNat = _
      omega

theorem fall_ta1 (hwalking : MdioWalking cmd master) (hstate : master.state = .ta1) :
    MdioWalking cmd master.fallEdge ∧ master.fallEdge.place = master.place + 1 := by
  have hplace : master.place = 46 := by rw [MdioMaster.place, hstate]
  have hshift : cmd.drives = true → master.shiftReg = cmd.wdata <<< (47 - 48) :=
    fun hdrives => hwalking.shift_early (by omega) (by decide) hdrives
  cases hdrives : cmd.drives with
  | true =>
      have hedge : master.fallEdge =
          { master with cmdDone := false, mdioO := true, state := .ta2 } := by
        simp only [MdioMaster.fallEdge, hstate, hwalking.driveData, hdrives, if_true]
      have hwave : cmd.wave master.place = some (cmd.header.getD 13 false) := by
        rw [hplace]
        exact @MdioCmd.wave_header cmd 13 (by decide)
      rw [hedge, hplace]
      refine ⟨hwalking.fall_next trivial rfl ?_ hshift ⟨rfl, rfl, rfl, rfl, rfl⟩ rfl, rfl⟩
      change (if master.mdioOe then some true else none) = cmd.wave 47
      rw [hwalking.oe_of_wave hwave, if_pos rfl, (MdioCmd.wave_turnaround hdrives).1]
  | false =>
      have hedge : master.fallEdge =
          { master with cmdDone := false, mdioOe := false, state := .ta2 } := by
        simp only [MdioMaster.fallEdge, hstate, hwalking.driveData, hdrives, Bool.false_eq_true,
          if_false]
      rw [hedge, hplace]
      refine ⟨hwalking.fall_next trivial rfl ?_ hshift ⟨rfl, rfl, rfl, rfl, rfl⟩ rfl, rfl⟩
      exact (MdioCmd.wave_released hdrives (by decide : 47 ≤ 47)).symm

/-- A released wire stays released. -/
theorem oe_of_released (hwalking : MdioWalking cmd master) (hdrives : cmd.drives = false)
    (hplace : 47 ≤ master.place) : master.mdioOe = false := by
  have hpin := hwalking.pin
  rw [MdioCmd.wave_released hdrives hplace, MdioMaster.pin] at hpin
  cases hoe : master.mdioOe with
  | false => rfl
  | true =>
      rw [hoe] at hpin
      exact absurd hpin (Option.some_ne_none _)

theorem fall_ta2 (hwalking : MdioWalking cmd master) (hstate : master.state = .ta2) :
    MdioWalking cmd master.fallEdge ∧ master.fallEdge.place = master.place + 1 := by
  have hplace : master.place = 47 := by rw [MdioMaster.place, hstate]
  have hshift : cmd.drives = true → master.shiftReg = cmd.wdata <<< (48 - 48) :=
    fun hdrives => hwalking.shift_early (by omega) (by decide) hdrives
  have hedge : master.fallEdge =
      { master with
        cmdDone := false
        mdioO := if master.driveData then false else master.mdioO
        state := .data
        bitCnt := 0 } := by
    simp only [MdioMaster.fallEdge, hstate]
  have hwithin : 0 < if master.driveData then 16 else 17 := by split <;> decide
  rw [hedge, hplace]
  refine ⟨hwalking.fall_next hwithin rfl ?_ hshift ⟨rfl, rfl, rfl, rfl, rfl⟩ rfl, rfl⟩
  change (if master.mdioOe then some (if master.driveData then false else master.mdioO) else none)
    = cmd.wave 48
  rw [hwalking.driveData]
  cases hdrives : cmd.drives with
  | true =>
      obtain ⟨hfirst, hsecond⟩ := MdioCmd.wave_turnaround hdrives
      rw [hsecond, hwalking.oe_of_wave ((congrArg cmd.wave hplace).trans hfirst)]
      rfl
  | false =>
      rw [hwalking.oe_of_released hdrives (by omega),
        MdioCmd.wave_released hdrives (by decide : 47 ≤ 48)]
      rfl

/-- A bit of the data that the master drives. -/
theorem fall_data_write (hwalking : MdioWalking cmd master) (hstate : master.state = .data)
    (hdrives : cmd.drives = true) :
    MdioWalking cmd master.fallEdge ∧ master.fallEdge.place = master.place + 1 := by
  have hwithin := hwalking.within
  have hdriveData := hwalking.driveData.trans hdrives
  simp only [MdioMaster.Within, hstate, hdriveData, if_true] at hwithin
  have hplace : master.place = 48 + master.bitCnt.toNat := by rw [MdioMaster.place, hstate]
  have hcnt : (master.bitCnt + 1).toNat = master.bitCnt.toNat + 1 :=
    Nat.mod_eq_of_lt (Nat.succ_lt_succ (by omega : master.bitCnt.toNat < 63))
  have hshiftReg := hwalking.shiftReg hdrives
  rw [hplace, Nat.add_sub_cancel_left] at hshiftReg
  have hbit : some (master.shiftReg.getLsbD 15) = cmd.wave (49 + master.bitCnt.toNat) := by
    rw [MdioCmd.wave_data hdrives hwithin, hshiftReg, BitVec.getLsbD_shiftLeft,
      decide_eq_true (by decide : 15 < 16), decide_eq_false (by omega : ¬ 15 < master.bitCnt.toNat)]
    rfl
  have hoe : master.mdioOe = true := by
    obtain ⟨bit, hwave⟩ : ∃ bit, cmd.wave master.place = some bit := by
      rw [hplace]
      generalize master.bitCnt.toNat = cnt at hwithin
      cases cnt with
      | zero => exact ⟨false, (MdioCmd.wave_turnaround hdrives).2⟩
      | succ index =>
          exact ⟨_, (congrArg cmd.wave (by omega : 48 + (index + 1) = 49 + index)).trans
            (MdioCmd.wave_data hdrives (Nat.lt_of_succ_lt hwithin))⟩
    exact hwalking.oe_of_wave hwave
  have hshift : MdioMaster.shiftIn master.shiftReg false =
      cmd.wdata <<< (master.bitCnt.toNat + 1) := by
    rw [hshiftReg, MdioMaster.shiftIn_false, ← BitVec.shiftLeft_add]
  by_cases hend : master.bitCnt ≥ 15
  · have hedge : master.fallEdge =
        { master with
          cmdDone := false
          mdioO := master.shiftReg.getLsbD 15
          shiftReg := MdioMaster.shiftIn master.shiftReg false
          bitCnt := master.bitCnt + 1
          state := .done } := by
      simp only [MdioMaster.fallEdge, hstate, hdriveData, if_true, if_pos hend]
    have hthere : master.bitCnt.toNat = 15 := by
      have hge : 15 ≤ master.bitCnt.toNat := hend
      omega
    have hstop : master.fallEdge.place = 49 + master.bitCnt.toNat := by
      rw [hedge, hthere]
      exact if_pos hdriveData
    rw [hplace, Nat.add_right_comm]
    refine ⟨hwalking.fall_next ?_ hstop ?_ (fun _ => ?_) ?_ ?_, hstop⟩ <;> rw [hedge]
    · trivial
    · rw [← hbit, MdioMaster.pin, hoe, if_pos rfl]
    · rw [hshift, show 49 + master.bitCnt.toNat - 48 = master.bitCnt.toNat + 1 by omega]
    · exact ⟨rfl, rfl, rfl, rfl, rfl⟩
  · have hedge : master.fallEdge =
        { master with
          cmdDone := false
          mdioO := master.shiftReg.getLsbD 15
          shiftReg := MdioMaster.shiftIn master.shiftReg false
          bitCnt := master.bitCnt + 1
          state := .data } := by
      simp only [MdioMaster.fallEdge, hstate, hdriveData, if_true, if_neg hend]
    have hfew : master.bitCnt.toNat + 1 < 16 := by
      have hlt : ¬ 15 ≤ master.bitCnt.toNat := hend
      omega
    have hmore : master.fallEdge.place = 49 + master.bitCnt.toNat := by
      rw [hedge]
      change 48 + (master.bitCnt + 1).toNat = _
      omega
    rw [hplace, Nat.add_right_comm]
    refine ⟨hwalking.fall_next ?_ hmore ?_ (fun _ => ?_) ?_ ?_, hmore⟩ <;> rw [hedge]
    · change (master.bitCnt + 1).toNat < if master.driveData then 16 else 17
      rw [hdriveData, hcnt]
      exact hfew
    · rw [← hbit, MdioMaster.pin, hoe, if_pos rfl]
    · rw [hshift, show 49 + master.bitCnt.toNat - 48 = master.bitCnt.toNat + 1 by omega]
    · exact ⟨rfl, rfl, rfl, rfl, rfl⟩

/-- A bit of the data that the other side drives. -/
theorem fall_data_read (hwalking : MdioWalking cmd master) (hstate : master.state = .data)
    (hdrives : cmd.drives = false) :
    MdioWalking cmd master.fallEdge ∧ master.fallEdge.place = master.place + 1 := by
  have hwithin := hwalking.within
  have hdriveData := hwalking.driveData.trans hdrives
  simp only [MdioMaster.Within, hstate, hdriveData, Bool.false_eq_true, if_false] at hwithin
  have hplace : master.place = 48 + master.bitCnt.toNat := by rw [MdioMaster.place, hstate]
  have hcnt : (master.bitCnt + 1).toNat = master.bitCnt.toNat + 1 :=
    Nat.mod_eq_of_lt (Nat.succ_lt_succ (by omega : master.bitCnt.toNat < 63))
  have hpin : ∀ {next : MdioMaster} {place : Nat}, next.mdioOe = master.mdioOe → 47 ≤ place →
      next.pin = cmd.wave place := by
    intro next place hoe hafter
    rw [MdioMaster.pin, hoe, hwalking.oe_of_released hdrives (by omega),
      MdioCmd.wave_released hdrives hafter]
    rfl
  have hnone : ∀ {shiftReg : BitVec 16} {place : Nat}, cmd.drives = true →
      shiftReg = cmd.wdata <<< (place - 48) :=
    fun hdrives' => absurd (hdrives.symm.trans hdrives') Bool.false_ne_true
  by_cases hend : master.bitCnt ≥ 16
  · have hedge : master.fallEdge =
        { master with
          cmdDone := false
          shiftReg := MdioMaster.shiftIn master.shiftReg master.mdioISampled
          bitCnt := master.bitCnt + 1
          cmdRdata := MdioMaster.shiftIn master.shiftReg master.mdioISampled
          state := .done } := by
      simp only [MdioMaster.fallEdge, hstate, hdriveData, Bool.false_eq_true, if_false,
        if_pos hend]
    have hthere : master.bitCnt.toNat = 16 := by
      have hge : 16 ≤ master.bitCnt.toNat := hend
      omega
    have hstop : master.fallEdge.place = 49 + master.bitCnt.toNat := by
      rw [hedge, hthere]
      exact if_neg fun htrue => Bool.false_ne_true (hdriveData.symm.trans htrue)
    rw [hplace, Nat.add_right_comm]
    refine ⟨hwalking.fall_next ?_ hstop (hpin ?_ (by omega)) hnone ?_ ?_, hstop⟩ <;> rw [hedge]
    · trivial
    · exact ⟨rfl, rfl, rfl, rfl, rfl⟩
  · have hedge : master.fallEdge =
        { master with
          cmdDone := false
          shiftReg := MdioMaster.shiftIn master.shiftReg master.mdioISampled
          bitCnt := master.bitCnt + 1
          state := .data } := by
      simp only [MdioMaster.fallEdge, hstate, hdriveData, Bool.false_eq_true, if_false,
        if_neg hend]
    have hfew : master.bitCnt.toNat + 1 < 17 := by
      have hlt : ¬ 16 ≤ master.bitCnt.toNat := hend
      omega
    have hmore : master.fallEdge.place = 49 + master.bitCnt.toNat := by
      rw [hedge]
      change 48 + (master.bitCnt + 1).toNat = _
      omega
    rw [hplace, Nat.add_right_comm]
    refine ⟨hwalking.fall_next ?_ hmore (hpin ?_ (by omega)) hnone ?_ ?_, hmore⟩ <;> rw [hedge]
    · change (master.bitCnt + 1).toNat < if master.driveData then 16 else 17
      rw [hdriveData, hcnt]
      exact hfew
    · exact ⟨rfl, rfl, rfl, rfl, rfl⟩

/-- A falling edge before the last. -/
theorem fall (hwalking : MdioWalking cmd master) (hmore : master.state ≠ .done) :
    MdioWalking cmd master.fallEdge ∧ master.fallEdge.place = master.place + 1 := by
  cases hstate : master.state with
  | idle => exact absurd hstate hwalking.busy
  | pre => exact hwalking.fall_pre hstate
  | st1 => exact hwalking.fall_header (.inl hstate)
  | st2 => exact hwalking.fall_header (.inr (.inl hstate))
  | op1 => exact hwalking.fall_header (.inr (.inr (.inl hstate)))
  | op2 => exact hwalking.fall_header (.inr (.inr (.inr hstate)))
  | phy => exact hwalking.fall_phy hstate
  | reg => exact hwalking.fall_reg hstate
  | ta1 => exact hwalking.fall_ta1 hstate
  | ta2 => exact hwalking.fall_ta2 hstate
  | data =>
      cases hdrives : cmd.drives with
      | true => exact hwalking.fall_data_write hstate hdrives
      | false => exact hwalking.fall_data_read hstate hdrives
  | done => exact absurd hstate hmore

end MdioWalking

end EmacZero
