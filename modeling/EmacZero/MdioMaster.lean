/-
`mdio_master`: clause 22 and clause 45 transactions on the management wire, and what each
is to look like there.
-/
import Mathlib.Data.BitVec

namespace EmacZero

/-- `MDC_DIV`, which is at least 4; its counter has 16 bits. -/
structure MdcDivider where
  period : Nat
  four_le : 4 ≤ period
  fits : period ≤ 2 ^ 16

namespace MdcDivider

/-- The divider for a `CLK_FREQ_HZ`, which is an integer of 32 bits. -/
def ofFreq (clkFreqHz : BitVec 32) : MdcDivider where
  period := max 4 ((clkFreqHz.toNat + 999999) / 1000000)
  four_le := Nat.le_max_left 4 _
  fits := by
    have hfreq := clkFreqHz.isLt
    omega

variable (divider : MdcDivider)

/-- `MDC_RISE` -/
def rise : BitVec 16 := .ofNat 16 (divider.period / 2 - 1)

/-- `MDC_LAST` -/
def last : BitVec 16 := .ofNat 16 (divider.period - 1)

end MdcDivider

/-- The `cmd_*` inputs beside `cmd_valid`. -/
structure MdioCmd where
  write : Bool
  phy : BitVec 5
  reg : BitVec 5
  wdata : BitVec 16
  c45En : Bool
  c45Op : BitVec 2
deriving Repr, DecidableEq

inductive MdioState where
  | idle | pre | st1 | st2 | op1 | op2 | phy | reg | ta1 | ta2 | data | done
deriving Repr, DecidableEq

/-- The registers of `mdio_master`. -/
structure MdioMaster where
  mdcDiv : BitVec 16
  mdc : Bool
  mdioISampled : Bool
  state : MdioState
  bitCnt : BitVec 6
  isWrite : Bool
  phyAddr : BitVec 5
  regAddr : BitVec 5
  shiftReg : BitVec 16
  c45En : Bool
  c45Op : BitVec 2
  mdioO : Bool
  mdioOe : Bool
  cmdRdata : BitVec 16
  cmdDone : Bool
deriving Repr, DecidableEq

namespace MdioMaster

def reset : MdioMaster :=
  ⟨0, false, true, .idle, 0, false, 0, 0, 0, false, 0, true, false, 0, false⟩

section Edge

variable (divider : MdcDivider) (master : MdioMaster) (cmdValid : Bool) (cmd : MdioCmd)
  (mdioI : Bool)

def mdcRising : Bool := master.mdcDiv == divider.rise

def mdcFalling : Bool := master.mdcDiv == divider.last

/-- The master drives the turnaround and the data. -/
def driveData : Bool :=
  if master.c45En then master.c45Op == 0b00 || master.c45Op == 0b01 else master.isWrite

/-- The shift register with one more bit. -/
def shiftIn (shiftReg : BitVec 16) (bit : Bool) : BitVec 16 :=
  shiftReg.setWidth 15 ++ BitVec.ofBool bit

/-- The state machine takes a command. -/
def accept : MdioMaster :=
  { master with
    cmdDone := false
    isWrite := cmd.write
    phyAddr := cmd.phy
    regAddr := cmd.reg
    shiftReg := cmd.wdata
    c45En := cmd.c45En
    c45Op := cmd.c45Op
    state := .pre
    bitCnt := 0
    mdioOe := true
    mdioO := true }

/-- The state machine at a falling edge of `mdc`. -/
def fallEdge : MdioMaster :=
  let next := { master with cmdDone := false }
  match master.state with
  | .idle => next
  | .pre =>
      { next with
        mdioO := true
        mdioOe := true
        bitCnt := master.bitCnt + 1
        state := if master.bitCnt ≥ 31 then .st1 else .pre }
  | .st1 => { next with mdioO := false, state := .st2 }
  | .st2 => { next with mdioO := !master.c45En, state := .op1 }
  | .op1 =>
      { next with
        mdioO := if master.c45En then master.c45Op.getLsbD 1 else !master.isWrite
        state := .op2 }
  | .op2 =>
      { next with
        mdioO := if master.c45En then master.c45Op.getLsbD 0 else master.isWrite
        state := .phy
        bitCnt := 0 }
  | .phy =>
      { next with
        mdioO := master.phyAddr.getLsbD (4 - master.bitCnt.toNat)
        bitCnt := if master.bitCnt ≥ 4 then 0 else master.bitCnt + 1
        state := if master.bitCnt ≥ 4 then .reg else .phy }
  | .reg =>
      { next with
        mdioO := master.regAddr.getLsbD (4 - master.bitCnt.toNat)
        bitCnt := master.bitCnt + 1
        state := if master.bitCnt ≥ 4 then .ta1 else .reg }
  | .ta1 =>
      if master.driveData then { next with mdioO := true, state := .ta2 }
      else { next with mdioOe := false, state := .ta2 }
  | .ta2 =>
      { next with
        mdioO := if master.driveData then false else master.mdioO
        state := .data
        bitCnt := 0 }
  | .data =>
      if master.driveData then
        { next with
          mdioO := master.shiftReg.getLsbD 15
          shiftReg := shiftIn master.shiftReg false
          bitCnt := master.bitCnt + 1
          state := if master.bitCnt ≥ 15 then .done else .data }
      else
        -- the first bit is the turnaround's, which is shifted out again
        { next with
          shiftReg := shiftIn master.shiftReg master.mdioISampled
          bitCnt := master.bitCnt + 1
          cmdRdata :=
            if master.bitCnt ≥ 16 then shiftIn master.shiftReg master.mdioISampled
            else master.cmdRdata
          state := if master.bitCnt ≥ 16 then .done else .data }
  | .done => { next with mdioOe := false, cmdDone := true, state := .idle }

/-- The state machine at a rising edge of `clk`. -/
def coreEdge : MdioMaster :=
  if master.state = .idle then
    if cmdValid then master.accept cmd else { master with cmdDone := false }
  else if master.mdcFalling divider then master.fallEdge
  else { master with cmdDone := false }

/-- A rising edge of `clk`. -/
def clkEdge : MdioMaster :=
  { master.coreEdge divider cmdValid cmd with
    mdcDiv := if master.mdcDiv ≥ divider.last then 0 else master.mdcDiv + 1
    mdc :=
      if master.mdcRising divider then true
      else if master.mdcFalling divider then false
      else master.mdc
    mdioISampled := if master.mdcRising divider then mdioI else master.mdioISampled }

/-- What the master puts on the wire, if it drives it. -/
def pin : Option Bool := if master.mdioOe then some master.mdioO else none

end Edge

end MdioMaster

/-! What a transaction is. -/

/-- The bits of a word, the most significant first. -/
def wireBits {width : Nat} (word : BitVec width) : List Bool :=
  (List.range width).map fun index => word.getLsbD (width - 1 - index)

/-- The word of bits on the wire. -/
def wireWord (bits : List Bool) : BitVec 16 := bits.foldl MdioMaster.shiftIn 0

namespace MdioCmd

variable (cmd : MdioCmd)

/-- The master drives the data: a clause 22 write, or a clause 45 address or write. -/
def drives : Bool := if cmd.c45En then cmd.c45Op == 0b00 || cmd.c45Op == 0b01 else cmd.write

/-- Clause 22 has 10 for a read and 01 for a write. -/
def opcode : BitVec 2 := if cmd.c45En then cmd.c45Op else if cmd.write then 0b01 else 0b10

/-- Start, operation and addresses. -/
def header : List Bool :=
  [false, !cmd.c45En] ++ wireBits cmd.opcode ++ wireBits cmd.phy ++ wireBits cmd.reg

/-- Turnaround and data, which are the other side's in a read. -/
def body : List (Option Bool) :=
  if cmd.drives then ([true, false] ++ wireBits cmd.wdata).map some else List.replicate 18 none

/-- The 32 bits after the preamble. -/
def frame : List (Option Bool) := cmd.header.map some ++ cmd.body

end MdioCmd

end EmacZero
