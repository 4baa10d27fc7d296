/-
The management interface of `eth_mac_sys`: the registers, `mdio_busy_r` and the master.
-/
import EmacZero.AxiliteRegs
import EmacZero.MdioMaster

namespace EmacZero

/-- The command in `MDIO_CMD` and `MDIO_WDATA`. -/
def CsrFile.mdio (file : CsrFile) : MdioCmd where
  write := file.mdioCmd.getLsbD 10
  phy := file.mdioCmd.extractLsb' 5 5
  reg := file.mdioCmd.extractLsb' 0 5
  wdata := file.mdioWdata
  c45En := file.mdioCmd.getLsbD 12
  c45Op := file.mdioCmd.extractLsb' 13 2

/-- The inputs of one cycle; the MDIO fields of `status` come from within. -/
structure MdioSysIn (params : AxiliteParams) where
  bus : AxilMaster params.addrWidth
  status : CsrStatus
  mdioI : Bool

structure MdioSys (params : AxiliteParams) where
  regs : AxiliteRegs params
  busyR : Bool
  master : MdioMaster

namespace MdioSys

variable {params : AxiliteParams}

def reset : MdioSys params := ⟨.reset, false, .reset⟩

section Edge

variable (divider : MdcDivider) (sys : MdioSys params) (i : MdioSysIn params)

/-- What the registers see of the master. -/
def status : CsrStatus :=
  { i.status with
    mdioRdata := sys.master.cmdRdata
    mdioDone := sys.master.cmdDone
    mdioBusy := sys.busyR }

/-- A rising edge of `clk`. -/
def clkEdge : MdioSys params where
  regs := sys.regs.clkEdge i.bus (sys.status i)
  busyR :=
    if sys.regs.pulses.mdioGo then true
    else if sys.master.cmdDone then false
    else sys.busyR
  master := sys.master.clkEdge divider sys.regs.pulses.mdioGo sys.regs.file.mdio i.mdioI

/-- A write with the GO bit comes to `MDIO_CMD`. -/
def goWritten : Bool :=
  sys.regs.executes && sys.regs.wrCsr == some .mdioCmd &&
    (sys.regs.wStrb.getLsbD 1 && sys.regs.wData.getLsbD 11)

end Edge

end MdioSys

/-- What the wire shows of a command: at each rising edge of `mdc` since its GO what the master
drives and what comes in, and the data that it gives back with each `cmd_done`. -/
structure MdioLog where
  cmd : MdioCmd
  seen : List (Option Bool)
  heard : List Bool
  answers : List (BitVec 16)
deriving Repr, DecidableEq

/-- A cycle on the wire. -/
def MdioLog.note (log : MdioLog) (master : MdioMaster) (rises mdioI : Bool) : MdioLog :=
  { log with
    seen := if rises then log.seen ++ [master.pin] else log.seen
    heard := if rises then log.heard ++ [mdioI] else log.heard
    answers := if master.cmdDone then log.answers ++ [master.cmdRdata] else log.answers }

/-- The commands before the last one, the last one, and for each GO whether it was taken. -/
structure MdioBench (params : AxiliteParams) where
  sys : MdioSys params
  past : List MdioLog
  current : Option MdioLog
  goes : List Bool

namespace MdioBench

variable {params : AxiliteParams}

def start : MdioBench params := ⟨.reset, [], none, []⟩

section Step

variable (divider : MdcDivider) (bench : MdioBench params) (i : MdioSysIn params)

/-- The last command has not been answered. -/
def inProgress : Bool := bench.current.any fun log => log.answers.isEmpty

/-- How many commands have been answered. -/
def answered : Nat :=
  (bench.past ++ bench.current.toList).countP fun log => !log.answers.isEmpty

/-- `mdc` rises at the end of this cycle. -/
def rises : Bool := !bench.sys.master.mdc && (bench.sys.clkEdge divider i).master.mdc

def noted : Option MdioLog :=
  bench.current.map fun log => log.note bench.sys.master (bench.rises divider i) i.mdioI

def step : MdioBench params :=
  let sys := bench.sys.clkEdge divider i
  let noted := bench.noted divider i
  if bench.sys.goWritten then
    if bench.inProgress then ⟨sys, bench.past, noted, bench.goes ++ [false]⟩
    else
      ⟨sys, bench.past ++ noted.toList, some ⟨sys.regs.file.mdio, [], [], []⟩,
        bench.goes ++ [true]⟩
  else ⟨sys, bench.past, noted, bench.goes⟩

end Step

end MdioBench

/-! What a command is to show. -/

/-- Ones, the frame, and then nothing.  The edge at which the GO is still on its way to the
master may come before. -/
def MdioCmd.wire (cmd : MdioCmd) (lead ones rest : Nat) : List (Option Bool) :=
  List.replicate lead none ++ List.replicate ones (some true) ++ cmd.frame ++
    List.replicate rest none

/-- The whole transaction has been on the wire, after at least 32 ones. -/
structure MdioLog.Shaped (log : MdioLog) (lead ones rest : Nat) : Prop where
  lead_le : lead ≤ 1
  ones_le : 32 ≤ ones
  seen : log.seen = log.cmd.wire lead ones rest
  heard : log.heard.length = log.seen.length

/-- What a command gives back: for a read the 16 bits that came in after the turnaround. -/
def MdioLog.Gives (log : MdioLog) (lead ones : Nat) (answer : BitVec 16) : Prop :=
  log.cmd.drives = false → answer = wireWord ((log.heard.drop (lead + ones + 16)).take 16)

/-- The command is done, and has been answered once. -/
def MdioLog.Finished (log : MdioLog) : Prop :=
  ∃ lead ones rest answer, log.Shaped lead ones rest ∧ log.answers = [answer] ∧
    log.Gives lead ones answer

/-- The command is not done: the beginning of its transaction is on the wire. -/
def MdioLog.Underway (log : MdioLog) : Prop :=
  log.answers = [] ∧ ∃ lead ones rest, lead ≤ 1 ∧ 32 ≤ ones ∧
    log.seen <+: log.cmd.wire lead ones rest

end EmacZero
