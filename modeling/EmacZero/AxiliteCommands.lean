/-
What a cycle at `axilite_regs` commands, and what it leaves of the bits that a write does not
simply store, told from the write that is executed in it.
-/
import EmacZero.AxiliteIrq
import EmacZero.AxiliteWrites

namespace EmacZero

/-- A cycle as the registers see it: the write that is executed in it, the interrupt events
and whether the MDIO master is busy. -/
structure CsrMoment (addrWidth : Nat) where
  write : Option (CsrWrite addrWidth)
  events : BitVec 3
  mdioBusy : Bool
deriving Repr, DecidableEq

def CsrWrite.names {addrWidth : Nat} (write : CsrWrite addrWidth) (csr : Csr) : Bool :=
  csrOf write.addr == some csr

/-- The counters of a group are cleared together. -/
def Csr.txCounters : List Csr := [.txFrame, .txByte]

def Csr.rxCounters : List Csr :=
  [.rxFrame, .rxByte, .rxErr, .rxErrAlign, .rxErrOverflow, .rxErrOversize, .rxBcast, .rxMcast,
    .rxSize64, .rxSize65To127, .rxSize128To255, .rxSize256To511, .rxSize512To1023,
    .rxSize1024To1518, .rxSizeJumbo, .rxDrop, .rxErrCsum]

def Csr.pauseCounters : List Csr := [.pauseRxCnt, .pauseTxCnt]

namespace CsrMoment

variable {addrWidth : Nat} (moment : CsrMoment addrWidth)

/-- Bit 11 of `MDIO_CMD`: a transaction is to start. -/
def asksGo : Bool :=
  moment.write.any fun write =>
    write.names .mdioCmd && write.strb.getLsbD 1 && write.data.getLsbD 11

/-- A group of counters is to be cleared. -/
def clears (group : List Csr) : Bool :=
  moment.write.any fun write => group.any write.names

/-- Bit 0 of `PAUSE_CTRL`: a PAUSE frame is to be sent. -/
def asksPause : Bool :=
  moment.write.any fun write =>
    write.names .pauseCtrl && write.strb.getLsbD 0 && write.data.getLsbD 0

/-- The commands that the write of this cycle gives. -/
def commands : CsrPulses where
  mdioGo := moment.asksGo && !moment.mdioBusy
  statClrTx := moment.clears Csr.txCounters
  statClrRx := moment.clears Csr.rxCounters
  statClrPause := moment.clears Csr.pauseCounters
  cfgPauseTxSend := moment.asksPause

/-- `IRQ_STATUS` behind this cycle: a write to it clears the bits of its data, else the
events are set. -/
def irqStatus (old : BitVec 3) : BitVec 3 :=
  match moment.write.filter fun write => write.names .irqStatus with
  | some write => old &&& ~~~write.data.setWidth 3
  | none => old ||| moment.events

/-- `mdio_cmd_dropped` behind this cycle. -/
def cmdDropped (old : Bool) : Bool := if moment.asksGo then moment.mdioBusy else old

variable {moment : CsrMoment addrWidth} {write : CsrWrite addrWidth}

/-- Without a write there is no command. -/
theorem commands_of_none (hnone : moment.write = none) : moment.commands = .none := by
  simp [commands, asksGo, clears, asksPause, hnone, CsrPulses.none]

/-- A write to an address without a register commands nothing. -/
theorem commands_of_unmapped (hwrite : moment.write = some write)
    (haddr : csrOf write.addr = none) : moment.commands = .none := by
  have hnames : write.names = fun _ => false := funext fun csr => by
    rw [CsrWrite.names, haddr]
    rfl
  simp [commands, asksGo, clears, asksPause, hwrite, hnames, CsrPulses.none]

/-- The pulses that the source raises for a write are its commands. -/
theorem commands_of_write {csr : Csr} (hwrite : moment.write = some write)
    (haddr : csrOf write.addr = some csr) :
    moment.commands = .ofWrite csr write.data write.strb moment.mdioBusy := by
  have hnames : write.names = fun other => csr == other := funext fun other => by
    rw [CsrWrite.names, haddr]
    rfl
  rw [commands, asksGo, clears, clears, clears, asksPause, hwrite]
  simp only [Option.any_some, hnames]
  cases csr <;> rfl

end CsrMoment

/-- Only a write to `MDIO_CMD` with bit 11 set moves `mdio_cmd_dropped`. -/
theorem CsrFile.write_mdioCmdDropped {params : AxiliteParams} (csr : Csr) (file : CsrFile)
    (data : BitVec 32) (strb : BitVec 4) (mdioBusy : Bool) :
    (file.write params csr data strb mdioBusy).mdioCmdDropped =
      if csr == .mdioCmd && strb.getLsbD 1 && data.getLsbD 11 then mdioBusy
      else file.mdioCmdDropped := by
  cases csr <;> simp only [CsrFile.write] <;> first | rfl | (split <;> rfl)

end EmacZero
