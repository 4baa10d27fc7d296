/-
`axilite_regs`: the register block of the MAC behind its AXI4-Lite port.  One
definition for each register group of the source, and one for each of its two
channels.
-/
import EmacZero.ClockedRun

namespace EmacZero

/-- What an AXI4-Lite master drives in one cycle. -/
structure AxilMaster (addrWidth : Nat) where
  awaddr : BitVec addrWidth
  awvalid : Bool
  wdata : BitVec 32
  wstrb : BitVec 4
  wvalid : Bool
  bready : Bool
  araddr : BitVec addrWidth
  arvalid : Bool
  rready : Bool
deriving Repr, DecidableEq

/-- What an AXI4-Lite slave drives in one cycle. -/
structure AxilSlave where
  awready : Bool
  wready : Bool
  bresp : BitVec 2
  bvalid : Bool
  arready : Bool
  rdata : BitVec 32
  rresp : BitVec 2
  rvalid : Bool
deriving Repr, DecidableEq

/-- `ADDR_WIDTH`, `MCAST_HASH_FILTER`, `TX_CSUM_OFFLOAD`, `RX_CSUM_OFFLOAD`, `MAX_FRAME`
and `TXRX_EN_AT_RESET`. -/
structure AxiliteParams where
  addrWidth : Nat
  mcastHashFilter : Bool
  txCsumOffload : Bool
  rxCsumOffload : Bool
  maxFrame : Nat
  txrxEnAtReset : Bool

/-- The other inputs of the block in one cycle: what it can read and the events. -/
structure CsrStatus where
  dbgSaf : BitVec 16
  statPauseRxCnt : BitVec 32
  statPauseTxCnt : BitVec 32
  mdioRdata : BitVec 16
  mdioDone : Bool
  mdioBusy : Bool
  statTxFrameCnt : BitVec 32
  statTxByteCnt : BitVec 32
  statRxFrameCnt : BitVec 32
  statRxByteCnt : BitVec 32
  statRxErrCnt : BitVec 32
  statRxErrAlignCnt : BitVec 32
  statRxErrOverflowCnt : BitVec 32
  statRxErrOversizeCnt : BitVec 32
  statRxBcastCnt : BitVec 32
  statRxMcastCnt : BitVec 32
  statRxSize64Cnt : BitVec 32
  statRxSize65To127Cnt : BitVec 32
  statRxSize128To255Cnt : BitVec 32
  statRxSize256To511Cnt : BitVec 32
  statRxSize512To1023Cnt : BitVec 32
  statRxSize1024To1518Cnt : BitVec 32
  statRxSizeJumboCnt : BitVec 32
  statRxDropCnt : BitVec 32
  statRxErrCsumCnt : BitVec 32
  stsTxActive : Bool
  stsTxFifoBusy : Bool
  evtTxDone : Bool
  evtRxFrame : Bool
deriving Repr, DecidableEq

/-- The registers, in the order of their addresses. -/
inductive Csr where
  | version | ctrl | status | macLo | macHi | mdioCmd | mdioWdata | mdioRdata
  | irqEn | irqStatus | txFrame | txByte | rxFrame | rxByte | rxErr | scratch
  | ipAddr | mcastLo | mcastHi | rxErrAlign | rxErrOverflow | rxErrOversize
  | rxBcast | rxMcast | rxSize64 | rxSize65To127 | rxSize128To255 | rxSize256To511
  | rxSize512To1023 | rxSize1024To1518 | rxSizeJumbo | rxDrop | rxErrCsum
  | pauseCtrl | pauseQuanta | pauseRxCnt | pauseTxCnt | safDbg | caps
deriving Repr, DecidableEq

/-- `A_VERSION` to `A_CAPS`: the register of a word index. -/
def Csr.ofIndex : Nat → Option Csr
  | 0x00 => some .version
  | 0x01 => some .ctrl
  | 0x02 => some .status
  | 0x03 => some .macLo
  | 0x04 => some .macHi
  | 0x05 => some .mdioCmd
  | 0x06 => some .mdioWdata
  | 0x07 => some .mdioRdata
  | 0x08 => some .irqEn
  | 0x09 => some .irqStatus
  | 0x0A => some .txFrame
  | 0x0B => some .txByte
  | 0x0C => some .rxFrame
  | 0x0D => some .rxByte
  | 0x0E => some .rxErr
  | 0x0F => some .scratch
  | 0x10 => some .ipAddr
  | 0x11 => some .mcastLo
  | 0x12 => some .mcastHi
  | 0x13 => some .rxErrAlign
  | 0x14 => some .rxErrOverflow
  | 0x15 => some .rxErrOversize
  | 0x16 => some .rxBcast
  | 0x17 => some .rxMcast
  | 0x18 => some .rxSize64
  | 0x19 => some .rxSize65To127
  | 0x1A => some .rxSize128To255
  | 0x1B => some .rxSize256To511
  | 0x1C => some .rxSize512To1023
  | 0x1D => some .rxSize1024To1518
  | 0x1E => some .rxSizeJumbo
  | 0x1F => some .rxDrop
  | 0x20 => some .rxErrCsum
  | 0x21 => some .pauseCtrl
  | 0x22 => some .pauseQuanta
  | 0x23 => some .pauseRxCnt
  | 0x24 => some .pauseTxCnt
  | 0x25 => some .safDbg
  | 0x26 => some .caps
  | _ => none

/-- The register that a byte address selects. -/
def csrOf {addrWidth : Nat} (addr : BitVec addrWidth) : Option Csr :=
  Csr.ofIndex (addr.toNat / 4)

/-- `strb_merge` -/
def strbMerge (oldVal newVal : BitVec 32) (strb : BitVec 4) : BitVec 32 :=
  (if strb.getLsbD 3 then newVal.extractLsb' 24 8 else oldVal.extractLsb' 24 8) ++
    (if strb.getLsbD 2 then newVal.extractLsb' 16 8 else oldVal.extractLsb' 16 8) ++
    (if strb.getLsbD 1 then newVal.extractLsb' 8 8 else oldVal.extractLsb' 8 8) ++
    (if strb.getLsbD 0 then newVal.extractLsb' 0 8 else oldVal.extractLsb' 0 8)

/-- The stored registers, `reg_*` of the source. -/
structure CsrFile where
  ctrl : BitVec 10
  macLo : BitVec 32
  macHi : BitVec 16
  ipAddr : BitVec 32
  mdioCmd : BitVec 15
  mdioWdata : BitVec 16
  mdioCmdDropped : Bool
  irqEn : BitVec 3
  irqStatus : BitVec 3
  scratch : BitVec 32
  mcastLo : BitVec 32
  mcastHi : BitVec 32
  pauseRxEn : Bool
  pauseQuanta : BitVec 16
deriving Repr, DecidableEq

/-- The outputs that are high for one cycle. -/
structure CsrPulses where
  mdioGo : Bool
  statClrTx : Bool
  statClrRx : Bool
  statClrPause : Bool
  cfgPauseTxSend : Bool
deriving Repr, DecidableEq

structure CsrWriteChannel (addrWidth : Nat) where
  awReadyR : Bool
  wReadyR : Bool
  awLatched : Bool
  wLatched : Bool
  awAddr : BitVec addrWidth
  wData : BitVec 32
  wStrb : BitVec 4
  bvalid : Bool
deriving Repr, DecidableEq

structure CsrReadChannel where
  arready : Bool
  rdata : BitVec 32
  rvalid : Bool
deriving Repr, DecidableEq

structure AxiliteRegs (params : AxiliteParams) extends
  CsrWriteChannel params.addrWidth, CsrReadChannel where
  file : CsrFile
  pulses : CsrPulses
deriving Repr, DecidableEq

/-- `CTRL_RESET` and the other reset values. -/
def CsrFile.reset (params : AxiliteParams) : CsrFile where
  ctrl := if params.txrxEnAtReset then 0b0000100011 else 0b0000100000
  macLo := 0x00000001
  macHi := 0x0200
  ipAddr := 0xC0A889C8
  mdioCmd := 0
  mdioWdata := 0
  mdioCmdDropped := false
  irqEn := 0
  irqStatus := 0
  scratch := 0
  mcastLo := 0
  mcastHi := 0
  pauseRxEn := false
  pauseQuanta := 0

def CsrPulses.none : CsrPulses := ⟨false, false, false, false, false⟩

/-- A write to a register other than `IRQ_STATUS`. -/
def CsrFile.write (params : AxiliteParams) (file : CsrFile) (csr : Csr) (data : BitVec 32)
    (strb : BitVec 4) (mdioBusy : Bool) : CsrFile :=
  match csr with
  | .ctrl =>
      { file with ctrl := (strbMerge (file.ctrl.setWidth 32) data strb).setWidth 10 }
  | .macLo => { file with macLo := strbMerge file.macLo data strb }
  | .macHi =>
      { file with macHi := (strbMerge (file.macHi.setWidth 32) data strb).setWidth 16 }
  | .ipAddr => { file with ipAddr := strbMerge file.ipAddr data strb }
  | .mdioCmd =>
      -- bit 11 (go) is not stored; a go while the master is busy is only noted
      { file with
        mdioCmd := (strbMerge (file.mdioCmd.setWidth 32) data strb).setWidth 15 &&& 0x77FF
        mdioCmdDropped :=
          if strb.getLsbD 1 && data.getLsbD 11 then mdioBusy else file.mdioCmdDropped }
  | .mdioWdata =>
      { file with
        mdioWdata := (strbMerge (file.mdioWdata.setWidth 32) data strb).setWidth 16 }
  | .irqEn =>
      { file with irqEn := (strbMerge (file.irqEn.setWidth 32) data strb).setWidth 3 }
  | .scratch => { file with scratch := strbMerge file.scratch data strb }
  | .mcastLo =>
      if params.mcastHashFilter then
        { file with mcastLo := strbMerge file.mcastLo data strb }
      else file
  | .mcastHi =>
      if params.mcastHashFilter then
        { file with mcastHi := strbMerge file.mcastHi data strb }
      else file
  | .pauseCtrl =>
      if strb.getLsbD 0 then { file with pauseRxEn := data.getLsbD 1 } else file
  | .pauseQuanta =>
      { file with
        pauseQuanta :=
          (if strb.getLsbD 1 then data.extractLsb' 8 8
            else file.pauseQuanta.extractLsb' 8 8) ++
          (if strb.getLsbD 0 then data.extractLsb' 0 8
            else file.pauseQuanta.extractLsb' 0 8) }
  | _ => file

/-- The pulses that a write raises. -/
def CsrPulses.ofWrite (csr : Csr) (data : BitVec 32) (strb : BitVec 4) (mdioBusy : Bool) :
    CsrPulses :=
  match csr with
  | .mdioCmd =>
      { CsrPulses.none with
        mdioGo := strb.getLsbD 1 && data.getLsbD 11 && !mdioBusy }
  | .txFrame | .txByte => { CsrPulses.none with statClrTx := true }
  | .rxFrame | .rxByte | .rxErr | .rxErrAlign | .rxErrOverflow | .rxErrOversize
  | .rxBcast | .rxMcast | .rxSize64 | .rxSize65To127 | .rxSize128To255
  | .rxSize256To511 | .rxSize512To1023 | .rxSize1024To1518 | .rxSizeJumbo | .rxDrop
  | .rxErrCsum => { CsrPulses.none with statClrRx := true }
  | .pauseCtrl =>
      { CsrPulses.none with cfgPauseTxSend := strb.getLsbD 0 && data.getLsbD 0 }
  | .pauseRxCnt | .pauseTxCnt => { CsrPulses.none with statClrPause := true }
  | _ => CsrPulses.none

/-- `VERSION` -/
def csrVersion : BitVec 32 := 0x0002454D

/-- `CAPS` -/
def csrCaps (params : AxiliteParams) : BitVec 32 :=
  BitVec.ofNat 16 params.maxFrame ++ (0 : BitVec 13) ++
    BitVec.ofBool params.rxCsumOffload ++ BitVec.ofBool params.txCsumOffload ++
    BitVec.ofBool params.mcastHashFilter

/-- What a read of a register answers. -/
def CsrFile.read (params : AxiliteParams) (file : CsrFile) (status : CsrStatus) :
    Csr → BitVec 32
  | .ctrl => file.ctrl.setWidth 32
  | .status =>
      (BitVec.ofBool file.mdioCmdDropped ++ BitVec.ofBool status.mdioBusy ++
        BitVec.ofBool status.stsTxFifoBusy ++ BitVec.ofBool status.stsTxActive).setWidth 32
  | .macLo => file.macLo
  | .macHi => file.macHi.setWidth 32
  | .ipAddr => file.ipAddr
  | .safDbg => status.dbgSaf.setWidth 32
  | .mdioCmd => file.mdioCmd.setWidth 32
  | .mdioWdata => file.mdioWdata.setWidth 32
  | .mdioRdata => status.mdioRdata.setWidth 32
  | .irqEn => file.irqEn.setWidth 32
  | .irqStatus => file.irqStatus.setWidth 32
  | .txFrame => status.statTxFrameCnt
  | .txByte => status.statTxByteCnt
  | .rxFrame => status.statRxFrameCnt
  | .rxByte => status.statRxByteCnt
  | .rxErr => status.statRxErrCnt
  | .scratch => file.scratch
  | .version => csrVersion
  | .caps => csrCaps params
  | .mcastLo => if params.mcastHashFilter then file.mcastLo else 0
  | .mcastHi => if params.mcastHashFilter then file.mcastHi else 0
  | .rxErrAlign => status.statRxErrAlignCnt
  | .rxErrOverflow => status.statRxErrOverflowCnt
  | .rxErrOversize => status.statRxErrOversizeCnt
  | .rxBcast => status.statRxBcastCnt
  | .rxMcast => status.statRxMcastCnt
  | .rxSize64 => status.statRxSize64Cnt
  | .rxSize65To127 => status.statRxSize65To127Cnt
  | .rxSize128To255 => status.statRxSize128To255Cnt
  | .rxSize256To511 => status.statRxSize256To511Cnt
  | .rxSize512To1023 => status.statRxSize512To1023Cnt
  | .rxSize1024To1518 => status.statRxSize1024To1518Cnt
  | .rxSizeJumbo => status.statRxSizeJumboCnt
  | .rxDrop => status.statRxDropCnt
  | .rxErrCsum => status.statRxErrCsumCnt
  | .pauseCtrl => (BitVec.ofBool file.pauseRxEn ++ (0 : BitVec 1)).setWidth 32
  | .pauseQuanta => file.pauseQuanta.setWidth 32
  | .pauseRxCnt => status.statPauseRxCnt
  | .pauseTxCnt => status.statPauseTxCnt

namespace AxiliteRegs

variable {params : AxiliteParams}

def reset : AxiliteRegs params where
  awReadyR := true
  wReadyR := true
  awLatched := false
  wLatched := false
  awAddr := 0
  wData := 0
  wStrb := 0
  bvalid := false
  arready := false
  rdata := 0
  rvalid := false
  file := .reset params
  pulses := .none

section Edge

variable (s : AxiliteRegs params) (bus : AxilMaster params.addrWidth) (status : CsrStatus)

/-- The slave side of the port. -/
def port : AxilSlave where
  awready := s.awReadyR
  wready := s.wReadyR
  bresp := 0
  bvalid := s.bvalid
  arready := s.arready
  rdata := s.rdata
  rresp := 0
  rvalid := s.rvalid

/-- Both halves of a write are here and its response is not out yet. -/
def executes : Bool := s.awLatched && s.wLatched && !s.bvalid

/-- The register that the latched address selects. -/
def wrCsr : Option Csr := csrOf s.awAddr

def events : BitVec 3 :=
  BitVec.ofBool status.mdioDone ++ BitVec.ofBool status.evtRxFrame ++
    BitVec.ofBool status.evtTxDone

/-- The registers with the events of this cycle in `IRQ_STATUS`. -/
def captured : CsrFile :=
  { s.file with irqStatus := s.file.irqStatus ||| events status }

def nextFile : CsrFile :=
  if s.executes then
    match s.wrCsr with
    -- the clear replaces what the events have set in this cycle
    | some .irqStatus =>
        { s.captured status with
          irqStatus := s.file.irqStatus &&& ~~~s.wData.setWidth 3 }
    | some csr => (s.captured status).write params csr s.wData s.wStrb status.mdioBusy
    | none => s.captured status
  else s.captured status

def nextPulses : CsrPulses :=
  if s.executes then
    match s.wrCsr with
    | some csr => .ofWrite csr s.wData s.wStrb status.mdioBusy
    | none => .none
  else .none

def awTake : Bool := bus.awvalid && s.awReadyR

def wTake : Bool := bus.wvalid && s.wReadyR

def bTake : Bool := s.bvalid && bus.bready

def nextWrite : CsrWriteChannel params.addrWidth where
  awReadyR := if s.bTake bus then true else if s.awTake bus then false else s.awReadyR
  wReadyR := if s.bTake bus then true else if s.wTake bus then false else s.wReadyR
  awLatched := if s.executes then false else if s.awTake bus then true else s.awLatched
  wLatched := if s.executes then false else if s.wTake bus then true else s.wLatched
  awAddr := if s.awTake bus then bus.awaddr else s.awAddr
  wData := if s.wTake bus then bus.wdata else s.wData
  wStrb := if s.wTake bus then bus.wstrb else s.wStrb
  bvalid := if s.bTake bus then false else if s.executes then true else s.bvalid

/-- A read is accepted, and answered at once. -/
def arAccept : Bool := bus.arvalid && !s.rvalid && !s.arready

/-- The answer to a read of an address. -/
def answer (addr : BitVec params.addrWidth) : BitVec 32 :=
  match csrOf addr with
  | some csr => s.file.read params status csr
  | none => 0

def rTake : Bool := s.rvalid && bus.rready

def nextRead : CsrReadChannel where
  arready := s.arAccept bus
  rdata := if s.arAccept bus then s.answer status bus.araddr else s.rdata
  rvalid := if s.rTake bus then false else if s.arAccept bus then true else s.rvalid

def clkEdge : AxiliteRegs params where
  toCsrWriteChannel := s.nextWrite bus
  toCsrReadChannel := s.nextRead bus status
  file := s.nextFile status
  pulses := s.nextPulses status

end Edge

end AxiliteRegs

end EmacZero
