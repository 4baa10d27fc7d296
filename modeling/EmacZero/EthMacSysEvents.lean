/-
The receive event of `eth_mac_sys`, against the frames that leave the receiver, and the bit
of `IRQ_STATUS` that it sets.
-/
import EmacZero.AxiliteIrq
import EmacZero.EthMacSysGates
import EmacZero.EthStats

namespace EmacZero

variable {params : EthMacRxParams}

/-- The receiver behind its gate, and the cycles in which `evt_rx_frame` was high. -/
structure RxEventBench (params : EthMacRxParams) where
  sys : RxGateBench params
  events : Nat

namespace RxEventBench

def start (mem : BitVec params.axisFifoAddrWidth → MacWord) (doutR : MacWord)
    (txrxEnAtReset : Bool) : RxEventBench params := ⟨.start mem doutR txrxEnAtReset, 0⟩

/-- `evt_rx_frame` -/
def evtRxFrame (bench : RxEventBench params) : Bool :=
  bench.sys.mAxisTvalidMac && bench.sys.mAxisWord.last

def step (bench : RxEventBench params) (i : SysRxIn) : RxEventBench params where
  sys := bench.sys.step i
  events := bench.events + bench.evtRxFrame.toNat

/-- The frames of which the TLAST word has been handed over, to the consumer or to the
drain. -/
def frames (bench : RxEventBench params) : Nat := bench.sys.mac.taken.countP MacWord.last

/-- A TLAST word is taken in the first cycle in which it is there. -/
def TakesLast (bench : RxEventBench params) (i : SysRxIn) : Prop :=
  bench.evtRxFrame = true → bench.sys.mAxisTreadyMac i = true

variable {bench : RxEventBench params}

theorem frames_step (bench : RxEventBench params) (i : SysRxIn) :
    (bench.step i).frames =
      bench.frames + (bench.evtRxFrame && bench.sys.mAxisTreadyMac i).toNat := by
  have hstep := MacStatsBench.countP_taken_step bench.sys.mac (bench.sys.macPins i)
    MacWord.last
  rw [RxGateBench.mAxisTaken_macPins, Bool.and_right_comm] at hstep
  exact hstep

/-- A step adds as many events as frames exactly if it stalls no TLAST word. -/
theorem takesLast_iff (bench : RxEventBench params) (i : SysRxIn) :
    bench.TakesLast i ↔
      bench.evtRxFrame.toNat = (bench.evtRxFrame && bench.sys.mAxisTreadyMac i).toNat := by
  unfold TakesLast
  cases bench.evtRxFrame <;> cases bench.sys.mAxisTreadyMac i <;> simp

/-- The events never fall behind the frames, and a stalled TLAST word is never made up
for. -/
theorem events_from (hle : bench.frames ≤ bench.events) (cycles : List SysRxIn) :
    (runFrom step bench cycles).frames ≤ (runFrom step bench cycles).events ∧
      ((runFrom step bench cycles).events = (runFrom step bench cycles).frames ↔
        bench.events = bench.frames ∧ Along step TakesLast bench cycles) := by
  induction cycles generalizing bench with
  | nil => exact ⟨hle, by simp [Along]⟩
  | cons i rest ih =>
      have hframes := frames_step bench i
      have hevents : (bench.step i).events = bench.events + bench.evtRxFrame.toNat := rfl
      have hmost : (bench.evtRxFrame && bench.sys.mAxisTreadyMac i).toNat ≤
          bench.evtRxFrame.toNat := by
        cases bench.evtRxFrame <;> cases bench.sys.mAxisTreadyMac i <;> decide
      obtain ⟨hafter, hiff⟩ := @ih (bench.step i) (by omega)
      refine ⟨hafter, hiff.trans ?_⟩
      rw [Along, takesLast_iff, hframes, hevents, ← and_assoc]
      refine and_congr_left fun _ => ?_
      omega

/-- There are as many events as frames exactly if no TLAST word is stalled. -/
theorem events_run_iff (mem : BitVec params.axisFifoAddrWidth → MacWord) (doutR : MacWord)
    (txrxEnAtReset : Bool) (cycles : List SysRxIn) :
    (runFrom step (start mem doutR txrxEnAtReset) cycles).events =
        (runFrom step (start mem doutR txrxEnAtReset) cycles).frames ↔
      Along step TakesLast (start mem doutR txrxEnAtReset) cycles := by
  have hstart : (start mem doutR txrxEnAtReset).frames ≤
      (start mem doutR txrxEnAtReset).events := Nat.le_refl 0
  exact (events_from hstart cycles).2.trans (and_iff_right rfl)

/-- A broadcast frame of twelve bytes, of which the consumer stalls the last word for
three cycles. -/
def stalledLast : List SysRxIn :=
  (((0x55 : BitVec 8) :: 0xD5 :: List.replicate 12 0xFF).map fun data =>
      ⟨wirePins true data, true⟩) ++
    List.replicate 4 ⟨quietPins true, true⟩ ++ List.replicate 3 ⟨quietPins false, true⟩ ++
    [⟨quietPins true, true⟩]

/-- A stalled TLAST word raises the event once for each cycle that it waits. -/
theorem repeated_event :
    let params : EthMacRxParams := ⟨false, 4, 1518, 9018, false, by decide, by decide⟩
    let bench : RxEventBench params :=
      runFrom step (start (fun _ => plainWord 0) (plainWord 0) true) stalledLast
    bench.events = 4 ∧ bench.frames = 1 := by
  decide +kernel

end RxEventBench

/-- The receiver with the register block that its event goes to. -/
structure RxIrqBench (params : EthMacRxParams) (csrParams : AxiliteParams) where
  rx : RxEventBench params
  regs : AxiliteRegs csrParams

/-- One cycle of both; `evt_rx_frame` is not an input. -/
structure RxIrqIn (csrParams : AxiliteParams) where
  rx : SysRxIn
  bus : AxilMaster csrParams.addrWidth
  status : CsrStatus

namespace RxIrqBench

variable {csrParams : AxiliteParams} {bench : RxIrqBench params csrParams}

def csrIn (bench : RxIrqBench params csrParams) (i : RxIrqIn csrParams) : CsrIn csrParams :=
  ⟨i.bus, { i.status with evtRxFrame := bench.rx.evtRxFrame }⟩

def step (bench : RxIrqBench params csrParams) (i : RxIrqIn csrParams) :
    RxIrqBench params csrParams where
  rx := bench.rx.step i.rx
  regs := bench.regs.clkEdge (bench.csrIn i).bus (bench.csrIn i).status

/-- `IRQ_STATUS[1]` -/
def irqRxFrame (bench : RxIrqBench params csrParams) : Bool :=
  bench.regs.file.irqStatus.getLsbD 1

/-- No TLAST word is stalled. -/
def TakesLast (bench : RxIrqBench params csrParams) (i : RxIrqIn csrParams) : Prop :=
  bench.rx.TakesLast i.rx

/-- The bit is set by the event only. -/
theorem evtRxFrame_of_set {i : RxIrqIn csrParams} (hclear : bench.irqRxFrame = false)
    (hset : (bench.step i).irqRxFrame = true) : bench.rx.evtRxFrame = true := by
  have hstep : (bench.step i).irqRxFrame = _ :=
    @IrqBench.status_step csrParams ⟨bench.regs, 0⟩ (bench.csrIn i) 1 (by decide)
  change bench.regs.file.irqStatus.getLsbD 1 = false at hclear
  rw [hset] at hstep
  simp only [hclear, Bool.false_and, Bool.false_or] at hstep
  split at hstep
  · exact absurd hstep.symm Bool.false_ne_true
  · have hevent : (AxiliteRegs.events (bench.csrIn i).status).getLsbD 1 =
        bench.rx.evtRxFrame := by
      simp only [csrIn, AxiliteRegs.events]
      cases i.status.mdioDone <;> cases bench.rx.evtRxFrame <;> cases i.status.evtTxDone <;> rfl
    exact hevent.symm.trans hstep.symm

/-- A cycle that sets the bit hands a frame over, if it stalls no TLAST word. -/
theorem frames_of_set {i : RxIrqIn csrParams} (htakes : bench.TakesLast i)
    (hclear : bench.irqRxFrame = false) (hset : (bench.step i).irqRxFrame = true) :
    (bench.step i).rx.frames = bench.rx.frames + 1 := by
  have hevent := evtRxFrame_of_set hclear hset
  change (bench.rx.step i.rx).frames = _
  rw [RxEventBench.frames_step, hevent, htakes hevent]
  rfl

theorem frames_le_step (bench : RxIrqBench params csrParams) (i : RxIrqIn csrParams) :
    bench.rx.frames ≤ (bench.step i).rx.frames := by
  change _ ≤ (bench.rx.step i.rx).frames
  rw [RxEventBench.frames_step]
  exact Nat.le_add_right _ _

/-- Once software has cleared the bit it is set again only by a further frame, in every run
in which no TLAST word is stalled. -/
theorem irqRxFrame_run {cycles : List (RxIrqIn csrParams)}
    (htakes : Along step TakesLast bench cycles) (hclear : bench.irqRxFrame = false)
    (hset : (runFrom step bench cycles).irqRxFrame = true) :
    bench.rx.frames < (runFrom step bench cycles).rx.frames := by
  have hinv : ∀ (later : RxIrqBench params csrParams) i, later.TakesLast i →
      bench.rx.frames ≤ later.rx.frames ∧
        (later.irqRxFrame = true → bench.rx.frames < later.rx.frames) →
      bench.rx.frames ≤ (later.step i).rx.frames ∧
        ((later.step i).irqRxFrame = true → bench.rx.frames < (later.step i).rx.frames) := by
    rintro later i htakes ⟨hle, hlt⟩
    have hgrows := later.frames_le_step i
    refine ⟨hle.trans hgrows, fun hnext => ?_⟩
    cases hbit : later.irqRxFrame with
    | true => exact (hlt hbit).trans_le hgrows
    | false =>
        rw [frames_of_set htakes hbit hnext]
        exact Nat.lt_succ_of_le hle
  have hstart : bench.irqRxFrame = true → bench.rx.frames < bench.rx.frames := fun hbit =>
    absurd (hclear.symm.trans hbit) Bool.false_ne_true
  exact (invariant_along hinv ⟨le_rfl, hstart⟩ htakes).2 hset

end RxIrqBench

end EmacZero
