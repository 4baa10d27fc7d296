/-
The interrupt events of `axilite_regs`: what `IRQ_STATUS` is to hold, and when it
does.
-/
import EmacZero.AxiliteRegs

namespace EmacZero

variable {params : AxiliteParams}

/-- One cycle at the register block. -/
structure CsrIn (params : AxiliteParams) where
  bus : AxilMaster params.addrWidth
  status : CsrStatus
deriving Repr, DecidableEq

/-- The register block, and the events that software has still to clear. -/
structure IrqBench (params : AxiliteParams) where
  regs : AxiliteRegs params
  owed : BitVec 3
deriving Repr, DecidableEq

namespace AxiliteRegs

variable (s : AxiliteRegs params)

/-- A write to `IRQ_STATUS` is executed. -/
def clearsIrq : Bool := s.executes && s.wrCsr == some .irqStatus

/-- The bits that the write clears: those of its data, if it has byte 0. -/
def irqCleared : BitVec 3 :=
  if s.clearsIrq && s.wStrb.getLsbD 0 then s.wData.setWidth 3 else 0

end AxiliteRegs

namespace IrqBench

variable {bench : IrqBench params}

def start : IrqBench params := ⟨AxiliteRegs.reset, 0⟩

/-- An event is owed from its cycle on, until a later write clears it. -/
def step (bench : IrqBench params) (cycle : CsrIn params) : IrqBench params where
  regs := bench.regs.clkEdge cycle.bus cycle.status
  owed :=
    (bench.owed &&& ~~~bench.regs.irqCleared) ||| AxiliteRegs.events cycle.status

/-- A clear meets no event that it would lose, and has byte 0 if it clears a set bit. -/
def Clears (bench : IrqBench params) (cycle : CsrIn params) : Prop :=
  bench.regs.clearsIrq = true → ∀ bit < 3,
    ((AxiliteRegs.events cycle.status).getLsbD bit = true →
      bench.regs.file.irqStatus.getLsbD bit = true ∧ bench.regs.wData.getLsbD bit = false) ∧
    (bench.regs.file.irqStatus.getLsbD bit = true → bench.regs.wData.getLsbD bit = true →
      bench.regs.wStrb.getLsbD 0 = true)

/-- Every owed event is in `IRQ_STATUS`, and in the answer to a read of it. -/
structure Kept (bench : IrqBench params) : Prop where
  status : ∀ bit, bench.owed.getLsbD bit = true →
    bench.regs.file.irqStatus.getLsbD bit = true
  seen : ∀ (cycle : CsrIn params) (bit : Nat), bench.regs.arAccept cycle.bus = true →
    csrOf cycle.bus.araddr = some .irqStatus → bench.owed.getLsbD bit = true →
    (bench.step cycle).regs.rdata.getLsbD bit = true

/-- What the register becomes. -/
theorem irqStatus_step (bench : IrqBench params) (cycle : CsrIn params) :
    (bench.step cycle).regs.file.irqStatus =
      if bench.regs.clearsIrq then
        bench.regs.file.irqStatus &&& ~~~bench.regs.wData.setWidth 3
      else bench.regs.file.irqStatus ||| AxiliteRegs.events cycle.status := by
  change (bench.regs.nextFile cycle.status).irqStatus = _
  unfold AxiliteRegs.nextFile AxiliteRegs.clearsIrq
  cases hfire : bench.regs.executes with
  | false => rfl
  | true =>
      rw [if_pos rfl, Bool.true_and]
      split
      · rename_i hcsr
        rw [hcsr]
        rfl
      · rename_i csr hother hcsr
        have hne : (some csr == some Csr.irqStatus) = false := by
          rw [beq_eq_false_iff_ne, ne_eq, Option.some.injEq]
          exact hother
        rw [hcsr, hne]
        cases csr <;> simp [CsrFile.write, AxiliteRegs.captured] <;> split <;> rfl
      · rename_i hcsr
        rw [hcsr]
        rfl

theorem status_step (cycle : CsrIn params) {bit : Nat} (hbit : bit < 3) :
    (bench.step cycle).regs.file.irqStatus.getLsbD bit =
      if bench.regs.clearsIrq then
        bench.regs.file.irqStatus.getLsbD bit && !bench.regs.wData.getLsbD bit
      else
        bench.regs.file.irqStatus.getLsbD bit ||
          (AxiliteRegs.events cycle.status).getLsbD bit := by
  rw [irqStatus_step]
  cases bench.regs.clearsIrq with
  | false => simp
  | true => simp [hbit]

theorem owed_step (cycle : CsrIn params) {bit : Nat} (hbit : bit < 3) :
    (bench.step cycle).owed.getLsbD bit =
      (bench.owed.getLsbD bit &&
        !(bench.regs.clearsIrq && bench.regs.wStrb.getLsbD 0 &&
          bench.regs.wData.getLsbD bit) ||
        (AxiliteRegs.events cycle.status).getLsbD bit) := by
  rw [step, AxiliteRegs.irqCleared, BitVec.getLsbD_or, BitVec.getLsbD_and,
    BitVec.getLsbD_not, decide_eq_true hbit]
  cases bench.regs.clearsIrq && bench.regs.wStrb.getLsbD 0 with
  | false => simp only [Bool.false_eq_true, if_false, BitVec.ofNat_eq_ofNat,
      BitVec.getLsbD_zero, Bool.true_and, Bool.false_and]
  | true => simp [hbit]

/-- The step keeps the register and what is owed alike exactly if its clear is safe. -/
theorem clears_iff (hsame : bench.regs.file.irqStatus = bench.owed) (cycle : CsrIn params) :
    bench.Clears cycle ↔
      ∀ bit, (bench.step cycle).owed.getLsbD bit = true →
        (bench.step cycle).regs.file.irqStatus.getLsbD bit = true := by
  constructor
  · intro hclears bit howed
    have hbit : bit < 3 := BitVec.lt_of_getLsbD howed
    rw [owed_step cycle hbit, ← hsame] at howed
    rw [status_step cycle hbit]
    cases hclear : bench.regs.clearsIrq with
    | false => simpa [hclear] using howed
    | true =>
        obtain ⟨hevent, hstrobe⟩ := hclears hclear bit hbit
        cases hset : bench.regs.file.irqStatus.getLsbD bit with
        | false =>
            rw [hset, Bool.false_and, Bool.false_or] at howed
            exact absurd (hset.symm.trans (hevent howed).1) Bool.false_ne_true
        | true =>
            cases hdata : bench.regs.wData.getLsbD bit with
            | false => rfl
            | true =>
                rw [hset, hclear, hdata, hstrobe hset hdata] at howed
                have hlost := (hevent (by simpa using howed)).2
                exact absurd (hlost.symm.trans hdata) Bool.false_ne_true
  · intro hkept hclear bit hbit
    have hnow := hkept bit
    rw [owed_step cycle hbit, status_step cycle hbit, hclear, ← hsame] at hnow
    simp only [if_true, Bool.true_and] at hnow
    constructor
    · intro hevent
      rw [hevent, Bool.or_true] at hnow
      simpa using hnow rfl
    · intro hset hdata
      rw [hset, hdata] at hnow
      cases hstrobe : bench.regs.wStrb.getLsbD 0 with
      | true => rfl
      | false =>
          rw [hstrobe] at hnow
          simp at hnow

/-- Nothing is in the register that is not owed. -/
theorem status_le_step (hsame : bench.regs.file.irqStatus = bench.owed)
    (cycle : CsrIn params) {bit : Nat}
    (hset : (bench.step cycle).regs.file.irqStatus.getLsbD bit = true) :
    (bench.step cycle).owed.getLsbD bit = true := by
  have hbit : bit < 3 := BitVec.lt_of_getLsbD hset
  rw [status_step cycle hbit, hsame] at hset
  rw [owed_step cycle hbit]
  cases hclear : bench.regs.clearsIrq with
  | false => simpa [hclear] using hset
  | true =>
      rw [hclear, if_pos rfl, Bool.and_eq_true, Bool.not_eq_true'] at hset
      simp [hset.1, hset.2]

theorem same_step (hsame : bench.regs.file.irqStatus = bench.owed) {cycle : CsrIn params}
    (hclears : bench.Clears cycle) :
    (bench.step cycle).regs.file.irqStatus = (bench.step cycle).owed := by
  apply BitVec.eq_of_getLsbD_eq
  intro bit _
  rw [Bool.eq_iff_iff]
  exact ⟨status_le_step hsame cycle, (clears_iff hsame cycle).mp hclears bit⟩

theorem kept_of_same (hsame : bench.regs.file.irqStatus = bench.owed) : bench.Kept where
  status bit howed := by rwa [hsame]
  seen cycle bit haccept hcsr howed := by
    have hdata : (bench.step cycle).regs.rdata =
        bench.regs.answer cycle.status cycle.bus.araddr := if_pos haccept
    have hbit : bit < 3 := BitVec.lt_of_getLsbD howed
    rw [hdata, AxiliteRegs.answer, hcsr]
    change (bench.regs.file.irqStatus.setWidth 32).getLsbD bit = true
    rw [BitVec.getLsbD_setWidth, hsame, howed, decide_eq_true (by omega)]
    rfl

theorem kept_from (hsame : bench.regs.file.irqStatus = bench.owed)
    (cycles : List (CsrIn params)) :
    (∀ count, (runFrom step bench (cycles.take count)).Kept) ↔
      Along step Clears bench cycles := by
  induction cycles generalizing bench with
  | nil =>
      constructor
      · intro _
        trivial
      · intro _ count
        rw [List.take_nil]
        exact kept_of_same hsame
  | cons cycle rest ih =>
      constructor
      · intro hkept
        have hclears := (clears_iff hsame cycle).mpr (hkept 1).status
        exact ⟨hclears, (ih (same_step hsame hclears)).mp fun count => hkept (count + 1)⟩
      · rintro ⟨hclears, hrest⟩ count
        cases count with
        | zero => exact kept_of_same hsame
        | succ count => exact (ih (same_step hsame hclears)).mpr hrest count

/-- No event is lost, in any state of a run, exactly if every clear of the run is safe. -/
theorem kept_run_iff (cycles : List (CsrIn params)) :
    (∀ count, (runFrom step start (cycles.take count)).Kept) ↔
      Along step Clears start cycles :=
  kept_from rfl cycles

/-- The status inputs at rest, with or without an end of a transmission. -/
def quietStatus (evtTxDone : Bool) : CsrStatus where
  dbgSaf := 0
  statPauseRxCnt := 0
  statPauseTxCnt := 0
  mdioRdata := 0
  mdioDone := false
  mdioBusy := false
  statTxFrameCnt := 0
  statTxByteCnt := 0
  statRxFrameCnt := 0
  statRxByteCnt := 0
  statRxErrCnt := 0
  statRxErrAlignCnt := 0
  statRxErrOverflowCnt := 0
  statRxErrOversizeCnt := 0
  statRxBcastCnt := 0
  statRxMcastCnt := 0
  statRxSize64Cnt := 0
  statRxSize65To127Cnt := 0
  statRxSize128To255Cnt := 0
  statRxSize256To511Cnt := 0
  statRxSize512To1023Cnt := 0
  statRxSize1024To1518Cnt := 0
  statRxSizeJumboCnt := 0
  statRxDropCnt := 0
  statRxErrCsumCnt := 0
  stsTxActive := false
  stsTxFifoBusy := false
  evtTxDone := evtTxDone
  evtRxFrame := false

def csrParams : AxiliteParams := ⟨8, false, false, false, 9018, true⟩

/-- A write of 1 to `IRQ_STATUS` with these strobes, in two cycles. -/
def clearCycles (strb : BitVec 4) (before during : Bool) : List (CsrIn csrParams) :=
  [⟨⟨0x24, true, 1, strb, true, true, 0, false, true⟩, quietStatus before⟩,
    ⟨⟨0x24, false, 1, strb, false, true, 0, false, true⟩, quietStatus during⟩]

/-- An event in the cycle of a clear is lost, and a write without byte 0 clears one too. -/
theorem lost_event :
    ¬(runFrom step start (clearCycles 0xF false true)).Kept ∧
      ¬(runFrom step start (clearCycles 0x0 true false)).Kept := by
  constructor
  · intro hkept
    exact absurd (hkept.status 0) (by decide)
  · intro hkept
    exact absurd (hkept.status 0) (by decide)

end IrqBench

end EmacZero
