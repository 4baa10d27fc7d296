/-
The transactions at the port of `axilite_regs`: every write is executed once, with all that
it does, every read answered once, and a read of a register that can be written answers what
the writes before it have left.
-/
import Mathlib.Data.List.Forall2
import EmacZero.AxiliteCommands

namespace EmacZero

variable {params : AxiliteParams}

/-- A read as it was answered, and the writes executed before. -/
structure CsrAnswer (addrWidth : Nat) where
  addr : BitVec addrWidth
  before : List (CsrWrite addrWidth)
deriving Repr, DecidableEq

/-- A read at its address handshake: the writes executed before that cycle, and those
executed before the cycle ahead of it. -/
structure CsrRead (addrWidth : Nat) where
  addr : BitVec addrWidth
  before : List (CsrWrite addrWidth)
  earlier : List (CsrWrite addrWidth)
deriving Repr, DecidableEq

/-- The slave has taken its data in the cycle ahead of the handshake. -/
def CsrRead.answer {addrWidth : Nat} (read : CsrRead addrWidth) : CsrAnswer addrWidth :=
  ⟨read.addr, read.earlier⟩

/-- The register block, the handshakes on its five channels, the writes it has executed and
the reads it has answered; the read address on offer, and the writes executed before the
last cycle; its cycles, and its command outputs in each. -/
structure CsrBench (params : AxiliteParams) where
  regs : AxiliteRegs params
  awTaken : List (BitVec params.addrWidth)
  wTaken : List (BitVec 32 × BitVec 4)
  executed : List (CsrWrite params.addrWidth)
  bTaken : Nat
  asked : Option (BitVec params.addrWidth)
  earlier : List (CsrWrite params.addrWidth)
  arTaken : List (CsrRead params.addrWidth)
  answered : List (CsrAnswer params.addrWidth)
  rTaken : List (BitVec 32)
  moments : List (CsrMoment params.addrWidth)
  outputs : List CsrPulses
deriving Repr, DecidableEq

namespace CsrBench

def start : CsrBench params where
  regs := .reset
  awTaken := []
  wTaken := []
  executed := []
  bTaken := 0
  asked := none
  earlier := []
  arTaken := []
  answered := []
  rTaken := []
  moments := []
  outputs := []

/-- The write that the latches hold. -/
def latched (regs : AxiliteRegs params) : CsrWrite params.addrWidth :=
  ⟨regs.awAddr, regs.wData, regs.wStrb⟩

/-- The cycle as the registers see it. -/
def moment (regs : AxiliteRegs params) (status : CsrStatus) : CsrMoment params.addrWidth where
  write := if regs.executes then some (latched regs) else none
  events := AxiliteRegs.events status
  mdioBusy := status.mdioBusy

def step (bench : CsrBench params) (cycle : CsrIn params) : CsrBench params where
  regs := bench.regs.clkEdge cycle.bus cycle.status
  awTaken :=
    if bench.regs.awTake cycle.bus then bench.awTaken ++ [cycle.bus.awaddr]
    else bench.awTaken
  wTaken :=
    if bench.regs.wTake cycle.bus then bench.wTaken ++ [(cycle.bus.wdata, cycle.bus.wstrb)]
    else bench.wTaken
  executed :=
    if bench.regs.executes then bench.executed ++ [latched bench.regs] else bench.executed
  bTaken := bench.bTaken + (bench.regs.bTake cycle.bus).toNat
  asked :=
    if cycle.bus.arvalid && !bench.regs.arready then some cycle.bus.araddr else none
  earlier := bench.executed
  arTaken :=
    if cycle.bus.arvalid && bench.regs.arready then
      bench.arTaken ++ [⟨cycle.bus.araddr, bench.executed, bench.earlier⟩]
    else bench.arTaken
  answered :=
    if bench.regs.arAccept cycle.bus then
      bench.answered ++ [⟨cycle.bus.araddr, bench.executed⟩]
    else bench.answered
  rTaken :=
    if bench.regs.rTake cycle.bus then bench.rTaken ++ [bench.regs.rdata] else bench.rTaken
  moments := bench.moments ++ [moment bench.regs cycle.status]
  outputs := bench.outputs ++ [bench.regs.pulses]

/-- The master keeps a read address on offer until it is taken. -/
def Holds (bench : CsrBench params) (cycle : CsrIn params) : Prop :=
  ∀ addr ∈ bench.asked, cycle.bus.arvalid = true ∧ cycle.bus.araddr = addr

/-- Every write once and in order: the writes executed are the addresses taken with the
data taken, all but what is latched, and each has its response. -/
structure WritesOnce (bench : CsrBench params) : Prop where
  address : bench.awTaken = bench.executed.map (·.addr) ++
    if bench.regs.awLatched then [bench.regs.awAddr] else []
  data : bench.wTaken = bench.executed.map (fun write => (write.data, write.strb)) ++
    if bench.regs.wLatched then [(bench.regs.wData, bench.regs.wStrb)] else []
  quiet : bench.regs.bvalid = true →
    bench.regs.awLatched = false ∧ bench.regs.wLatched = false
  prompt : bench.regs.awLatched = true → bench.regs.wLatched = true →
    bench.regs.executes = true
  responses : bench.bTaken + bench.regs.bvalid.toNat = bench.executed.length
  awReady : bench.regs.awReadyR = !(bench.regs.awLatched || bench.regs.bvalid)
  wReady : bench.regs.wReadyR = !(bench.regs.wLatched || bench.regs.bvalid)

/-- What the registers hold is what the writes have left of their reset values. -/
def Stored (bench : CsrBench params) : Prop :=
  ∀ csr, csr.writable params ≠ 0 → ∀ status,
    bench.regs.file.read params status csr =
      merged csr ((CsrFile.reset params).read params status csr) bench.executed &&&
        csr.writable params

/-- The answer to a read of a register that can be written. -/
def Right (answer : CsrAnswer params.addrWidth) (data : BitVec 32) : Prop :=
  ∀ csr, csrOf answer.addr = some csr → csr.writable params ≠ 0 → ∀ status,
    data = merged csr ((CsrFile.reset params).read params status csr) answer.before &&&
      csr.writable params

/-- All that the writes do: each gives its commands in the cycle behind it and no other cycle
gives any, and the bits that are not simply stored have gone through all cycles in order. -/
structure Effects (bench : CsrBench params) : Prop where
  executed : bench.executed = bench.moments.filterMap CsrMoment.write
  commands : bench.outputs ++ [bench.regs.pulses] =
    CsrPulses.none :: bench.moments.map CsrMoment.commands
  irqStatus : bench.regs.file.irqStatus =
    bench.moments.foldl (fun old moment => moment.irqStatus old) 0
  cmdDropped : bench.regs.file.mdioCmdDropped =
    bench.moments.foldl (fun old moment => moment.cmdDropped old) false

/-- Every read once: the reads answered are the addresses taken, each with its data, and
data on offer stays. -/
structure ReadsOnce (bench : CsrBench params) : Prop where
  address : bench.answered = bench.arTaken.map CsrRead.answer ++
    if bench.regs.arready then bench.asked.toList.map (⟨·, bench.earlier⟩) else []
  offered : bench.regs.arready = true → bench.regs.rvalid = true ∧ bench.asked ≠ none
  data : List.Forall₂ Right bench.answered
    (bench.rTaken ++ if bench.regs.rvalid then [bench.regs.rdata] else [])
  stable : ∀ cycle, bench.regs.rvalid = true → bench.regs.rTake cycle.bus = false →
    (bench.step cycle).regs.rvalid = true ∧ (bench.step cycle).regs.rdata = bench.regs.rdata
  before : ∀ read ∈ bench.arTaken, read.earlier <+: read.before ∧
    read.before.length ≤ read.earlier.length + 1 ∧ read.before <+: bench.executed

variable {bench : CsrBench params}

/-- Nothing is taken while a write waits for its response. -/
theorem WritesOnce.idle_of_executes (honce : bench.WritesOnce)
    (hfire : bench.regs.executes = true) (bus : AxilMaster params.addrWidth) :
    bench.regs.awLatched = true ∧ bench.regs.wLatched = true ∧ bench.regs.bvalid = false ∧
      bench.regs.awTake bus = false ∧ bench.regs.wTake bus = false := by
  simp only [AxiliteRegs.executes, Bool.and_eq_true, Bool.not_eq_true'] at hfire
  obtain ⟨⟨haw, hw⟩, hb⟩ := hfire
  refine ⟨haw, hw, hb, ?_, ?_⟩
  · rw [AxiliteRegs.awTake, honce.awReady, haw, Bool.true_or, Bool.not_true, Bool.and_false]
  · rw [AxiliteRegs.wTake, honce.wReady, hw, Bool.true_or, Bool.not_true, Bool.and_false]

theorem WritesOnce.address_step (honce : bench.WritesOnce) (cycle : CsrIn params) :
    (bench.step cycle).awTaken = (bench.step cycle).executed.map (·.addr) ++
      if (bench.step cycle).regs.awLatched then [(bench.step cycle).regs.awAddr] else [] := by
  have haddress := honce.address
  have hready := honce.awReady
  simp only [step, AxiliteRegs.clkEdge, AxiliteRegs.nextWrite]
  by_cases hfire : bench.regs.executes = true
  · obtain ⟨haw, -, -, htake, -⟩ := honce.idle_of_executes hfire cycle.bus
    rw [haw] at haddress
    simp [hfire, htake, haddress, latched]
  · by_cases htake : bench.regs.awTake cycle.bus = true
    · have hfree := htake
      rw [AxiliteRegs.awTake, hready, Bool.and_eq_true, Bool.not_eq_true',
        Bool.or_eq_false_iff] at hfree
      rw [hfree.2.1] at haddress
      simp [hfire, htake, haddress]
    · simpa [hfire, htake] using haddress

theorem WritesOnce.data_step (honce : bench.WritesOnce) (cycle : CsrIn params) :
    (bench.step cycle).wTaken =
      (bench.step cycle).executed.map (fun write => (write.data, write.strb)) ++
        if (bench.step cycle).regs.wLatched then
          [((bench.step cycle).regs.wData, (bench.step cycle).regs.wStrb)]
        else [] := by
  have hdata := honce.data
  have hready := honce.wReady
  simp only [step, AxiliteRegs.clkEdge, AxiliteRegs.nextWrite]
  by_cases hfire : bench.regs.executes = true
  · obtain ⟨-, hw, -, -, htake⟩ := honce.idle_of_executes hfire cycle.bus
    rw [hw] at hdata
    simp [hfire, htake, hdata, latched]
  · by_cases htake : bench.regs.wTake cycle.bus = true
    · have hfree := htake
      rw [AxiliteRegs.wTake, hready, Bool.and_eq_true, Bool.not_eq_true',
        Bool.or_eq_false_iff] at hfree
      rw [hfree.2.1] at hdata
      simp [hfire, htake, hdata]
    · simpa [hfire, htake] using hdata

/-- The latches, the response and the readies, one edge on. -/
theorem WritesOnce.channel_step (honce : bench.WritesOnce) (cycle : CsrIn params) :
    ((bench.step cycle).regs.bvalid = true →
      (bench.step cycle).regs.awLatched = false ∧ (bench.step cycle).regs.wLatched = false) ∧
    (bench.step cycle).regs.awReadyR =
      !((bench.step cycle).regs.awLatched || (bench.step cycle).regs.bvalid) ∧
    (bench.step cycle).regs.wReadyR =
      !((bench.step cycle).regs.wLatched || (bench.step cycle).regs.bvalid) := by
  have hquiet := honce.quiet
  have hawReady := honce.awReady
  have hwReady := honce.wReady
  simp only [CsrBench.step, AxiliteRegs.clkEdge, AxiliteRegs.nextWrite, AxiliteRegs.executes,
    AxiliteRegs.awTake, AxiliteRegs.wTake, AxiliteRegs.bTake, hawReady, hwReady]
  by_cases hb : bench.regs.bvalid = true
  · obtain ⟨haw, hw⟩ := hquiet hb
    by_cases hready : cycle.bus.bready = true <;> simp [hb, haw, hw, hready]
  · by_cases haw : bench.regs.awLatched = true <;> by_cases hw : bench.regs.wLatched = true <;>
      simp [hb, haw, hw]

theorem WritesOnce.step (honce : bench.WritesOnce) (cycle : CsrIn params) :
    (bench.step cycle).WritesOnce := by
  have hresponses := honce.responses
  obtain ⟨hquiet, hawReady, hwReady⟩ := honce.channel_step cycle
  refine ⟨honce.address_step cycle, honce.data_step cycle, hquiet, ?_, ?_, hawReady, hwReady⟩
  · intro haw hw
    cases hb : (bench.step cycle).regs.bvalid with
    | true => exact absurd (haw.symm.trans (hquiet hb).1) Bool.noConfusion
    | false => rw [AxiliteRegs.executes, haw, hw, hb]; rfl
  · simp only [CsrBench.step, AxiliteRegs.clkEdge, AxiliteRegs.nextWrite]
    by_cases hfire : bench.regs.executes = true
    · obtain ⟨-, -, hb, -, -⟩ := honce.idle_of_executes hfire cycle.bus
      simp [hfire, hb, AxiliteRegs.bTake] at hresponses ⊢
      omega
    · cases hb : bench.regs.bTake cycle.bus with
      | true =>
          have hvalid := hb
          rw [AxiliteRegs.bTake, Bool.and_eq_true] at hvalid
          rw [hvalid.1] at hresponses
          simpa [hfire, hb] using hresponses
      | false => simpa [hfire, hb] using hresponses

/-- A register that can be written reads the same whatever the status inputs. -/
theorem read_status {csr : Csr} (hcsr : csr.writable params ≠ 0) (file : CsrFile)
    (status other : CsrStatus) :
    file.read params status csr = file.read params other csr := by
  cases csr <;> first | rfl | exact absurd rfl hcsr

theorem read_irqStatus {csr : Csr} (hcsr : csr.writable params ≠ 0) (file : CsrFile)
    (irqStatus : BitVec 3) (status : CsrStatus) :
    { file with irqStatus := irqStatus }.read params status csr =
      file.read params status csr := by
  cases csr <;> first | rfl | exact absurd rfl hcsr

/-- The registers after a cycle. -/
theorem read_nextFile {csr : Csr} (hcsr : csr.writable params ≠ 0) (regs : AxiliteRegs params)
    (status other : CsrStatus) :
    (regs.nextFile status).read params other csr =
      if regs.executes = true ∧ regs.wrCsr = some csr then
        strbMerge (regs.file.read params other csr) regs.wData regs.wStrb &&&
          csr.writable params
      else regs.file.read params other csr := by
  unfold AxiliteRegs.nextFile
  by_cases hfire : regs.executes = true
  · rw [if_pos hfire]
    split
    · rename_i hirq
      rw [if_neg, read_irqStatus hcsr, AxiliteRegs.captured, read_irqStatus hcsr]
      rw [hirq]
      rintro ⟨-, hsame⟩
      rw [← Option.some.inj hsame] at hcsr
      exact hcsr rfl
    · rename_i written _ hwritten
      rw [hwritten]
      by_cases hsame : written = csr
      · rw [if_pos ⟨hfire, congrArg some hsame⟩, hsame, CsrFile.read_write_same hcsr,
          AxiliteRegs.captured, read_irqStatus hcsr]
      · rw [if_neg (fun hboth => hsame (Option.some.inj hboth.2)),
          CsrFile.read_write_other hsame hcsr, AxiliteRegs.captured, read_irqStatus hcsr]
    · rename_i hnone
      rw [hnone, if_neg (fun hboth => Option.some_ne_none csr hboth.2.symm),
        AxiliteRegs.captured, read_irqStatus hcsr]
  · rw [if_neg hfire, if_neg (fun hboth => hfire hboth.1), AxiliteRegs.captured,
      read_irqStatus hcsr]

/-- The write of a cycle names its registers. -/
theorem names_latched {regs : AxiliteRegs params} (csr : Csr) :
    (latched regs).names csr = (regs.wrCsr == some csr) := rfl

/-- A cycle without a write. -/
theorem moment_rest {regs : AxiliteRegs params} (hrest : regs.executes = false)
    (status : CsrStatus) : (moment regs status).write = none := by
  rw [moment, hrest, if_neg Bool.false_ne_true]

theorem moment_fire {regs : AxiliteRegs params} (hfire : regs.executes = true)
    (status : CsrStatus) : (moment regs status).write = some (latched regs) := by
  rw [moment, hfire, if_pos rfl]

/-- The command outputs of the next cycle. -/
theorem nextPulses_eq (regs : AxiliteRegs params) (status : CsrStatus) :
    regs.nextPulses status = (moment regs status).commands := by
  cases hfire : regs.executes with
  | false =>
      rw [AxiliteRegs.nextPulses, hfire, if_neg Bool.false_ne_true,
        CsrMoment.commands_of_none (moment_rest hfire status)]
  | true =>
      rw [AxiliteRegs.nextPulses, hfire, if_pos rfl]
      cases hcsr : regs.wrCsr with
      | none =>
          exact (CsrMoment.commands_of_unmapped (moment_fire hfire status) hcsr).symm
      | some csr =>
          exact (CsrMoment.commands_of_write (moment_fire hfire status) hcsr).symm

/-- `IRQ_STATUS` in the next cycle. -/
theorem nextFile_irqStatus (regs : AxiliteRegs params) (status : CsrStatus) :
    (regs.nextFile status).irqStatus = (moment regs status).irqStatus regs.file.irqStatus := by
  have hnext : (regs.nextFile status).irqStatus = _ :=
    IrqBench.irqStatus_step ⟨regs, 0⟩ ⟨⟨0, false, 0, 0, false, false, 0, false, false⟩, status⟩
  rw [hnext, CsrMoment.irqStatus]
  cases hfire : regs.executes with
  | false =>
      rw [moment_rest hfire, AxiliteRegs.clearsIrq, hfire]
      rfl
  | true =>
      rw [moment_fire hfire, AxiliteRegs.clearsIrq, hfire, Option.filter_some, names_latched,
        Bool.true_and]
      cases regs.wrCsr == some Csr.irqStatus <;> rfl

/-- `mdio_cmd_dropped` in the next cycle. -/
theorem nextFile_mdioCmdDropped (regs : AxiliteRegs params) (status : CsrStatus) :
    (regs.nextFile status).mdioCmdDropped =
      (moment regs status).cmdDropped regs.file.mdioCmdDropped := by
  cases hfire : regs.executes with
  | false =>
      rw [AxiliteRegs.nextFile, hfire, if_neg Bool.false_ne_true, CsrMoment.cmdDropped,
        CsrMoment.asksGo, moment_rest hfire]
      rfl
  | true =>
      rw [AxiliteRegs.nextFile, hfire, if_pos rfl, CsrMoment.cmdDropped, CsrMoment.asksGo,
        moment_fire hfire, Option.any_some, names_latched]
      cases hcsr : regs.wrCsr with
      | none => rfl
      | some csr =>
          have hwrite := @CsrFile.write_mdioCmdDropped params csr (regs.captured status)
            regs.wData regs.wStrb status.mdioBusy
          refine Eq.trans ?_ hwrite
          cases csr <;> rfl

theorem Effects.step (heffects : bench.Effects) (cycle : CsrIn params) :
    (bench.step cycle).Effects := by
  obtain ⟨hexecuted, hcommands, hirqStatus, hcmdDropped⟩ := heffects
  refine ⟨?_, ?_, ?_, ?_⟩
  · simp only [CsrBench.step, List.filterMap_append, ← hexecuted]
    cases hfire : bench.regs.executes with
    | false => simp [moment_rest hfire]
    | true => simp [moment_fire hfire]
  · change (bench.outputs ++ [bench.regs.pulses]) ++ [bench.regs.nextPulses cycle.status] =
      _ :: (bench.moments ++ [_]).map _
    rw [hcommands, nextPulses_eq, List.map_append, List.cons_append, List.map_singleton]
  · change (bench.regs.nextFile cycle.status).irqStatus = (bench.moments ++ [_]).foldl _ _
    rw [nextFile_irqStatus, hirqStatus, List.foldl_append, List.foldl_cons, List.foldl_nil]
  · change (bench.regs.nextFile cycle.status).mdioCmdDropped =
      (bench.moments ++ [_]).foldl _ _
    rw [nextFile_mdioCmdDropped, hcmdDropped, List.foldl_append, List.foldl_cons,
      List.foldl_nil]

theorem Stored.step (hstored : bench.Stored) (cycle : CsrIn params) :
    (bench.step cycle).Stored := by
  intro csr hcsr status
  change (bench.regs.nextFile cycle.status).read params status csr = _
  rw [read_nextFile hcsr, hstored csr hcsr status]
  simp only [CsrBench.step]
  by_cases hfire : bench.regs.executes = true
  · rw [if_pos hfire, merged_concat, latched]
    by_cases hnamed : csrOf bench.regs.awAddr = some csr
    · rw [if_pos ⟨hfire, hnamed⟩, if_pos hnamed, strbMerge_and]
    · rw [if_neg (fun hboth => hnamed hboth.2), if_neg hnamed]
  · rw [if_neg (fun hboth => hfire hboth.1), if_neg hfire]

theorem stored_start : (start : CsrBench params).Stored := by
  intro csr hcsr status
  change (CsrFile.reset params).read params status csr =
    (CsrFile.reset params).read params status csr &&& csr.writable params
  cases csr with
  | ctrl =>
      simp only [CsrFile.read, CsrFile.reset, Csr.writable]
      split <;> decide
  | mcastLo =>
      simp only [CsrFile.read, CsrFile.reset, Csr.writable]
      split <;> decide
  | mcastHi =>
      simp only [CsrFile.read, CsrFile.reset, Csr.writable]
      split <;> decide
  | _ =>
      first
        | exact absurd rfl hcsr
        | simp [CsrFile.read, CsrFile.reset, Csr.writable]

/-- Data on offer stays until it is taken. -/
theorem rdata_stable (cycle : CsrIn params) (hrvalid : bench.regs.rvalid = true)
    (htake : bench.regs.rTake cycle.bus = false) :
    (bench.step cycle).regs.rvalid = true ∧
      (bench.step cycle).regs.rdata = bench.regs.rdata := by
  have haccept : bench.regs.arAccept cycle.bus = false := by
    rw [AxiliteRegs.arAccept, hrvalid, Bool.not_true, Bool.and_false, Bool.false_and]
  simp [CsrBench.step, AxiliteRegs.clkEdge, AxiliteRegs.nextRead, htake, haccept, hrvalid]

/-- In one cycle at most one write is executed. -/
theorem executed_step (bench : CsrBench params) (cycle : CsrIn params) :
    bench.executed <+: (bench.step cycle).executed ∧
      (bench.step cycle).executed.length ≤ bench.executed.length + 1 := by
  simp only [CsrBench.step]
  split
  · exact ⟨List.prefix_append _ _, by rw [List.length_append, List.length_singleton]⟩
  · exact ⟨List.prefix_rfl, Nat.le_succ _⟩

/-- What the cycle behind has executed. -/
def Recent (bench : CsrBench params) : Prop :=
  bench.earlier <+: bench.executed ∧ bench.executed.length ≤ bench.earlier.length + 1

theorem ReadsOnce.before_step (honce : bench.ReadsOnce) (hrecent : bench.Recent)
    (cycle : CsrIn params) :
    ∀ read ∈ (bench.step cycle).arTaken, read.earlier <+: read.before ∧
      read.before.length ≤ read.earlier.length + 1 ∧
      read.before <+: (bench.step cycle).executed := by
  intro read hread
  have hgrows := (executed_step bench cycle).1
  have hcases : read ∈ bench.arTaken ∨
      read = ⟨cycle.bus.araddr, bench.executed, bench.earlier⟩ := by
    simp only [CsrBench.step] at hread
    split at hread
    · exact (List.mem_append.mp hread).imp_right List.mem_singleton.mp
    · exact .inl hread
  rcases hcases with hold | rfl
  · obtain ⟨hearlier, hlength, hbefore⟩ := honce.before read hold
    exact ⟨hearlier, hlength, hbefore.trans hgrows⟩
  · exact ⟨hrecent.1, hrecent.2, hgrows⟩

/-- The read that is answered in this cycle. -/
theorem ReadsOnce.step_accept (honce : bench.ReadsOnce) (hstored : bench.Stored)
    (hrecent : bench.Recent) {cycle : CsrIn params}
    (haccept : bench.regs.arAccept cycle.bus = true) : (bench.step cycle).ReadsOnce := by
  have haddress := honce.address
  have hdata := honce.data
  have hfree := haccept
  simp only [AxiliteRegs.arAccept, Bool.and_eq_true, Bool.not_eq_true'] at hfree
  obtain ⟨⟨harvalid, hrvalid⟩, harready⟩ := hfree
  have htake : bench.regs.rTake cycle.bus = false := by
    rw [AxiliteRegs.rTake, hrvalid, Bool.false_and]
  rw [harready] at haddress
  rw [hrvalid] at hdata
  refine ⟨?_, fun _ => ?_, ?_, fun _ => rdata_stable _, honce.before_step hrecent cycle⟩
  · simp [CsrBench.step, AxiliteRegs.clkEdge, AxiliteRegs.nextRead, haccept, harvalid,
      harready, haddress]
  · simp [CsrBench.step, AxiliteRegs.clkEdge, AxiliteRegs.nextRead, haccept, htake, harvalid,
      harready]
  · have hright : Right ⟨cycle.bus.araddr, bench.executed⟩
        (bench.regs.answer cycle.status cycle.bus.araddr) := by
      intro csr hnamed hcsr status
      rw [AxiliteRegs.answer, hnamed, ← hstored csr hcsr status]
      exact read_status hcsr _ _ _
    have hboth := List.rel_append hdata (List.Forall₂.cons hright List.Forall₂.nil)
    simpa [CsrBench.step, AxiliteRegs.clkEdge, AxiliteRegs.nextRead, haccept, htake]
      using hboth

theorem ReadsOnce.step (honce : bench.ReadsOnce) (hstored : bench.Stored)
    (hrecent : bench.Recent) {cycle : CsrIn params} (hholds : bench.Holds cycle) :
    (bench.step cycle).ReadsOnce := by
  by_cases haccept : bench.regs.arAccept cycle.bus = true
  · exact honce.step_accept hstored hrecent haccept
  · have haddress := honce.address
    have hdata := honce.data
    refine ⟨?_, fun hset => absurd hset haccept, ?_, fun _ => rdata_stable _,
      honce.before_step hrecent cycle⟩
    · cases harready : bench.regs.arready with
      | false =>
          rw [harready] at haddress
          simpa [CsrBench.step, AxiliteRegs.clkEdge, AxiliteRegs.nextRead, haccept, harready]
            using haddress
      | true =>
          -- the master has kept its address on offer for the handshake
          obtain ⟨addr, hasked⟩ := Option.ne_none_iff_exists'.mp (honce.offered harready).2
          obtain ⟨harvalid, haraddr⟩ := hholds addr hasked
          rw [harready, hasked] at haddress
          simpa [CsrBench.step, AxiliteRegs.clkEdge, AxiliteRegs.nextRead, haccept, harready,
            harvalid, haraddr, CsrRead.answer] using haddress
    · by_cases htake : bench.regs.rTake cycle.bus = true
      · have hvalid := htake
        rw [AxiliteRegs.rTake, Bool.and_eq_true] at hvalid
        rw [hvalid.1] at hdata
        simpa [CsrBench.step, AxiliteRegs.clkEdge, AxiliteRegs.nextRead, haccept, htake]
          using hdata
      · simpa [CsrBench.step, AxiliteRegs.clkEdge, AxiliteRegs.nextRead, haccept, htake]
          using hdata

/-- Every transaction once, for every timing of the handshakes: the writes with all that they
do, and the reads, each answered from the writes executed before the cycle ahead of its
address handshake. -/
theorem transactions_run {cycles : List (CsrIn params)}
    (hholds : Along step Holds start cycles) :
    let bench := runFrom step start cycles
    bench.WritesOnce ∧ bench.Effects ∧ bench.Stored ∧ bench.ReadsOnce := by
  intro bench
  have hinv : ∀ (bench : CsrBench params) cycle, bench.Holds cycle →
      (bench.WritesOnce ∧ bench.Effects ∧ bench.Stored ∧ bench.ReadsOnce) ∧ bench.Recent →
      ((bench.step cycle).WritesOnce ∧ (bench.step cycle).Effects ∧ (bench.step cycle).Stored ∧
        (bench.step cycle).ReadsOnce) ∧ (bench.step cycle).Recent := by
    rintro bench cycle hholds ⟨⟨hwrites, heffects, hstored, hreads⟩, hrecent⟩
    exact ⟨⟨hwrites.step cycle, heffects.step cycle, hstored.step cycle,
      hreads.step hstored hrecent hholds⟩, executed_step bench cycle⟩
  refine (invariant_along hinv ⟨⟨⟨rfl, rfl, ?_, ?_, rfl, rfl, rfl⟩, ⟨rfl, rfl, rfl, rfl⟩,
    stored_start, ⟨rfl, ?_, .nil, fun _ => rdata_stable _, ?_⟩⟩, ?_⟩ hholds).1
  · simp [start, AxiliteRegs.reset]
  · simp [start, AxiliteRegs.reset]
  · simp [start, AxiliteRegs.reset]
  · simp [start]
  · exact ⟨List.prefix_rfl, Nat.zero_le 1⟩

instance (bench : CsrBench params) (cycle : CsrIn params) : Decidable (bench.Holds cycle) :=
  inferInstanceAs (Decidable (∀ addr ∈ bench.asked, _ ∧ _))

/-- The bus at rest, with the master ready for what comes. -/
def restBus : AxilMaster 8 := ⟨0, false, 0, 0, false, true, 0, false, true⟩

/-- A cycle without an event. -/
def quietCycle (bus : AxilMaster 8) : CsrIn IrqBench.csrParams :=
  ⟨bus, IrqBench.quietStatus false⟩

/-- Two events; a write of two byte lanes of `SCRATCH`, its data first, and a read of it; then
a write that starts an MDIO transaction, and one that clears the first event. -/
def scratchCycles : List (CsrIn IrqBench.csrParams) :=
  [⟨{ restBus with wdata := 0xAABBCCDD, wstrb := 0x5, wvalid := true },
      { IrqBench.quietStatus true with evtRxFrame := true }⟩,
    quietCycle { restBus with awaddr := 0x3C, awvalid := true },
    quietCycle restBus,
    quietCycle { restBus with araddr := 0x3C, arvalid := true },
    quietCycle ⟨0x14, true, 0xC21, 0xF, true, true, 0x3C, true, true⟩,
    quietCycle restBus,
    quietCycle restBus,
    quietCycle ⟨0x24, true, 1, 0xF, true, true, 0, false, true⟩,
    quietCycle restBus]

theorem transactions_run_scratch :
    let bench := runFrom step start scratchCycles
    (bench.WritesOnce ∧ bench.Effects ∧ bench.Stored ∧ bench.ReadsOnce) ∧
      bench.executed = [⟨0x3C, 0xAABBCCDD, 0x5⟩, ⟨0x14, 0xC21, 0xF⟩, ⟨0x24, 1, 0xF⟩] ∧
      bench.rTaken = [0x00BB00DD] ∧ bench.outputs.countP CsrPulses.mdioGo = 1 ∧
      bench.regs.file.irqStatus = 2 :=
  ⟨transactions_run (by decide +kernel), by decide +kernel⟩

/-- The answer to a read, if the writes executed before its handshake count. -/
def RightAtHandshake (read : CsrRead params.addrWidth) (data : BitVec 32) : Prop :=
  Right ⟨read.addr, read.before⟩ data

/-- A write of `SCRATCH` is executed in the cycle in which a read of it is answered. -/
def overtakenCycles : List (CsrIn IrqBench.csrParams) :=
  [quietCycle ⟨0x3C, true, 0x11, 0xF, true, true, 0, false, true⟩,
    quietCycle { restBus with araddr := 0x3C, arvalid := true },
    quietCycle { restBus with araddr := 0x3C, arvalid := true }]

/-- The handshake of a read comes a cycle behind its answer, so a write may be executed before
the handshake and not be in the answer. -/
theorem overtaken_read :
    let bench := runFrom step start overtakenCycles
    Along step Holds start overtakenCycles ∧
      ¬ List.Forall₂ RightAtHandshake bench.arTaken bench.rTaken := by
  intro bench
  refine ⟨by decide +kernel, fun hright => ?_⟩
  have htaken : bench.arTaken = [⟨0x3C, [⟨0x3C, 0x11, 0xF⟩], []⟩] ∧ bench.rTaken = [0] := by
    decide +kernel
  rw [htaken.1, htaken.2, List.forall₂_cons] at hright
  have hdata := hright.1 .scratch rfl (by decide) (IrqBench.quietStatus false)
  exact absurd hdata (by decide)

end CsrBench

end EmacZero
