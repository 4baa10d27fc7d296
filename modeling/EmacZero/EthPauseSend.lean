/-
PAUSE requests: software sets `tx_send` in `PAUSE_CTRL`, and the generator sends a
frame for it.
-/
import Mathlib.Tactic.IntervalCases
import EmacZero.AxiliteIrq
import EmacZero.EthPause

namespace EmacZero

variable {params : AxiliteParams}

/-- One cycle of the register block and the generator. -/
structure PauseSendIn (params : AxiliteParams) where
  csr : CsrIn params
  ourMac : BitVec 48
  pauseTready : Bool
deriving Repr, DecidableEq

/-- A PAUSE frame that has been sent, and how many requests there were when it was begun. -/
structure PauseSent where
  after : Nat
  bytes : List (BitVec 8)
deriving Repr, DecidableEq

/-- The register block and the generator, the quanta of the requests so far, the frame
under way and the frames sent. -/
structure PauseSendBench (params : AxiliteParams) where
  regs : AxiliteRegs params
  gen : EthPauseTx
  requests : List (BitVec 16)
  current : PauseSent
  emitted : List PauseSent
deriving Repr, DecidableEq

namespace PauseSendBench

def start : PauseSendBench params := ⟨.reset, .reset, [], ⟨0, []⟩, []⟩

/-- A write that sets `tx_send` is executed. -/
def requests? (regs : AxiliteRegs params) : Bool :=
  regs.executes && regs.wrCsr == some .pauseCtrl && regs.wStrb.getLsbD 0 &&
    regs.wData.getLsbD 0

def genIn (bench : PauseSendBench params) (i : PauseSendIn params) : PauseTxIn where
  ourMac := i.ourMac
  cfgPauseTxSend := bench.regs.pulses.cfgPauseTxSend
  cfgPauseTxQuanta := bench.regs.file.pauseQuanta
  pauseTready := i.pauseTready
  statClr := bench.regs.pulses.statClrPause

/-- A byte of the frame is handed over. -/
def taken (bench : PauseSendBench params) (i : PauseSendIn params) : Bool :=
  bench.gen.pauseTvalid && i.pauseTready

def step (bench : PauseSendBench params) (i : PauseSendIn params) :
    PauseSendBench params where
  regs := bench.regs.clkEdge i.csr.bus i.csr.status
  gen := bench.gen.clkEdge (bench.genIn i)
  requests :=
    if requests? bench.regs then bench.requests ++ [bench.regs.file.pauseQuanta]
    else bench.requests
  current :=
    if bench.gen.txState = .idle ∧ bench.regs.pulses.cfgPauseTxSend = true then
      ⟨bench.requests.length, []⟩
    else if bench.taken i then
      ⟨bench.current.after, bench.current.bytes ++ [bench.gen.pauseTdata]⟩
    else bench.current
  emitted :=
    if bench.taken i && bench.gen.pauseTlast then
      bench.emitted ++
        [⟨bench.current.after, bench.current.bytes ++ [bench.gen.pauseTdata]⟩]
    else bench.emitted

/-- A request finds the generator idle. -/
def Heard (bench : PauseSendBench params) (_ : PauseSendIn params) : Prop :=
  bench.regs.pulses.cfgPauseTxSend = true → bench.gen.txState = .idle

/-- The last frame sent was begun after the last request, and carries its quanta. -/
def Answered (bench : PauseSendBench params) : Prop :=
  ∀ quanta ∈ bench.requests.getLast?, ∃ sent ∈ bench.emitted.getLast?, ∃ mac,
    sent.after = bench.requests.length ∧ sent.bytes = pauseFrame mac quanta

/-- What holds of a run in which every request is heard: a request that is pending is the
last one, and so is the one that the frame under way answers. -/
structure Serves (bench : PauseSendBench params) : Prop where
  pending : bench.regs.pulses.cfgPauseTxSend = true →
    bench.regs.bvalid = true ∧ bench.requests.getLast? = some bench.regs.file.pauseQuanta
  running : bench.gen.txState = .run → bench.regs.pulses.cfgPauseTxSend = false →
    bench.current.after = bench.requests.length ∧
      bench.requests.getLast? = some bench.gen.txQuantaLat
  bytes : bench.gen.txState = .run → bench.gen.txIdx.toNat < 60 ∧
    bench.current.bytes =
      (pauseFrame bench.gen.txSrcLat bench.gen.txQuantaLat).take bench.gen.txIdx.toNat
  resting : bench.gen.txState ≠ .run → bench.regs.pulses.cfgPauseTxSend = false →
    bench.Answered

instance (bench : PauseSendBench params) (i : PauseSendIn params) :
    Decidable (bench.Heard i) :=
  inferInstanceAs (Decidable (_ → _))

variable {bench : PauseSendBench params}

/-- The byte on offer is the next one of the frame. -/
theorem getElem?_pauseFrame {gen : EthPauseTx} (hidx : gen.txIdx.toNat < 60) :
    (pauseFrame gen.txSrcLat gen.txQuantaLat)[gen.txIdx.toNat]? = some gen.pauseTdata := by
  unfold EthPauseTx.pauseTdata
  generalize gen.txIdx.toNat = idx at *
  interval_cases idx <;> rfl

theorem length_pauseFrame (mac : BitVec 48) (quanta : BitVec 16) :
    (pauseFrame mac quanta).length = 60 := rfl

/-- The pulse is high in the cycle after a request is executed, and in no other. -/
theorem pulse_step (bench : PauseSendBench params) (i : PauseSendIn params) :
    (bench.step i).regs.pulses.cfgPauseTxSend = requests? bench.regs := by
  change (bench.regs.nextPulses i.csr.status).cfgPauseTxSend = _
  unfold AxiliteRegs.nextPulses requests?
  cases hfire : bench.regs.executes with
  | false => rfl
  | true =>
      rw [if_pos rfl, Bool.true_and]
      cases hcsr : bench.regs.wrCsr with
      | none => rfl
      | some csr => cases csr <;> rfl

theorem executes_of_requests {regs : AxiliteRegs params} (hreq : requests? regs = true) :
    regs.executes = true ∧ regs.wrCsr = some .pauseCtrl := by
  simp only [requests?, Bool.and_eq_true, beq_iff_eq] at hreq
  exact hreq.1.1

/-- A response is out after a request, and the quanta are those of the request. -/
theorem regs_of_requests (i : PauseSendIn params) (hreq : requests? bench.regs = true) :
    (bench.step i).regs.bvalid = true ∧
      (bench.step i).regs.file.pauseQuanta = bench.regs.file.pauseQuanta := by
  obtain ⟨hfire, hcsr⟩ := executes_of_requests hreq
  have hidle : bench.regs.bvalid = false := by
    simp only [AxiliteRegs.executes, Bool.and_eq_true, Bool.not_eq_true'] at hfire
    exact hfire.2
  constructor
  · change (bench.regs.nextWrite i.csr.bus).bvalid = true
    simp [AxiliteRegs.nextWrite, AxiliteRegs.bTake, hidle, hfire]
  · change (bench.regs.nextFile i.csr.status).pauseQuanta = _
    rw [AxiliteRegs.nextFile, if_pos hfire, hcsr]
    dsimp only [CsrFile.write]
    split <;> rfl

/-- A request is executed only when no response is out. -/
theorem not_requests_of_bvalid {regs : AxiliteRegs params} (hbvalid : regs.bvalid = true) :
    requests? regs = false := by
  simp [requests?, AxiliteRegs.executes, hbvalid]

/-- One edge of the generator, its counter apart. -/
theorem gen_step (gen : EthPauseTx) (i : PauseTxIn) :
    (gen.txState = .idle ∧ i.cfgPauseTxSend = false ∧
      (gen.clkEdge i).txState = .idle) ∨
    (gen.txState = .idle ∧ i.cfgPauseTxSend = true ∧ (gen.clkEdge i).txState = .run ∧
      (gen.clkEdge i).txIdx = 0 ∧ (gen.clkEdge i).txQuantaLat = i.cfgPauseTxQuanta) ∨
    (gen.txState = .run ∧ i.pauseTready = false ∧ (gen.clkEdge i).txState = .run ∧
      (gen.clkEdge i).txIdx = gen.txIdx ∧ (gen.clkEdge i).txQuantaLat = gen.txQuantaLat ∧
      (gen.clkEdge i).txSrcLat = gen.txSrcLat) ∨
    (gen.txState = .run ∧ i.pauseTready = true ∧ gen.txIdx ≠ 59 ∧
      (gen.clkEdge i).txState = .run ∧ (gen.clkEdge i).txIdx = gen.txIdx + 1 ∧
      (gen.clkEdge i).txQuantaLat = gen.txQuantaLat ∧
      (gen.clkEdge i).txSrcLat = gen.txSrcLat) ∨
    (gen.txState = .run ∧ i.pauseTready = true ∧ gen.txIdx = 59 ∧
      (gen.clkEdge i).txState = .done) ∨
    (gen.txState = .done ∧ (gen.clkEdge i).txState = .idle) := by
  unfold EthPauseTx.clkEdge
  cases hstate : gen.txState with
  | idle => cases hsend : i.cfgPauseTxSend <;> cases i.statClr <;> simp [hstate]
  | run =>
      cases hready : i.pauseTready with
      | false => cases i.statClr <;> simp [hstate]
      | true => by_cases hidx : gen.txIdx = 59#6 <;> cases i.statClr <;> simp [hidx]
  | done => cases i.statClr <;> simp

/-- The requests stay unless one is executed. -/
theorem requests_step (i : PauseSendIn params) (hnone : requests? bench.regs = false) :
    (bench.step i).requests = bench.requests := by
  simp [step, hnone]

/-- What is answered stays so while no frame ends and no request is executed. -/
theorem answered_step {i : PauseSendIn params} (hstate : bench.gen.txState ≠ .run)
    (hnone : requests? bench.regs = false) (hanswered : bench.Answered) :
    (bench.step i).Answered := by
  have hemitted : (bench.step i).emitted = bench.emitted := by
    simp [step, taken, EthPauseTx.pauseTvalid, hstate]
  unfold Answered
  rw [requests_step i hnone, hemitted]
  exact hanswered

/-- The frame under way in a cycle in which none begins. -/
theorem current_step {i : PauseSendIn params} (hstate : bench.gen.txState = .run) :
    (bench.step i).current =
      if i.pauseTready then
        ⟨bench.current.after, bench.current.bytes ++ [bench.gen.pauseTdata]⟩
      else bench.current := by
  simp [step, hstate, taken, EthPauseTx.pauseTvalid]

/-- The bytes handed over, with the one on offer. -/
theorem bytes_taken {gen : EthPauseTx} (hidx : gen.txIdx.toNat < 60) :
    (pauseFrame gen.txSrcLat gen.txQuantaLat).take gen.txIdx.toNat ++ [gen.pauseTdata] =
      (pauseFrame gen.txSrcLat gen.txQuantaLat).take (gen.txIdx.toNat + 1) := by
  rw [List.take_add_one, getElem?_pauseFrame hidx]
  rfl

theorem pending_step {i : PauseSendIn params}
    (hsend : (bench.step i).regs.pulses.cfgPauseTxSend = true) :
    (bench.step i).regs.bvalid = true ∧
      (bench.step i).requests.getLast? = some (bench.step i).regs.file.pauseQuanta := by
  rw [pulse_step] at hsend
  obtain ⟨hbvalid, hquanta⟩ := regs_of_requests i hsend
  refine ⟨hbvalid, ?_⟩
  rw [hquanta]
  simp [step, hsend]

/-- A frame begins only on a request, so the quanta of the frame are those of the request. -/
theorem serves_step {i : PauseSendIn params} (hheard : bench.Heard i)
    (hserves : bench.Serves) : (bench.step i).Serves := by
  have hpulse := pulse_step bench i
  -- a generator that is not idle has no request before it
  have hquiet : bench.gen.txState ≠ .idle → bench.regs.pulses.cfgPauseTxSend = false :=
    fun hstate => Bool.eq_false_iff.mpr fun hsend => hstate (hheard hsend)
  rcases gen_step bench.gen (bench.genIn i) with
    ⟨hidle, hsend, hnext⟩ | ⟨hidle, hsend, hnext, hidx, hquanta⟩ |
    ⟨hrun, hready, hnext, hidx, hquanta, hsrc⟩ |
    ⟨hrun, hready, hlast, hnext, hidx, hquanta, hsrc⟩ | ⟨hrun, hready, hlast, hnext⟩ |
    ⟨hdone, hnext⟩
  · refine ⟨pending_step, fun hrun' => ?_, fun hrun' => ?_, fun _ hquiet' => ?_⟩
    · exact absurd (hnext.symm.trans hrun') (by decide)
    · exact absurd (hnext.symm.trans hrun') (by decide)
    · rw [hpulse] at hquiet'
      exact answered_step (by simp [hidle]) hquiet' (hserves.resting (by simp [hidle]) hsend)
  · obtain ⟨hbvalid, hlast⟩ := hserves.pending hsend
    have hnone := not_requests_of_bvalid hbvalid
    have hcurrent : (bench.step i).current = ⟨bench.requests.length, []⟩ :=
      if_pos ⟨hidle, hsend⟩
    refine ⟨pending_step, fun _ _ => ?_, fun _ => ?_, fun hrest => absurd hnext hrest⟩
    · rw [hcurrent, requests_step i hnone, hlast]
      exact ⟨rfl, congrArg some hquanta.symm⟩
    · change (bench.gen.clkEdge (bench.genIn i)).txIdx.toNat < 60 ∧ _ =
        List.take (bench.gen.clkEdge (bench.genIn i)).txIdx.toNat _
      rw [hcurrent, hidx]
      exact ⟨by decide, rfl⟩
  · have hcurrent : (bench.step i).current = bench.current := by
      rw [current_step hrun, show i.pauseTready = false from hready]
      rfl
    obtain ⟨hafter, hlatest⟩ := hserves.running hrun (hquiet (by simp [hrun]))
    refine ⟨pending_step, fun _ hquiet' => ?_, fun _ => ?_, fun hrest => absurd hnext hrest⟩
    · rw [hpulse] at hquiet'
      rw [hcurrent, requests_step i hquiet', hafter, hlatest]
      exact ⟨rfl, congrArg some hquanta.symm⟩
    · change (bench.gen.clkEdge (bench.genIn i)).txIdx.toNat < 60 ∧ _ =
        List.take (bench.gen.clkEdge (bench.genIn i)).txIdx.toNat
          (pauseFrame (bench.gen.clkEdge (bench.genIn i)).txSrcLat
            (bench.gen.clkEdge (bench.genIn i)).txQuantaLat)
      rw [hcurrent, hidx, hquanta, hsrc]
      exact hserves.bytes hrun
  · have hcurrent : (bench.step i).current =
        ⟨bench.current.after, bench.current.bytes ++ [bench.gen.pauseTdata]⟩ := by
      rw [current_step hrun, show i.pauseTready = true from hready]
      rfl
    obtain ⟨hafter, hlatest⟩ := hserves.running hrun (hquiet (by simp [hrun]))
    obtain ⟨hbound, hbytes⟩ := hserves.bytes hrun
    refine ⟨pending_step, fun _ hquiet' => ?_, fun _ => ?_, fun hrest => absurd hnext hrest⟩
    · rw [hpulse] at hquiet'
      rw [hcurrent, requests_step i hquiet', hlatest]
      exact ⟨hafter, congrArg some hquanta.symm⟩
    · have hlt : bench.gen.txIdx.toNat ≠ 59 := fun heq => hlast (BitVec.eq_of_toNat_eq heq)
      have hsucc : (bench.gen.txIdx + 1).toNat = bench.gen.txIdx.toNat + 1 := by
        rw [BitVec.toNat_add_of_lt (by simp; omega)]
        rfl
      change (bench.gen.clkEdge (bench.genIn i)).txIdx.toNat < 60 ∧ _ =
        List.take (bench.gen.clkEdge (bench.genIn i)).txIdx.toNat
          (pauseFrame (bench.gen.clkEdge (bench.genIn i)).txSrcLat
            (bench.gen.clkEdge (bench.genIn i)).txQuantaLat)
      rw [hcurrent, hidx, hquanta, hsrc, hsucc, ← bytes_taken hbound, hbytes]
      exact ⟨by omega, rfl⟩
  · obtain ⟨hafter, hlatest⟩ := hserves.running hrun (hquiet (by simp [hrun]))
    obtain ⟨hbound, hbytes⟩ := hserves.bytes hrun
    refine ⟨pending_step, fun hrun' => ?_, fun hrun' => ?_, fun _ hquiet' => ?_⟩
    · exact absurd (hnext.symm.trans hrun') (by decide)
    · exact absurd (hnext.symm.trans hrun') (by decide)
    · rw [hpulse] at hquiet'
      have hemitted : (bench.step i).emitted = bench.emitted ++
          [⟨bench.current.after, bench.current.bytes ++ [bench.gen.pauseTdata]⟩] := by
        have hready' : i.pauseTready = true := hready
        simp [step, taken, EthPauseTx.pauseTvalid, EthPauseTx.pauseTlast, hrun, hready', hlast]
      intro quanta hquanta
      rw [requests_step i hquiet', hlatest, Option.mem_some_iff] at hquanta
      rw [hemitted, requests_step i hquiet', List.getLast?_concat]
      refine ⟨_, rfl, bench.gen.txSrcLat, hafter, ?_⟩
      dsimp only
      rw [hbytes, bytes_taken hbound, ← hquanta, hlast]
      rfl
  · refine ⟨pending_step, fun hrun' => ?_, fun hrun' => ?_, fun _ hquiet' => ?_⟩
    · exact absurd (hnext.symm.trans hrun') (by decide)
    · exact absurd (hnext.symm.trans hrun') (by decide)
    · rw [hpulse] at hquiet'
      exact answered_step (by simp [hdone]) hquiet'
        (hserves.resting (by simp [hdone]) (hquiet (by simp [hdone])))

theorem serves_start : (start : PauseSendBench params).Serves where
  pending hsend := by cases hsend
  running hrun := by cases hrun
  bytes hrun := by cases hrun
  resting _ _ := by
    intro quanta hquanta
    cases hquanta

/-- When every request finds the generator idle, a generator that rests with no request
before it has answered the last one. -/
theorem answered_run {inputs : List (PauseSendIn params)}
    (hheard : Along step Heard start inputs)
    (hidle : (runFrom step start inputs).gen.txState = .idle)
    (hquiet : (runFrom step start inputs).regs.pulses.cfgPauseTxSend = false) :
    (runFrom step start inputs).Answered :=
  (invariant_along (fun _ _ hheard => serves_step hheard) serves_start hheard).resting
    (by simp [hidle]) hquiet

/-- A cycle in which the generator is served, with or without a write on the bus. -/
def sendCycle (valid : Bool) (addr : BitVec 8) (data : BitVec 32) :
    PauseSendIn IrqBench.csrParams where
  csr := ⟨⟨addr, valid, data, 0xF, valid, true, 0, false, true⟩, IrqBench.quietStatus false⟩
  ourMac := 0x020000000001
  pauseTready := true

/-- `PAUSE_QUANTA` and then `PAUSE_CTRL` are written, and this many cycles pass. -/
def sendCycles (quanta : BitVec 32) (cycles : Nat) : List (PauseSendIn IrqBench.csrParams) :=
  [sendCycle true 0x88 quanta, sendCycle false 0x88 0, sendCycle false 0x88 0,
    sendCycle true 0x84 1] ++ List.replicate cycles (sendCycle false 0x84 0)

theorem answered_run_twice :
    (runFrom step start (sendCycles 0xFFFF 64 ++ sendCycles 0 64)).Answered :=
  answered_run (by decide +kernel) (by decide +kernel) (by decide +kernel)

/-- An XON that is written while an XOFF frame is being sent is lost. -/
theorem lost_request :
    (runFrom step start (sendCycles 0xFFFF 8 ++ sendCycles 0 64)).gen.txState = .idle ∧
      (runFrom step start
        (sendCycles 0xFFFF 8 ++ sendCycles 0 64)).regs.pulses.cfgPauseTxSend = false ∧
      ¬(runFrom step start (sendCycles 0xFFFF 8 ++ sendCycles 0 64)).Answered := by
  refine ⟨by decide +kernel, by decide +kernel, fun hanswered => ?_⟩
  obtain ⟨sent, hsent, mac, hafter, -⟩ := hanswered 0 (by decide +kernel)
  have hlast : (runFrom step start
      (sendCycles 0xFFFF 8 ++ sendCycles 0 64)).emitted.getLast?.map (·.after) = some 1 := by
    decide +kernel
  rw [Option.mem_def.mp hsent, Option.map_some, hafter] at hlast
  exact absurd hlast (by decide +kernel)

end PauseSendBench

end EmacZero
