/-
`axil_arb2` in front of the register block: two AXI4-Lite masters share it, and each
has its own transactions carried out as if it were alone.
-/
import EmacZero.AxiliteTransactions

namespace EmacZero

/-- The grant registers of `axil_arb2`; a `sel` of `false` is master 0. -/
structure AxilArb2 where
  wBusy : Bool
  wSel : Bool
  rBusy : Bool
  rSel : Bool
deriving Repr, DecidableEq

/-- What the two masters drive, and the other inputs of the register block. -/
structure ArbIn (params : AxiliteParams) where
  m0 : AxilMaster params.addrWidth
  m1 : AxilMaster params.addrWidth
  status : CsrStatus
deriving Repr, DecidableEq

namespace AxilArb2

variable {params : AxiliteParams}

def reset : AxilArb2 := ⟨false, false, false, false⟩

section Edge

variable (arb : AxilArb2) (i : ArbIn params)

/-- `w_g0` and `w_g1` -/
def wG (sel : Bool) : Bool := arb.wBusy && arb.wSel == sel

/-- `r_g0` and `r_g1` -/
def rG (sel : Bool) : Bool := arb.rBusy && arb.rSel == sel

/-- The granted master's signals, as the slave sees them. -/
def slaveBus : AxilMaster params.addrWidth where
  awaddr := if arb.wG true then i.m1.awaddr else i.m0.awaddr
  awvalid := (arb.wG false && i.m0.awvalid) || (arb.wG true && i.m1.awvalid)
  wdata := if arb.wG true then i.m1.wdata else i.m0.wdata
  wstrb := if arb.wG true then i.m1.wstrb else i.m0.wstrb
  wvalid := (arb.wG false && i.m0.wvalid) || (arb.wG true && i.m1.wvalid)
  bready := (arb.wG false && i.m0.bready) || (arb.wG true && i.m1.bready)
  araddr := if arb.rG true then i.m1.araddr else i.m0.araddr
  arvalid := (arb.rG false && i.m0.arvalid) || (arb.rG true && i.m1.arvalid)
  rready := (arb.rG false && i.m0.rready) || (arb.rG true && i.m1.rready)

/-- The slave's signals, as a master sees them. -/
def masterPort (port : AxilSlave) (sel : Bool) : AxilSlave where
  awready := arb.wG sel && port.awready
  wready := arb.wG sel && port.wready
  bresp := port.bresp
  bvalid := arb.wG sel && port.bvalid
  arready := arb.rG sel && port.arready
  rdata := port.rdata
  rresp := port.rresp
  rvalid := arb.rG sel && port.rvalid

def clkEdge (port : AxilSlave) : AxilArb2 where
  wBusy :=
    if !arb.wBusy then i.m0.awvalid || i.m1.awvalid
    else if port.bvalid && (arb.slaveBus i).bready then false else true
  wSel :=
    if !arb.wBusy then
      if i.m0.awvalid then false else if i.m1.awvalid then true else arb.wSel
    else arb.wSel
  rBusy :=
    if !arb.rBusy then i.m0.arvalid || i.m1.arvalid
    else if port.rvalid && (arb.slaveBus i).rready then false else true
  rSel :=
    if !arb.rBusy then
      if i.m0.arvalid then false else if i.m1.arvalid then true else arb.rSel
    else arb.rSel

end Edge

end AxilArb2

/-- The signals of a master. -/
def ArbIn.master {params : AxiliteParams} (i : ArbIn params) (sel : Bool) :
    AxilMaster params.addrWidth :=
  if sel then i.m1 else i.m0

/-- The handshakes at a master's port so far, and the addresses it has on offer. -/
structure MasterLog (addrWidth : Nat) where
  awAsked : Option (BitVec addrWidth)
  awTaken : List (BitVec addrWidth)
  wTaken : List (BitVec 32 × BitVec 4)
  bTaken : Nat
  arAsked : Option (BitVec addrWidth)
  arTaken : List (BitVec addrWidth)
  rTaken : List (BitVec 32)
deriving Repr, DecidableEq

/-- One more cycle at the port. -/
def MasterLog.next {addrWidth : Nat} (log : MasterLog addrWidth)
    (bus : AxilMaster addrWidth) (port : AxilSlave) : MasterLog addrWidth where
  awAsked := if bus.awvalid && !port.awready then some bus.awaddr else none
  awTaken := if bus.awvalid && port.awready then log.awTaken ++ [bus.awaddr] else log.awTaken
  wTaken :=
    if bus.wvalid && port.wready then log.wTaken ++ [(bus.wdata, bus.wstrb)] else log.wTaken
  bTaken := log.bTaken + (port.bvalid && bus.bready).toNat
  arAsked := if bus.arvalid && !port.arready then some bus.araddr else none
  arTaken := if bus.arvalid && port.arready then log.arTaken ++ [bus.araddr] else log.arTaken
  rTaken := if port.rvalid && bus.rready then log.rTaken ++ [port.rdata] else log.rTaken

/-- The arbiter and the register block, the ports of the two masters, and whose each
executed write and each answered read was. -/
structure ArbBench (params : AxiliteParams) where
  arb : AxilArb2
  csr : CsrBench params
  log : Bool → MasterLog params.addrWidth
  executed : List (Bool × CsrWrite params.addrWidth)
  answered : List (Bool × BitVec params.addrWidth × BitVec 32)

namespace ArbBench

variable {params : AxiliteParams}

def start : ArbBench params where
  arb := .reset
  csr := .start
  log _ := ⟨none, [], [], 0, none, [], []⟩
  executed := []
  answered := []

/-- The cycle at the register block. -/
def slaveIn (bench : ArbBench params) (i : ArbIn params) : CsrIn params :=
  ⟨bench.arb.slaveBus i, i.status⟩

def step (bench : ArbBench params) (i : ArbIn params) : ArbBench params where
  arb := bench.arb.clkEdge i bench.csr.regs.port
  csr := bench.csr.step (bench.slaveIn i)
  log sel := (bench.log sel).next (i.master sel) (bench.arb.masterPort bench.csr.regs.port sel)
  executed :=
    if bench.csr.regs.executes then
      bench.executed ++ [(bench.arb.wSel, CsrBench.latched bench.csr.regs)]
    else bench.executed
  answered :=
    if bench.csr.regs.arAccept (bench.arb.slaveBus i) then
      bench.answered ++ [(bench.arb.rSel, (bench.arb.slaveBus i).araddr,
        bench.csr.regs.answer i.status (bench.arb.slaveBus i).araddr)]
    else bench.answered

/-- Both masters keep an address on offer until it is taken. -/
def Holds (bench : ArbBench params) (i : ArbIn params) : Prop :=
  ∀ sel, (∀ addr ∈ (bench.log sel).awAsked,
      (i.master sel).awvalid = true ∧ (i.master sel).awaddr = addr) ∧
    ∀ addr ∈ (bench.log sel).arAsked,
      (i.master sel).arvalid = true ∧ (i.master sel).araddr = addr

/-- A master's part of what the block has done. -/
def ownedBy {α : Type} (sel : Bool) (done : List (Bool × α)) : List α :=
  (done.filter fun entry => entry.1 == sel).map Prod.snd

/-- The write transactions of a master. -/
structure OwnWrites (bench : ArbBench params) (sel : Bool) : Prop where
  address : (bench.log sel).awTaken = (ownedBy sel bench.executed).map (·.addr) ++
    if bench.csr.regs.awLatched && bench.arb.wSel == sel then [bench.csr.regs.awAddr] else []
  data : (bench.log sel).wTaken =
    (ownedBy sel bench.executed).map (fun write => (write.data, write.strb)) ++
      if bench.csr.regs.wLatched && bench.arb.wSel == sel then
        [(bench.csr.regs.wData, bench.csr.regs.wStrb)]
      else []
  responses : (bench.log sel).bTaken +
      (bench.csr.regs.bvalid && bench.arb.wSel == sel).toNat =
    (ownedBy sel bench.executed).length

/-- The read transactions of a master. -/
structure OwnReads (bench : ArbBench params) (sel : Bool) : Prop where
  address : (ownedBy sel bench.answered).map Prod.fst = (bench.log sel).arTaken ++
    if bench.csr.regs.arready && bench.arb.rSel == sel then (bench.log sel).arAsked.toList
    else []
  data : (ownedBy sel bench.answered).map Prod.snd = (bench.log sel).rTaken ++
    if bench.csr.regs.rvalid && bench.arb.rSel == sel then [bench.csr.regs.rdata] else []

/-- The grants: whatever is under way is under a grant, and a grant is for something
under way. -/
structure Granted (bench : ArbBench params) : Prop where
  write : bench.csr.regs.awLatched = true ∨ bench.csr.regs.wLatched = true ∨
    bench.csr.regs.bvalid = true → bench.arb.wBusy = true
  writeHeld : bench.arb.wBusy = true → bench.csr.regs.awLatched = true ∨
    bench.csr.regs.bvalid = true ∨ (bench.log bench.arb.wSel).awAsked ≠ none
  read : bench.csr.regs.rvalid = true → bench.arb.rBusy = true
  readHeld : bench.arb.rBusy = true → bench.csr.regs.rvalid = true ∨
    (bench.log bench.arb.rSel).arAsked ≠ none
  answering : bench.csr.regs.arready = true → bench.csr.regs.rvalid = true ∧
    (bench.log bench.arb.rSel).arAsked ≠ none

/-- Two masters that do not mix. -/
structure Shared (bench : ArbBench params) : Prop where
  writes : ∀ sel, bench.OwnWrites sel
  reads : ∀ sel, bench.OwnReads sel
  granted : bench.Granted
  executed : bench.csr.executed = bench.executed.map Prod.snd
  answered : bench.csr.answered.map (·.addr) = bench.answered.map fun entry => entry.2.1
  prompt : bench.csr.regs.awLatched = true → bench.csr.regs.wLatched = true →
    bench.csr.regs.executes = true

section Mux

variable (arb : AxilArb2) (i : ArbIn params)

theorem mux_write : (arb.slaveBus i).awvalid = (arb.wBusy && (i.master arb.wSel).awvalid) ∧
    (arb.slaveBus i).wvalid = (arb.wBusy && (i.master arb.wSel).wvalid) ∧
    (arb.slaveBus i).bready = (arb.wBusy && (i.master arb.wSel).bready) := by
  unfold AxilArb2.slaveBus AxilArb2.wG ArbIn.master
  cases arb.wBusy <;> cases arb.wSel <;> simp

theorem mux_writeData (hbusy : arb.wBusy = true) :
    (arb.slaveBus i).awaddr = (i.master arb.wSel).awaddr ∧
      (arb.slaveBus i).wdata = (i.master arb.wSel).wdata ∧
      (arb.slaveBus i).wstrb = (i.master arb.wSel).wstrb := by
  unfold AxilArb2.slaveBus AxilArb2.wG ArbIn.master
  rw [hbusy]
  cases arb.wSel <;> simp

theorem mux_read : (arb.slaveBus i).arvalid = (arb.rBusy && (i.master arb.rSel).arvalid) ∧
    (arb.slaveBus i).rready = (arb.rBusy && (i.master arb.rSel).rready) := by
  unfold AxilArb2.slaveBus AxilArb2.rG ArbIn.master
  cases arb.rBusy <;> cases arb.rSel <;> simp

theorem mux_readAddr (hbusy : arb.rBusy = true) :
    (arb.slaveBus i).araddr = (i.master arb.rSel).araddr := by
  unfold AxilArb2.slaveBus AxilArb2.rG ArbIn.master
  rw [hbusy]
  cases arb.rSel <;> simp

end Mux

theorem ownedBy_concat {α : Type} (sel : Bool) (done : List (Bool × α)) (entry : Bool × α) :
    ownedBy sel (done ++ [entry]) =
      ownedBy sel done ++ if entry.1 == sel then [entry.2] else [] := by
  rw [ownedBy, ownedBy, List.filter_append, List.map_append, List.filter_singleton]
  cases entry.1 == sel <;> rfl

variable {bench : ArbBench params}

/-- The grant of a write stays until its response is taken. -/
theorem wSel_step (i : ArbIn params) (hbusy : bench.arb.wBusy = true) :
    (bench.step i).arb.wSel = bench.arb.wSel := by
  simp [step, AxilArb2.clkEdge, hbusy]

theorem rSel_step (i : ArbIn params) (hbusy : bench.arb.rBusy = true) :
    (bench.step i).arb.rSel = bench.arb.rSel := by
  simp [step, AxilArb2.clkEdge, hbusy]

theorem OwnWrites.step_idle {sel : Bool} (hown : bench.OwnWrites sel)
    (hgranted : bench.Granted) (hbusy : bench.arb.wBusy = false) (i : ArbIn params) :
    (bench.step i).OwnWrites sel := by
  obtain ⟨haddress, hdata, hresponses⟩ := hown
  obtain ⟨hawvalid, hwvalid, hbready⟩ := mux_write bench.arb i
  have hquiet : bench.csr.regs.awLatched = false ∧ bench.csr.regs.wLatched = false ∧
      bench.csr.regs.bvalid = false := by
    have hnone : ¬(bench.csr.regs.awLatched = true ∨ bench.csr.regs.wLatched = true ∨
        bench.csr.regs.bvalid = true) := fun hsome =>
      Bool.false_ne_true (hbusy.symm.trans (hgranted.write hsome))
    simpa only [not_or, Bool.not_eq_true] using hnone
  obtain ⟨haw, hw, hb⟩ := hquiet
  simp only [haw, hw, hb, Bool.false_and] at haddress hdata hresponses
  have hfire : bench.csr.regs.executes = false := by
    rw [AxiliteRegs.executes, haw, Bool.false_and, Bool.false_and]
  have hawTake : bench.csr.regs.awTake (bench.arb.slaveBus i) = false := by
    rw [AxiliteRegs.awTake, hawvalid, hbusy, Bool.false_and, Bool.false_and]
  have hwTake : bench.csr.regs.wTake (bench.arb.slaveBus i) = false := by
    rw [AxiliteRegs.wTake, hwvalid, hbusy, Bool.false_and, Bool.false_and]
  constructor
  · simpa [ArbBench.step, CsrBench.step, slaveIn, MasterLog.next, AxilArb2.masterPort,
      AxilArb2.wG, AxiliteRegs.clkEdge, AxiliteRegs.nextWrite, hbusy, hfire, hawTake, haw]
      using haddress
  · simpa [ArbBench.step, CsrBench.step, slaveIn, MasterLog.next, AxilArb2.masterPort,
      AxilArb2.wG, AxiliteRegs.clkEdge, AxiliteRegs.nextWrite, hbusy, hfire, hwTake, hw]
      using hdata
  · simpa [ArbBench.step, CsrBench.step, slaveIn, MasterLog.next, AxilArb2.masterPort,
      AxilArb2.wG, AxiliteRegs.clkEdge, AxiliteRegs.nextWrite, hbusy, hfire, hb,
      AxiliteRegs.bTake] using hresponses

/-- The granted master's handshakes are the block's. -/
theorem OwnWrites.step_owner (hown : bench.OwnWrites bench.arb.wSel)
    (honce : bench.csr.WritesOnce) (hbusy : bench.arb.wBusy = true) (i : ArbIn params) :
    (bench.step i).OwnWrites bench.arb.wSel := by
  obtain ⟨haddress, hdata, hresponses⟩ := hown
  obtain ⟨hawvalid, hwvalid, hbready⟩ := mux_write bench.arb i
  obtain ⟨hawaddr, hwdata, hwstrb⟩ := mux_writeData bench.arb i hbusy
  have hsel := wSel_step i hbusy
  rw [hbusy, Bool.true_and] at hawvalid hwvalid hbready
  rw [beq_self_eq_true, Bool.and_true] at haddress hdata hresponses
  have hawTake : bench.csr.regs.awTake (bench.arb.slaveBus i) =
      ((i.master bench.arb.wSel).awvalid && bench.csr.regs.awReadyR) := by
    rw [AxiliteRegs.awTake, hawvalid]
  have hwTake : bench.csr.regs.wTake (bench.arb.slaveBus i) =
      ((i.master bench.arb.wSel).wvalid && bench.csr.regs.wReadyR) := by
    rw [AxiliteRegs.wTake, hwvalid]
  have hbTake : bench.csr.regs.bTake (bench.arb.slaveBus i) =
      (bench.csr.regs.bvalid && (i.master bench.arb.wSel).bready) := by
    rw [AxiliteRegs.bTake, hbready]
  have hlog : ((bench.step i).log bench.arb.wSel).awTaken =
      (if bench.csr.regs.awTake (bench.arb.slaveBus i) then
        (bench.log bench.arb.wSel).awTaken ++ [(i.master bench.arb.wSel).awaddr]
      else (bench.log bench.arb.wSel).awTaken) ∧
      ((bench.step i).log bench.arb.wSel).wTaken =
      (if bench.csr.regs.wTake (bench.arb.slaveBus i) then
        (bench.log bench.arb.wSel).wTaken ++
          [((i.master bench.arb.wSel).wdata, (i.master bench.arb.wSel).wstrb)]
      else (bench.log bench.arb.wSel).wTaken) ∧
      ((bench.step i).log bench.arb.wSel).bTaken =
        (bench.log bench.arb.wSel).bTaken +
          (bench.csr.regs.bTake (bench.arb.slaveBus i)).toNat := by
    rw [hawTake, hwTake, hbTake]
    simp [ArbBench.step, MasterLog.next, AxilArb2.masterPort, AxilArb2.wG, hbusy,
      AxiliteRegs.port]
  obtain ⟨hlogAw, hlogW, hlogB⟩ := hlog
  -- with this master's transactions for its own the block's bench is as before
  have hview : ({ bench.csr with
      awTaken := (bench.log bench.arb.wSel).awTaken
      wTaken := (bench.log bench.arb.wSel).wTaken
      bTaken := (bench.log bench.arb.wSel).bTaken
      executed := ownedBy bench.arb.wSel bench.executed } : CsrBench params).WritesOnce :=
    ⟨haddress, hdata, honce.quiet, honce.prompt, hresponses, honce.awReady, honce.wReady⟩
  obtain ⟨haddress', hdata', _, _, hresponses', _, _⟩ := hview.step (bench.slaveIn i)
  have hexecuted : ownedBy bench.arb.wSel (bench.step i).executed =
      if bench.csr.regs.executes then
        ownedBy bench.arb.wSel bench.executed ++ [CsrBench.latched bench.csr.regs]
      else ownedBy bench.arb.wSel bench.executed := by
    simp only [ArbBench.step]
    split
    · rw [ownedBy_concat, beq_self_eq_true, if_pos rfl]
    · rfl
  constructor
  · rw [hlogAw, hexecuted, hsel, beq_self_eq_true, Bool.and_true, ← hawaddr]
    exact haddress'
  · rw [hlogW, hexecuted, hsel, beq_self_eq_true, Bool.and_true, ← hwdata, ← hwstrb]
    exact hdata'
  · rw [hlogB, hexecuted, hsel, beq_self_eq_true, Bool.and_true]
    exact hresponses'

/-- The other master waits. -/
theorem OwnWrites.step_other {sel : Bool} (hown : bench.OwnWrites sel)
    (hne : bench.arb.wSel ≠ sel) (hbusy : bench.arb.wBusy = true) (i : ArbIn params) :
    (bench.step i).OwnWrites sel := by
  obtain ⟨haddress, hdata, hresponses⟩ := hown
  have hsel := wSel_step i hbusy
  have hoff : (bench.arb.wSel == sel) = false := beq_false_of_ne hne
  rw [hoff, Bool.and_false] at haddress hdata hresponses
  have hexecuted : ownedBy sel (bench.step i).executed = ownedBy sel bench.executed := by
    simp only [ArbBench.step]
    split
    · rw [ownedBy_concat, hoff, if_neg Bool.false_ne_true, List.append_nil]
    · rfl
  constructor
  · rw [hsel, hoff, Bool.and_false, hexecuted]
    simpa [ArbBench.step, MasterLog.next, AxilArb2.masterPort, AxilArb2.wG, hne]
      using haddress
  · rw [hsel, hoff, Bool.and_false, hexecuted]
    simpa [ArbBench.step, MasterLog.next, AxilArb2.masterPort, AxilArb2.wG, hne]
      using hdata
  · rw [hsel, hoff, Bool.and_false, hexecuted]
    simpa [ArbBench.step, MasterLog.next, AxilArb2.masterPort, AxilArb2.wG, hoff]
      using hresponses

theorem OwnWrites.step {sel : Bool} (hown : bench.OwnWrites sel) (hgranted : bench.Granted)
    (honce : bench.csr.WritesOnce) (i : ArbIn params) : (bench.step i).OwnWrites sel := by
  cases hbusy : bench.arb.wBusy with
  | false => exact hown.step_idle hgranted hbusy i
  | true =>
      by_cases hsel : bench.arb.wSel = sel
      · rw [← hsel] at hown ⊢
        exact hown.step_owner honce hbusy i
      · exact hown.step_other hsel hbusy i

/-- A read is accepted for the granted master, which has its address on offer. -/
theorem arAccept_granted {i : ArbIn params}
    (haccept : bench.csr.regs.arAccept (bench.arb.slaveBus i) = true) :
    bench.arb.rBusy = true ∧ (i.master bench.arb.rSel).arvalid = true ∧
      (bench.arb.slaveBus i).araddr = (i.master bench.arb.rSel).araddr ∧
      bench.csr.regs.rvalid = false ∧ bench.csr.regs.arready = false := by
  rw [AxiliteRegs.arAccept, (mux_read bench.arb i).1] at haccept
  simp only [Bool.and_eq_true, Bool.not_eq_true'] at haccept
  obtain ⟨⟨⟨hbusy, harvalid⟩, hrvalid⟩, harready⟩ := haccept
  exact ⟨hbusy, harvalid, mux_readAddr bench.arb i hbusy, hrvalid, harready⟩

theorem OwnReads.step_owner (hown : bench.OwnReads bench.arb.rSel) (hgranted : bench.Granted)
    (hbusy : bench.arb.rBusy = true) {i : ArbIn params} (hholds : bench.Holds i) :
    (bench.step i).OwnReads bench.arb.rSel := by
  obtain ⟨haddress, hdata⟩ := hown
  have hsel := rSel_step i hbusy
  have hrready := (mux_read bench.arb i).2
  rw [hbusy, Bool.true_and] at hrready
  rw [beq_self_eq_true, Bool.and_true] at haddress hdata
  by_cases haccept : bench.csr.regs.arAccept (bench.arb.slaveBus i) = true
  · obtain ⟨-, harvalid, haraddr, hrvalid, harready⟩ := arAccept_granted haccept
    rw [harready] at haddress
    rw [hrvalid] at hdata
    have hnew : ownedBy bench.arb.rSel (bench.step i).answered =
        ownedBy bench.arb.rSel bench.answered ++
          [((bench.arb.slaveBus i).araddr,
            bench.csr.regs.answer i.status (bench.arb.slaveBus i).araddr)] := by
      simp only [ArbBench.step, if_pos haccept]
      rw [ownedBy_concat, beq_self_eq_true, if_pos rfl]
    constructor
    · rw [hsel, beq_self_eq_true, Bool.and_true, hnew, List.map_append, haddress]
      simp [ArbBench.step, CsrBench.step, slaveIn, MasterLog.next, AxilArb2.masterPort,
        AxiliteRegs.port, AxiliteRegs.clkEdge, AxiliteRegs.nextRead, haccept, harvalid,
        haraddr, harready]
    · rw [hsel, beq_self_eq_true, Bool.and_true, hnew, List.map_append, hdata]
      simp [ArbBench.step, CsrBench.step, slaveIn, MasterLog.next, AxilArb2.masterPort,
        AxiliteRegs.port, AxiliteRegs.clkEdge, AxiliteRegs.nextRead, AxiliteRegs.rTake,
        haccept, hrvalid]
  · have hsame : ownedBy bench.arb.rSel (bench.step i).answered =
        ownedBy bench.arb.rSel bench.answered := by
      simp only [ArbBench.step, if_neg haccept]
    constructor
    · rw [hsel, hsame, haddress]
      cases harready : bench.csr.regs.arready with
      | false =>
          simp [ArbBench.step, CsrBench.step, slaveIn, MasterLog.next, AxilArb2.masterPort,
            AxiliteRegs.port, AxiliteRegs.clkEdge, AxiliteRegs.nextRead, haccept, harready]
      | true =>
          obtain ⟨addr, hasked⟩ :=
            Option.ne_none_iff_exists'.mp (hgranted.answering harready).2
          obtain ⟨harvalid, haraddr⟩ := (hholds bench.arb.rSel).2 addr hasked
          simp [ArbBench.step, CsrBench.step, slaveIn, MasterLog.next, AxilArb2.masterPort,
            AxilArb2.rG, AxiliteRegs.port, AxiliteRegs.clkEdge, AxiliteRegs.nextRead, haccept,
            harready, hasked, harvalid, haraddr, hbusy]
    · rw [hsel, hsame, hdata]
      by_cases hvalid : bench.csr.regs.rvalid = true <;>
        by_cases htake : (i.master bench.arb.rSel).rready = true <;>
          simp [ArbBench.step, CsrBench.step, slaveIn, MasterLog.next, AxilArb2.masterPort,
            AxilArb2.rG, AxiliteRegs.port, AxiliteRegs.clkEdge, AxiliteRegs.nextRead,
            AxiliteRegs.rTake, haccept, hvalid, hrready, htake, hbusy]

theorem OwnReads.step_other {sel : Bool} (hown : bench.OwnReads sel)
    (hne : bench.arb.rBusy = true → bench.arb.rSel ≠ sel) (hgranted : bench.Granted)
    (i : ArbIn params) : (bench.step i).OwnReads sel := by
  obtain ⟨haddress, hdata⟩ := hown
  have hnot : bench.arb.rG sel = false := by
    cases hbusy : bench.arb.rBusy with
    | false => rw [AxilArb2.rG, hbusy, Bool.false_and]
    | true => rw [AxilArb2.rG, beq_false_of_ne (hne hbusy), Bool.and_false]
  have hquiet : (bench.csr.regs.rvalid && bench.arb.rSel == sel) = false ∧
      (bench.csr.regs.arready && bench.arb.rSel == sel) = false := by
    constructor
    · cases hvalid : bench.csr.regs.rvalid with
      | false => rfl
      | true => rw [beq_false_of_ne (hne (hgranted.read hvalid)), Bool.and_false]
    · cases harready : bench.csr.regs.arready with
      | false => rfl
      | true =>
          rw [beq_false_of_ne (hne (hgranted.read (hgranted.answering harready).1)),
            Bool.and_false]
  rw [hquiet.2] at haddress
  rw [hquiet.1] at hdata
  -- a read accepted now is the granted master's
  have haccept : (bench.csr.regs.arAccept (bench.arb.slaveBus i) &&
      (bench.step i).arb.rSel == sel) = false := by
    by_cases hset : bench.csr.regs.arAccept (bench.arb.slaveBus i) = true
    · have hbusy := (arAccept_granted hset).1
      rw [rSel_step i hbusy, beq_false_of_ne (hne hbusy), Bool.and_false]
    · rw [Bool.eq_false_iff.mpr hset, Bool.false_and]
  have hsame : ownedBy sel (bench.step i).answered = ownedBy sel bench.answered := by
    simp only [ArbBench.step]
    split
    · rename_i hset
      rw [ownedBy_concat, beq_false_of_ne (hne (arAccept_granted hset).1),
        if_neg Bool.false_ne_true, List.append_nil]
    · rfl
  have hvalid : ((bench.step i).csr.regs.rvalid && (bench.step i).arb.rSel == sel) = false := by
    by_cases hset : bench.csr.regs.arAccept (bench.arb.slaveBus i) = true
    · rw [hset, Bool.true_and] at haccept
      rw [haccept, Bool.and_false]
    · cases hold : bench.csr.regs.rvalid with
      | false =>
          simp [ArbBench.step, CsrBench.step, slaveIn, AxiliteRegs.clkEdge,
            AxiliteRegs.nextRead, hset, hold]
      | true =>
          have hbusy := hgranted.read hold
          rw [rSel_step i hbusy, beq_false_of_ne (hne hbusy), Bool.and_false]
  constructor
  · change _ = _ ++ (if (bench.csr.regs.arAccept (bench.arb.slaveBus i) &&
      (bench.step i).arb.rSel == sel) = true then _ else _)
    rw [hsame, haddress, haccept]
    simp [ArbBench.step, MasterLog.next, AxilArb2.masterPort, hnot]
  · rw [hsame, hdata, hvalid]
    simp [ArbBench.step, MasterLog.next, AxilArb2.masterPort, hnot]

theorem OwnReads.step {sel : Bool} (hown : bench.OwnReads sel) (hgranted : bench.Granted)
    {i : ArbIn params} (hholds : bench.Holds i) : (bench.step i).OwnReads sel := by
  by_cases hsel : bench.arb.rBusy = true ∧ bench.arb.rSel = sel
  · obtain ⟨hbusy, hsel⟩ := hsel
    rw [← hsel] at hown ⊢
    exact hown.step_owner hgranted hbusy hholds
  · exact hown.step_other (fun hbusy heq => hsel ⟨hbusy, heq⟩) hgranted i

/-- A new grant goes to a master with an address on offer. -/
theorem write_grant (i : ArbIn params) (hbusy : bench.arb.wBusy = false)
    (hnext : (bench.step i).arb.wBusy = true) :
    ((bench.step i).log (bench.step i).arb.wSel).awAsked ≠ none := by
  have hoffer : (i.m0.awvalid || i.m1.awvalid) = true := by
    simpa [ArbBench.step, AxilArb2.clkEdge, hbusy] using hnext
  cases h0 : i.m0.awvalid with
  | true =>
      simp [ArbBench.step, AxilArb2.clkEdge, MasterLog.next, AxilArb2.masterPort, AxilArb2.wG,
        ArbIn.master, hbusy, h0]
  | false =>
      rw [h0, Bool.false_or] at hoffer
      simp [ArbBench.step, AxilArb2.clkEdge, MasterLog.next, AxilArb2.masterPort, AxilArb2.wG,
        ArbIn.master, hbusy, h0, hoffer]

theorem read_grant (i : ArbIn params) (hbusy : bench.arb.rBusy = false)
    (hnext : (bench.step i).arb.rBusy = true) :
    ((bench.step i).log (bench.step i).arb.rSel).arAsked ≠ none := by
  have hoffer : (i.m0.arvalid || i.m1.arvalid) = true := by
    simpa [ArbBench.step, AxilArb2.clkEdge, hbusy] using hnext
  cases h0 : i.m0.arvalid with
  | true =>
      simp [ArbBench.step, AxilArb2.clkEdge, MasterLog.next, AxilArb2.masterPort, AxilArb2.rG,
        ArbIn.master, hbusy, h0]
  | false =>
      rw [h0, Bool.false_or] at hoffer
      simp [ArbBench.step, AxilArb2.clkEdge, MasterLog.next, AxilArb2.masterPort, AxilArb2.rG,
        ArbIn.master, hbusy, h0, hoffer]

/-- A write grant is given back with the response, and then nothing is under way. -/
theorem wBusy_step (i : ArbIn params) (hbusy : bench.arb.wBusy = true) :
    (bench.step i).arb.wBusy = !bench.csr.regs.bTake (bench.arb.slaveBus i) := by
  by_cases htake : bench.csr.regs.bTake (bench.arb.slaveBus i) = true
  · rw [htake]
    rw [AxiliteRegs.bTake] at htake
    simp [ArbBench.step, AxilArb2.clkEdge, hbusy, AxiliteRegs.port, htake]
  · rw [Bool.eq_false_iff.mpr htake]
    rw [AxiliteRegs.bTake] at htake
    simp [ArbBench.step, AxilArb2.clkEdge, hbusy, AxiliteRegs.port, htake]

theorem rBusy_step (i : ArbIn params) (hbusy : bench.arb.rBusy = true) :
    (bench.step i).arb.rBusy = !bench.csr.regs.rTake (bench.arb.slaveBus i) := by
  by_cases htake : bench.csr.regs.rTake (bench.arb.slaveBus i) = true
  · rw [htake]
    rw [AxiliteRegs.rTake] at htake
    simp [ArbBench.step, AxilArb2.clkEdge, hbusy, AxiliteRegs.port, htake]
  · rw [Bool.eq_false_iff.mpr htake]
    rw [AxiliteRegs.rTake] at htake
    simp [ArbBench.step, AxilArb2.clkEdge, hbusy, AxiliteRegs.port, htake]

/-- The write grant, one edge on. -/
theorem Granted.write_step (hgranted : bench.Granted) (honce : bench.csr.WritesOnce)
    {i : ArbIn params} (hholds : bench.Holds i) :
    ((bench.step i).csr.regs.awLatched = true ∨ (bench.step i).csr.regs.wLatched = true ∨
        (bench.step i).csr.regs.bvalid = true → (bench.step i).arb.wBusy = true) ∧
      ((bench.step i).arb.wBusy = true → (bench.step i).csr.regs.awLatched = true ∨
        (bench.step i).csr.regs.bvalid = true ∨
        ((bench.step i).log (bench.step i).arb.wSel).awAsked ≠ none) := by
  obtain ⟨hawvalid, hwvalid, -⟩ := mux_write bench.arb i
  have hawReady := honce.awReady
  have hwReady := honce.wReady
  have hregs : (bench.step i).csr.regs.toCsrWriteChannel =
      bench.csr.regs.nextWrite (bench.arb.slaveBus i) := rfl
  cases hbusy : bench.arb.wBusy with
  | false =>
      have hnone : ¬(bench.csr.regs.awLatched = true ∨ bench.csr.regs.wLatched = true ∨
          bench.csr.regs.bvalid = true) := fun hsome =>
        Bool.false_ne_true (hbusy.symm.trans (hgranted.write hsome))
      simp only [not_or, Bool.not_eq_true] at hnone
      obtain ⟨haw, hw, hb⟩ := hnone
      rw [hbusy, Bool.false_and] at hawvalid hwvalid
      constructor
      · intro hsome
        simp [hregs, AxiliteRegs.nextWrite, AxiliteRegs.executes, AxiliteRegs.awTake,
          AxiliteRegs.wTake, AxiliteRegs.bTake, haw, hw, hb, hawvalid, hwvalid] at hsome
      · intro hnext
        exact Or.inr (Or.inr (write_grant i hbusy hnext))
  | true =>
      rw [wBusy_step i hbusy, wSel_step i hbusy]
      rw [hbusy, Bool.true_and] at hawvalid
      cases htake : bench.csr.regs.bTake (bench.arb.slaveBus i) with
      | true =>
          have hvalid := htake
          rw [AxiliteRegs.bTake, Bool.and_eq_true] at hvalid
          obtain ⟨haw, hw⟩ := honce.quiet hvalid.1
          constructor
          · intro hsome
            simp [hregs, AxiliteRegs.nextWrite, AxiliteRegs.executes, AxiliteRegs.awTake,
              AxiliteRegs.wTake, haw, hw, htake, hvalid.1, hawReady, hwReady] at hsome
          · intro hnext
            exact absurd hnext (by decide)
      | false =>
          constructor
          · intro _
            rfl
          · intro _
            by_cases hfire : bench.csr.regs.executes = true
            · right
              left
              simp [hregs, AxiliteRegs.nextWrite, htake, hfire]
            · rcases hgranted.writeHeld hbusy with haw | hb | hasked
              · left
                simp [hregs, AxiliteRegs.nextWrite, hfire, haw]
              · right
                left
                simp [hregs, AxiliteRegs.nextWrite, htake, hb]
              · obtain ⟨addr, hasked⟩ := Option.ne_none_iff_exists'.mp hasked
                have hoffer := ((hholds bench.arb.wSel).1 addr hasked).1
                cases hready : bench.csr.regs.awReadyR with
                | true =>
                    left
                    simp [hregs, AxiliteRegs.nextWrite, hfire, AxiliteRegs.awTake, hawvalid,
                      hoffer, hready]
                | false =>
                    right
                    right
                    simp [ArbBench.step, MasterLog.next, AxilArb2.masterPort,
                      AxiliteRegs.port, hready, hoffer]

/-- The read grant, one edge on. -/
theorem Granted.read_step (hgranted : bench.Granted) {i : ArbIn params}
    (hholds : bench.Holds i) :
    ((bench.step i).csr.regs.rvalid = true → (bench.step i).arb.rBusy = true) ∧
      ((bench.step i).arb.rBusy = true → (bench.step i).csr.regs.rvalid = true ∨
        ((bench.step i).log (bench.step i).arb.rSel).arAsked ≠ none) ∧
      ((bench.step i).csr.regs.arready = true → (bench.step i).csr.regs.rvalid = true ∧
        ((bench.step i).log (bench.step i).arb.rSel).arAsked ≠ none) := by
  have hregs : (bench.step i).csr.regs.toCsrReadChannel =
      bench.csr.regs.nextRead (bench.arb.slaveBus i) i.status := rfl
  by_cases haccept : bench.csr.regs.arAccept (bench.arb.slaveBus i) = true
  · obtain ⟨hbusy, harvalid, -, hrvalid, harready⟩ := arAccept_granted haccept
    have htake : bench.csr.regs.rTake (bench.arb.slaveBus i) = false := by
      rw [AxiliteRegs.rTake, hrvalid, Bool.false_and]
    have hvalid : (bench.step i).csr.regs.rvalid = true := by
      simp [hregs, AxiliteRegs.nextRead, htake, haccept]
    rw [rBusy_step i hbusy, rSel_step i hbusy, htake]
    refine ⟨fun _ => rfl, fun _ => Or.inl hvalid, fun _ => ⟨hvalid, ?_⟩⟩
    simp [ArbBench.step, MasterLog.next, AxilArb2.masterPort, AxiliteRegs.port, harready,
      harvalid]
  · have hquiet : (bench.step i).csr.regs.arready = false :=
      Bool.eq_false_iff.mpr haccept
    have hnext : (bench.step i).csr.regs.rvalid =
        if bench.csr.regs.rTake (bench.arb.slaveBus i) then false
        else bench.csr.regs.rvalid := by
      simp [hregs, AxiliteRegs.nextRead, haccept]
    rw [hnext, hquiet]
    cases hbusy : bench.arb.rBusy with
    | false =>
        have hnone : bench.csr.regs.rvalid = false := by
          by_contra hset
          rw [Bool.not_eq_false] at hset
          exact Bool.false_ne_true (hbusy.symm.trans (hgranted.read hset))
        refine ⟨?_, fun hgrant => Or.inr (read_grant i hbusy hgrant), ?_⟩
        · intro hset
          simp [hnone] at hset
        · intro hset
          exact absurd hset Bool.false_ne_true
    | true =>
        rw [rBusy_step i hbusy, rSel_step i hbusy]
        refine ⟨?_, ?_, fun hset => absurd hset Bool.false_ne_true⟩
        · intro hset
          cases htake : bench.csr.regs.rTake (bench.arb.slaveBus i) with
          | true => simp [htake] at hset
          | false => rfl
        · intro hkept
          rw [Bool.not_eq_true'] at hkept
          rw [hkept, if_neg Bool.false_ne_true]
          rcases hgranted.readHeld hbusy with hset | hasked
          · exact Or.inl hset
          · by_cases hset : bench.csr.regs.rvalid = true
            · exact Or.inl hset
            · obtain ⟨addr, hasked⟩ := Option.ne_none_iff_exists'.mp hasked
              have hoffer := ((hholds bench.arb.rSel).2 addr hasked).1
              have harready : bench.csr.regs.arready = false := by
                by_contra hready
                rw [Bool.not_eq_false] at hready
                exact hset (hgranted.answering hready).1
              right
              simp [ArbBench.step, MasterLog.next, AxilArb2.masterPort, AxiliteRegs.port,
                harready, hoffer]

theorem Shared.step (hshared : bench.Shared) (honce : bench.csr.WritesOnce)
    {i : ArbIn params} (hholds : bench.Holds i) : (bench.step i).Shared := by
  obtain ⟨hwrites, hreads, hgranted, hexecuted, hanswered, -⟩ := hshared
  obtain ⟨hwrite, hwriteHeld⟩ := hgranted.write_step honce hholds
  obtain ⟨hread, hreadHeld, hanswering⟩ := hgranted.read_step hholds
  refine ⟨fun sel => (hwrites sel).step hgranted honce i,
    fun sel => (hreads sel).step hgranted hholds,
    ⟨hwrite, hwriteHeld, hread, hreadHeld, hanswering⟩, ?_, ?_, ?_⟩
  · simp only [ArbBench.step, CsrBench.step]
    split
    · rw [hexecuted, List.map_append]
      rfl
    · exact hexecuted
  · by_cases haccept : bench.csr.regs.arAccept (bench.arb.slaveBus i) = true
    · simp [ArbBench.step, CsrBench.step, slaveIn, haccept, hanswered]
    · simpa [ArbBench.step, CsrBench.step, slaveIn, haccept] using hanswered
  · exact (honce.step (bench.slaveIn i)).prompt

/-- Two masters, each as if alone, for every interleaving of their handshakes. -/
theorem shared_run {cycles : List (ArbIn params)} (hholds : Along step Holds start cycles) :
    (runFrom step start cycles).Shared := by
  have hinv : ∀ (bench : ArbBench params) i, bench.Holds i →
      (bench.Shared ∧ bench.csr.WritesOnce) →
      ((bench.step i).Shared ∧ (bench.step i).csr.WritesOnce) := by
    rintro bench i hholds ⟨hshared, honce⟩
    exact ⟨hshared.step honce hholds, honce.step (bench.slaveIn i)⟩
  have hstart : (start : ArbBench params).Shared ∧
      (start : ArbBench params).csr.WritesOnce := by
    refine ⟨⟨?_, ?_, ⟨?_, ?_, ?_, ?_, ?_⟩, rfl, rfl, ?_⟩, ⟨rfl, rfl, ?_, ?_, rfl, rfl, rfl⟩⟩
    · intro sel
      exact ⟨rfl, rfl, rfl⟩
    · intro sel
      exact ⟨rfl, rfl⟩
    all_goals simp [start, AxilArb2.reset, CsrBench.start, AxiliteRegs.reset]
  exact (invariant_along hinv hstart hholds).1

instance (bench : ArbBench params) (i : ArbIn params) : Decidable (bench.Holds i) :=
  inferInstanceAs (Decidable (∀ sel, (∀ addr ∈ (bench.log sel).awAsked, _ ∧ _) ∧
    ∀ addr ∈ (bench.log sel).arAsked, _ ∧ _))

/-- Master 0 writes `SCRATCH` while master 1 asks for a write of `IP_ADDR` and a read of
`SCRATCH`. -/
def mixedCycles : List (ArbIn IrqBench.csrParams) :=
  let quiet := IrqBench.quietStatus false
  let write : AxilMaster 8 := ⟨0x3C, true, 0x11, 0xF, true, true, 0, false, true⟩
  let other : AxilMaster 8 := ⟨0x40, true, 0x22, 0xF, true, true, 0x3C, true, true⟩
  let rest : AxilMaster 8 := ⟨0, false, 0, 0, false, true, 0, false, true⟩
  [⟨write, other, quiet⟩, ⟨write, other, quiet⟩, ⟨rest, other, quiet⟩,
    ⟨rest, { other with arvalid := false }, quiet⟩,
    ⟨rest, { other with arvalid := false }, quiet⟩,
    ⟨rest, { other with arvalid := false }, quiet⟩, ⟨rest, rest, quiet⟩]

theorem shared_run_mixed :
    (runFrom step start mixedCycles).Shared ∧
      (runFrom step start mixedCycles).executed.map Prod.fst = [false, true] :=
  ⟨shared_run (by decide +kernel), by decide +kernel⟩

end ArbBench

end EmacZero
