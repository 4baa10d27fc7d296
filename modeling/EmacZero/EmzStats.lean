/-
The statistics of the `emaczero` driver: 64-bit totals of the MAC's 32-bit counters, which
`emz_stats_fold` adds up and clears a group at a time.  A cycle is an edge of the MAC's
clock with at most one register access of the driver.
-/
import EmacZero.EmzMcast
import EmacZero.MacCounters

namespace EmacZero

inductive EmzStatGroup where
  | tx | rx | pause
deriving Repr, DecidableEq

/-- `emz_stat_clear` -/
def emzStatClear : EmzStatGroup → BitVec 16
  | .tx => 0x28
  | .rx => 0x7c
  | .pause => 0x8c

/-- An entry of `emz_hw_stats`. -/
structure EmzHwStat where
  reg : BitVec 16
  group : EmzStatGroup
deriving Repr, DecidableEq

def emzHwStats : List EmzHwStat :=
  [⟨0x28, .tx⟩, ⟨0x2c, .tx⟩, ⟨0x30, .rx⟩, ⟨0x34, .rx⟩, ⟨0x38, .rx⟩, ⟨0x4c, .rx⟩, ⟨0x50, .rx⟩,
    ⟨0x54, .rx⟩, ⟨0x58, .rx⟩, ⟨0x5c, .rx⟩, ⟨0x60, .rx⟩, ⟨0x64, .rx⟩, ⟨0x68, .rx⟩, ⟨0x6c, .rx⟩,
    ⟨0x70, .rx⟩, ⟨0x74, .rx⟩, ⟨0x78, .rx⟩, ⟨0x7c, .rx⟩, ⟨0x80, .rx⟩, ⟨0x8c, .pause⟩,
    ⟨0x90, .pause⟩]

/-- An index below `EMZ_NR_STATS`. -/
abbrev EmzStat := Fin emzHwStats.length

/-- `EMZ_STAT_FOLD` -/
def emzStatFold : BitVec 32 := 0x80000000

/-- `emz_wr`: the pulses that the register block raises at the edge that executes the write. -/
def emzWrPulses (status : CsrStatus) (reg : BitVec 8) (val : BitVec 32) : CsrPulses :=
  match csrOf reg with
  | some csr => .ofWrite csr val 0xF status.mdioBusy
  | none => .none

section Port

variable {params : AxiliteParams} {regs : AxiliteRegs params} {bus : AxilMaster params.addrWidth}
  {status : CsrStatus} {reg : BitVec 8}

/-- A read answers with what the register shows at the edge that accepts it. -/
theorem emzRd_rdata (haccept : regs.arAccept bus = true)
    (haddr : csrOf bus.araddr = csrOf reg) :
    (regs.clkEdge bus status).rdata = emzRd params status regs.file reg := by
  change (if regs.arAccept bus then regs.answer status bus.araddr else regs.rdata) = _
  rw [haccept, if_pos rfl, AxiliteRegs.answer, haddr]
  rfl

/-- The pulses of a write are up in the cycle in which its response comes, and gone in the
one after. -/
theorem emzWrPulses_clkEdge (hexecutes : regs.executes = true) (hstrb : regs.wStrb = 0xF)
    (haddr : csrOf regs.awAddr = csrOf reg) :
    (regs.clkEdge bus status).pulses = emzWrPulses status reg regs.wData ∧ regs.bvalid = false ∧
      ∀ bus' status', ((regs.clkEdge bus status).clkEdge bus' status').pulses = .none := by
  have hwrite : (regs.clkEdge bus status).pulses = emzWrPulses status reg regs.wData := by
    change regs.nextPulses status = _
    rw [AxiliteRegs.nextPulses, hexecutes, if_pos rfl, AxiliteRegs.wrCsr, haddr, hstrb]
    rfl
  have hbefore : regs.bvalid = false := by
    rw [AxiliteRegs.executes, Bool.and_eq_true, Bool.not_eq_true'] at hexecutes
    exact hexecutes.2
  refine ⟨hwrite, hbefore, fun bus' status' => ?_⟩
  change (regs.clkEdge bus status).nextPulses status' = _
  have hlatched : (regs.clkEdge bus status).awLatched = false := by
    change (if regs.executes then false else _) = false
    rw [hexecutes, if_pos rfl]
  rw [AxiliteRegs.nextPulses, AxiliteRegs.executes, hlatched]
  rfl

end Port

/-- A register access of the driver. -/
inductive EmzAccess where
  | check (i : EmzStat)
  | add (i : EmzStat)
  | clear (group : EmzStatGroup)
  | total (i : EmzStat)
deriving Repr, DecidableEq

/-- `emz_stats_fold` as far as it has come: the loop that looks for counters past
`EMZ_STAT_FOLD`, or what is left of the loop that folds groups. `stats_lock` is free when
nothing is left. -/
inductive EmzFold where
  | scan (i : EmzStat) (fold : EmzStatGroup → Bool)
  | apply (left : List EmzAccess)

/-- The accesses that fold one group: its counters from the last to the first, and the
clear. -/
def emzFoldGroup (group : EmzStatGroup) : List EmzAccess :=
  ((List.finRange emzHwStats.length).reverse.filter
    fun i => (emzHwStats.get i).group = group).map .add ++ [.clear group]

def emzFoldLeft (fold : EmzStatGroup → Bool) : List EmzAccess :=
  [.tx, .rx, .pause].flatMap fun group => if fold group then emzFoldGroup group else []

/-- What the driver does in a cycle: nothing, a call, or the next access of the fold. -/
inductive EmzStatsCall where
  | wait
  | fold
  | total (i : EmzStat)
  | go
deriving Repr, DecidableEq

/-- A cycle: what the counters count, what else the register block reads, and the driver. -/
structure EmzStatsIn where
  hw : MacCountersIn
  file : CsrFile
  status : CsrStatus
  call : EmzStatsCall
deriving Repr, DecidableEq

/-- A total that has been returned, with the events of its counter until then and those of
them that fell between a read and the clear of its group in some fold. -/
structure EmzTotal where
  stat : EmzStat
  value : BitVec 64
  events : Nat
  lost : Nat
deriving Repr, DecidableEq

/-- The MAC's counters, the driver, and what has happened to each counter: its events, those
of them that fell between a read and a clear, and whether it is between the two. -/
structure EmzStatsBench where
  counters : MacCounters
  pulses : CsrPulses
  fold : EmzFold
  statsAcc : EmzStat → BitVec 64
  events : EmzStat → Nat
  lost : EmzStat → Nat
  opened : EmzStat → Bool
  returned : List EmzTotal

/-- The counter of an entry. -/
def emzStatCounter (i : EmzStat) : Option MacCounter :=
  (csrOf ((emzHwStats.get i).reg.setWidth 8)).bind Csr.counter

namespace EmzStatsBench

/-- The driver has cleared the counters: what they hold has come since. -/
def start (counters : MacCounters) : EmzStatsBench where
  counters := counters
  pulses := .none
  fold := .apply []
  statsAcc := fun _ => 0
  events := fun i => (emzStatCounter i).elim 0 fun counter => (counter.cnt counters).toNat
  lost := fun _ => 0
  opened := fun _ => false
  returned := []

section Step

variable (params : AxiliteParams) (bench : EmzStatsBench) (i : EmzStatsIn)

/-- The access of this cycle. The one after a write waits for its response. -/
def access : Option EmzAccess :=
  if bench.pulses = .none then
    match bench.fold, i.call with
    | .scan stat _, .go => some (.check stat)
    | .apply (op :: _), .go => some op
    | .apply [], .total stat => some (.total stat)
    | _, _ => none
  else none

/-- What a read of the entry's register answers. -/
def read (stat : EmzStat) : BitVec 32 :=
  emzRd params (bench.counters.status i.status) i.file ((emzHwStats.get stat).reg.setWidth 8)

/-- `emz_stats_fold` -/
def nextFold : EmzFold :=
  match bench.fold with
  | .scan stat fold =>
      if bench.access i = none then .scan stat fold
      else
        let group := (emzHwStats.get stat).group
        let fold :=
          if emzStatFold ≤ bench.read params i stat then Function.update fold group true else fold
        if hmore : stat.val + 1 < emzHwStats.length then .scan ⟨stat.val + 1, hmore⟩ fold
        else .apply (emzFoldLeft fold)
  | .apply [] => if i.call = .fold then .scan ⟨0, by decide⟩ fun _ => false else .apply []
  | .apply (op :: left) => if bench.access i = none then .apply (op :: left) else .apply left

def nextAcc (stat : EmzStat) : BitVec 64 :=
  if bench.access i = some (.add stat) then
    bench.statsAcc stat + (bench.read params i stat).setWidth 64
  else bench.statsAcc stat

def nextPulses : CsrPulses :=
  match bench.access i with
  | some (.clear group) => emzWrPulses i.status ((emzStatClear group).setWidth 8) 0
  | _ => .none

/-- `emz_stat_total` -/
def emzStatTotal (stat : EmzStat) : BitVec 64 :=
  bench.statsAcc stat + (bench.read params i stat).setWidth 64

def nextReturned : List EmzTotal :=
  match bench.access i with
  | some (.total stat) =>
      bench.returned ++
        [⟨stat, bench.emzStatTotal params i stat, bench.events stat, bench.lost stat⟩]
  | _ => bench.returned

/-- What the counter of an entry holds, and the events that arrive for it. -/
def count (stat : EmzStat) : Nat :=
  (emzStatCounter stat).elim 0 fun counter => (counter.cnt bench.counters).toNat

def arrived (stat : EmzStat) : Nat :=
  (emzStatCounter stat).elim 0 fun counter => counter.events i.hw

/-- The counter is being cleared. -/
def clears (stat : EmzStat) : Bool :=
  (emzStatCounter stat).elim false fun counter => counter.clr bench.pulses

/-- The counter has been read, now or before, and is not cleared yet. -/
def openedNow (stat : EmzStat) : Bool :=
  bench.opened stat || decide (bench.access i = some (.add stat))

def step : EmzStatsBench where
  counters := bench.counters.clkEdge bench.pulses i.hw
  pulses := bench.nextPulses i
  fold := bench.nextFold params i
  statsAcc := bench.nextAcc params i
  events := fun stat => bench.events stat + arrived i stat
  lost := fun stat => bench.lost stat + if bench.openedNow i stat then arrived i stat else 0
  opened := fun stat => if bench.clears stat then false else bench.openedNow i stat
  returned := bench.nextReturned params i

/-- No counter goes past its maximum before a fold has read it. -/
def Unsaturated : Prop :=
  ∀ stat, bench.openedNow i stat = true ∨ bench.count stat + arrived i stat < 2 ^ 32

instance : Decidable (bench.Unsaturated i) := inferInstanceAs (Decidable (∀ _, _ ∨ _))

end Step

end EmzStatsBench

end EmacZero
