/-
`arty_tx_arbiter`: six streams of frames taken in turn by priority, through a slice
of one byte, and when the frames come out whole.
-/
import Mathlib.Data.BitVec
import Mathlib.Data.List.Basic
import EmacZero.ClockedRun
import EmacZero.FrameLog

namespace EmacZero

/-- `OWN_SEQ` to `OWN_STATS`; no owner is `OWN_NONE`. -/
inductive ArtySource where
  | seq | arp | icmp | stats | udp | blast
deriving Repr, DecidableEq

/-- What a source offers in one cycle. -/
structure AxisOffer where
  tdata : BitVec 8
  tvalid : Bool
  tlast : Bool
deriving Repr, DecidableEq

structure ArtyTxIn where
  arpTxActive : Bool
  seq : AxisOffer
  arp : AxisOffer
  icmp : AxisOffer
  stats : AxisOffer
  udp : AxisOffer
  blast : AxisOffer
  mAxisTready : Bool
deriving Repr, DecidableEq

def ArtyTxIn.offer (i : ArtyTxIn) : ArtySource → AxisOffer
  | .seq => i.seq
  | .arp => i.arp
  | .icmp => i.icmp
  | .stats => i.stats
  | .udp => i.udp
  | .blast => i.blast

/-- `BLAST_SERVICE_INTERVAL` and `BLAST_SERVICE_IDLE_CYCLES`. -/
structure ArtyTxParams where
  blastServiceInterval : BitVec 8
  blastServiceIdleCycles : BitVec 12

structure ArtyTxArbiter where
  txOwner : Option ArtySource
  blastServiceFrameCnt : BitVec 8
  blastServiceHoldoff : BitVec 12
  mTdataR : BitVec 8
  mTvalidR : Bool
  mTlastR : Bool
deriving Repr, DecidableEq

namespace ArtyTxArbiter

def reset : ArtyTxArbiter := ⟨none, 0, 0, 0, false, false⟩

section Edge

variable (params : ArtyTxParams) (arb : ArtyTxArbiter) (i : ArtyTxIn)

def blastServiceSlot : Bool := arb.blastServiceHoldoff != 0

/-- `seq_req` to `blast_req`, the first that is high. -/
def select : Option ArtySource :=
  if i.arpTxActive && i.seq.tvalid then some .seq
  else if !i.arpTxActive && i.arp.tvalid then some .arp
  else if !i.arpTxActive && i.icmp.tvalid then some .icmp
  else if !i.arpTxActive && i.stats.tvalid then some .stats
  else if !i.arpTxActive && i.udp.tvalid then some .udp
  else if !i.arpTxActive && !arb.blastServiceSlot && i.blast.tvalid then some .blast
  else none

/-- `tx_owner_next` -/
def txOwnerNext : Option ArtySource :=
  match arb.txOwner with
  | none => arb.select i
  | some owner => some owner

def outputFrameDone : Bool := arb.mTvalidR && i.mAxisTready && arb.mTlastR

/-- `mux_tdata`, `mux_tvalid` and `mux_tlast`. -/
def mux : AxisOffer :=
  match arb.txOwnerNext i with
  | some owner => i.offer owner
  | none => ⟨0, false, false⟩

def muxTready : Bool := !arb.mTvalidR || i.mAxisTready

/-- `seq_tready` to `blast_tready`. -/
def tready (source : ArtySource) : Bool :=
  arb.txOwnerNext i == some source && arb.muxTready i

/-- A rising edge of `clk`. -/
def clkEdge : ArtyTxArbiter where
  txOwner := if arb.outputFrameDone i then none else arb.txOwnerNext i
  blastServiceFrameCnt :=
    if arb.outputFrameDone i && arb.txOwnerNext i == some .blast then
      if arb.blastServiceFrameCnt = params.blastServiceInterval then 0
      else arb.blastServiceFrameCnt + 1
    else arb.blastServiceFrameCnt
  blastServiceHoldoff :=
    if arb.outputFrameDone i then
      if arb.txOwnerNext i == some .blast &&
          arb.blastServiceFrameCnt == params.blastServiceInterval then
        params.blastServiceIdleCycles
      else arb.blastServiceHoldoff
    else if arb.blastServiceHoldoff != 0 then arb.blastServiceHoldoff - 1
    else arb.blastServiceHoldoff
  mTdataR := if arb.muxTready i then (arb.mux i).tdata else arb.mTdataR
  mTvalidR := if arb.muxTready i then (arb.mux i).tvalid else arb.mTvalidR
  mTlastR := if arb.muxTready i then (arb.mux i).tlast else arb.mTlastR

end Edge

end ArtyTxArbiter

/-- The arbiter, the frames that each source has handed over and those that have left.
`loose` is the source whose byte was taken in the cycle that released the owner, if the
byte opens a frame and nobody has been selected since. -/
structure ArtyTxBench where
  arb : ArtyTxArbiter
  given : ArtySource → FrameLog (BitVec 8)
  sent : FrameLog (BitVec 8)
  loose : Option ArtySource

namespace ArtyTxBench

def start : ArtyTxBench := ⟨.reset, fun _ => .empty, .empty, none⟩

section Step

variable (params : ArtyTxParams) (bench : ArtyTxBench) (i : ArtyTxIn)

/-- A source after its cycle: a handshake, or none. -/
def handed (source : ArtySource) : FrameLog (BitVec 8) :=
  if bench.arb.tready i source && (i.offer source).tvalid then
    (bench.given source).add (i.offer source).tdata (i.offer source).tlast
  else bench.given source

def step : ArtyTxBench where
  arb := bench.arb.clkEdge params i
  given := bench.handed i
  sent :=
    if bench.arb.mTvalidR && i.mAxisTready then
      bench.sent.add bench.arb.mTdataR bench.arb.mTlastR
    else bench.sent
  loose :=
    if bench.arb.outputFrameDone i then
      if (bench.arb.mux i).tvalid && !(bench.arb.mux i).tlast then bench.arb.txOwnerNext i
      else none
    else if (bench.arb.txOwnerNext i).isSome then none
    else bench.loose

/-- What has gone through the multiplexer: what has left, and the byte in the slice. -/
def loaded : FrameLog (BitVec 8) :=
  if bench.arb.mTvalidR then bench.sent.add bench.arb.mTdataR bench.arb.mTlastR
  else bench.sent

/-- The source of a frame begun while the owner was released is the next selected. -/
def Returns : Prop :=
  ∀ source ∈ bench.loose, ∀ owner ∈ bench.arb.txOwnerNext i, owner = source

instance : Decidable (bench.Returns i) :=
  inferInstanceAs (Decidable (∀ source ∈ bench.loose, _))

end Step

end ArtyTxBench

/-- The frames that came from one source. -/
def framesFrom {α : Type} (source : ArtySource) (order : List ArtySource)
    (frames : List (List α)) : List (List α) :=
  ((order.zip frames).filter fun frame => frame.1 == source).map Prod.snd

namespace ArtyTxBench

/-- The frames are whole frames of the sources, each frame of each source once and in
its order, and the frame that is not complete is that of one source. -/
def Sequential (bench : ArtyTxBench) : Prop :=
  ∃ order : List ArtySource, order.length = bench.loaded.whole.length ∧
    (∀ source, (bench.given source).whole = framesFrom source order bench.loaded.whole) ∧
    ∃ owner, (bench.given owner).part = bench.loaded.part ∧
      ∀ source, source ≠ owner → (bench.given source).part = []

theorem framesFrom_concat {α : Type} {order : List ArtySource} {frames : List (List α)}
    (hlength : order.length = frames.length) (source owner : ArtySource) (frame : List α) :
    framesFrom source (order ++ [owner]) (frames ++ [frame]) =
      framesFrom source order frames ++ if owner = source then [frame] else [] := by
  rw [framesFrom, List.zip_append hlength, List.filter_append, List.map_append, framesFrom]
  by_cases hsame : owner = source
  · simp [hsame]
  · simp [hsame]

/-- Only the source of the frame that is not complete can be selected. -/
structure Held (bench : ArtyTxBench) (owner : ArtySource) : Prop where
  same : (bench.given owner).part = bench.loaded.part
  others : ∀ source, source ≠ owner → (bench.given source).part = []
  kept : bench.loaded.part ≠ [] →
    bench.arb.txOwner = some owner ∨ bench.arb.txOwner = none ∧ bench.loose = some owner

/-- `Sequential`, and the frame that is not complete holds the multiplexer. -/
def Guarded (bench : ArtyTxBench) : Prop :=
  ∃ order : List ArtySource, order.length = bench.loaded.whole.length ∧
    (∀ source, (bench.given source).whole = framesFrom source order bench.loaded.whole) ∧
    ∃ owner, bench.Held owner

variable {params : ArtyTxParams} {bench : ArtyTxBench} {i : ArtyTxIn}

theorem Guarded.sequential (hguarded : bench.Guarded) : bench.Sequential := by
  obtain ⟨order, hlength, hwhole, owner, hheld⟩ := hguarded
  exact ⟨order, hlength, hwhole, owner, hheld.same, hheld.others⟩

theorem guarded_start : start.Guarded :=
  ⟨[], rfl, fun _ => rfl, .seq, rfl, fun _ _ => rfl, fun hne => absurd rfl hne⟩

/-- The slice takes what the multiplexer offers when it is free. -/
theorem loaded_step : (bench.step params i).loaded =
    if bench.arb.muxTready i && (bench.arb.mux i).tvalid then
      bench.loaded.add (bench.arb.mux i).tdata (bench.arb.mux i).tlast
    else bench.loaded := by
  cases hfull : bench.arb.mTvalidR <;> cases htaken : i.mAxisTready <;>
    simp [loaded, step, ArtyTxArbiter.clkEdge, ArtyTxArbiter.muxTready, hfull, htaken]

/-- A cycle in which a byte of the selected source is taken. -/
theorem step_taken {owner : ArtySource} (hnext : bench.arb.txOwnerNext i = some owner)
    (hready : bench.arb.muxTready i = true) (hvalid : (i.offer owner).tvalid = true) :
    (bench.step params i).loaded =
        bench.loaded.add (i.offer owner).tdata (i.offer owner).tlast ∧
      (bench.step params i).given owner =
        (bench.given owner).add (i.offer owner).tdata (i.offer owner).tlast ∧
      ∀ source, source ≠ owner → (bench.step params i).given source = bench.given source := by
  have hmux : bench.arb.mux i = i.offer owner := by rw [ArtyTxArbiter.mux, hnext]
  refine ⟨?_, ?_, ?_⟩
  · rw [loaded_step, hmux, hready, hvalid]
    rfl
  · simp [step, handed, ArtyTxArbiter.tready, hnext, hready, hvalid]
  · intro source hne
    have hother : owner ≠ source := fun heq => hne heq.symm
    simp [step, handed, ArtyTxArbiter.tready, hnext, hother]

/-- A cycle in which nothing is taken. -/
theorem step_waiting
    (hwaits : ∀ owner, bench.arb.txOwnerNext i = some owner →
      bench.arb.muxTready i = true → (i.offer owner).tvalid = false) :
    (bench.step params i).loaded = bench.loaded ∧
      (bench.step params i).given = bench.given := by
  constructor
  · rw [loaded_step, if_neg]
    rw [Bool.and_eq_true]
    rintro ⟨hready, hvalid⟩
    cases hnext : bench.arb.txOwnerNext i with
    | none => simp [ArtyTxArbiter.mux, hnext] at hvalid
    | some owner =>
        rw [ArtyTxArbiter.mux, hnext] at hvalid
        rw [hwaits owner hnext hready] at hvalid
        exact Bool.noConfusion hvalid
  · funext source
    apply if_neg
    simp only [ArtyTxArbiter.tready, Bool.and_eq_true, beq_iff_eq]
    rintro ⟨⟨hnext, hready⟩, hvalid⟩
    rw [hwaits source hnext hready] at hvalid
    exact Bool.noConfusion hvalid

/-- The last byte of a frame leaves nothing open. -/
theorem part_of_done (hdone : bench.arb.outputFrameDone i = true) : bench.loaded.part = [] := by
  simp only [ArtyTxArbiter.outputFrameDone, Bool.and_eq_true] at hdone
  obtain ⟨⟨hvalid, -⟩, hlast⟩ := hdone
  simp [loaded, hvalid, hlast, FrameLog.add]

/-- Whoever is selected while a frame is open is its source. -/
theorem Held.selected {owner other : ArtySource} (hheld : bench.Held owner)
    (hreturns : bench.Returns i) (hopen : bench.loaded.part ≠ [])
    (hnext : bench.arb.txOwnerNext i = some other) : other = owner := by
  rcases hheld.kept hopen with howner | ⟨-, hloose⟩
  · rw [ArtyTxArbiter.txOwnerNext, howner] at hnext
    exact (Option.some_inj.mp hnext).symm
  · exact hreturns owner hloose other hnext

/-- A source whose byte is taken may be said to hold the open frame. -/
theorem Held.taker {owner other : ArtySource} (hheld : bench.Held owner)
    (hreturns : bench.Returns i) (hnext : bench.arb.txOwnerNext i = some other) :
    (bench.given other).part = bench.loaded.part ∧
      ∀ source, source ≠ other → (bench.given source).part = [] := by
  by_cases hopen : bench.loaded.part = []
  · have hnone : ∀ source, (bench.given source).part = [] := by
      intro source
      by_cases hsame : source = owner
      · rw [hsame, hheld.same, hopen]
      · exact hheld.others source hsame
    exact ⟨(hnone other).trans hopen.symm, fun source _ => hnone source⟩
  · rw [hheld.selected hreturns hopen hnext]
    exact ⟨hheld.same, hheld.others⟩

theorem Held.waiting {owner : ArtySource} (hheld : bench.Held owner)
    (hreturns : bench.Returns i)
    (hloaded : (bench.step params i).loaded = bench.loaded)
    (hgiven : (bench.step params i).given = bench.given) :
    (bench.step params i).Held owner := by
  refine ⟨by rw [hgiven, hloaded, hheld.same], by rw [hgiven]; exact hheld.others, ?_⟩
  intro hopen
  rw [hloaded] at hopen
  have hdone : bench.arb.outputFrameDone i = false := by
    rw [← Bool.not_eq_true]
    exact fun hdone => hopen (part_of_done hdone)
  change (if bench.arb.outputFrameDone i then none else bench.arb.txOwnerNext i) = _ ∨ _
  simp only [step, ArtyTxArbiter.clkEdge, hdone, Bool.false_eq_true, if_false]
  cases hnext : bench.arb.txOwnerNext i with
  | some other => exact Or.inl (congrArg some (hheld.selected hreturns hopen hnext))
  | none =>
      rcases hheld.kept hopen with howner | ⟨-, hloose⟩
      · simp [ArtyTxArbiter.txOwnerNext, howner] at hnext
      · exact Or.inr ⟨rfl, hloose⟩

theorem Held.taken {owner : ArtySource} (hnext : bench.arb.txOwnerNext i = some owner)
    (hready : bench.arb.muxTready i = true) (hvalid : (i.offer owner).tvalid = true)
    (hsame : (bench.given owner).part = bench.loaded.part)
    (hothers : ∀ source, source ≠ owner → (bench.given source).part = []) :
    (bench.step params i).Held owner := by
  obtain ⟨hloaded, hgiven, hrest⟩ := @step_taken params bench i owner hnext hready hvalid
  refine ⟨?_, ?_, ?_⟩
  · rw [hgiven, hloaded, FrameLog.add, FrameLog.add, hsame]
    cases (i.offer owner).tlast <;> rfl
  · intro source hne
    rw [hrest source hne]
    exact hothers source hne
  · intro hopen
    have hmux : bench.arb.mux i = i.offer owner := by rw [ArtyTxArbiter.mux, hnext]
    have hlast : (i.offer owner).tlast = false := by
      cases hlast : (i.offer owner).tlast with
      | false => rfl
      | true => simp [hloaded, hlast, FrameLog.add] at hopen
    cases hdone : bench.arb.outputFrameDone i with
    | true =>
        right
        simp [step, ArtyTxArbiter.clkEdge, hdone, hmux, hvalid, hlast, hnext]
    | false =>
        left
        simp [step, ArtyTxArbiter.clkEdge, hdone, hnext]

theorem Guarded.step (hguarded : bench.Guarded) (hreturns : bench.Returns i) :
    (bench.step params i).Guarded := by
  obtain ⟨order, hlength, hwhole, owner, hheld⟩ := hguarded
  by_cases htaken : ∃ other, bench.arb.txOwnerNext i = some other ∧
      bench.arb.muxTready i = true ∧ (i.offer other).tvalid = true
  · obtain ⟨other, hnext, hready, hvalid⟩ := htaken
    obtain ⟨hloaded, hgiven, hrest⟩ := @step_taken params bench i other hnext hready hvalid
    obtain ⟨hsame, hothers⟩ := hheld.taker hreturns hnext
    have hafter := @Held.taken params bench i other hnext hready hvalid hsame hothers
    cases hlast : (i.offer other).tlast with
    | false =>
        refine ⟨order, ?_, ?_, other, hafter⟩
        · rw [hloaded, hlast]
          exact hlength
        · intro source
          rw [hloaded, hlast]
          by_cases heq : source = other
          · rw [heq, hgiven, hlast]
            exact hwhole other
          · rw [hrest source heq]
            exact hwhole source
    | true =>
        refine ⟨order ++ [other], ?_, ?_, other, hafter⟩
        · rw [hloaded, hlast]
          simp [FrameLog.add, hlength]
        · intro source
          rw [hloaded, hlast]
          simp only [FrameLog.add, if_true]
          rw [framesFrom_concat hlength]
          by_cases heq : source = other
          · rw [heq, hgiven, hlast, if_pos rfl, ← hwhole other, ← hsame]
            rfl
          · rw [hrest source heq, if_neg (fun h => heq h.symm), List.append_nil]
            exact hwhole source
  · have hwaits : ∀ other, bench.arb.txOwnerNext i = some other →
        bench.arb.muxTready i = true → (i.offer other).tvalid = false := by
      intro other hnext hready
      rw [← Bool.not_eq_true]
      exact fun hvalid => htaken ⟨other, hnext, hready, hvalid⟩
    obtain ⟨hloaded, hgiven⟩ := @step_waiting params bench i hwaits
    refine ⟨order, ?_, ?_, owner, hheld.waiting hreturns hloaded hgiven⟩
    · rw [hloaded]
      exact hlength
    · intro source
      rw [hloaded, hgiven]
      exact hwhole source

/-- In every run in which the arbiter returns to a source whose frame was begun while
the owner was released, the frames come out whole. -/
theorem whole_run (params : ArtyTxParams) {cycles : List ArtyTxIn}
    (hreturns : Along (step params) Returns start cycles) :
    (runFrom (step params) start cycles).Sequential := by
  have hstep : ∀ (bench : ArtyTxBench) (i : ArtyTxIn), bench.Returns i → bench.Guarded →
      (bench.step params i).Guarded := fun _ _ hreturns hguarded => hguarded.step hreturns
  have hguarded : (runFrom (step params) start cycles).Guarded :=
    invariant_along hstep guarded_start hreturns
  exact hguarded.sequential

/-- What `arp` and `icmp` offer in a cycle, the sink ready. -/
def arpIcmp (arp icmp : AxisOffer) : ArtyTxIn :=
  ⟨false, ⟨0, false, false⟩, arp, icmp, ⟨0, false, false⟩, ⟨0, false, false⟩,
    ⟨0, false, false⟩, true⟩

def noOffer : AxisOffer := ⟨0, false, false⟩

def artyDefaults : ArtyTxParams := ⟨255, 2048⟩

/-- Two frames of one source without a pause, nobody else asking. -/
theorem whole_run_two :
    (runFrom (step artyDefaults) start
      [arpIcmp noOffer ⟨0x11, true, false⟩, arpIcmp noOffer ⟨0x12, true, true⟩,
        arpIcmp noOffer ⟨0x21, true, false⟩, arpIcmp noOffer ⟨0x22, true, true⟩,
        arpIcmp noOffer noOffer]).Sequential :=
  whole_run artyDefaults (by decide)

/-- Every offer stands until it is taken. -/
def offersStand (params : ArtyTxParams) : ArtyTxBench → List ArtyTxIn → Bool
  | bench, i :: j :: rest =>
      ([.seq, .arp, .icmp, .stats, .udp, .blast].all fun source =>
        !(i.offer source).tvalid || bench.arb.tready i source ||
          j.offer source == i.offer source) &&
        offersStand params (bench.step params i) (j :: rest)
  | _, _ => true

/-- The same, and an ARP frame offered in the cycle after the first byte of the second
frame was taken. -/
def arpBetween : List ArtyTxIn :=
  [arpIcmp noOffer ⟨0x11, true, false⟩, arpIcmp noOffer ⟨0x12, true, true⟩,
    arpIcmp noOffer ⟨0x21, true, false⟩, arpIcmp ⟨0xA1, true, false⟩ ⟨0x22, true, true⟩,
    arpIcmp ⟨0xA2, true, true⟩ ⟨0x22, true, true⟩, arpIcmp noOffer ⟨0x22, true, true⟩,
    arpIcmp noOffer ⟨0x22, true, true⟩, arpIcmp noOffer noOffer, arpIcmp noOffer noOffer]

theorem arpBetween_given :
    let bench := runFrom (step artyDefaults) start arpBetween
    offersStand artyDefaults start arpBetween = true ∧
      (bench.given .icmp).whole = [[0x11, 0x12], [0x21, 0x22]] ∧
      (bench.given .arp).whole = [[0xA1, 0xA2]] ∧
      bench.loaded.whole = [[0x11, 0x12], [0x21, 0xA1, 0xA2], [0x22]] := by
  decide

/-- The ARP frame goes out behind the byte, inside the frame that it begins. -/
theorem whole_run_arpBetween :
    ¬ (runFrom (step artyDefaults) start arpBetween).Sequential := by
  rintro ⟨order, -, hwhole, -⟩
  obtain ⟨-, -, hgiven, hloaded⟩ := arpBetween_given
  have harp := hwhole .arp
  rw [hgiven, hloaded] at harp
  have hmem : [0xA1, 0xA2] ∈ framesFrom .arp order
      [[0x11, 0x12], [0x21, 0xA1, 0xA2], [(0x22 : BitVec 8)]] := by
    rw [← harp]
    exact List.mem_singleton_self _
  obtain ⟨frame, hframe, hsnd⟩ := List.mem_map.mp hmem
  have hpicked := (List.of_mem_zip (List.mem_filter.mp hframe).1).2
  rw [hsnd] at hpicked
  revert hpicked
  decide

end ArtyTxBench

end EmacZero
