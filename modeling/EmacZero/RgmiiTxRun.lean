/-
Runs of the transmit path of `rgmii_if` at 10 and 100 Mbit/s behind a source that holds every
byte for its time and keeps the gap, as `gmii_cdc` does: the pins carry the bytes nibble by
nibble, in whatever phase TXC is when a frame starts.
-/
import EmacZero.ClockedRun
import EmacZero.RgmiiTxLine

namespace EmacZero

/-- What the source has shown, the transmitter, and the pins. -/
structure RgmiiTxBench where
  wire : Spaced (BitVec 8 × Bool)
  rgmii : RgmiiIfTx
  line : RgmiiLine
deriving Repr, DecidableEq

namespace RgmiiTxBench

def start (data : RgmiiTxData) : RgmiiTxBench := ⟨.unseen, .powerUp data, .unseen⟩

def ahead (speeds : RgmiiSpeeds) (bench : RgmiiTxBench) (gmii : GmiiTxIn) : RgmiiLine :=
  (bench.line.observe (bench.rgmii.slot1 speeds gmii)).observe (bench.rgmii.slot2 speeds gmii)

/-- A cycle of `clk_125`. -/
def edge (speeds : RgmiiSpeeds) (bench : RgmiiTxBench) (gmii : GmiiTxIn)
    (cfgSpeed : BitVec 2) : RgmiiTxBench where
  wire := bench.wire.observe gmii.beat
  rgmii := bench.rgmii.edge speeds gmii cfgSpeed
  line := bench.ahead speeds gmii

/-- The source keeps the gap, also before its first frame, and holds the bytes. -/
structure Paced (speed : BitVec 2) (bench : RgmiiTxBench) (gmii : GmiiTxIn) : Prop where
  gap : gmii.en = true → bench.wire.opened = [] → gapCycles speed ≤ bench.wire.low
  held : HeldThrough (byteCycles speed) (bench.wire.observe gmii.beat)

/-- The nibbles on the pins.  The first cycle of TXC is left out: it shows what the data
registers came up with. -/
def nibbles (bench : RgmiiTxBench) : Spaced (BitVec 4 × Bool) :=
  nibblesSeen bench.line.cycles.tail

/-- What has been shown before the present period, and the nibble of the period. -/
def taken (bench : RgmiiTxBench) (done : List RgmiiRxIn) : Spaced (BitVec 4 × Bool) :=
  (nibblesSeen done.tail).observe bench.rgmii.shows.nibble

/-- Before the first nibble is taken, nothing has come; from then on they are taken as they
come. -/
inductive Follows (speed : BitVec 2) (bench : RgmiiTxBench) (done : List RgmiiRxIn) : Prop
  | idle (hdone : done = []) (hclosed : bench.wire.closed = []) (hopened : bench.wire.opened = [])
      (hlow : bench.wire.low ≤ 8 + bench.rgmii.clock.txPh.toNat) : Follows speed bench done
  | taking (hdone : done ≠ [])
      (hlooks : Looks (nibbleCycles125 speed) 2 24 nibbleOf bench.rgmii.clock.txPh.toNat bench.wire
        (bench.taken done))
      (hgaps : ∀ gap ∈ (bench.taken done).gaps, 24 ≤ gap)
      (hhi : bench.rgmii.data.txHi = decide ((bench.taken done).opened.length % 2 = 1)) :
      Follows speed bench done

/-- The transmitter at a constant speed: it takes the speed, or it drives. -/
inductive Drives (speeds : RgmiiSpeeds) (speed : BitVec 2) (bench : RgmiiTxBench) : Prop
  | warming (passed : Nat) (hpassed : passed < 8)
      (hclock : bench.rgmii.clock = runFrom (RgmiiTxc.clkEdge speeds) .reset
        (List.replicate passed speed))
      (hline : bench.line = .unseen) (hclosed : bench.wire.closed = [])
      (hopened : bench.wire.opened = []) (hlow : bench.wire.low = passed)
      (hgaps : bench.wire.gaps = []) : Drives speeds speed bench
  | driving (done : List RgmiiRxIn) (hsettled : bench.rgmii.Settled speeds speed)
      (hline : ∀ gmii, InPeriod (txcRate speeds speed) bench.rgmii.shows done
        (2 * bench.rgmii.clock.txPh.toNat) (bench.ahead speeds gmii))
      (hsame : ∀ cycle ∈ done, cycle.rxdFalling = cycle.rxdRising)
      (hgaps : ∀ gap ∈ bench.wire.gaps, gapCycles speed ≤ gap)
      (hfollows : Follows speed bench done) : Drives speeds speed bench

variable {speeds : RgmiiSpeeds} {speed : BitVec 2} {bench : RgmiiTxBench} {gmii : GmiiTxIn}

theorem drives_start (speeds : RgmiiSpeeds) (speed : BitVec 2) (data : RgmiiTxData) :
    Drives speeds speed (start data) :=
  .warming 0 (by decide) rfl rfl rfl rfl rfl rfl

/-- While the speed is being taken TXC is low, and it has been taken after eight cycles. -/
theorem clock_warming (hslow : SlowSpeed speeds speed) :
    (∀ passed < 9, (runFrom (RgmiiTxc.clkEdge speeds) .reset
        (List.replicate passed speed)).txcD1 = false ∧
      (runFrom (RgmiiTxc.clkEdge speeds) .reset (List.replicate passed speed)).txcD2 = false) ∧
    (runFrom (RgmiiTxc.clkEdge speeds) .reset (List.replicate 7 speed)).txSpd = speed ∧
    runFrom (RgmiiTxc.clkEdge speeds) .reset (List.replicate 8 speed) =
      ⟨speed, speed, speed, 3, true, true, speed, true, 1, false, false⟩ := by
  obtain ⟨rfl | rfl, rfl | rfl⟩ := hslow.cases <;> decide

theorem ahead_low (hd1 : bench.rgmii.clock.txcD1 = false) (hd2 : bench.rgmii.clock.txcD2 = false)
    (hlevel : bench.line.level = false) (gmii : GmiiTxIn) :
    bench.ahead speeds gmii = bench.line := by
  have hslot1 : (bench.rgmii.slot1 speeds gmii).txc = false := hd1
  have hslot2 : (bench.rgmii.slot2 speeds gmii).txc = false := hd2
  have hfirst : bench.line.observe (bench.rgmii.slot1 speeds gmii) = bench.line := by
    rw [RgmiiLine.observe, hslot1, hlevel]
    rfl
  rw [ahead, hfirst, RgmiiLine.observe, hslot2, hlevel]
  rfl

theorem Paced.gaps (hpaced : bench.Paced speed gmii)
    (hgaps : ∀ gap ∈ bench.wire.gaps, gapCycles speed ≤ gap) :
    ∀ gap ∈ (bench.wire.observe gmii.beat).gaps, gapCycles speed ≤ gap := by
  cases hen : gmii.en with
  | false =>
      rw [GmiiTxIn.beat, hen, if_neg Bool.false_ne_true, Spaced.observe_none_gaps]
      exact hgaps
  | true =>
      by_cases hopened : bench.wire.opened = []
      · exact Spaced.observe_gaps_of_low hgaps (hpaced.gap hen hopened) _
      · rw [Spaced.observe_gaps_of_opened hopened]
        exact hgaps

/-- Nothing comes while the gap has not gone by. -/
theorem Paced.quiet (hpaced : bench.Paced speed gmii) (hopened : bench.wire.opened = [])
    (hlow : bench.wire.low < gapCycles speed) : gmii.en = false := by
  by_contra hen
  exact absurd (hpaced.gap (Bool.not_eq_false _ ▸ hen) hopened) (Nat.not_le_of_lt hlow)

theorem beat_of_quiet (hen : gmii.en = false) : gmii.beat = none := by
  rw [GmiiTxIn.beat, hen, if_neg Bool.false_ne_true]

theorem shows_nibble (rgmii : RgmiiIfTx) :
    rgmii.shows.nibble =
      if rgmii.data.txEnQ then some (rgmii.data.txNib, rgmii.data.txErQ) else none := by
  rw [RgmiiRxIn.nibble, RgmiiIfTx.shows]
  cases rgmii.data.txEnQ <;> simp

/-- Between the loads the data registers stay. -/
theorem shows_of_not_loads {rgmii : RgmiiIfTx} (hloads : rgmii.loads speeds = false)
    (gmii : GmiiTxIn) (cfgSpeed : BitVec 2) :
    (rgmii.edge speeds gmii cfgSpeed).shows = rgmii.shows ∧
      (rgmii.edge speeds gmii cfgSpeed).data.txHi = rgmii.data.txHi := by
  simp [RgmiiIfTx.shows, RgmiiIfTx.edge, RgmiiIfTx.dataEdge, hloads]

/-- A load takes the nibble whose turn it is. -/
theorem shows_of_loads {rgmii : RgmiiIfTx} (hloads : rgmii.loads speeds = true)
    (gmii : GmiiTxIn) (cfgSpeed : BitVec 2) {count : Nat}
    (hhi : rgmii.data.txHi = decide (count % 2 = 1)) :
    (rgmii.edge speeds gmii cfgSpeed).shows.nibble =
        gmii.beat.map (fun beat => nibbleOf beat (count % 2)) ∧
      (rgmii.edge speeds gmii cfgSpeed).data.txHi =
        (gmii.en && decide ((count + 1) % 2 = 1)) := by
  have hturn : count % 2 = 0 ∨ count % 2 = 1 := Nat.mod_two_eq_zero_or_one count
  rw [shows_nibble]
  constructor
  · simp only [RgmiiIfTx.edge, RgmiiIfTx.dataEdge, hloads, if_true, hhi, GmiiTxIn.beat]
    cases gmii.en with
    | false => rfl
    | true =>
        rcases hturn with hturn | hturn <;> simp [hturn, nibbleOf]
  · simp only [RgmiiIfTx.edge, RgmiiIfTx.dataEdge, hloads, if_true, hhi]
    rcases hturn with hturn | hturn <;> simp [hturn, Nat.add_mod]

/-- The period goes on, or the next one begins. -/
theorem inPeriod_edge (hslow : SlowSpeed speeds speed)
    (hsettled : bench.rgmii.Settled speeds speed) {done : List RgmiiRxIn}
    (hline : InPeriod (txcRate speeds speed) bench.rgmii.shows done
      (2 * bench.rgmii.clock.txPh.toNat) (bench.ahead speeds gmii)) (later : GmiiTxIn) :
    InPeriod (txcRate speeds speed) bench.rgmii.shows done
      (2 * (bench.rgmii.clock.txPh.toNat + 1))
      ((bench.edge speeds gmii speed).ahead speeds later) := by
  obtain ⟨hslot1, hslot2⟩ := hsettled.slots hslow gmii later
  have hcentred := hslow.rate.1
  rw [ahead, edge, hslot1, hslot2]
  exact (hline.observe hcentred rfl).observe hcentred rfl

/-- A cycle without a load. -/
theorem Follows.pass (hslow : SlowSpeed speeds speed) {done : List RgmiiRxIn}
    (hfollows : Follows speed bench done) (hsettled : bench.rgmii.Settled speeds speed)
    (hloads : bench.rgmii.loads speeds = false) (hpaced : bench.Paced speed gmii)
    (hgaps : ∀ gap ∈ (bench.wire.observe gmii.beat).gaps, gapCycles speed ≤ gap) :
    Follows speed (bench.edge speeds gmii speed) done := by
  obtain ⟨hheld, hlong⟩ := hslow.held
  obtain ⟨hshows, hhi'⟩ := shows_of_not_loads hloads gmii speed
  have hph : (bench.edge speeds gmii speed).rgmii.clock.txPh.toNat =
      bench.rgmii.clock.txPh.toNat + 1 := by
    rw [edge, hsettled.ph_edge hslow, hloads, if_neg Bool.false_ne_true]
  have hlt := hsettled.counter
  have hnot := mt (hsettled.loads_iff hslow).mpr (by rw [hloads]; exact Bool.false_ne_true)
  cases hfollows with
  | idle hdone hclosed hopened hlow =>
      have hbeat := beat_of_quiet (hpaced.quiet hopened (by omega))
      refine .idle hdone ?_ ?_ ?_
      · rw [edge, hbeat, Spaced.observe_toEnvelopes, Envelopes.observe_none_closed,
          Envelopes.all_of_idle hopened]
        exact hclosed
      · rw [edge, hbeat]
        exact Envelopes.observe_none_opened _
      · rw [hph, edge, hbeat, Spaced.observe_none_low]
        omega
  | taking hdone hlooks htaken hhi =>
      have hsame : (bench.edge speeds gmii speed).taken done = bench.taken done := by
        rw [taken, edge, hshows]
        rfl
      refine .taking hdone ?_ (by rwa [hsame]) (by rw [hsame, ← hhi]; exact hhi')
      rw [hsame, hph]
      exact hlooks.pass (by omega) (by decide) (hheld ▸ hpaced.held)
        fun gap hgap => hlong.trans (hgaps gap hgap)

/-- A cycle with a load. -/
theorem Follows.load (hslow : SlowSpeed speeds speed) {done : List RgmiiRxIn}
    (hfollows : Follows speed bench done) (hsettled : bench.rgmii.Settled speeds speed)
    (hloads : bench.rgmii.loads speeds = true) (hpaced : bench.Paced speed gmii)
    (hgaps : ∀ gap ∈ (bench.wire.observe gmii.beat).gaps, gapCycles speed ≤ gap) :
    Follows speed (bench.edge speeds gmii speed) (done ++ [bench.rgmii.shows]) := by
  obtain ⟨hheld, hlong⟩ := hslow.held
  have hph : (bench.edge speeds gmii speed).rgmii.clock.txPh.toNat = 0 := by
    rw [edge, hsettled.ph_edge hslow, hloads, if_pos rfl]
  have hlast := (hsettled.loads_iff hslow).mp hloads
  have hne : done ++ [bench.rgmii.shows] ≠ [] :=
    List.append_ne_nil_of_right_ne_nil _ (List.cons_ne_nil _ _)
  cases hfollows with
  | idle hdone hclosed hopened hlow =>
      have hlt := hsettled.counter
      have hen := hpaced.quiet hopened (by omega)
      have hbeat := beat_of_quiet hen
      have hnone : (bench.edge speeds gmii speed).rgmii.shows.nibble = none := by
        rw [shows_nibble]
        simp [edge, RgmiiIfTx.edge, RgmiiIfTx.dataEdge, hloads, hen]
      have hnext : (bench.edge speeds gmii speed).taken (done ++ [bench.rgmii.shows]) =
          Spaced.unseen.observe none := by
        rw [taken, hnone, hdone]
        rfl
      refine .taking hne ?_ ?_ ?_
      · rw [hnext]
        refine .resting [] ?_ ?_ rfl rfl (.inl rfl)
        · rw [edge, hbeat, Spaced.observe_toEnvelopes, Envelopes.observe_none_closed,
            Envelopes.all_of_idle hopened]
          exact hclosed
        · rw [edge, hbeat]
          exact Envelopes.observe_none_opened _
      · rw [hnext]
        exact fun _ hgap => absurd hgap List.not_mem_nil
      · rw [hnext]
        simp [edge, RgmiiIfTx.edge, RgmiiIfTx.dataEdge, hloads, hen]
  | taking hdone hlooks htaken hhi =>
      obtain ⟨hnibble, hhi'⟩ := shows_of_loads hloads gmii speed hhi
      have hnext : (bench.edge speeds gmii speed).taken (done ++ [bench.rgmii.shows]) =
          (bench.taken done).observe
            (gmii.beat.map fun beat => nibbleOf beat ((bench.taken done).opened.length % 2)) := by
        rw [← hnibble, taken, List.tail_append_of_ne_nil hdone, nibblesSeen_concat]
        rfl
      refine .taking hne ?_ ?_ ?_
      · rw [hnext, hph]
        exact hlooks.look hlast (by decide) (by decide) (hheld ▸ hpaced.held)
          fun gap hgap => hlong.trans (hgaps gap hgap)
      · rw [hnext]
        exact hlooks.gaps_look hsettled.counter (by decide)
          (fun gap hgap => hlong.trans (hgaps gap hgap)) htaken _
      · rw [hnext]
        refine hhi'.trans ?_
        cases hen : gmii.en with
        | false =>
            rw [beat_of_quiet hen, Option.map_none, Spaced.observe_toEnvelopes,
              Envelopes.observe_none_opened]
            rfl
        | true =>
            rw [GmiiTxIn.beat, hen, if_pos rfl, Option.map_some, Spaced.observe_toEnvelopes,
              Envelopes.observe_some_opened, List.length_append]
            exact Bool.true_and _

/-- The speed is being taken, or it has just been. -/
theorem Drives.warm {passed : Nat} (hslow : SlowSpeed speeds speed) (hpassed : passed < 8)
    (hclock : bench.rgmii.clock = runFrom (RgmiiTxc.clkEdge speeds) .reset
      (List.replicate passed speed))
    (hline : bench.line = .unseen) (hclosed : bench.wire.closed = [])
    (hopened : bench.wire.opened = []) (hlow : bench.wire.low = passed)
    (hgaps : bench.wire.gaps = []) (hpaced : bench.Paced speed gmii) :
    Drives speeds speed (bench.edge speeds gmii speed) := by
  obtain ⟨hquiet, htaken, hready⟩ := clock_warming hslow
  obtain ⟨hheld, hlong⟩ := hslow.held
  have hshort : 5 ≤ nibbleCycles125 speed := by
    rw [nibbleCycles125]
    split <;> decide
  have hbeat := beat_of_quiet (hpaced.quiet hopened (by omega))
  have hclock' : (bench.edge speeds gmii speed).rgmii.clock =
      runFrom (RgmiiTxc.clkEdge speeds) .reset (List.replicate (passed + 1) speed) := by
    rw [List.replicate_succ', runFrom_append, ← hclock]
    rfl
  have hline' : (bench.edge speeds gmii speed).line = .unseen := by
    obtain ⟨hd1, hd2⟩ := hquiet passed (by omega)
    rw [← hclock] at hd1 hd2
    change bench.ahead speeds gmii = _
    rw [ahead_low hd1 hd2 (by rw [hline]; rfl), hline]
  have hclosed' : (bench.edge speeds gmii speed).wire.closed = [] := by
    rw [edge, hbeat, Spaced.observe_toEnvelopes, Envelopes.observe_none_closed,
      Envelopes.all_of_idle hopened]
    exact hclosed
  have hopened' : (bench.edge speeds gmii speed).wire.opened = [] := by
    rw [edge, hbeat]
    exact Envelopes.observe_none_opened _
  have hlow' : (bench.edge speeds gmii speed).wire.low = passed + 1 := by
    rw [edge, hbeat, Spaced.observe_none_low, hlow]
  have hgaps' : (bench.edge speeds gmii speed).wire.gaps = [] := by
    rw [edge, hbeat, Spaced.observe_none_gaps, hgaps]
  by_cases hlast : passed = 7
  · subst hlast
    have hspd : (bench.edge speeds gmii speed).rgmii.data.spdD = speed := by
      change bench.rgmii.clock.txSpd = speed
      rw [hclock]
      exact htaken
    rw [hready] at hclock'
    have hph : (bench.edge speeds gmii speed).rgmii.clock.txPh.toNat = 1 := by
      rw [hclock']
      rfl
    refine .driving [] ⟨?_, ?_, ?_, ⟨?_, hspd⟩, ?_⟩ (fun later => ?_)
      (fun _ hmem => absurd hmem List.not_mem_nil)
      (by rw [hgaps']; exact fun _ hgap => absurd hgap List.not_mem_nil)
      (.idle rfl hclosed' hopened' ?_)
    · rw [hclock']
      exact ⟨rfl, rfl, rfl⟩
    · rw [hclock']
      exact ⟨rfl, rfl⟩
    · rw [hclock']
    · rw [hclock']
    · rw [hph]
      omega
    · rw [hph, ahead_low (by rw [hclock']) (by rw [hclock']) (by rw [hline']; rfl), hline']
      refine .before ?_ rfl rfl
      obtain ⟨rfl | rfl, rfl | rfl⟩ := hslow.cases <;> decide
    · rw [hlow', hph]
      decide
  · exact .warming _ (by omega) hclock' hline' hclosed' hopened' hlow' hgaps'

theorem drives_edge (hslow : SlowSpeed speeds speed) (hdrives : Drives speeds speed bench)
    (hpaced : bench.Paced speed gmii) :
    Drives speeds speed (bench.edge speeds gmii speed) := by
  cases hdrives with
  | warming _ hpassed hclock hline hclosed hopened hlow hgaps =>
      exact .warm hslow hpassed hclock hline hclosed hopened hlow hgaps hpaced
  | driving done hsettled hline hsame hgaps hfollows =>
      have hgaps' := hpaced.gaps hgaps
      have hnext := inPeriod_edge hslow hsettled (hline gmii)
      have hph := hsettled.ph_edge hslow gmii
      cases hloads : bench.rgmii.loads speeds with
      | false =>
          refine .driving done (hsettled.edge hslow gmii) (fun later => ?_) hsame hgaps'
            (hfollows.pass hslow hsettled hloads hpaced hgaps')
          rw [edge, hph, hloads, if_neg Bool.false_ne_true,
            (shows_of_not_loads hloads gmii speed).1]
          exact hnext later
      | true =>
          refine .driving (done ++ [bench.rgmii.shows]) (hsettled.edge hslow gmii)
            (fun later => ?_) ?_ hgaps' (hfollows.load hslow hsettled hloads hpaced hgaps')
          swap
          · intro cycle hcycle
            rcases List.mem_append.mp hcycle with hold | hnew
            · exact hsame cycle hold
            · rw [List.mem_singleton.mp hnew]
              rfl
          have hend := hnext later
          rw [(hsettled.loads_iff hslow).mp hloads, ← hslow.rate.2] at hend
          rw [edge, hph, hloads, if_pos rfl, Nat.mul_zero]
          exact hend.next hslow.rate.1 _

section Lag

theorem quiet_nibblesSeen (cycles : List RgmiiRxIn) : (nibblesSeen cycles).Quiet := by
  rcases List.eq_nil_or_concat cycles with rfl | ⟨front, cycle, rfl⟩
  · exact Spaced.quiet_unseen
  · rw [List.concat_eq_append, nibblesSeen_concat]
    exact Spaced.quiet_observe _ _

/-- Earlier in the run less has been seen, of the same. -/
theorem shows_of_append {front back : List RgmiiRxIn} {images : List (List (BitVec 4 × Bool))}
    (hshows : (nibblesSeen (front ++ back)).Shows images) : (nibblesSeen front).Shows images := by
  induction back using List.reverseRecOn with
  | nil => rwa [List.append_nil] at hshows
  | append_singleton back cycle ih =>
      rw [← List.append_assoc, nibblesSeen_concat] at hshows
      exact ih hshows.of_observe

theorem gaps_of_append (front back : List RgmiiRxIn) :
    (nibblesSeen front).gaps ⊆ (nibblesSeen (front ++ back)).gaps := by
  induction back using List.reverseRecOn with
  | nil => rw [List.append_nil]; exact List.Subset.refl _
  | append_singleton back cycle ih =>
      rw [← List.append_assoc, nibblesSeen_concat]
      exact List.Subset.trans ih (Spaced.gaps_subset_observe _ _)

theorem closed_prefix_append (front back : List RgmiiRxIn) :
    (nibblesSeen front).closed <+: (nibblesSeen (front ++ back)).closed := by
  induction back using List.reverseRecOn with
  | nil => rw [List.append_nil]
  | append_singleton back cycle ih =>
      rw [← List.append_assoc, nibblesSeen_concat]
      refine ih.trans ?_
      cases cycle.nibble with
      | some beat => exact List.prefix_rfl
      | none =>
          rw [Spaced.observe_toEnvelopes, Envelopes.observe_none_closed]
          exact Envelopes.closed_prefix_all _

/-- In a long gap nothing has ended lately. -/
theorem closed_of_append {front back : List RgmiiRxIn}
    (hlow : back.length < (nibblesSeen (front ++ back)).low) :
    (nibblesSeen (front ++ back)).closed = (nibblesSeen front).closed := by
  induction back using List.reverseRecOn with
  | nil => rw [List.append_nil]
  | append_singleton back cycle ih =>
      rw [← List.append_assoc, nibblesSeen_concat] at hlow ⊢
      rw [List.length_append, List.length_singleton] at hlow
      obtain ⟨hclosed, hless⟩ := Spaced.closed_of_low (quiet_nibblesSeen (front ++ back))
        (show 2 ≤ ((nibblesSeen (front ++ back)).observe cycle.nibble).low by omega)
      rw [hclosed]
      exact ih (by omega)

theorem cycles_observe (line : RgmiiLine) (slot : RgmiiSlot) :
    ∃ more, (line.observe slot).cycles = line.cycles ++ more ∧ more.length ≤ 1 := by
  rw [RgmiiLine.observe]
  split
  · exact ⟨[], (List.append_nil _).symm, Nat.zero_le 1⟩
  · split
    · exact ⟨_, rfl, Nat.le_refl 1⟩
    · exact ⟨[], (List.append_nil _).symm, Nat.zero_le 1⟩

/-- The cycles that have been seen, and those to come up to the end of the period. -/
theorem cycles_lag {rate : TxcRate} {done : List RgmiiRxIn} {count : Nat}
    (hline : InPeriod rate bench.rgmii.shows done count (bench.ahead speeds gmii)) :
    ∃ more, done ++ [bench.rgmii.shows] = bench.line.cycles ++ more ∧ more.length ≤ 3 := by
  obtain ⟨first, hfirst, hone⟩ :=
    cycles_observe bench.line (bench.rgmii.slot1 speeds gmii)
  obtain ⟨second, hsecond, htwo⟩ := cycles_observe
    (bench.line.observe (bench.rgmii.slot1 speeds gmii)) (bench.rgmii.slot2 speeds gmii)
  have hahead : (bench.ahead speeds gmii).cycles = bench.line.cycles ++ (first ++ second) := by
    rw [ahead, hsecond, hfirst, List.append_assoc]
  rcases hline.cycles with hcycles | hcycles
  · refine ⟨first ++ second ++ [bench.rgmii.shows], ?_, ?_⟩
    · rw [← hcycles, hahead, List.append_assoc]
    · simp only [List.length_append, List.length_singleton]
      omega
  · refine ⟨first ++ second, hcycles.symm.trans hahead, ?_⟩
    rw [List.length_append]
    omega

end Lag

/-- What has been seen on the pins is part of what has been taken. -/
theorem Drives.lag (hdrives : Drives speeds speed bench) :
    (bench.nibbles = .unseen ∧ bench.wire.closed = []) ∨
      ∃ (taken : Spaced (BitVec 4 × Bool)) (more : List RgmiiRxIn),
        bench.rgmii.clock.txPh.toNat < nibbleCycles125 speed ∧
        Looks (nibbleCycles125 speed) 2 24 nibbleOf bench.rgmii.clock.txPh.toNat bench.wire taken ∧
        (∀ gap ∈ taken.gaps, 24 ≤ gap) ∧
        taken = nibblesSeen (bench.line.cycles.tail ++ more) ∧ more.length ≤ 3 := by
  cases hdrives with
  | warming _ _ _ hline hclosed =>
      refine .inl ⟨?_, hclosed⟩
      rw [nibbles, hline]
      rfl
  | driving done hsettled hline _ _ hfollows =>
      obtain ⟨more, hmore, hlength⟩ := cycles_lag (hline ⟨0, false, false⟩)
      cases hfollows with
      | idle hdone hclosed =>
          refine .inl ⟨?_, hclosed⟩
          rw [hdone, List.nil_append] at hmore
          have hshort : bench.line.cycles.length ≤ 1 := by
            have hlengths := congrArg List.length hmore
            rw [List.length_singleton, List.length_append] at hlengths
            omega
          have htail : bench.line.cycles.tail = [] := by
            rw [← List.length_eq_zero_iff, List.length_tail]
            omega
          rw [nibbles, htail]
          rfl
      | taking hdone hlooks hgaps =>
          refine .inr ⟨_, if bench.line.cycles = [] then more.tail else more, hsettled.counter,
            hlooks, hgaps, ?_, ?_⟩
          · rw [taken, ← nibblesSeen_concat, ← List.tail_append_of_ne_nil hdone, hmore]
            split
            · rw [‹bench.line.cycles = []›]
              rfl
            · rw [List.tail_append_of_ne_nil ‹_›]
          · split
            · rw [List.length_tail]
              omega
            · exact hlength

/-- A nibble is on the pins at both edges of TXC. -/
theorem Drives.same_edges (hdrives : Drives speeds speed bench) :
    ∀ cycle ∈ bench.line.cycles, cycle.rxdFalling = cycle.rxdRising := by
  cases hdrives with
  | warming _ _ _ hline =>
      rw [hline]
      exact fun _ hmem => absurd hmem List.not_mem_nil
  | driving done hsettled hline hsame _ hfollows =>
      obtain ⟨more, hmore, -⟩ := cycles_lag (hline ⟨0, false, false⟩)
      intro cycle hcycle
      have hmem : cycle ∈ done ++ [bench.rgmii.shows] := by
        rw [hmore]
        exact List.mem_append_left _ hcycle
      rcases List.mem_append.mp hmem with hold | hnew
      · exact hsame cycle hold
      · rw [List.mem_singleton.mp hnew]
        rfl

/-- The pins show the frames that the source shows, each byte as two nibbles, with the gap
between the frames; two byte times after the last frame they have shown all. -/
theorem Drives.shows (hslow : SlowSpeed speeds speed) (hdrives : Drives speeds speed bench)
    {frames : List (List (BitVec 8 × Bool))}
    (hshows : bench.wire.Shows (frames.map (heldFor (byteCycles speed)))) :
    bench.nibbles.Shows (frames.map (inParts 2 nibbleOf)) ∧
      (∀ gap ∈ bench.nibbles.gaps, 24 ≤ gap) ∧
      (2 * byteCycles speed ≤ bench.wire.low →
        bench.nibbles.closed.length = bench.wire.closed.length) := by
  obtain ⟨hheld, hlong⟩ := hslow.held
  rcases hdrives.lag with ⟨hnone, hclosed⟩ | ⟨taken, more, hph, hlooks, hgaps, hmore, hlength⟩
  · rw [hnone, hclosed]
    exact ⟨⟨_, rfl, List.nil_prefix⟩, fun _ hgap => absurd hgap List.not_mem_nil, fun _ => rfl⟩
  · have hpos : 0 < 2 * nibbleCycles125 speed := by omega
    have htaken := hlooks.shows hpos (hheld ▸ hshows)
    rw [hmore] at htaken hgaps
    refine ⟨shows_of_append htaken, fun gap hgap => hgaps gap (gaps_of_append _ _ hgap),
      fun hlow => ?_⟩
    obtain ⟨hall, hlate⟩ := hlooks.settled hph (by omega)
    rw [← hall, hmore]
    rcases hlate with hnone | hlate
    · have hlengths := (closed_prefix_append bench.line.cycles.tail more).length_le
      rw [← hmore, hall, hnone] at hlengths
      rw [← hmore, hall, hnone]
      exact Nat.le_zero.mp hlengths
    · refine congrArg List.length (closed_of_append ?_).symm
      rw [← hmore]
      by_contra hshort
      have hless := Nat.mul_le_mul_right (nibbleCycles125 speed) (show taken.low ≤ 3 by omega)
      omega

end RgmiiTxBench

end EmacZero
