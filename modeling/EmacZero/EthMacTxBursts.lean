/-
The bursts of `eth_mac_tx` while its source leaves no gap in a frame: the encoding of
each frame, in order, with the gap the standard asks for between them.
-/
import EmacZero.EthMacTxBench

namespace EmacZero

variable {maxFrame : Nat}

/-- Every frame came without a gap and fits, and so does what has come of the next. -/
structure AxisSource.Clean (maxFrame : Nat) (source : AxisSource) : Prop where
  offered : ∀ frame ∈ source.offered, frame.steady = true ∧ frame.bytes.length ≤ maxFrame
  current : source.current.steady = true
  fits : source.current.bytes = [] ∨ source.current.bytes.length < maxFrame

/-- What has to be on the wire of a frame of which not all is there yet. -/
def burstBegun (frame : SourceFrame) : List (List (BitVec 8 × Bool)) :=
  if frame.bytes.isEmpty then [] else [errorFree (preambleBytes ++ frame.bytes)]

namespace MacTxBench

/-- A byte is there whenever one is asked for inside a frame, and no frame is longer
than `MAX_FRAME`. -/
def Gapless (maxFrame : Nat) (bench : MacTxBench) (i : EthMacTxIn) : Prop :=
  bench.tx.sAxisTready = true →
    (bench.source.current.bytes ≠ [] → i.sAxisTvalid = true) ∧
    (i.sAxisTvalid = true →
      bench.source.current.bytes.length + (if i.sAxisTlast then 1 else 2) ≤ maxFrame)

instance (maxFrame : Nat) (bench : MacTxBench) (i : EthMacTxIn) :
    Decidable (Gapless maxFrame bench i) :=
  inferInstanceAs (Decidable (_ → _ ∧ _))

variable {bench : MacTxBench} {i : EthMacTxIn}

theorem clean_step (hclean : bench.source.Clean maxFrame) (hgapless : Gapless maxFrame bench i) :
    (bench.step maxFrame i).source.Clean maxFrame := by
  cases hquiet : bench.tx.sAxisTready && i.sAxisTvalid with
  | false =>
      rw [source_quiet hquiet]
      refine ⟨hclean.offered, ?_, hclean.fits⟩
      rw [hclean.current, Bool.true_and]
      cases hready : bench.tx.sAxisTready with
      | false => rfl
      | true =>
          rw [hready, Bool.true_and] at hquiet
          have hempty : bench.source.current.bytes = [] := by
            by_contra hne
            simp [(hgapless hready).1 hne] at hquiet
          rw [hempty]
          rfl
  | true =>
      rw [Bool.and_eq_true] at hquiet
      obtain ⟨hready, hvalid⟩ := hquiet
      have hroom := (hgapless hready).2 hvalid
      cases hlast : i.sAxisTlast with
      | false =>
          rw [source_more hready hvalid hlast]
          refine ⟨hclean.offered, hclean.current, Or.inr ?_⟩
          simp only [hlast, Bool.false_eq_true, if_false] at hroom
          rw [List.length_append, List.length_singleton]
          exact hroom
      | true =>
          rw [source_last hready hvalid hlast]
          simp only [hlast, if_true] at hroom
          refine ⟨?_, rfl, Or.inl rfl⟩
          intro frame hframe
          rcases List.mem_append.mp hframe with hold | hnew
          · exact hclean.offered frame hold
          · rw [List.mem_singleton.mp hnew]
            exact ⟨hclean.current, by simpa using hroom⟩

theorem clean_start : start.source.Clean maxFrame :=
  ⟨by simp [start, AxisSource.start], rfl, Or.inl rfl⟩

/-- Frames without gaps go out as themselves. -/
theorem groups_of_clean {offered : List SourceFrame}
    {groups : List (List (List (BitVec 8 × Bool)))} (hmax : maxFrame ≤ 16383)
    (hgroups : List.Forall₂ (Relayed maxFrame) offered groups)
    (hclean : ∀ frame ∈ offered, frame.steady = true ∧ frame.bytes.length ≤ maxFrame) :
    groups.flatten = offered.map fun frame => wireFrame frame.bytes := by
  induction hgroups with
  | nil => rfl
  | @cons frame group rest groups hrelayed _ ih =>
      obtain ⟨hsteady, hlength⟩ := hclean frame List.mem_cons_self
      have hwhole := hrelayed.whole hsteady (hlength.trans (Nat.le_min.mpr ⟨le_rfl, hmax⟩))
      rw [List.flatten_cons, hwhole, List.map_cons,
        ih fun other hother => hclean other (List.mem_cons_of_mem frame hother)]
      rfl

/-- A transmitter with no frame to send keeps the enable low. -/
theorem gmiiTxEn_of_idle (hsettled : bench.tx.Settled) (hprogress : bench.tx.inProgress = false)
    (hending : bench.tx.ending = false) : bench.tx.gmiiTxEn = false := by
  cases hstate : bench.tx.state <;>
    simp_all [EthMacTx.Settled, EthMacTx.inProgress, EthMacTx.ending]

/-- Every burst that has ended is the encoding of a frame, in order, the one open has
begun like the next, and all frames but perhaps one are out. -/
structure Encoded (bench : MacTxBench) : Prop where
  whole : bench.now.closed <+:
    bench.source.offered.map fun frame => wireFrame frame.bytes
  shows : bench.now.Shows
    (bench.source.offered.map (fun frame => wireFrame frame.bytes) ++
      burstBegun bench.source.current)
  behind : bench.source.offered.length ≤ bench.now.closed.length + 1

/-- Without gaps no frame goes astray. -/
theorem not_astray (hmax : maxFrame ≤ 16383) (hclean : bench.source.Clean maxFrame)
    (hbytes : bench.source.current.bytes ≠ []) :
    ¬ (bench.source.current.steady = false ∨
      capacity maxFrame ≤ bench.source.current.bytes.length) := by
  rintro (hgap | hlong)
  · rw [hclean.current] at hgap
    exact Bool.noConfusion hgap
  · have hshort := hclean.fits.resolve_left hbytes
    rw [capacity, Nat.min_eq_left hmax] at hlong
    exact Nat.not_lt_of_le hlong hshort

theorem encoded_of_known (hending : bench.tx.ending = false)
    {images : List (List (BitVec 8 × Bool))} (hknown : bench.known = images) :
    bench.now.closed = images := by
  rw [← hknown, known, owed_of_open hending, List.append_nil]

theorem encoded_of_clean (hmax : maxFrame ≤ 16383) (hsettled : bench.tx.Settled)
    (htraced : bench.Traced maxFrame) (hclean : bench.source.Clean maxFrame) :
    bench.Encoded := by
  obtain ⟨groups, lost, hgroups, hknown, hprogress⟩ := htraced
  rw [groups_of_clean hmax hgroups hclean.offered] at hknown
  cases hprogress with
  | between hcurrent hprogress =>
      rw [List.append_nil] at hknown
      cases hending : bench.tx.ending with
      | false =>
          have hclosed := encoded_of_known hending hknown
          have hopened := now_opened_of_low (gmiiTxEn_of_idle hsettled hprogress hending)
          refine ⟨by rw [hclosed], ⟨[], ?_, by rw [hopened]; exact List.nil_prefix⟩, ?_⟩
          · rw [hclosed, hcurrent]
            rfl
          · rw [hclosed, List.length_map]
            exact Nat.le_succ _
      | true =>
          rw [known, owed, hending, if_pos rfl] at hknown
          refine ⟨⟨_, hknown⟩, ⟨[bench.now.opened ++ errorFree bench.tx.remaining], ?_,
            List.prefix_append _ _⟩, ?_⟩
          · rw [hknown, hcurrent]
            exact List.append_nil _
          · rw [← List.length_map (fun frame : SourceFrame => wireFrame frame.bytes), ← hknown,
              List.length_append]
            rfl
  | first hcurrent hfirst hlast hfits hwire =>
      rw [List.append_nil] at hknown
      have hending : bench.tx.ending = false := by
        rw [hsettled.ending_held hfirst, hlast]
      have hclosed := encoded_of_known hending hknown
      refine ⟨by rw [hclosed], ⟨burstBegun bench.source.current, by rw [hclosed], ?_⟩, ?_⟩
      · rw [hcurrent]
        change bench.now.opened <+: errorFree (preambleBytes ++ [bench.tx.firstData])
        rw [errorFree_append, ← hwire, List.append_assoc]
        exact List.prefix_append _ _
      · rw [hclosed, List.length_map]
        exact Nat.le_succ _
  | @body bytes hcurrent hbytes hfits hstate hready hcrc hcount hwire =>
      rw [List.append_nil] at hknown
      obtain ⟨hnone, hwhere⟩ := hsettled.ready_state hready
      have hending : bench.tx.ending = false := by
        rcases hwhere with hidle | ⟨-, hended⟩
        · simp [hstate] at hidle
        · simp [EthMacTx.ending, hstate, hended, hnone]
      have hclosed := encoded_of_known hending hknown
      refine ⟨by rw [hclosed], ⟨burstBegun bench.source.current, by rw [hclosed], ?_⟩, ?_⟩
      · rw [hcurrent, burstBegun, if_neg (by simpa using hbytes), hwire]
        exact List.prefix_rfl
      · rw [hclosed, List.length_map]
        exact Nat.le_succ _
  | astray hbytes hastray => exact absurd hastray (not_astray hmax hclean hbytes)

/-- A run whose source leaves no gap. -/
theorem gapless_run {cycles : List EthMacTxIn}
    (hgapless : Along (step maxFrame) (Gapless maxFrame) start cycles) :
    (runFrom (step maxFrame) start cycles).source.Clean maxFrame := by
  have hstep : ∀ (bench : MacTxBench) (i : EthMacTxIn), Gapless maxFrame bench i →
      bench.source.Clean maxFrame → (bench.step maxFrame i).source.Clean maxFrame :=
    fun _ _ hok hclean => clean_step hclean hok
  exact @invariant_along _ _ _ _ (fun bench => bench.source.Clean maxFrame) hstep _ clean_start
    _ hgapless

theorem encoded_along (hmax : maxFrame ≤ 16383) {cycles : List EthMacTxIn}
    (hgapless : Along (step maxFrame) (Gapless maxFrame) start cycles) :
    (runFrom (step maxFrame) start cycles).Encoded := by
  obtain ⟨hsettled, htraced⟩ := traced_run maxFrame cycles
  exact encoded_of_clean hmax hsettled htraced (gapless_run hgapless)

/-- With nothing held in S_IDLE, all that was handed over is out. -/
theorem closed_of_idle (hmax : maxFrame ≤ 16383) (htraced : bench.Traced maxFrame)
    (hclean : bench.source.Clean maxFrame) (hidle : bench.tx.state = .idle)
    (hnone : bench.tx.haveFirst = false) (hempty : bench.source.current.bytes = []) :
    bench.now.closed = bench.source.offered.map fun frame => wireFrame frame.bytes := by
  obtain ⟨groups, lost, hgroups, hknown, hprogress⟩ := htraced
  rw [groups_of_clean hmax hgroups hclean.offered] at hknown
  have hending : bench.tx.ending = false := by simp [EthMacTx.ending, hidle, hnone]
  cases hprogress with
  | between => exact encoded_of_known hending (hknown.trans (List.append_nil _))
  | first hcurrent => simp [hcurrent] at hempty
  | body hcurrent hbytes =>
      rw [hcurrent] at hempty
      exact absurd hempty hbytes
  | astray hbytes => exact absurd hempty hbytes

/-- A source with nothing to send, between two frames. -/
theorem quiet_run (hempty : bench.source.current.bytes = []) {quiet : List EthMacTxIn}
    (hquiet : ∀ i ∈ quiet, i.sAxisTvalid = false ∧ i.txStartOk = true) :
    Along (step maxFrame) (Gapless maxFrame) bench quiet ∧
      (runFrom (step maxFrame) bench quiet).source.offered = bench.source.offered ∧
      (runFrom (step maxFrame) bench quiet).source.current.bytes = [] := by
  induction quiet generalizing bench with
  | nil => exact ⟨trivial, rfl, hempty⟩
  | cons i rest ih =>
      have hvalid := (hquiet i List.mem_cons_self).1
      have hsame := @source_quiet maxFrame bench i (by rw [hvalid, Bool.and_false])
      have hnext : (bench.step maxFrame i).source.current.bytes = [] := by
        rw [hsame]
        exact hempty
      obtain ⟨halong, hoffered, hbytes⟩ :=
        ih hnext fun j hj => hquiet j (List.mem_cons_of_mem i hj)
      refine ⟨⟨fun _ => ⟨fun hne => absurd hempty hne, ?_⟩, halong⟩, ?_, hbytes⟩
      · rw [hvalid]
        exact Bool.noConfusion
      · rw [runFrom_cons, hoffered, hsame]

/-- Left alone between two frames, the transmitter sends all it has been handed. -/
theorem drained_run (hmax : maxFrame ≤ 16383) {cycles quiet : List EthMacTxIn}
    (hgapless : Along (step maxFrame) (Gapless maxFrame) start cycles)
    (hempty : (runFrom (step maxFrame) start cycles).source.current.bytes = [])
    (hquiet : ∀ i ∈ quiet, i.sAxisTvalid = false ∧ i.txStartOk = true)
    (henough : 85 ≤ quiet.length) :
    (runFrom (step maxFrame) start (cycles ++ quiet)).now.closed =
      (runFrom (step maxFrame) start cycles).source.offered.map
        fun frame => wireFrame frame.bytes := by
  obtain ⟨hstill, hoffered, hbytes⟩ := @quiet_run maxFrame _ hempty quiet hquiet
  have hclean := gapless_run (along_append.mpr ⟨hgapless, hstill⟩)
  obtain ⟨-, htraced⟩ := traced_run maxFrame (cycles ++ quiet)
  obtain ⟨hsettled, -⟩ := traced_run maxFrame cycles
  obtain ⟨hidle, hnone⟩ := @idle_run maxFrame _ hsettled quiet hquiet henough
  rw [runFrom_append] at hclean htraced ⊢
  rw [← hoffered]
  exact closed_of_idle hmax htraced hclean hidle hnone hbytes

/-! The gap between bursts. -/

end MacTxBench

/-- The bench with an eye on the gaps. -/
structure MacTxLine where
  bench : MacTxBench
  line : Spaced (BitVec 8 × Bool)
deriving Repr, DecidableEq

namespace MacTxLine

def start : MacTxLine := ⟨.start, .unseen⟩

def step (maxFrame : Nat) (view : MacTxLine) (i : EthMacTxIn) : MacTxLine where
  bench := view.bench.step maxFrame i
  line := view.line.observe view.bench.tx.beat

/-- The wire, with what is on the pins now. -/
def now (view : MacTxLine) : Spaced (BitVec 8 × Bool) :=
  view.line.observe view.bench.tx.beat

/-- Cycles without a burst that a state has behind it. -/
def rested (tx : EthMacTx) : Nat :=
  match tx.state with
  | .idle => if tx.haveFirst then 12 else if tx.sAxisTready then 11 else 10
  | .preamble => 12
  | .ifg => tx.count.toNat
  | _ => 0

/-- Gaps so far are long enough, and so will the one be that is on the wire. -/
structure Apart (view : MacTxLine) : Prop where
  settled : view.bench.tx.Settled
  same : view.line.toEnvelopes = view.bench.wire
  gaps : ∀ gap ∈ view.now.gaps, 12 ≤ gap
  burst : view.bench.tx.gmiiTxEn = true → view.now.opened ≠ []
  ended : view.bench.tx.gmiiTxEn = true → view.bench.tx.state = .ifg →
    view.bench.tx.count = 0
  quiet : view.bench.tx.gmiiTxEn = false →
    view.now.opened = [] ∧
      (view.bench.tx.state = .idle ∨ view.bench.tx.state = .preamble ∨
        view.bench.tx.state = .ifg) ∧
      (view.now.closed = [] ∨ rested view.bench.tx ≤ view.now.low)

variable {maxFrame : Nat} {view : MacTxLine} {i : EthMacTxIn}

theorem apart_start : start.Apart where
  settled := EthMacTx.settled_reset
  same := rfl
  gaps := by simp [start, now, MacTxBench.start, Spaced.unseen, Spaced.observe, EthMacTx.beat,
    EthMacTx.reset]
  burst := by simp [start, MacTxBench.start, EthMacTx.reset]
  ended := by simp [start, MacTxBench.start, EthMacTx.reset]
  quiet := fun _ => ⟨rfl, Or.inl rfl, Or.inl rfl⟩

/-- Outside a burst the gap grows by a cycle at least as fast as it is counted. -/
theorem edge_quiet {tx : EthMacTx} (hsettled : tx.Settled)
    (hstate : tx.state = .idle ∨ tx.state = .ifg) :
    (tx.clkEdge maxFrame i).gmiiTxEn = false ∧
      ((tx.clkEdge maxFrame i).state = .idle ∨ (tx.clkEdge maxFrame i).state = .preamble ∨
        (tx.clkEdge maxFrame i).state = .ifg) ∧
      rested (tx.clkEdge maxFrame i) ≤ rested tx + 1 := by
  rcases hstate with hidle | hifg
  · simp only [EthMacTx.clkEdge, hidle, EthMacTx.idleEdge, EthMacTx.cycleDefaults]
    cases hfirst : tx.haveFirst with
    | true =>
        cases i.txStartOk <;> simp [rested, hidle, hfirst]
    | false =>
        cases hready : tx.sAxisTready with
        | false => cases i.txStartOk <;> simp [rested, hidle, hfirst, hready]
        | true =>
            cases i.sAxisTvalid <;> cases i.txStartOk <;>
              simp [rested, hidle, hfirst, hready]
  · simp only [EthMacTx.Settled, hifg] at hsettled
    rw [EthMacTx.clkEdge_ifg hifg]
    refine ⟨rfl, ?_, ?_⟩
    · simp only [EthMacTx.ifgEdge]
      split <;> simp
    · simp only [EthMacTx.ifgEdge, EthMacTx.cycleDefaults, rested, hifg, EthMacTx.ifgBytes]
      by_cases hlast : 12 - 3 ≤ tx.count.toNat
      · simp only [hlast, if_true, hsettled.1]
        simpa using Nat.succ_le_succ hlast
      · have hsucc := @EthMacTx.toNat_succ 4 tx.count 15 (by omega) (by decide)
        simp only [hlast, if_false]
        exact hsucc.le

/-- A burst goes on to its last byte, which is on the pins in the first cycle of
S_IFG. -/
theorem edge_burst {tx : EthMacTx} (hsettled : tx.Settled) (hidle : tx.state ≠ .idle)
    (hifg : tx.state ≠ .ifg) : (tx.clkEdge maxFrame i).gmiiTxEn = true := by
  cases hlow : (tx.clkEdge maxFrame i).gmiiTxEn with
  | true => rfl
  | false =>
      have hbefore := EthMacTx.gmiiTxEn_clkEdge hsettled hifg hlow
      cases hstate : tx.state with
      | idle => exact absurd hstate hidle
      | ifg => exact absurd hstate hifg
      | preamble => simp [EthMacTx.clkEdge, hstate, EthMacTx.preambleEdge] at hlow
      | sfd | data | pad | crc => simp [EthMacTx.Settled, hstate, hbefore] at hsettled

theorem Apart.step (hapart : view.Apart) : (view.step maxFrame i).Apart := by
  have hnow : (view.step maxFrame i).now =
      view.now.observe (view.bench.tx.clkEdge maxFrame i).beat := rfl
  have htx : (view.step maxFrame i).bench.tx = view.bench.tx.clkEdge maxFrame i := rfl
  have hsettled := hapart.settled
  have hafter := @EthMacTx.Settled.clkEdge view.bench.tx maxFrame i hsettled
  have hsame : (view.step maxFrame i).line.toEnvelopes =
      (view.step maxFrame i).bench.wire := by
    change (view.line.observe view.bench.tx.beat).toEnvelopes = _
    rw [Spaced.observe_toEnvelopes, hapart.same]
    rfl
  cases hen : (view.bench.tx.clkEdge maxFrame i).gmiiTxEn with
  | true =>
      have hbeat : (view.bench.tx.clkEdge maxFrame i).beat.isSome = true := by
        simp [EthMacTx.beat, hen]
      refine ⟨hafter, hsame, ?_, ?_, fun hen hstate => EthMacTx.count_clkEdge hstate hen, ?_⟩
      · rw [hnow]
        cases hbefore : view.bench.tx.gmiiTxEn with
        | true =>
            rw [Spaced.observe_gaps_of_opened (hapart.burst hbefore)]
            exact hapart.gaps
        | false =>
            obtain ⟨-, hstate, hrested⟩ := hapart.quiet hbefore
            have hpreamble : view.bench.tx.state = .preamble := by
              rcases hstate with hidle | hpreamble | hifg
              · have := (@edge_quiet maxFrame i _ hsettled (Or.inl hidle)).1
                rw [hen] at this
                exact Bool.noConfusion this
              · exact hpreamble
              · have := (@edge_quiet maxFrame i _ hsettled (Or.inr hifg)).1
                rw [hen] at this
                exact Bool.noConfusion this
            rcases hrested with hfirst | hlow
            · rw [Spaced.observe_gaps_of_first hfirst]
              exact hapart.gaps
            · simp only [rested, hpreamble] at hlow
              exact Spaced.observe_gaps_of_low hapart.gaps hlow _
      · intro _
        rw [hnow, Spaced.observe_toEnvelopes]
        obtain ⟨beat, hbeat⟩ := Option.isSome_iff_exists.mp hbeat
        simp [hbeat]
      · intro hlow
        rw [htx, hen] at hlow
        exact Bool.noConfusion hlow
  | false =>
      have hbeat := EthMacTx.beat_eq_none.mpr hen
      have hstate : view.bench.tx.state = .idle ∨ view.bench.tx.state = .ifg := by
        by_contra hneither
        rw [not_or] at hneither
        rw [edge_burst hsettled hneither.1 hneither.2] at hen
        exact Bool.noConfusion hen
      obtain ⟨-, hnext, hrested⟩ := @edge_quiet maxFrame i _ hsettled hstate
      rw [hbeat] at hnow
      refine ⟨hafter, hsame, ?_, ?_, fun hen hstate => EthMacTx.count_clkEdge hstate hen, ?_⟩
      · rw [hnow]
        exact hapart.gaps
      · intro hhigh
        rw [htx, hen] at hhigh
        exact Bool.noConfusion hhigh
      · intro _
        rw [hnow, htx, Spaced.observe_toEnvelopes, Envelopes.observe_none_opened,
          Envelopes.observe_none_closed, Spaced.observe_none_low]
        refine ⟨rfl, hnext, ?_⟩
        cases hbefore : view.bench.tx.gmiiTxEn with
        | false =>
            obtain ⟨hopened, -, hlow⟩ := hapart.quiet hbefore
            rw [Envelopes.all_of_idle hopened]
            exact hlow.imp_right fun hle => hrested.trans (Nat.succ_le_succ hle)
        | true =>
            right
            have hifg : view.bench.tx.state = .ifg := by
              refine hstate.resolve_left fun hidle => ?_
              simp [EthMacTx.Settled, hidle, hbefore] at hsettled
            have hcount : rested view.bench.tx = 0 := by
              rw [rested, hifg]
              exact congrArg BitVec.toNat (hapart.ended hbefore hifg)
            rw [hcount] at hrested
            exact hrested.trans (Nat.succ_le_succ (Nat.zero_le _))

theorem apart_run (cycles : List EthMacTxIn) :
    (runFrom (step maxFrame) start cycles).Apart := by
  have hstep : ∀ (view : MacTxLine) (i : EthMacTxIn), view.Apart →
      (view.step maxFrame i).Apart := fun _ _ hapart => hapart.step
  exact invariant_runFrom hstep apart_start cycles

theorem run_bench (view : MacTxLine) (cycles : List EthMacTxIn) :
    (runFrom (step maxFrame) view cycles).bench =
      runFrom (MacTxBench.step maxFrame) view.bench cycles := by
  induction cycles generalizing view with
  | nil => rfl
  | cons i rest ih => exact ih (view.step maxFrame i)

theorem Apart.now_eq (hapart : view.Apart) : view.now.toEnvelopes = view.bench.now := by
  rw [now, Spaced.observe_toEnvelopes, hapart.same]
  rfl

/-- The source keeps `tvalid` high from the first to the last byte of a frame, and no
frame is longer than `MAX_FRAME`. -/
def KeepsValid (maxFrame : Nat) (bench : MacTxBench) (i : EthMacTxIn) : Prop :=
  (bench.source.current.bytes ≠ [] → i.sAxisTvalid = true) ∧
    (bench.tx.sAxisTready = true → i.sAxisTvalid = true →
      bench.source.current.bytes.length + (if i.sAxisTlast then 1 else 2) ≤ maxFrame)

instance (maxFrame : Nat) (bench : MacTxBench) (i : EthMacTxIn) :
    Decidable (KeepsValid maxFrame bench i) :=
  inferInstanceAs (Decidable (_ ∧ _))

theorem gapless_of_keepsValid {bench : MacTxBench} (hkeeps : KeepsValid maxFrame bench i) :
    MacTxBench.Gapless maxFrame bench i :=
  fun hready => ⟨hkeeps.1, hkeeps.2 hready⟩

/-- Every burst is the encoding of a frame, without `gmii_tx_er`, in order and one for
each frame; the one that is open has begun like the encoding of the next frame, and at
most one frame handed over is still to come, which does come when the source rests.
Bursts are at least 12 cycles apart. -/
theorem encodes_run (hmax : maxFrame ≤ 16383) {cycles : List EthMacTxIn}
    (hsource : Along (MacTxBench.step maxFrame) (KeepsValid maxFrame) .start cycles) :
    let view := runFrom (step maxFrame) start cycles
    let frames := view.bench.source.offered.map fun frame => wireFrame frame.bytes
    view.now.closed <+: frames ∧
      view.now.Shows (frames ++ burstBegun view.bench.source.current) ∧
      view.bench.source.offered.length ≤ view.now.closed.length + 1 ∧
      (∀ gap ∈ view.now.gaps, 12 ≤ gap) ∧
      ∀ quiet : List EthMacTxIn, view.bench.source.current.bytes = [] →
        (∀ i ∈ quiet, i.sAxisTvalid = false ∧ i.txStartOk = true) → 85 ≤ quiet.length →
        (runFrom (step maxFrame) start (cycles ++ quiet)).now.closed = frames := by
  intro view frames
  have hgapless := along_mono
    (fun (bench : MacTxBench) (i : EthMacTxIn) (hkeeps : KeepsValid maxFrame bench i) =>
      gapless_of_keepsValid hkeeps) hsource
  have hbench : view.bench = runFrom (MacTxBench.step maxFrame) .start cycles :=
    run_bench start cycles
  have hapart : view.Apart := apart_run cycles
  have hencoded := MacTxBench.encoded_along hmax hgapless
  rw [← hbench] at hencoded
  rw [hapart.now_eq]
  refine ⟨hencoded.whole, hencoded.shows, hencoded.behind, hapart.gaps, ?_⟩
  intro quiet hempty hquiet henough
  rw [hbench] at hempty
  rw [(apart_run (cycles ++ quiet)).now_eq, run_bench]
  exact (MacTxBench.drained_run hmax hgapless hempty hquiet henough).trans (by rw [← hbench])

/-- Frames of three and of two bytes; starting is forbidden from the cycle on in which the
first byte of the second one is handed over. -/
def twoFrames : List EthMacTxIn :=
  List.replicate 2 ⟨0x11, true, false, true⟩ ++ List.replicate 10 ⟨0x22, true, false, true⟩ ++
    [⟨0x33, true, true, true⟩] ++ List.replicate 72 ⟨0x44, true, false, true⟩ ++
    [⟨0x44, true, false, false⟩] ++ List.replicate 4 ⟨0x66, true, true, false⟩ ++
    List.replicate 11 ⟨0x66, true, true, true⟩

/-- The source at rest. -/
def quietCycles : List EthMacTxIn := List.replicate 85 ⟨0, false, false, true⟩

theorem encodes_run_two :
    let view := runFrom (step 1518) start (twoFrames ++ quietCycles)
    view.now.closed = [wireFrame [0x11, 0x22, 0x33], wireFrame [0x44, 0x66]] ∧
      view.now.gaps.length = 1 ∧ ∀ gap ∈ view.now.gaps, 12 ≤ gap := by
  have hdone := (@encodes_run 1518 (by decide) twoFrames (by decide +kernel)).2.2.2.2 quietCycles
    (by decide +kernel) (by decide +kernel) (by decide +kernel)
  have hgaps := (@encodes_run 1518 (by decide) (twoFrames ++ quietCycles)
    (by decide +kernel)).2.2.2.1
  exact ⟨hdone.trans (by decide +kernel), by decide +kernel, hgaps⟩

end MacTxLine

/-- The framer takes a byte of the stream in this cycle. -/
def EthMacTx.takes (tx : EthMacTx) (i : EthMacTxIn) : Bool :=
  match tx.state with
  | .idle => !tx.haveFirst && i.sAxisTvalid && tx.sAxisTready
  | .data => !tx.frameEnded && !tx.haveFirst && i.sAxisTvalid
  | _ => false

namespace MacTxBench

variable {bench : MacTxBench} {i : EthMacTxIn}

/-- The cycles in which a byte is taken are those of a handshake. -/
def InStep (bench : MacTxBench) (i : EthMacTxIn) : Prop :=
  bench.tx.takes i = (bench.tx.sAxisTready && i.sAxisTvalid)

instance (bench : MacTxBench) (i : EthMacTxIn) : Decidable (InStep bench i) :=
  inferInstanceAs (Decidable (_ = _))

theorem inStep_of_clean (hmax : maxFrame ≤ 16383) (hsettled : bench.tx.Settled)
    (htraced : bench.Traced maxFrame) (hclean : bench.source.Clean maxFrame) :
    InStep bench i := by
  cases hready : bench.tx.sAxisTready with
  | true =>
      obtain ⟨hnone, hidle | ⟨hdata, hended⟩⟩ := hsettled.ready_state hready
      · simp [InStep, EthMacTx.takes, hidle, hnone, hready]
      · simp [InStep, EthMacTx.takes, hdata, hnone, hended, hready]
  | false =>
      obtain ⟨groups, lost, hgroups, hknown, hprogress⟩ := htraced
      cases hprogress with
      | between hcurrent hprogress =>
          cases hstate : bench.tx.state <;> cases hfirst : bench.tx.haveFirst <;>
            simp_all [InStep, EthMacTx.takes, EthMacTx.inProgress]
      | first hcurrent hfirst =>
          cases hstate : bench.tx.state <;>
            simp [InStep, EthMacTx.takes, hstate, hfirst, hready]
      | body hcurrent hbytes hfits hstate hbusy =>
          rw [hready] at hbusy
          exact Bool.noConfusion hbusy
      | astray hbytes hastray => exact absurd hastray (not_astray hmax hclean hbytes)

/-- While no gap is offered and no frame is too long, the framer takes a byte in the
cycles of a handshake and in no others, and its bursts are the encodings of the frames
handed over, one each and in order. -/
theorem consumes_run (hmax : maxFrame ≤ 16383) {cycles : List EthMacTxIn}
    (hgapless : Along (step maxFrame) (Gapless maxFrame) start cycles) :
    let bench := runFrom (step maxFrame) start cycles
    let frames := bench.source.offered.map fun frame => wireFrame frame.bytes
    Along (step maxFrame) InStep start cycles ∧
      bench.now.closed <+: frames ∧
      bench.now.Shows (frames ++ burstBegun bench.source.current) ∧
      bench.source.offered.length ≤ bench.now.closed.length + 1 ∧
      ∀ quiet : List EthMacTxIn, bench.source.current.bytes = [] →
        (∀ i ∈ quiet, i.sAxisTvalid = false ∧ i.txStartOk = true) → 85 ≤ quiet.length →
        (runFrom (step maxFrame) start (cycles ++ quiet)).now.closed = frames := by
  intro bench frames
  have hencoded : bench.Encoded := encoded_along hmax hgapless
  refine ⟨?_, hencoded.whole, hencoded.shows, hencoded.behind, ?_⟩
  · have hstep : ∀ (bench : MacTxBench) (i : EthMacTxIn), Gapless maxFrame bench i →
        bench.tx.Settled ∧ bench.Traced maxFrame ∧ bench.source.Clean maxFrame →
        (bench.step maxFrame i).tx.Settled ∧ (bench.step maxFrame i).Traced maxFrame ∧
          (bench.step maxFrame i).source.Clean maxFrame :=
      fun _ _ hok ⟨hsettled, htraced, hclean⟩ =>
        ⟨hsettled.clkEdge, htraced.step hsettled, clean_step hclean hok⟩
    have hother : ∀ (bench : MacTxBench) (i : EthMacTxIn), Gapless maxFrame bench i →
        bench.tx.Settled ∧ bench.Traced maxFrame ∧ bench.source.Clean maxFrame →
        InStep bench i :=
      fun _ _ _ ⟨hsettled, htraced, hclean⟩ => inStep_of_clean hmax hsettled htraced hclean
    exact along_of_invariant hstep hother
      ⟨EthMacTx.settled_reset, traced_start, clean_start⟩ hgapless
  · intro quiet hempty hquiet henough
    exact drained_run hmax hgapless hempty hquiet henough

/-- A frame of two bytes. -/
theorem consumes_run_two :
    Along (step 1518) InStep start
      ([⟨0x11, true, false, true⟩, ⟨0x11, true, false, true⟩] ++
        List.replicate 10 ⟨0x22, true, true, true⟩) :=
  (@consumes_run 1518 (by decide) _ (by decide +kernel)).1

/-- A source that waits for `tready` with what it offers. -/
def heldFrom (maxFrame : Nat) : MacTxBench → List EthMacTxIn → Bool
  | bench, i :: j :: rest =>
      (!i.sAxisTvalid || bench.tx.sAxisTready ||
        (j.sAxisTvalid && j.sAxisTdata == i.sAxisTdata && j.sAxisTlast == i.sAxisTlast)) &&
        heldFrom maxFrame (bench.step maxFrame i) (j :: rest)
  | _, _ => true

/-- Three bytes, the last of them a cycle late. -/
def gappedFrame : List EthMacTxIn :=
  List.replicate 2 ⟨0x11, true, false, true⟩ ++ List.replicate 10 ⟨0x22, true, false, true⟩ ++
    [⟨0, false, false, true⟩] ++ List.replicate 74 ⟨0x33, true, true, true⟩ ++
    List.replicate 90 ⟨0, false, false, true⟩

/-- The last byte goes out twice: in the frame, where it is not handshaken, and behind
it as a frame of its own with a good FCS. -/
theorem consumes_run_gapped :
    let bench := runFrom (step 1518) start gappedFrame
    heldFrom 1518 start gappedFrame = true ∧
      bench.source.offered.map SourceFrame.bytes = [[0x11, 0x22, 0x33]] ∧
      bench.source.current.bytes = [] ∧
      ¬ Along (step 1518) InStep start gappedFrame ∧
      bench.now.closed.length = 2 ∧
      bench.now.closed[1]? = some (wireFrame [0x33]) := by
  decide +kernel

end MacTxBench

end EmacZero
