/-
`eth_mac_tx` between an observer of its AXI-Stream source and one of the wire:
every frame offered without gaps goes out whole, in order.
-/
import EmacZero.ClockedRun
import EmacZero.EthMacTxFrames

namespace EmacZero

/-- The bytes of a frame, and whether one was there whenever the transmitter was
ready for it. -/
structure SourceFrame where
  bytes : List (BitVec 8)
  steady : Bool
deriving Repr, DecidableEq

/-- The frames that a source has handed over, and the one it is at. -/
structure AxisSource where
  offered : List SourceFrame
  current : SourceFrame
deriving Repr, DecidableEq

namespace AxisSource

def start : AxisSource := ⟨[], ⟨[], true⟩⟩

/-- One cycle at the pins: a handshake, or none. -/
def observe (source : AxisSource) (i : EthMacTxIn) (tready : Bool) : AxisSource :=
  if tready && i.sAxisTvalid then
    let handed : SourceFrame :=
      ⟨source.current.bytes ++ [i.sAxisTdata], source.current.steady⟩
    if i.sAxisTlast then ⟨source.offered ++ [handed], ⟨[], true⟩⟩
    else ⟨source.offered, handed⟩
  else
    ⟨source.offered, source.current.bytes,
      source.current.steady && (!tready || source.current.bytes.isEmpty)⟩

end AxisSource

/-- The transmitter, its source and the wire. -/
structure MacTxBench where
  tx : EthMacTx
  source : AxisSource
  wire : Envelopes (BitVec 8 × Bool)
deriving Repr, DecidableEq

namespace MacTxBench

variable (maxFrame : Nat)

def start : MacTxBench := ⟨.reset, .start, .unseen⟩

def step (bench : MacTxBench) (i : EthMacTxIn) : MacTxBench where
  tx := bench.tx.clkEdge maxFrame i
  source := bench.source.observe i bench.tx.sAxisTready
  wire := bench.wire.observe bench.tx.beat

/-- The wire, with what is on the pins now. -/
def now (bench : MacTxBench) : Envelopes (BitVec 8 × Bool) :=
  bench.wire.observe bench.tx.beat

/-- The envelope on the wire, whole, once its end is known. -/
def owed (bench : MacTxBench) : List (List (BitVec 8 × Bool)) :=
  if bench.tx.ending then [bench.now.opened ++ errorFree bench.tx.remaining] else []

/-- Every envelope of which the whole content is settled. -/
def known (bench : MacTxBench) : List (List (BitVec 8 × Bool)) :=
  bench.now.closed ++ bench.owed

variable {maxFrame} {bench : MacTxBench} {i : EthMacTxIn}

theorem owed_of_open (hending : bench.tx.ending = false) : bench.owed = [] := by
  simp [owed, hending]

theorem step_now (bench : MacTxBench) (i : EthMacTxIn) :
    (bench.step maxFrame i).now =
      bench.now.observe (bench.tx.clkEdge maxFrame i).beat := rfl

theorem now_opened_of_low (hlow : bench.tx.gmiiTxEn = false) : bench.now.opened = [] := by
  rw [now, EthMacTx.beat_eq_none.mpr hlow, Envelopes.observe_none_opened]

theorem now_opened_of_high (hhigh : bench.tx.gmiiTxEn = true) : bench.now.opened ≠ [] := by
  simp [now, EthMacTx.beat, hhigh]

/-- Nothing on the pins ends no envelope, but right after a frame. -/
theorem closed_step (hsettled : bench.tx.Settled) (hifg : bench.tx.state ≠ .ifg) :
    (bench.step maxFrame i).now.closed = bench.now.closed ∧
      (bench.step maxFrame i).now.opened =
        bench.now.opened ++ (bench.tx.clkEdge maxFrame i).beat.toList := by
  rw [step_now]
  cases hbeat : (bench.tx.clkEdge maxFrame i).beat with
  | some beat => exact ⟨rfl, rfl⟩
  | none =>
      have hlow := EthMacTx.beat_eq_none.mp hbeat
      have hopened := now_opened_of_low (EthMacTx.gmiiTxEn_clkEdge hsettled hifg hlow)
      rw [Envelopes.observe_none_closed, Envelopes.all_of_idle hopened,
        Envelopes.observe_none_opened, hopened]
      exact ⟨rfl, rfl⟩

theorem ifg_low {tx : EthMacTx} (hstate : tx.state = .ifg) :
    (tx.clkEdge maxFrame i).gmiiTxEn = false := by
  rw [EthMacTx.clkEdge_ifg hstate]
  rfl

/-- Content that is settled stays, and while an envelope is on its way to its end
nothing new settles. -/
theorem known_step_ending (hsettled : bench.tx.Settled) (hending : bench.tx.ending = true) :
    (bench.step maxFrame i).known = bench.known := by
  by_cases hifg : bench.tx.state = .ifg
  · have hlow : (bench.step maxFrame i).tx.gmiiTxEn = false := ifg_low hifg
    have hhigh : bench.tx.gmiiTxEn = true := by
      simpa [EthMacTx.ending, hifg] using hending
    have hnot : (bench.step maxFrame i).tx.ending = false := by
      simp only [EthMacTx.Settled, hifg] at hsettled
      simp only [step, EthMacTx.clkEdge_ifg hifg, EthMacTx.ifgEdge, EthMacTx.cycleDefaults]
      split <;> simp [EthMacTx.ending, hsettled.1]
    have hbeat : (bench.tx.clkEdge maxFrame i).beat = none :=
      EthMacTx.beat_eq_none.mpr hlow
    rw [known, known, owed, owed, hnot, hending, step_now, hbeat,
      Envelopes.observe_none_closed, Envelopes.all_of_busy (now_opened_of_high hhigh)]
    simp [EthMacTx.remaining, hifg]
  · obtain ⟨hclosed, hopened⟩ := @closed_step maxFrame bench i hsettled hifg
    obtain ⟨hafter, hrest⟩ :=
      @EthMacTx.remaining_clkEdge _ maxFrame i hsettled hending hifg
    have hstep : (bench.step maxFrame i).tx = bench.tx.clkEdge maxFrame i := rfl
    rw [known, known, owed, owed, hending, hstep, hafter, hclosed, hopened, hrest]
    simp

theorem known_step (hsettled : bench.tx.Settled) (hending : bench.tx.ending = false) :
    (bench.step maxFrame i).known = bench.known ++ (bench.step maxFrame i).owed := by
  have hclosed : (bench.step maxFrame i).now.closed = bench.now.closed := by
    by_cases hifg : bench.tx.state = .ifg
    · have hlow : bench.tx.gmiiTxEn = false := by
        simpa [EthMacTx.ending, hifg] using hending
      rw [step_now, EthMacTx.beat_eq_none.mpr (ifg_low hifg),
        Envelopes.observe_none_closed, Envelopes.all_of_idle (now_opened_of_low hlow)]
    · exact (closed_step hsettled hifg).1
  rw [known, known, hclosed, owed_of_open hending, List.append_nil]

/-- Settled content is never taken back. -/
theorem known_grows (hsettled : bench.tx.Settled) :
    ∃ more, (bench.step maxFrame i).known = bench.known ++ more := by
  cases hending : bench.tx.ending with
  | true => exact ⟨[], by rw [known_step_ending hsettled hending, List.append_nil]⟩
  | false => exact ⟨_, known_step hsettled hending⟩

/-! The frame that the source is at. -/

/-- The longest frame that fits: `MAX_FRAME`, or all that `data_cnt` can count. -/
def capacity (maxFrame : Nat) : Nat := min maxFrame 16383

/-- What a frame goes out as: something, and if it was offered without gaps and
fits, itself. -/
structure Relayed (maxFrame : Nat) (frame : SourceFrame)
    (group : List (List (BitVec 8 × Bool))) : Prop where
  ne_nil : group ≠ []
  whole : frame.steady = true → frame.bytes.length ≤ capacity maxFrame →
    group = [wireFrame frame.bytes]

theorem relayed_ne_nil {offered : List SourceFrame}
    {groups : List (List (List (BitVec 8 × Bool)))}
    (hgroups : List.Forall₂ (Relayed maxFrame) offered groups) :
    ∀ group ∈ groups, group ≠ [] := by
  induction hgroups with
  | nil => simp
  | cons hrelayed _ ih =>
      intro group hgroup
      rcases List.mem_cons.mp hgroup with rfl | hgroup
      · exact hrelayed.ne_nil
      · exact ih group hgroup

/-- How far the frame is that the source is at, and what the wire already has of it
if it goes astray. -/
inductive Progress (maxFrame : Nat) (bench : MacTxBench) :
    List (List (BitVec 8 × Bool)) → Prop
  | between (hcurrent : bench.source.current = ⟨[], true⟩)
      (hprogress : bench.tx.inProgress = false) : Progress maxFrame bench []
  | first (hcurrent : bench.source.current = ⟨[bench.tx.firstData], true⟩)
      (hfirst : bench.tx.haveFirst = true) (hlast : bench.tx.firstLast = false)
      (hfits : 1 < capacity maxFrame)
      (hwire : bench.now.opened ++ errorFree bench.tx.leader = errorFree preambleBytes) :
      Progress maxFrame bench []
  | body {bytes} (hcurrent : bench.source.current = ⟨bytes, true⟩) (hbytes : bytes ≠ [])
      (hfits : bytes.length < capacity maxFrame) (hstate : bench.tx.state = .data)
      (hready : bench.tx.sAxisTready = true) (hcrc : bench.tx.crcAccum = crcOf bytes)
      (hcount : bench.tx.dataCnt.toNat = bytes.length)
      (hwire : bench.now.opened = errorFree (preambleBytes ++ bytes)) :
      Progress maxFrame bench []
  | astray {lost} (hbytes : bench.source.current.bytes ≠ [])
      (hastray : bench.source.current.steady = false ∨
        capacity maxFrame ≤ bench.source.current.bytes.length) :
      Progress maxFrame bench lost

/-- The frames handed over so far have settled on the wire, but for what it has of
the one that the source is at. -/
def Traced (maxFrame : Nat) (bench : MacTxBench) : Prop :=
  ∃ groups lost, List.Forall₂ (Relayed maxFrame) bench.source.offered groups ∧
    bench.known = groups.flatten ++ lost ∧ bench.Progress maxFrame lost

theorem traced_start : start.Traced maxFrame :=
  ⟨[], [], .nil, rfl, .between rfl rfl⟩

/-! One cycle. -/

theorem source_quiet (hquiet : (bench.tx.sAxisTready && i.sAxisTvalid) = false) :
    (bench.step maxFrame i).source =
      ⟨bench.source.offered, bench.source.current.bytes,
        bench.source.current.steady &&
          (!bench.tx.sAxisTready || bench.source.current.bytes.isEmpty)⟩ := by
  simp [step, AxisSource.observe, hquiet]

theorem source_more (hready : bench.tx.sAxisTready = true) (hvalid : i.sAxisTvalid = true)
    (hlast : i.sAxisTlast = false) :
    (bench.step maxFrame i).source =
      ⟨bench.source.offered, bench.source.current.bytes ++ [i.sAxisTdata],
        bench.source.current.steady⟩ := by
  simp [step, AxisSource.observe, hready, hvalid, hlast]

theorem source_last (hready : bench.tx.sAxisTready = true) (hvalid : i.sAxisTvalid = true)
    (hlast : i.sAxisTlast = true) :
    (bench.step maxFrame i).source =
      ⟨bench.source.offered ++
        [⟨bench.source.current.bytes ++ [i.sAxisTdata], bench.source.current.steady⟩],
        [], true⟩ := by
  simp [step, AxisSource.observe, hready, hvalid, hlast]

section Step

variable {groups : List (List (List (BitVec 8 × Bool)))}
  (hgroups : List.Forall₂ (Relayed maxFrame) bench.source.offered groups)
include hgroups

/-- A frame that went astray before its last byte. -/
theorem traced_astray (hsettled : bench.tx.Settled)
    {lost : List (List (BitVec 8 × Bool))} (hknown : bench.known = groups.flatten ++ lost)
    (hbytes : bench.source.current.bytes ≠ [])
    (hastray : bench.source.current.steady = false ∨
      capacity maxFrame ≤ bench.source.current.bytes.length) :
    (bench.step maxFrame i).Traced maxFrame := by
  cases hquiet : bench.tx.sAxisTready && i.sAxisTvalid with
  | false =>
      obtain ⟨more, hmore⟩ := @known_grows maxFrame bench i hsettled
      rw [hknown, List.append_assoc] at hmore
      have hsource := @source_quiet maxFrame bench i hquiet
      refine ⟨groups, lost ++ more, ?_, hmore, .astray ?_ ?_⟩
      · rw [hsource]
        exact hgroups
      · rw [hsource]
        exact hbytes
      · rw [hsource]
        rcases hastray with hgap | hlong
        · simp [hgap]
        · exact Or.inr hlong
  | true =>
      rw [Bool.and_eq_true] at hquiet
      obtain ⟨hready, hvalid⟩ := hquiet
      have hmore := @known_step maxFrame bench i hsettled
        (hsettled.ending_ready hready)
      rw [hknown, List.append_assoc] at hmore
      cases hlast : i.sAxisTlast with
      | false =>
          have hsource := @source_more maxFrame bench i hready hvalid hlast
          refine ⟨groups, lost ++ (bench.step maxFrame i).owed, ?_, hmore, .astray ?_ ?_⟩
          · rw [hsource]
            exact hgroups
          · simp [hsource]
          · rw [hsource]
            rcases hastray with hgap | hlong
            · exact Or.inl hgap
            · right
              simp only [List.length_append, List.length_singleton]
              omega
      | true =>
          have hsource := @source_last maxFrame bench i hready hvalid hlast
          refine ⟨groups ++ [lost ++ (bench.step maxFrame i).owed], [], ?_,
            by simpa using hmore, .between ?_ ?_⟩
          · rw [hsource]
            refine List.rel_append hgroups (.cons ⟨?_, ?_⟩ .nil)
            · have hending :=
                @EthMacTx.ending_taken bench.tx maxFrame i hsettled hready hvalid hlast
              simp [owed, step, hending]
            · intro hsteady hlength
              simp only [List.length_append, List.length_singleton] at hsteady hlength
              rcases hastray with hgap | hlong
              · simp [hgap] at hsteady
              · omega
          · rw [hsource]
          · exact EthMacTx.inProgress_taken hsettled hready hvalid hlast

/-- A frame goes astray in this cycle. -/
theorem traced_strays (hsettled : bench.tx.Settled)
    {lost : List (List (BitVec 8 × Bool))} (hknown : bench.known = groups.flatten ++ lost)
    (hoffered : (bench.step maxFrame i).source.offered = bench.source.offered)
    (hbytes : (bench.step maxFrame i).source.current.bytes ≠ [])
    (hastray : (bench.step maxFrame i).source.current.steady = false ∨
      capacity maxFrame ≤ (bench.step maxFrame i).source.current.bytes.length) :
    (bench.step maxFrame i).Traced maxFrame := by
  obtain ⟨more, hmore⟩ := @known_grows maxFrame bench i hsettled
  rw [hknown, List.append_assoc] at hmore
  refine ⟨groups, lost ++ more, ?_, hmore, .astray hbytes hastray⟩
  rw [hoffered]
  exact hgroups

/-- The end of a frame is handed over without a gap. -/
theorem traced_whole (hsettled : bench.tx.Settled) (hknown : bench.known = groups.flatten)
    (hending : bench.tx.ending = false) (hready : bench.tx.sAxisTready = true)
    (hvalid : i.sAxisTvalid = true) (hlast : i.sAxisTlast = true)
    (howed : (bench.step maxFrame i).owed =
      [wireFrame (bench.source.current.bytes ++ [i.sAxisTdata])]) :
    (bench.step maxFrame i).Traced maxFrame := by
  have hsource := @source_last maxFrame bench i hready hvalid hlast
  have hmore := @known_step maxFrame bench i hsettled hending
  rw [hknown, howed] at hmore
  refine ⟨groups ++ [[wireFrame (bench.source.current.bytes ++ [i.sAxisTdata])]], [],
    ?_, by simpa using hmore, .between ?_ ?_⟩
  · rw [hsource]
    exact List.rel_append hgroups (.cons ⟨by simp, fun _ _ => rfl⟩ .nil)
  · rw [hsource]
  · exact EthMacTx.inProgress_taken hsettled hready hvalid hlast

theorem traced_between (hsettled : bench.tx.Settled)
    (hknown : bench.known = groups.flatten)
    (hcurrent : bench.source.current = ⟨[], true⟩)
    (hprogress : bench.tx.inProgress = false) :
    (bench.step maxFrame i).Traced maxFrame := by
  cases hquiet : bench.tx.sAxisTready && i.sAxisTvalid with
  | false =>
      have hsource := @source_quiet maxFrame bench i hquiet
      have hsame : (bench.step maxFrame i).known = bench.known := by
        cases hending : bench.tx.ending with
        | true => exact known_step_ending hsettled hending
        | false =>
            rw [known_step hsettled hending, owed_of_open, List.append_nil]
            exact EthMacTx.ending_clkEdge hsettled hprogress hending hquiet
      refine ⟨groups, [], ?_, by rw [hsame, hknown, List.append_nil], .between ?_ ?_⟩
      · rw [hsource]
        exact hgroups
      · simp [hsource, hcurrent]
      · exact EthMacTx.inProgress_clkEdge hsettled hprogress hquiet
  | true =>
      rw [Bool.and_eq_true] at hquiet
      obtain ⟨hready, hvalid⟩ := hquiet
      obtain ⟨hnone, hstate⟩ := hsettled.ready_state hready
      have hidle : bench.tx.state = .idle := by
        rcases hstate with hidle | ⟨hdata, hended⟩
        · exact hidle
        · simp [EthMacTx.inProgress, hnone, hdata, hended] at hprogress
      have hending : bench.tx.ending = false := by
        simp [EthMacTx.ending, hidle, hnone]
      obtain ⟨hfirst, hdata, hfirstLast, hlow, hleader⟩ :=
        @EthMacTx.idle_taken bench.tx maxFrame i hidle hnone hready hvalid
      have hopened : (bench.step maxFrame i).now.opened = [] := now_opened_of_low hlow
      have hsettled' := @EthMacTx.Settled.clkEdge bench.tx maxFrame i hsettled
      cases hlast : i.sAxisTlast with
      | false =>
          have hsource := @source_more maxFrame bench i hready hvalid hlast
          by_cases hfits : 1 < capacity maxFrame
          · refine ⟨groups, [], ?_, ?_, .first ?_ hfirst ?_ hfits ?_⟩
            · rw [hsource]
              exact hgroups
            · rw [known_step hsettled hending, hknown, owed_of_open]
              change (bench.tx.clkEdge maxFrame i).ending = false
              rw [hsettled'.ending_held hfirst, hfirstLast, hlast]
            · rw [hsource, hcurrent]
              change _ = SourceFrame.mk [(bench.tx.clkEdge maxFrame i).firstData] true
              rw [hdata]
              rfl
            · exact hfirstLast.trans hlast
            · rw [hopened]
              exact congrArg errorFree hleader
          · apply @traced_strays maxFrame bench i groups hgroups hsettled []
            · rw [hknown, List.append_nil]
            · rw [hsource]
            · simp [hsource]
            · right
              rw [hsource, hcurrent]
              simp only [List.nil_append, List.length_singleton]
              omega
      | true =>
          apply traced_whole hgroups hsettled hknown hending hready hvalid hlast
          have hafter : (bench.step maxFrame i).tx.ending = true := by
            change (bench.tx.clkEdge maxFrame i).ending = true
            rw [hsettled'.ending_held hfirst, hfirstLast, hlast]
          have hremaining : (bench.step maxFrame i).tx.remaining =
              preambleBytes ++ i.sAxisTdata :: EthMacTx.trailer (crcOf [i.sAxisTdata]) 1 := by
            change (bench.tx.clkEdge maxFrame i).remaining = _
            rw [hsettled'.remaining_held hfirst, hleader, EthMacTx.single, hdata]
            rfl
          rw [owed, hafter, hopened, hremaining, hcurrent, EthMacTx.wireFrame_eq,
            List.append_assoc]
          rfl

/-- Preamble, SFD and the byte held. -/
theorem traced_first (hsettled : bench.tx.Settled) (hknown : bench.known = groups.flatten)
    (hcurrent : bench.source.current = ⟨[bench.tx.firstData], true⟩)
    (hfirst : bench.tx.haveFirst = true) (hlast : bench.tx.firstLast = false)
    (hfits : 1 < capacity maxFrame)
    (hwire : bench.now.opened ++ errorFree bench.tx.leader = errorFree preambleBytes) :
    (bench.step maxFrame i).Traced maxFrame := by
  have hready : bench.tx.sAxisTready = false := by
    by_contra hready
    rw [Bool.not_eq_false] at hready
    simp [(hsettled.ready_state hready).1] at hfirst
  have hifg : bench.tx.state ≠ .ifg := by
    intro hifg
    simp [EthMacTx.Settled, hifg, hfirst] at hsettled
  have hsource := @source_quiet maxFrame bench i (by rw [hready]; rfl)
  rw [hready, hcurrent] at hsource
  have hending : bench.tx.ending = false := by
    rw [hsettled.ending_held hfirst, hlast]
  have hsettled' := @EthMacTx.Settled.clkEdge bench.tx maxFrame i hsettled
  have hopened := (@closed_step maxFrame bench i hsettled hifg).2
  have hmore := @known_step maxFrame bench i hsettled hending
  rw [hknown] at hmore
  by_cases hdata : bench.tx.state = .data
  · simp only [EthMacTx.Settled, hdata] at hsettled
    obtain ⟨hen, hheld, -, -⟩ := hsettled
    obtain ⟨hcnt, hcrc, hended⟩ := hheld hfirst
    have hroom : bench.tx.dataCnt.toNat + 1 < maxFrame := by
      rw [hcnt]
      exact Nat.lt_of_lt_of_le hfits (Nat.min_le_left _ _)
    have hedge : bench.tx.clkEdge maxFrame i =
        bench.tx.byteEdge maxFrame bench.tx.firstData false := by
      simp [EthMacTx.clkEdge, hdata, EthMacTx.dataEdge, hended, hfirst, hlast]
    obtain ⟨hstate', hready', hcrc', hcnt', hbeat', hending'⟩ :=
      EthMacTx.byteEdge_more hdata hen hended hroom bench.tx.firstData
    rw [← hedge] at hstate' hready' hcrc' hcnt' hbeat' hending'
    refine ⟨groups, [], ?_, ?_, @Progress.body _ _ [bench.tx.firstData] ?_ ?_ hfits hstate'
      hready' ?_ ?_ ?_⟩
    · rw [hsource]
      exact hgroups
    · rw [hmore, owed_of_open hending']
    · rw [hsource]
      rfl
    · simp
    · change (bench.tx.clkEdge maxFrame i).crcAccum = _
      rw [hcrc', hcrc]
      rfl
    · change (bench.tx.clkEdge maxFrame i).dataCnt.toNat = _
      rw [hcnt', hcnt]
      rfl
    · rw [EthMacTx.leader, hdata] at hwire
      rw [hopened, hbeat', errorFree_append, ← hwire]
      simp
  · obtain ⟨hfirst', hdata', hlast', hleader⟩ :=
      @EthMacTx.leader_clkEdge bench.tx maxFrame i hsettled hfirst hdata
    refine ⟨groups, [], ?_, ?_, .first ?_ hfirst' (hlast'.trans hlast) hfits ?_⟩
    · rw [hsource]
      exact hgroups
    · rw [hmore, owed_of_open]
      change (bench.tx.clkEdge maxFrame i).ending = false
      rw [hsettled'.ending_held hfirst', hlast', hlast]
    · rw [hsource]
      change _ = SourceFrame.mk [(bench.tx.clkEdge maxFrame i).firstData] true
      rw [hdata']
      rfl
    · rw [hopened, ← hwire, hleader, List.append_assoc]
      rfl

/-- The bytes of a frame as the source hands them over. -/
theorem traced_body (hsettled : bench.tx.Settled) (hknown : bench.known = groups.flatten)
    {bytes : List (BitVec 8)} (hcurrent : bench.source.current = ⟨bytes, true⟩)
    (hbytes : bytes ≠ []) (hfits : bytes.length < capacity maxFrame)
    (hstate : bench.tx.state = .data) (hready : bench.tx.sAxisTready = true)
    (hcrc : bench.tx.crcAccum = crcOf bytes)
    (hcount : bench.tx.dataCnt.toNat = bytes.length)
    (hwire : bench.now.opened = errorFree (preambleBytes ++ bytes)) :
    (bench.step maxFrame i).Traced maxFrame := by
  obtain ⟨hnone, hwhere⟩ := hsettled.ready_state hready
  have hended : bench.tx.frameEnded = false := by
    rcases hwhere with hidle | ⟨-, hended⟩
    · simp [hstate] at hidle
    · exact hended
  have hending : bench.tx.ending = false := by
    simp [EthMacTx.ending, hstate, hended, hnone]
  have hen : bench.tx.gmiiTxEn = true := by
    simp only [EthMacTx.Settled, hstate] at hsettled
    exact hsettled.1
  have hopened := (@closed_step maxFrame bench i hsettled (by simp [hstate])).2
  cases hvalid : i.sAxisTvalid with
  | false =>
      have hsource := @source_quiet maxFrame bench i (by rw [hvalid, Bool.and_false])
      rw [hcurrent, hready] at hsource
      apply @traced_strays maxFrame bench i groups hgroups hsettled []
      · rw [hknown, List.append_nil]
      · rw [hsource]
      · rw [hsource]
        exact hbytes
      · left
        rw [hsource]
        simpa using hbytes
  | true =>
      have hedge := @EthMacTx.data_taken bench.tx maxFrame i hstate hnone hended hvalid
      have hbound : bytes.length + 1 < 2 ^ 14 := by
        have htop : capacity maxFrame ≤ 16383 := Nat.min_le_right _ _
        omega
      have hcount' : (bench.tx.dataCnt + 1).toNat = bytes.length + 1 := by
        rw [← hcount]
        exact EthMacTx.toNat_succ (Nat.lt_succ_self _) (by omega)
      cases hlast : i.sAxisTlast with
      | true =>
          apply traced_whole hgroups hsettled hknown hending hready hvalid hlast
          obtain ⟨hending', hbeat', hremaining'⟩ :=
            @EthMacTx.byteEdge_last bench.tx maxFrame hstate hen i.sAxisTdata
          rw [hlast] at hedge
          rw [← hedge] at hending' hbeat' hremaining'
          rw [hcrc, hcount'] at hremaining'
          have hafter : (bench.step maxFrame i).tx = bench.tx.clkEdge maxFrame i := rfl
          rw [owed, hafter, hending', hremaining', hopened, hbeat', hwire, hcurrent,
            EthMacTx.wireFrame_eq, crcOf_concat, List.length_append]
          simp
      | false =>
          have hsource := @source_more maxFrame bench i hready hvalid hlast
          rw [hcurrent] at hsource
          by_cases hroom : bytes.length + 1 < capacity maxFrame
          · have hmax : bench.tx.dataCnt.toNat + 1 < maxFrame := by
              rw [hcount]
              exact Nat.lt_of_lt_of_le hroom (Nat.min_le_left _ _)
            obtain ⟨hstate', hready', hcrc', hcnt', hbeat', hending'⟩ :=
              EthMacTx.byteEdge_more hstate hen hended hmax i.sAxisTdata
            rw [hlast] at hedge
            rw [← hedge] at hstate' hready' hcrc' hcnt' hbeat' hending'
            refine ⟨groups, [], ?_, ?_, @Progress.body _ _ (bytes ++ [i.sAxisTdata]) ?_
              (by simp) (by simpa using hroom) hstate' hready' ?_ ?_ ?_⟩
            · rw [hsource]
              exact hgroups
            · rw [known_step hsettled hending, hknown, owed_of_open hending']
            · rw [hsource]
            · change (bench.tx.clkEdge maxFrame i).crcAccum = _
              rw [hcrc', hcrc, crcOf_concat]
            · change (bench.tx.clkEdge maxFrame i).dataCnt.toNat = _
              rw [hcnt', hcount']
              simp
            · rw [hopened, hbeat', hwire]
              simp
          · apply @traced_strays maxFrame bench i groups hgroups hsettled []
            · rw [hknown, List.append_nil]
            · rw [hsource]
            · simp [hsource]
            · right
              rw [hsource]
              simp only [List.length_append, List.length_singleton]
              omega

end Step

/-- One cycle keeps the account of the wire. -/
theorem Traced.step (hsettled : bench.tx.Settled) (htraced : bench.Traced maxFrame) :
    (bench.step maxFrame i).Traced maxFrame := by
  obtain ⟨groups, lost, hgroups, hknown, hprogress⟩ := htraced
  cases hprogress with
  | between hcurrent hprogress =>
      rw [List.append_nil] at hknown
      exact traced_between hgroups hsettled hknown hcurrent hprogress
  | first hcurrent hfirst hlast hfits hwire =>
      rw [List.append_nil] at hknown
      exact traced_first hgroups hsettled hknown hcurrent hfirst hlast hfits hwire
  | body hcurrent hbytes hfits hstate hready hcrc hcount hwire =>
      rw [List.append_nil] at hknown
      exact traced_body hgroups hsettled hknown hcurrent hbytes hfits hstate hready hcrc
        hcount hwire
  | astray hbytes hastray =>
      exact traced_astray hgroups hsettled hknown hbytes hastray

theorem traced_run (maxFrame : Nat) (cycles : List EthMacTxIn) :
    (runFrom (step maxFrame) start cycles).tx.Settled ∧
      (runFrom (step maxFrame) start cycles).Traced maxFrame := by
  apply @invariant_runFrom _ _ (step maxFrame) fun bench =>
    bench.tx.Settled ∧ bench.Traced maxFrame
  · rintro bench i ⟨hsettled, htraced⟩
    exact ⟨hsettled.clkEdge, htraced.step hsettled⟩
  · exact ⟨EthMacTx.settled_reset, traced_start⟩

/-- Left alone the transmitter is back in S_IDLE soon, whatever it was sending. -/
theorem idle_run (hsettled : bench.tx.Settled) {cycles : List EthMacTxIn}
    (hquiet : ∀ i ∈ cycles, i.sAxisTvalid = false ∧ i.txStartOk = true)
    (henough : 85 ≤ cycles.length) :
    (runFrom (step maxFrame) bench cycles).tx.state = .idle ∧
      (runFrom (step maxFrame) bench cycles).tx.haveFirst = false := by
  have hless : (runFrom (step maxFrame) bench cycles).tx.linger ≤
      bench.tx.linger - cycles.length := by
    clear henough
    induction cycles generalizing bench with
    | nil => exact Nat.le_refl _
    | cons i rest ih =>
        obtain ⟨hvalid, hstart⟩ := hquiet i List.mem_cons_self
        have hfirst := @EthMacTx.linger_clkEdge bench.tx maxFrame i hsettled hvalid hstart
        have hrest := @ih (bench.step maxFrame i) hsettled.clkEdge
          fun j hj => hquiet j (List.mem_cons_of_mem i hj)
        change _ ≤ (bench.tx.clkEdge maxFrame i).linger - rest.length at hrest
        rw [runFrom_cons, List.length_cons]
        omega
  have hbound := EthMacTx.linger_le bench.tx
  exact EthMacTx.idle_of_linger (by omega)

end MacTxBench

end EmacZero
