/-
The ingest side of `tx_csum_off`: a frame is stored, its sums settle and it is
committed, and the tail of one that is too long is thrown away.
-/
import EmacZero.TxCsumOffQueue

namespace EmacZero

namespace TxCsumBench

variable {params : TxCsumParams} {bench : TxCsumBench params} {check : CsumBench}

/-- The checksum engine's cycle. -/
def calcEvent (bench : TxCsumBench params) (i : TxCsumIn) : CsumEvent :=
  if bench.stage.inHs i then
    if bench.stage.inCnt = 0 then .first i.sTdata else .next i.sTdata
  else .idle bench.stage.inCnt i.sTdata

/-- Enough of a pause for the next frame. -/
def Spaced (check : CsumBench) : Prop := check.frame = [] ∨ 4 ≤ check.gap

/-- The three states of ingest, with the words of the frame that is not committed yet and
what is to come out for it. -/
inductive Ingest (bench : TxCsumBench params) (check : CsumBench) :
    List (Bool × BitVec 8) → List (List (BitVec 8)) → Prop where
  | data (hstate : bench.stage.inState = .data) (hcut : bench.stage.cut = false)
      (hcount : bench.stage.inCnt.toNat = bench.taking.bytes.length)
      (hroom : bench.taking.bytes.length < params.maxFrame)
      (hopen : bench.taking.bytes ≠ [] →
        bench.stage.enFrame = bench.taking.enable ∧ check.frame = bench.taking.bytes)
      (hspaced : bench.taking.bytes = [] → Spaced check) :
      Ingest bench check (openBeats bench.taking.bytes) []
  | flush (bytes : List (BitVec 8)) (hstate : bench.stage.inState = .flush)
      (hne : bytes ≠ []) (hfits : bytes.length ≤ params.maxFrame)
      (hframe : check.frame = bytes)
      (hgap : 3 ≤ check.gap + bench.stage.flushCnt.toNat)
      (hwhole : bench.stage.cut = false → bench.taking = ⟨false, []⟩)
      (hlong : bench.stage.cut = true → params.maxFrame ≤ bench.taking.bytes.length) :
      Ingest bench check (frameBeats bytes)
        [if bench.stage.enFrame && !bench.stage.cut then inserted bytes else bytes]
  | drop (hstate : bench.stage.inState = .drop) (hcut : bench.stage.cut = false)
      (hcount : bench.stage.inCnt = 0)
      (hlong : params.maxFrame ≤ bench.taking.bytes.length) (hspaced : Spaced check) :
      Ingest bench check [] []

/-- The engine beside the stage's, and what is known of it. -/
structure Checked (bench : TxCsumBench params) (check : CsumBench) : Prop where
  engine : check.engine = bench.stage.uCalc
  zero : check.zero = true
  known : check.clean = true ∧ check.Flow ∧ check.Results

/-- What a cycle makes of the frame that is going in. -/
inductive Ingested (bench : TxCsumBench params) (check : CsumBench) (i : TxCsumIn)
    (pending : List (Bool × BitVec 8)) (waiting : List (List (BitVec 8))) : Prop where
  | grows (added : List (List (BitVec 8))) (hcommit : bench.stage.commit = false)
      (hdue : (bench.step i).due = bench.due ++ added)
      (hingest : (bench.step i).Ingest (check.step (bench.calcEvent i))
        (pending ++ if bench.stage.inHs i then [(bench.stage.inLast i, i.sTdata)] else [])
        (waiting ++ added))
  | commits (bytes : List (BitVec 8)) (hcommit : bench.stage.commit = true)
      (hne : bytes ≠ []) (hquiet : bench.stage.inHs i = false)
      (hpending : pending = frameBeats bytes)
      (hwaiting : waiting = [bench.stage.metaIn.patched bytes])
      (hdue : (bench.step i).due = bench.due)
      (hingest : (bench.step i).Ingest (check.step (bench.calcEvent i)) [] [])

theorem spaced_idle (hspaced : Spaced check) (inIdx : BitVec 14) (inData : BitVec 8) :
    Spaced (check.step (.idle inIdx inData)) := by
  rcases hspaced with hnone | hgap
  · exact Or.inl hnone
  · exact Or.inr (Nat.le_succ_of_le hgap)

theorem calcEvent_idle {i : TxCsumIn} (hquiet : bench.stage.inHs i = false) :
    bench.calcEvent i = .idle bench.stage.inCnt i.sTdata := by
  rw [calcEvent, hquiet, if_neg Bool.false_ne_true]

/-- Outside `IN_DATA` no byte reaches the buffer. -/
theorem quiet_of_state {i : TxCsumIn} (hstate : bench.stage.inState ≠ .data) :
    bench.stage.inHs i = false := by
  rw [TxCsumOff.inHs, beq_eq_false_iff_ne.mpr hstate, Bool.and_false]

theorem commit_of_state (hstate : bench.stage.inState ≠ .flush) :
    bench.stage.commit = false := by
  rw [TxCsumOff.commit, beq_eq_false_iff_ne.mpr hstate]
  rfl

/-- While the sums settle nothing is taken. -/
theorem accepts_flush {i : TxCsumIn} (hstate : bench.stage.inState = .flush) :
    bench.accepts i = false := by
  simp [accepts, TxCsumOff.sTready, hstate]

/-- A frame that is short so far owes nothing yet. -/
theorem due_short (hroom : bench.taking.bytes.length < params.maxFrame) :
    bench.due = bench.taken.map (sentFrame params) := by
  rw [due, if_neg (Nat.not_le.mpr hroom), List.append_nil]

section Data

variable (hstate : bench.stage.inState = .data)
include hstate

theorem accepts_data (i : TxCsumIn) : bench.accepts i = bench.stage.inHs i := by
  rw [TxCsumOff.inHs, hstate, beq_self_eq_true, Bool.and_true]
  rfl

theorem commit_data : bench.stage.commit = false := commit_of_state (by simp [hstate])

end Data

/-- A byte is the frame's first one when the count says so. -/
theorem inCnt_eq_zero_iff (hcount : bench.stage.inCnt.toNat = bench.taking.bytes.length) :
    bench.stage.inCnt = 0 ↔ bench.taking.bytes = [] := by
  rw [← BitVec.toNat_inj, hcount]
  exact List.length_eq_zero_iff

/-- The engine is given the frame's bytes in order, and frames far enough apart. -/
theorem Ingest.legal {pending : List (Bool × BitVec 8)} {waiting : List (List (BitVec 8))}
    (hingest : bench.Ingest check pending waiting) (i : TxCsumIn) :
    check.Legal 4 (bench.calcEvent i) ∧
      (bench.stage.inHs i = true → bench.stage.inCnt ≠ 0 →
        bench.stage.inCnt = BitVec.ofNat 14 check.frame.length) := by
  have hmax := params.max_le
  cases hquiet : bench.stage.inHs i with
  | false =>
      rw [calcEvent_idle hquiet]
      exact ⟨trivial, fun hpush => by cases hpush⟩
  | true =>
      cases hingest with
      | data hstate hcut hcount hroom hopen hspaced =>
          have hzero := inCnt_eq_zero_iff hcount
          rw [calcEvent, hquiet, if_pos rfl]
          by_cases hfirst : bench.stage.inCnt = 0
          · rw [if_pos hfirst]
            exact ⟨hspaced (hzero.mp hfirst), fun _ hlater => absurd hfirst hlater⟩
          · have hne := fun hnil => hfirst (hzero.mpr hnil)
            have hframe := (hopen hne).2
            rw [if_neg hfirst]
            refine ⟨⟨hframe ▸ hne, ?_⟩, fun _ _ => ?_⟩
            · rw [hframe]
              omega
            · rw [hframe, ← hcount, BitVec.ofNat_toNat, BitVec.setWidth_eq]
      | flush bytes hstate =>
          rw [quiet_of_state (by simp [hstate])] at hquiet
          cases hquiet
      | drop hstate =>
          rw [quiet_of_state (by simp [hstate])] at hquiet
          cases hquiet

theorem Checked.step (hchecked : bench.Checked check) (i : TxCsumIn)
    (hlegal : check.Legal 4 (bench.calcEvent i))
    (hcount : bench.stage.inHs i = true → bench.stage.inCnt ≠ 0 →
      bench.stage.inCnt = BitVec.ofNat 14 check.frame.length) :
    (bench.step i).Checked (check.step (bench.calcEvent i)) := by
  obtain ⟨hengine, hzero, hknown⟩ := hchecked
  have hpins : check.pins (bench.calcEvent i) = bench.stage.calcIn i := by
    rw [calcEvent, TxCsumOff.calcIn]
    cases hpush : bench.stage.inHs i with
    | false => simp [CsumBench.pins, hzero]
    | true =>
        by_cases hfirst : bench.stage.inCnt = 0
        · simp [CsumBench.pins, hzero, hfirst]
        · rw [if_pos rfl, if_neg hfirst, hcount hpush hfirst]
          change CsumIn.mk true _ _ check.zero = _
          rw [hzero]
  have hedge (event : CsumEvent) : (check.step event).engine =
      check.engine.clkEdge (check.pins event) ∧ (check.step event).zero = check.zero := by
    cases event <;> exact ⟨rfl, rfl⟩
  refine ⟨?_, (hedge _).2.trans hzero, CsumBench.clean_step hlegal hknown⟩
  rw [(hedge _).1, hpins, hengine]
  rfl

section Byte

variable {i : TxCsumIn} (hstate : bench.stage.inState = .data)
  (hcount : bench.stage.inCnt.toNat = bench.taking.bytes.length)
  (hopen : bench.taking.bytes ≠ [] →
    bench.stage.enFrame = bench.taking.enable ∧ check.frame = bench.taking.bytes)
  (hpush : bench.stage.inHs i = true)

include hcount in
theorem atMax_iff :
    bench.stage.atMax = true ↔ bench.taking.bytes.length + 1 = params.maxFrame := by
  rw [TxCsumOff.atMax, beq_iff_eq, hcount]
  have hpos := params.max_pos
  omega

include hcount hopen hpush in
/-- The engine has the frame with the new byte. -/
theorem frame_calcEvent :
    (check.step (bench.calcEvent i)).frame = (bench.grown i).bytes := by
  have hzero := inCnt_eq_zero_iff hcount
  rw [calcEvent, hpush, if_pos rfl]
  by_cases hfirst : bench.stage.inCnt = 0
  · rw [if_pos hfirst]
    change [i.sTdata] = bench.taking.bytes ++ [i.sTdata]
    rw [hzero.mp hfirst]
    rfl
  · have hne := fun hnil => hfirst (hzero.mpr hnil)
    rw [if_neg hfirst]
    change check.frame ++ [i.sTdata] = bench.taking.bytes ++ [i.sTdata]
    rw [(hopen hne).2]

include hcount hopen in
/-- `enable` counts at the first byte. -/
theorem enFrame_grown :
    (if bench.stage.inCnt = 0 then i.enable else bench.stage.enFrame) =
      (bench.grown i).enable := by
  have hzero := inCnt_eq_zero_iff hcount
  by_cases hfirst : bench.stage.inCnt = 0
  · rw [if_pos hfirst, grown, hzero.mp hfirst]
    rfl
  · have hne : bench.taking.bytes ≠ [] := fun hnil => hfirst (hzero.mpr hnil)
    rw [if_neg hfirst, (hopen hne).1, grown]
    simp [hne]

include hstate hpush in
theorem nextIngest_byte : bench.stage.nextIngest i =
    let begun : TxCsumIngest :=
      { bench.stage.toTxCsumIngest with
        enFrame := if bench.stage.inCnt = 0 then i.enable else bench.stage.enFrame }
    if bench.stage.inLast i then
      { begun with
        inState := .flush
        flushCnt := 3
        cut := bench.stage.atMax && !i.sTlast }
    else { begun with inCnt := bench.stage.inCnt + 1 } := by
  rw [TxCsumOff.nextIngest, hstate, hpush]
  rfl

include hstate hcount hopen hpush in
/-- A frame's next byte. -/
theorem ingested_byte (hcut : bench.stage.cut = false)
    (hroom : bench.taking.bytes.length < params.maxFrame) :
    bench.Ingested check i (openBeats bench.taking.bytes) [] := by
  have hmax := params.max_le
  have haccepts : bench.accepts i = true := (accepts_data hstate i).trans hpush
  have hregs : (bench.step i).stage.toTxCsumIngest = bench.stage.nextIngest i := rfl
  have hframe := @frame_calcEvent _ _ check i hcount hopen hpush
  have hdue := due_short hroom
  have hgrown : (bench.grown i).bytes = bench.taking.bytes ++ [i.sTdata] := rfl
  have hsize : (bench.grown i).bytes.length = bench.taking.bytes.length + 1 := by
    rw [hgrown, List.length_append, List.length_singleton]
  have hne : (bench.grown i).bytes ≠ [] := by simp [hgrown]
  rw [nextIngest_byte hstate hpush, enFrame_grown hcount hopen] at hregs
  by_cases hlast : bench.stage.inLast i = true
  · rw [if_pos hlast] at hregs
    have hbeats : openBeats bench.taking.bytes ++
        (if bench.stage.inHs i then [(bench.stage.inLast i, i.sTdata)] else []) =
        frameBeats (bench.grown i).bytes := by
      rw [hpush, hlast, hgrown, frameBeats_concat]
      rfl
    cases htlast : i.sTlast with
    | true =>
        have htaking : (bench.step i).taking = ⟨false, []⟩ := by simp [step, haccepts, htlast]
        have hcut' : (bench.step i).stage.cut = false := by
          rw [congrArg TxCsumIngest.cut hregs, htlast]
          simp
        have hsent : sentFrame params (bench.grown i) =
            if (bench.step i).stage.enFrame && !(bench.step i).stage.cut then
              inserted (bench.grown i).bytes else (bench.grown i).bytes := by
          rw [sentFrame, if_neg (by omega), hcut', congrArg TxCsumIngest.enFrame hregs]
          simp
        refine .grows [sentFrame params (bench.grown i)] (commit_data hstate) ?_ ?_
        · rw [hdue, due_short (by rw [htaking]; exact params.max_pos)]
          simp [step, haccepts, htlast]
        · rw [hbeats, hsent]
          refine .flush _ (congrArg TxCsumIngest.inState hregs) hne (by omega) hframe ?_ ?_ ?_
          · rw [congrArg TxCsumIngest.flushCnt hregs]
            exact Nat.le_add_left 3 _
          · exact fun _ => htaking
          · intro hset
            rw [hcut'] at hset
            cases hset
    | false =>
        have hatMax : bench.stage.atMax = true := by
          rw [TxCsumOff.inLast, htlast, Bool.false_or] at hlast
          exact hlast
        have hfull := (atMax_iff hcount).mp hatMax
        have htaking : (bench.step i).taking = bench.grown i := by
          simp [step, haccepts, htlast]
        have hcut' : (bench.step i).stage.cut = true := by
          rw [congrArg TxCsumIngest.cut hregs, htlast, hatMax]
          rfl
        refine .grows [(bench.grown i).bytes] (commit_data hstate) ?_ ?_
        · rw [hdue, due, htaking, if_pos (by omega), List.take_of_length_le (by omega)]
          simp [step, htlast]
        · have hkept : [(bench.grown i).bytes] =
              [if (bench.step i).stage.enFrame && !(bench.step i).stage.cut then
                inserted (bench.grown i).bytes else (bench.grown i).bytes] := by
            rw [hcut', Bool.not_true, Bool.and_false, if_neg Bool.false_ne_true]
          rw [hbeats, List.nil_append, hkept]
          refine .flush _ (congrArg TxCsumIngest.inState hregs) hne (by omega) hframe ?_ ?_ ?_
          · rw [congrArg TxCsumIngest.flushCnt hregs]
            exact Nat.le_add_left 3 _
          · intro hclear
            rw [hcut'] at hclear
            cases hclear
          · intro _
            rw [htaking]
            omega
  · rw [if_neg hlast] at hregs
    rw [Bool.not_eq_true] at hlast
    obtain ⟨htlast, hatMax⟩ : i.sTlast = false ∧ bench.stage.atMax = false := by
      rw [TxCsumOff.inLast, Bool.or_eq_false_iff] at hlast
      exact hlast
    have hshort : bench.taking.bytes.length + 1 ≠ params.maxFrame := by
      rw [Ne, ← atMax_iff hcount, hatMax]
      exact Bool.false_ne_true
    have htaking : (bench.step i).taking = bench.grown i := by
      simp [step, haccepts, htlast]
    refine .grows [] (commit_data hstate) ?_ ?_
    · rw [hdue, due_short (by rw [htaking]; omega)]
      simp [step, htlast]
    · rw [hpush, hlast, if_pos rfl, ← openBeats_concat, ← hgrown, ← htaking]
      refine .data ?_ ?_ ?_ ?_ ?_ ?_
      · rw [congrArg TxCsumIngest.inState hregs]
        exact hstate
      · rw [congrArg TxCsumIngest.cut hregs]
        exact hcut
      · rw [congrArg TxCsumIngest.inCnt hregs, htaking, hsize, ← hcount]
        apply BitVec.toNat_add_of_lt
        exact Nat.add_lt_of_lt_sub (by rw [hcount]; simp; omega)
      · rw [htaking]
        omega
      · intro _
        rw [congrArg TxCsumIngest.enFrame hregs, htaking]
        exact ⟨rfl, hframe⟩
      · intro hnil
        rw [htaking] at hnil
        exact absurd hnil hne

end Byte

/-- A cycle in which the frame waits. -/
theorem ingested_wait {i : TxCsumIn} (hstate : bench.stage.inState = .data)
    (hquiet : bench.stage.inHs i = false) (hcut : bench.stage.cut = false)
    (hcount : bench.stage.inCnt.toNat = bench.taking.bytes.length)
    (hroom : bench.taking.bytes.length < params.maxFrame)
    (hopen : bench.taking.bytes ≠ [] →
      bench.stage.enFrame = bench.taking.enable ∧ check.frame = bench.taking.bytes)
    (hspaced : bench.taking.bytes = [] → Spaced check) :
    bench.Ingested check i (openBeats bench.taking.bytes) [] := by
  have haccepts : bench.accepts i = false := (accepts_data hstate i).trans hquiet
  have htaking : (bench.step i).taking = bench.taking := by simp [step, haccepts]
  have hregs : (bench.step i).stage.toTxCsumIngest = bench.stage.toTxCsumIngest := by
    change bench.stage.nextIngest i = _
    rw [TxCsumOff.nextIngest, hstate, hquiet]
    rfl
  refine .grows [] (commit_data hstate) ?_ ?_
  · rw [due, due, htaking]
    simp [step, haccepts]
  · rw [hquiet, if_neg Bool.false_ne_true, List.append_nil, List.append_nil, ← htaking,
      calcEvent_idle hquiet]
    refine .data ?_ ?_ ?_ ?_ ?_ ?_
    · rw [congrArg TxCsumIngest.inState hregs]
      exact hstate
    · rw [congrArg TxCsumIngest.cut hregs]
      exact hcut
    · rw [congrArg TxCsumIngest.inCnt hregs, htaking]
      exact hcount
    · rw [htaking]
      exact hroom
    · rw [congrArg TxCsumIngest.enFrame hregs, htaking]
      exact hopen
    · rw [htaking]
      exact fun hnone => spaced_idle (hspaced hnone) _ _

/-- The countdown gives the engine its three cycles. -/
theorem gap_settling {gap : Nat} {flushCnt : BitVec 3} (hgap : 3 ≤ gap + flushCnt.toNat) :
    3 ≤ gap + 1 + (if flushCnt = 0 then 0 else flushCnt - 1).toNat := by
  by_cases hzero : flushCnt = 0
  · rw [hzero] at hgap ⊢
    exact Nat.le_succ_of_le hgap
  · have hpos : (1 : BitVec 3) ≤ flushCnt := by
      rw [BitVec.le_def]
      exact Nat.pos_of_ne_zero fun hnone => hzero (BitVec.eq_of_toNat_eq hnone)
    rw [if_neg hzero, BitVec.toNat_sub_of_le hpos]
    change 3 ≤ gap + 1 + (flushCnt.toNat - 1)
    omega

/-- The sums settle, and the frame is committed with its checksums. -/
theorem ingested_flush {i : TxCsumIn} {bytes : List (BitVec 8)}
    (hstate : bench.stage.inState = .flush) (hne : bytes ≠ [])
    (hfits : bytes.length ≤ params.maxFrame) (hframe : check.frame = bytes)
    (hgap : 3 ≤ check.gap + bench.stage.flushCnt.toNat)
    (hwhole : bench.stage.cut = false → bench.taking = ⟨false, []⟩)
    (hlong : bench.stage.cut = true → params.maxFrame ≤ bench.taking.bytes.length)
    (hchecked : bench.Checked check) :
    bench.Ingested check i (frameBeats bytes)
      [if bench.stage.enFrame && !bench.stage.cut then inserted bytes else bytes] := by
  have haccepts := @accepts_flush _ bench i hstate
  have hquiet : bench.stage.inHs i = false := quiet_of_state (by simp [hstate])
  have htaking : (bench.step i).taking = bench.taking := by simp [step, haccepts]
  have hdue : (bench.step i).due = bench.due := by
    rw [due, due, htaking]
    simp [step, haccepts]
  have hmax := params.max_le
  have hregs : (bench.step i).stage.toTxCsumIngest = bench.stage.nextIngest i := rfl
  rw [TxCsumOff.nextIngest, hstate] at hregs
  cases hcommit : bench.stage.commit with
  | false =>
      simp only [hcommit, Bool.false_eq_true, if_false] at hregs
      refine .grows [] hcommit (hdue.trans (List.append_nil _).symm) ?_
      rw [hquiet, if_neg Bool.false_ne_true, List.append_nil, List.append_nil,
        calcEvent_idle hquiet, ← congrArg TxCsumIngest.cut hregs,
        ← congrArg TxCsumIngest.enFrame hregs]
      refine .flush bytes ?_ hne hfits hframe ?_ ?_ ?_
      · rw [congrArg TxCsumIngest.inState hregs]
        exact hstate
      · rw [congrArg TxCsumIngest.flushCnt hregs]
        exact gap_settling hgap
      · rw [congrArg TxCsumIngest.cut hregs, htaking]
        exact hwhole
      · rw [congrArg TxCsumIngest.cut hregs, htaking]
        exact hlong
  | true =>
      simp only [hcommit, if_true] at hregs
      obtain ⟨hzero, hroom⟩ : bench.stage.flushCnt = 0 ∧ bench.stage.metaFull = false := by
        simpa [TxCsumOff.commit, hstate] using hcommit
      have hanswers : check.Answers := by
        apply CsumBench.answers_of_gap hchecked.known
        rw [hzero] at hgap
        exact hgap
      have hpatched := patched_metaIn hanswers hchecked.zero hchecked.engine (by rw [hframe]; omega)
      rw [hframe] at hpatched
      refine .commits bytes hcommit hne hquiet rfl (by rw [hpatched]) hdue ?_
      have hspaced : Spaced (check.step (bench.calcEvent i)) := by
        rw [calcEvent_idle hquiet]
        refine Or.inr (Nat.succ_le_succ ?_)
        rw [hzero] at hgap
        exact hgap
      cases hcut : bench.stage.cut with
      | true =>
          rw [hcut, if_pos rfl] at hregs
          refine .drop (congrArg TxCsumIngest.inState hregs) (congrArg TxCsumIngest.cut hregs)
            (congrArg TxCsumIngest.inCnt hregs) ?_ hspaced
          rw [htaking]
          exact hlong hcut
      | false =>
          rw [hcut, if_neg Bool.false_ne_true] at hregs
          have hnone : (bench.step i).taking.bytes = [] := by rw [htaking, hwhole hcut]
          have hdata := @Ingest.data _ (bench.step i) (check.step (bench.calcEvent i))
            (congrArg TxCsumIngest.inState hregs) (congrArg TxCsumIngest.cut hregs)
            (by rw [congrArg TxCsumIngest.inCnt hregs, hnone]; rfl)
            (by rw [hnone]; exact params.max_pos)
            (fun hsome => absurd hnone hsome) (fun _ => hspaced)
          rw [hnone] at hdata
          exact hdata

/-- The tail of a cut frame. -/
theorem ingested_drop {i : TxCsumIn} (hstate : bench.stage.inState = .drop)
    (hcut : bench.stage.cut = false) (hcount : bench.stage.inCnt = 0)
    (hlong : params.maxFrame ≤ bench.taking.bytes.length) (hspaced : Spaced check) :
    bench.Ingested check i [] [] := by
  have haccepts : bench.accepts i = i.sTvalid := by
    simp [accepts, TxCsumOff.sTready, hstate]
  have hquiet : bench.stage.inHs i = false := quiet_of_state (by simp [hstate])
  have hregs : (bench.step i).stage.toTxCsumIngest = bench.stage.nextIngest i := rfl
  rw [TxCsumOff.nextIngest, hstate] at hregs
  have hspaced' : Spaced (check.step (bench.calcEvent i)) := by
    rw [calcEvent_idle hquiet]
    exact spaced_idle hspaced _ _
  have hdue : bench.due = bench.taken.map (sentFrame params) ++
      [bench.taking.bytes.take params.maxFrame] := by
    rw [due, if_pos hlong]
  have hgrown : (bench.grown i).bytes = bench.taking.bytes ++ [i.sTdata] := rfl
  have hsize : (bench.grown i).bytes.length = bench.taking.bytes.length + 1 := by
    rw [hgrown, List.length_append, List.length_singleton]
  have htake : (bench.grown i).bytes.take params.maxFrame =
      bench.taking.bytes.take params.maxFrame := by
    rw [hgrown, List.take_append_of_le_length hlong]
  have hnothing : [] ++ (if bench.stage.inHs i then [(bench.stage.inLast i, i.sTdata)] else []) =
      [] := by
    rw [hquiet]
    rfl
  refine .grows [] (commit_of_state (by simp [hstate])) ?_ ?_
  · rw [List.append_nil, hdue]
    cases hvalid : i.sTvalid with
    | false => simp [due, step, haccepts, hvalid, hlong]
    | true =>
        cases htlast : i.sTlast with
        | false =>
            have htaking : (bench.step i).taking = bench.grown i := by
              simp [step, haccepts, hvalid, htlast]
            rw [due, htaking, if_pos (by omega), htake]
            simp [step, htlast]
        | true =>
            have htaking : (bench.step i).taking = ⟨false, []⟩ := by
              simp [step, haccepts, hvalid, htlast]
            rw [due_short (by rw [htaking]; exact params.max_pos), ← htake]
            simp [step, haccepts, hvalid, htlast, sentFrame, show params.maxFrame <
              (bench.grown i).bytes.length by omega]
  · rw [hnothing]
    by_cases hend : (i.sTvalid && i.sTlast) = true
    · rw [if_pos hend] at hregs
      have hnone : (bench.step i).taking.bytes = [] := by
        rw [Bool.and_eq_true] at hend
        simp [step, haccepts, hend.1, hend.2]
      have hdata := @Ingest.data _ (bench.step i) (check.step (bench.calcEvent i))
        (congrArg TxCsumIngest.inState hregs)
        (by rw [congrArg TxCsumIngest.cut hregs]; exact hcut)
        (by rw [congrArg TxCsumIngest.inCnt hregs, hnone]; exact congrArg BitVec.toNat hcount)
        (by rw [hnone]; exact params.max_pos)
        (fun hsome => absurd hnone hsome) (fun _ => hspaced')
      rw [hnone] at hdata
      exact hdata
    · rw [if_neg hend] at hregs
      refine .drop ?_ ?_ ?_ ?_ hspaced'
      · rw [congrArg TxCsumIngest.inState hregs]
        exact hstate
      · rw [congrArg TxCsumIngest.cut hregs]
        exact hcut
      · rw [congrArg TxCsumIngest.inCnt hregs]
        exact hcount
      · cases hvalid : i.sTvalid with
        | false => simp [step, haccepts, hvalid, hlong]
        | true =>
            have htlast : i.sTlast = false := by simpa [hvalid] using hend
            have htaking : (bench.step i).taking = bench.grown i := by
              simp [step, haccepts, hvalid, htlast]
            rw [htaking]
            omega

/-- A cycle, whatever ingest is doing. -/
theorem Ingest.step {pending : List (Bool × BitVec 8)} {waiting : List (List (BitVec 8))}
    (hingest : bench.Ingest check pending waiting) (hchecked : bench.Checked check)
    (i : TxCsumIn) : bench.Ingested check i pending waiting := by
  cases hingest with
  | data hstate hcut hcount hroom hopen hspaced =>
      cases hpush : bench.stage.inHs i with
      | true => exact ingested_byte hstate hcount hopen hpush hcut hroom
      | false => exact ingested_wait hstate hpush hcut hcount hroom hopen hspaced
  | flush bytes hstate hne hfits hframe hgap hwhole hlong =>
      exact ingested_flush hstate hne hfits hframe hgap hwhole hlong hchecked
  | drop hstate hcut hcount hlong hspaced =>
      exact ingested_drop hstate hcut hcount hlong hspaced

end TxCsumBench

end EmacZero
