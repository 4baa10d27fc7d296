/-
`tx_csum_off` over a whole run: the frames come out as they went in, with their
checksums, whatever either side does and however `enable` is toggled.
-/
import EmacZero.Envelopes
import EmacZero.TxCsumOffIngest

namespace EmacZero

namespace TxCsumBench

variable {params : TxCsumParams} {bench : TxCsumBench params}
  {queue : List (List (BitVec 8) × TxCsumMeta)} {pending : List (Bool × BitVec 8)}

theorem queueBeats_append (first second : List (List (BitVec 8) × TxCsumMeta)) :
    queueBeats (first ++ second) = queueBeats first ++ queueBeats second :=
  List.flatMap_append

/-- Committed frames have words left. -/
theorem queueBeats_ne_nil (hqueued : bench.Heads queue) (hne : queue ≠ []) :
    (queueBeats queue).drop bench.sending.length ≠ [] := by
  obtain ⟨first, rest, rfl⟩ := List.exists_cons_of_ne_nil hne
  obtain ⟨hlt, -⟩ := hqueued.head first rfl
  intro hnil
  rw [List.drop_eq_nil_iff, queueBeats, List.flatMap_cons, List.length_append,
    length_frameBeats] at hnil
  omega

theorem pop_bufPop (i : TxCsumIn) :
    bench.stage.uBuf.pop (bench.stage.bufPop i) = bench.stage.bufPop i := by
  rw [SyncFifo.pop, TxCsumOff.bufPop, TxCsumOff.mTvalid]
  cases bench.stage.uBuf.doutValidR <;> rfl

/-- What is left of the buffer's words once a byte is taken. -/
theorem Queued.words_left (hqueued : bench.Queued queue pending) (i : TxCsumIn) :
    bench.stage.uBuf.words.drop (bench.stage.bufPop i).toNat =
      (queueBeats (queue.drop (bench.stage.metaPop i).toNat)).drop
        (bench.step i).sending.length ++ pending := by
  rw [(hqueued.advances i).beats, hqueued.words]
  apply List.drop_append_of_le_length
  cases hpop : bench.stage.bufPop i with
  | false => exact Nat.zero_le _
  | true =>
      have hvalid : bench.stage.mTvalid = true := by
        rw [TxCsumOff.bufPop, Bool.and_eq_true] at hpop
        exact hpop.1
      exact List.length_pos_of_ne_nil
        (queueBeats_ne_nil hqueued.heads (hqueued.mTvalid_iff.mp hvalid))

/-- The buffer takes every byte that is handed over. -/
theorem pushOk_inHs (i : TxCsumIn) (rdEn : Bool) :
    bench.stage.uBuf.pushOk (bench.stage.inHs i) rdEn = bench.stage.inHs i := by
  cases hpush : bench.stage.inHs i with
  | false => rfl
  | true =>
      have hfull : bench.stage.uBuf.full = false := by
        simp only [TxCsumOff.inHs, TxCsumOff.sTready, Bool.and_eq_true, Bool.or_eq_true,
          Bool.not_eq_true', beq_iff_eq] at hpush
        obtain ⟨⟨-, hready⟩, hstate⟩ := hpush
        rcases hready with ⟨-, hroom⟩ | hdrop
        · exact hroom
        · rw [hstate] at hdrop
          cases hdrop
      simp [SyncFifo.pushOk, hfull]

theorem sending_le (hheads : bench.Heads queue) :
    bench.sending.length ≤ (queueBeats queue).length := by
  cases queue with
  | nil =>
      rw [hheads.idle rfl]
      exact Nat.zero_le _
  | cons first rest =>
      have hbusy := queueBeats_ne_nil hheads (List.cons_ne_nil first rest)
      rw [Ne, List.drop_eq_nil_iff] at hbusy
      omega

/-- The committed frames after a cycle: what is taken leaves in front, what is committed
comes behind. -/
theorem Queued.step (hqueued : bench.Queued queue pending) (i : TxCsumIn)
    {more : Option (List (BitVec 8) × TxCsumMeta)} {pending' : List (Bool × BitVec 8)}
    (hnonempty : ∀ frame ∈ more, frame.1 ≠ [])
    (hmetas : more.toList.map Prod.snd =
      if bench.stage.commit then [bench.stage.metaIn] else [])
    (hbeats : pending ++
        (if bench.stage.inHs i then [(bench.stage.inLast i, i.sTdata)] else []) =
      queueBeats more.toList ++ pending')
    (hbehind : more ≠ none → pending ≠ []) :
    (bench.step i).Queued (queue.drop (bench.stage.metaPop i).toNat ++ more.toList)
      pending' := by
  have hadvances := hqueued.advances i
  obtain ⟨hmetaValid, hstored⟩ := TxCsumOff.metaFifo_clkEdge hqueued.metaValid i
  have hwords := SyncFifo.words_clkEdge hqueued.bufValid (bench.stage.inHs i)
    (bench.stage.inLast i, i.sTdata) (bench.stage.bufPop i)
  rw [pop_bufPop, pushOk_inHs, hqueued.words_left, List.append_assoc, hbeats] at hwords
  constructor
  · exact hqueued.bufValid.clkEdge _ _ _
  · exact hmetaValid
  · refine hwords.trans ?_
    rw [queueBeats_append, List.drop_append_of_le_length (sending_le hadvances.heads),
      List.append_assoc]
  · rw [List.map_append, List.map_drop, hmetas, ← hqueued.metas]
    exact hstored
  · cases more with
    | none =>
        rw [Option.toList_none, List.append_nil]
        exact hadvances.heads
    | some frame => exact hadvances.heads.append (hnonempty frame rfl) frame.2
  · intro hunstaged
    -- A word that has just come is not the last of a committed frame.
    have hleft := SyncFifo.drop_words_of_unstaged hunstaged
    rw [pop_bufPop, hqueued.words_left, List.append_eq_nil_iff] at hleft
    obtain ⟨hnone, hpending⟩ := hleft
    have hmore : more = none := by
      by_contra hsome
      exact hbehind hsome hpending
    have hqueue : queue.drop (bench.stage.metaPop i).toNat = [] := by
      by_contra hsome
      exact queueBeats_ne_nil hadvances.heads hsome hnone
    rw [hmore, hqueue]
    rfl

/-- The frames that are to come out are the ones that have, the committed ones, and the
one that is to be committed. -/
structure Stored (bench : TxCsumBench params) (check : CsumBench)
    (queue : List (List (BitVec 8) × TxCsumMeta)) (pending : List (Bool × BitVec 8))
    (waiting : List (List (BitVec 8))) : Prop where
  queued : bench.Queued queue pending
  ingest : bench.Ingest check pending waiting
  checked : bench.Checked check
  due : bench.due = bench.sent ++ queueOut queue ++ waiting

def Holds (bench : TxCsumBench params) : Prop :=
  ∃ check queue pending waiting, bench.Stored check queue pending waiting

theorem holds_start (mem : BitVec params.bufAddrWidth → Bool × BitVec 8)
    (doutR : Bool × BitVec 8) (metaMem : BitVec params.metaAddrWidth → TxCsumMeta) :
    (start mem doutR metaMem).Holds := by
  have hocc : (start mem doutR metaMem).stage.metaFifo.occ.toNat = 0 := by
    simp [SyncFifo.occ, TxCsumOff.metaFifo, start, TxCsumOff.reset]
  refine ⟨.start true, [], [], [], ?_⟩
  constructor
  · constructor
    · exact SyncFifo.valid_reset mem doutR
    · constructor
      · rw [hocc]
        exact Nat.zero_le _
      · intro hnone
        cases hnone
    · exact SyncFifo.words_reset mem doutR
    · exact List.eq_nil_of_length_eq_zero (SyncFifo.length_stored.trans hocc)
    · exact ⟨by simp, rfl, fun _ => rfl, by simp⟩
    · exact fun _ => rfl
  · exact .data rfl rfl rfl params.max_pos (fun hsome => absurd rfl hsome)
      (fun _ => Or.inl rfl)
  · exact ⟨rfl, rfl, rfl, CsumBench.flow_start true, CsumBench.results_start true⟩
  · exact due_short params.max_pos

theorem Holds.step (hholds : bench.Holds) (i : TxCsumIn) : (bench.step i).Holds := by
  obtain ⟨check, queue, pending, waiting, hqueued, hingest, hchecked, hdue⟩ := hholds
  obtain ⟨hlegal, hcount⟩ := hingest.legal i
  have hchecked' := hchecked.step i hlegal hcount
  have hout := (hqueued.advances i).out
  rcases hingest.step hchecked i with
    ⟨added, hcommit, hgrown, hingest'⟩ | ⟨bytes, hcommit, hne, hquiet, hpending, hwaiting,
      hsame, hingest'⟩
  · have hqueued' := @Queued.step _ _ _ _ hqueued i none _ (by simp) (by simp [hcommit]) rfl
      (fun hsome => absurd rfl hsome)
    refine ⟨_, _, _, _, hqueued', hingest', hchecked', ?_⟩
    rw [hgrown, hdue, Option.toList_none, List.append_nil, hout]
    simp
  · have hqueued' := @Queued.step _ _ _ _ hqueued i (some (bytes, bench.stage.metaIn)) []
      (by simpa using hne) (by simp [hcommit]) (by simp [hquiet, hpending, queueBeats])
      (fun _ hnil => hne (by simpa [hpending] using congrArg List.length hnil))
    refine ⟨_, _, _, _, hqueued', hingest', hchecked', ?_⟩
    rw [hsame, hdue, hwaiting, ← hout]
    simp [queueOut]

theorem holds_run (mem : BitVec params.bufAddrWidth → Bool × BitVec 8)
    (doutR : Bool × BitVec 8) (metaMem : BitVec params.metaAddrWidth → TxCsumMeta)
    (cycles : List TxCsumIn) : (runFrom step (start mem doutR metaMem) cycles).Holds :=
  invariant_runFrom (fun _ i hholds => hholds.step i) (holds_start mem doutR metaMem) cycles

section Facts

variable (hholds : bench.Holds)
include hholds

/-- With nothing committed and nothing settling, everything due has come out. -/
theorem Holds.quiet (hidle : bench.stage.mTvalid = false)
    (hstate : bench.stage.inState ≠ .flush) :
    bench.sent = bench.due ∧ bench.sending = [] := by
  obtain ⟨check, queue, pending, waiting, hqueued, hingest, hchecked, hdue⟩ := hholds
  have hqueue : queue = [] := by
    by_contra hsome
    rw [hqueued.mTvalid_iff.mpr hsome] at hidle
    cases hidle
  have hwaiting : waiting = [] := by
    cases hingest with
    | data => rfl
    | flush bytes hflush => exact absurd hflush hstate
    | drop => rfl
  rw [hdue, hqueue, hwaiting]
  exact ⟨by simp [queueOut], hqueued.heads.idle hqueue⟩

theorem Holds.shows : (⟨bench.sent, bench.sending⟩ : Envelopes (BitVec 8)).Shows bench.due := by
  obtain ⟨check, queue, pending, waiting, hqueued, hingest, hchecked, hdue⟩ := hholds
  refine ⟨queueOut queue ++ waiting, by rw [hdue, List.append_assoc], ?_⟩
  cases queue with
  | nil =>
      rw [hqueued.heads.idle rfl]
      exact List.nil_prefix
  | cons first rest =>
      change bench.sending <+: first.2.patched first.1
      rw [(hqueued.heads.head first rfl).2]
      exact List.take_prefix _ _

/-- A frame that has begun to come out is committed. -/
theorem Holds.steady (hbusy : bench.sending ≠ []) : bench.stage.mTvalid = true := by
  obtain ⟨check, queue, pending, waiting, hqueued, hingest, hchecked, hdue⟩ := hholds
  rw [hqueued.mTvalid_iff]
  exact fun hnil => hbusy (hqueued.heads.idle hnil)

/-- The frame that is going in cannot fill the buffer. -/
theorem Holds.free (hfull : bench.stage.uBuf.full = true ∨ bench.stage.metaFull = true) :
    bench.stage.mTvalid = true := by
  obtain ⟨check, queue, pending, waiting, hqueued, hingest, hchecked, hdue⟩ := hholds
  rw [hqueued.mTvalid_iff]
  rintro rfl
  rcases hfull with hfull | hfull
  · have hlength : bench.stage.uBuf.stored.length = 2 ^ params.bufAddrWidth := by
      rw [SyncFifo.length_stored]
      exact SyncFifo.full_iff.mp hfull
    have hwords : bench.stage.uBuf.words = pending := by
      rw [hqueued.words]
      simp [queueBeats]
    have hstored : bench.stage.uBuf.stored.length ≤ pending.length := by
      rw [← hwords, SyncFifo.words, List.length_append]
      exact Nat.le_add_left _ _
    have hmax := params.max_lt
    have hpending : pending.length ≤ params.maxFrame := by
      cases hingest with
      | data hstate hcut hcount hroom =>
          rw [length_openBeats]
          exact hroom.le
      | flush bytes hstate hne hfits =>
          rw [length_frameBeats]
          exact hfits
      | drop => exact Nat.zero_le _
    omega
  · have hlength : bench.stage.metaFifo.stored.length = 2 ^ params.metaAddrWidth := by
      rw [SyncFifo.length_stored]
      exact SyncFifo.full_iff.mp hfull
    rw [hqueued.metas] at hlength
    exact absurd hlength.symm (Nat.two_pow_pos _).ne'

end Facts

/-- The cycles until the frame that is settling is committed. -/
def settling (stage : TxCsumOff params) : Nat :=
  if stage.inState = .flush then stage.flushCnt.toNat + 1 else 0

/-- The cycles that the stage still needs for what it has taken. -/
def unsent (bench : TxCsumBench params) : Nat :=
  bench.stage.uBuf.words.length + settling bench.stage

section Drain

variable {i : TxCsumIn} (hquiet : i.sTvalid = false)
include hquiet

theorem accepts_quiet : bench.accepts i = false := by rw [accepts, hquiet, Bool.false_and]

theorem inHs_quiet : bench.stage.inHs i = false := by rw [TxCsumOff.inHs, hquiet]; rfl

/-- Without the source nothing more is due. -/
theorem due_quiet : (bench.step i).due = bench.due := by
  rw [due, due]
  simp [step, @accepts_quiet _ bench i hquiet]

theorem nextIngest_quiet (hstate : bench.stage.inState ≠ .flush) :
    bench.stage.nextIngest i = bench.stage.toTxCsumIngest := by
  rw [TxCsumOff.nextIngest]
  cases hphase : bench.stage.inState with
  | data => simp [@inHs_quiet _ bench i hquiet]
  | flush => exact absurd hphase hstate
  | drop => simp [hquiet]

/-- A countdown that has not ended goes on, and its end waits for room only. -/
theorem settling_step :
    settling (bench.step i).stage ≤ settling bench.stage ∧
      (bench.stage.inState = .flush → bench.stage.metaFull = false →
        settling (bench.step i).stage + 1 ≤ settling bench.stage) := by
  have hregs : (bench.step i).stage.toTxCsumIngest = bench.stage.nextIngest i := rfl
  by_cases hstate : bench.stage.inState = .flush
  · rw [TxCsumOff.nextIngest, hstate] at hregs
    have hnow : settling bench.stage = bench.stage.flushCnt.toNat + 1 := if_pos hstate
    cases hcommit : bench.stage.commit with
    | true =>
        have hover : (bench.step i).stage.inState ≠ .flush := by
          simp only [hcommit, if_true] at hregs
          rw [congrArg TxCsumIngest.inState hregs]
          dsimp only
          split
          · exact TxCsumState.noConfusion
          · exact TxCsumState.noConfusion
        rw [hnow, settling, if_neg hover]
        omega
    | false =>
        simp only [hcommit, Bool.false_eq_true, if_false] at hregs
        have hstill : (bench.step i).stage.inState = .flush :=
          (congrArg TxCsumIngest.inState hregs).trans hstate
        have hcount : (bench.step i).stage.flushCnt =
            if bench.stage.flushCnt = 0 then 0 else bench.stage.flushCnt - 1 :=
          congrArg TxCsumIngest.flushCnt hregs
        rw [hnow, settling, if_pos hstill, hcount]
        by_cases hzero : bench.stage.flushCnt = 0
        · rw [if_pos hzero, hzero]
          refine ⟨le_rfl, fun _ hroom => ?_⟩
          simp [TxCsumOff.commit, hstate, hzero, hroom] at hcommit
        · have hpos : (1 : BitVec 3) ≤ bench.stage.flushCnt := by
            rw [BitVec.le_def]
            exact Nat.pos_of_ne_zero fun hnone => hzero (BitVec.eq_of_toNat_eq hnone)
          have hle : 1 ≤ bench.stage.flushCnt.toNat := hpos
          rw [if_neg hzero, BitVec.toNat_sub_of_le hpos]
          change bench.stage.flushCnt.toNat - 1 + 1 ≤ _ ∧ (_ → _ →
            bench.stage.flushCnt.toNat - 1 + 1 + 1 ≤ _)
          omega
  · rw [nextIngest_quiet hquiet hstate] at hregs
    have hsame : settling (bench.step i).stage = settling bench.stage := by
      rw [settling, settling, congrArg TxCsumIngest.inState hregs,
        congrArg TxCsumIngest.flushCnt hregs]
    rw [hsame]
    exact ⟨le_rfl, fun hflush => absurd hflush hstate⟩

/-- A cycle in which the stage may send and takes nothing brings the end nearer. -/
theorem unsent_step (hholds : bench.Holds) (hready : i.mTready = true)
    (hbusy : ¬(bench.stage.mTvalid = false ∧ bench.stage.inState ≠ .flush)) :
    (bench.step i).unsent + 1 ≤ bench.unsent := by
  obtain ⟨hle, hless⟩ := @settling_step _ bench i hquiet
  have hvalid : bench.stage.uBuf.Valid := by
    obtain ⟨_, _, _, _, hstored⟩ := hholds
    exact hstored.queued.bufValid
  have hwords := SyncFifo.words_clkEdge hvalid (bench.stage.inHs i)
    (bench.stage.inLast i, i.sTdata) (bench.stage.bufPop i)
  rw [pop_bufPop, pushOk_inHs, @inHs_quiet _ bench i hquiet, if_neg Bool.false_ne_true,
    List.append_nil] at hwords
  have hlength : (bench.step i).stage.uBuf.words.length =
      bench.stage.uBuf.words.length - (bench.stage.bufPop i).toNat := by
    rw [← List.length_drop, ← hwords, ← @inHs_quiet _ bench i hquiet]
    rfl
  rw [unsent, unsent, hlength]
  cases hidle : bench.stage.mTvalid with
  | false =>
      have hflush : bench.stage.inState = .flush := by
        by_contra hstate
        exact hbusy ⟨hidle, hstate⟩
      have hroom : bench.stage.metaFull = false := by
        rw [← Bool.not_eq_true]
        intro hfull
        rw [hholds.free (Or.inr hfull)] at hidle
        cases hidle
      have hcount := hless hflush hroom
      omega
  | true =>
      have hpop : bench.stage.bufPop i = true := by
        rw [TxCsumOff.bufPop, hidle, hready]
        rfl
      have hsome : 0 < bench.stage.uBuf.words.length := by
        rw [TxCsumOff.mTvalid, Bool.and_eq_true] at hidle
        rw [SyncFifo.words_of_rdValid hidle.1]
        exact Nat.succ_pos _
      rw [hpop, Bool.toNat_true]
      omega

end Drain

/-- The stage sends all that it has taken. -/
theorem drained {more : List TxCsumIn} (hholds : bench.Holds)
    (hcycles : ∀ i ∈ more, i.sTvalid = false ∧ i.mTready = true)
    (henough : bench.unsent ≤ more.length) :
    (runFrom step bench more).sent = bench.due := by
  let goal (state : TxCsumBench params) : Prop :=
    state.Holds ∧ state.due = bench.due ∧ state.sent = bench.due
  let waits (left : Nat) (state : TxCsumBench params) : Prop :=
    state.Holds ∧ state.due = bench.due ∧
      ¬(state.stage.mTvalid = false ∧ state.stage.inState ≠ .flush) ∧ state.unsent ≤ left
  have hover (state : TxCsumBench params) (hknown : state.Holds) (hdue : state.due = bench.due)
      (hidle : state.stage.mTvalid = false ∧ state.stage.inState ≠ .flush) : goal state :=
    ⟨hknown, hdue, (hknown.quiet hidle.1 hidle.2).1.trans hdue⟩
  have hgoal (state : TxCsumBench params) (i : TxCsumIn)
      (hcycle : i.sTvalid = false ∧ i.mTready = true) (hreached : goal state) :
      goal (state.step i) := by
    obtain ⟨hknown, hdue, hsent⟩ := hreached
    have hdue' := (@due_quiet _ state i hcycle.1).trans hdue
    refine ⟨hknown.step i, hdue', ?_⟩
    obtain ⟨rest, hrest, -⟩ := (hknown.step i).shows
    have hmore : ∃ later, (state.step i).sent = state.sent ++ later := by
      dsimp only [step]
      split
      · exact ⟨_, rfl⟩
      · exact ⟨[], (List.append_nil _).symm⟩
    obtain ⟨later, hlater⟩ := hmore
    rw [hdue', ← hsent] at hrest
    change state.sent = (state.step i).sent ++ rest at hrest
    rw [hlater, List.append_assoc, List.self_eq_append_right, List.append_eq_nil_iff] at hrest
    rw [hlater, hrest.1, List.append_nil, hsent]
  have hwaits (state : TxCsumBench params) (i : TxCsumIn) (left : Nat)
      (hcycle : i.sTvalid = false ∧ i.mTready = true) (hleft : waits left state) :
      goal (state.step i) ∨ waits (left - true.toNat) (state.step i) := by
    obtain ⟨hknown, hdue, hbusy, hlow⟩ := hleft
    have hdue' := (@due_quiet _ state i hcycle.1).trans hdue
    have hnearer := unsent_step hcycle.1 hknown hcycle.2 hbusy
    by_cases hidle : (state.step i).stage.mTvalid = false ∧ (state.step i).stage.inState ≠ .flush
    · exact Or.inl (hover _ (hknown.step i) hdue' hidle)
    · exact Or.inr ⟨hknown.step i, hdue', hidle, by rw [Bool.toNat_true]; omega⟩
  have hdone (state : TxCsumBench params) : ¬waits 0 state := by
    rintro ⟨-, -, hbusy, hnone⟩
    obtain ⟨hwords, hsettled⟩ := Nat.add_eq_zero_iff.mp (Nat.le_zero.mp hnone)
    refine hbusy ⟨?_, ?_⟩
    · rw [TxCsumOff.mTvalid, Bool.and_eq_false_iff]
      left
      rw [← Bool.not_eq_true]
      intro hvalid
      rw [SyncFifo.words_of_rdValid hvalid] at hwords
      cases hwords
    · intro hflush
      rw [settling, if_pos hflush] at hsettled
      cases hsettled
  have hstart : goal bench ∨ waits bench.unsent bench := by
    by_cases hidle : bench.stage.mTvalid = false ∧ bench.stage.inState ≠ .flush
    · exact Or.inl (hover bench hholds rfl hidle)
    · exact Or.inr ⟨hholds, rfl, hidle, le_rfl⟩
  have hcount : bench.unsent ≤ more.countP fun _ => true := by
    rw [List.countP_true]
    exact henough
  exact (reached_along goal waits hgoal hwaits hdone
    (along_of_mem hcycles bench) hstart hcount).2.2

end TxCsumBench

/-- What comes out for a frame: its checksums are those of this very frame, and nothing
else of it changes. -/
structure Sends (params : TxCsumParams) (frame : TxCsumFrame) (output : List (BitVec 8)) :
    Prop where
  cut : params.maxFrame < frame.bytes.length → output = frame.bytes.take params.maxFrame
  plain : frame.bytes.length ≤ params.maxFrame →
    frame.enable = false ∨ datagramWhole frame.bytes = false → output = frame.bytes
  fields : frame.bytes.length ≤ params.maxFrame → FieldsOnly frame.bytes output
  ip : frame.bytes.length ≤ params.maxFrame → frame.enable = true →
    datagramWhole frame.bytes = true → isIp4 frame.bytes = true →
    wordAt output (l3Offset frame.bytes + 10) = ipChecksum frame.bytes ∧
      onesFold 16 (headerSum false output) = 65535
  l4 : frame.bytes.length ≤ params.maxFrame → frame.enable = true →
    datagramWhole frame.bytes = true → l4Covered frame.bytes = true →
    wordAt output (csumPos frame.bytes) = l4Checksum frame.bytes ∧
      onesFold 16 (l4Sum false output) = 65535

theorem sends_sentFrame (params : TxCsumParams) (frame : TxCsumFrame) :
    Sends params frame (sentFrame params frame) := by
  constructor
  · intro hlong
    rw [sentFrame, if_pos hlong]
  · intro hfits hplain
    rw [sentFrame, if_neg (Nat.not_lt.mpr hfits)]
    rcases hplain with hoff | hbroken
    · rw [hoff, if_neg Bool.false_ne_true]
    · rw [inserted_of_not_whole hbroken, ite_self]
  · intro hfits
    rw [sentFrame, if_neg (Nat.not_lt.mpr hfits)]
    split
    · cases hwhole : datagramWhole frame.bytes with
      | true => exact fieldsOnly_inserted hwhole
      | false =>
          rw [inserted_of_not_whole hwhole]
          exact ⟨rfl, fun _ _ => rfl⟩
    · exact ⟨rfl, fun _ _ => rfl⟩
  · intro hfits hon hwhole hip4
    rw [sentFrame, if_neg (Nat.not_lt.mpr hfits), if_pos hon]
    exact ⟨wordAt_ip_inserted hwhole hip4, headerSum_inserted hwhole hip4⟩
  · intro hfits hon hwhole hcovered
    rw [sentFrame, if_neg (Nat.not_lt.mpr hfits), if_pos hon]
    exact ⟨wordAt_l4_inserted hwhole hcovered, l4Sum_inserted hwhole hcovered⟩

namespace TxCsumBench

variable {params : TxCsumParams}

/-- The stage between its two sides: what has come out is what has gone in, frame by
frame; a frame once begun is offered to its end; a full memory is never one that waits
for more; and nothing is kept back. -/
structure Transparent (bench : TxCsumBench params) : Prop where
  shows : (⟨bench.sent, bench.sending⟩ : Envelopes (BitVec 8)).Shows bench.due
  right : ∀ frame ∈ bench.taken, Sends params frame (sentFrame params frame)
  steady : bench.sending ≠ [] → bench.stage.mTvalid = true
  free : bench.stage.uBuf.full = true ∨ bench.stage.metaFull = true →
    bench.stage.mTvalid = true
  drains : ∀ more : List TxCsumIn, (∀ i ∈ more, i.sTvalid = false ∧ i.mTready = true) →
    bench.stage.uBuf.words.length + 8 ≤ more.length →
    (runFrom step bench more).sent = bench.due

/-- The frame that came out in a place is what is to be sent of the one that went in there. -/
theorem output_eq {bench : TxCsumBench params}
    (hshows : (⟨bench.sent, bench.sending⟩ : Envelopes (BitVec 8)).Shows bench.due)
    {index : Nat} {frame : TxCsumFrame} {output : List (BitVec 8)}
    (hframe : bench.taken[index]? = some frame) (houtput : bench.sent[index]? = some output) :
    output = sentFrame params frame := by
  obtain ⟨rest, hdue, -⟩ := hshows
  have hsame : bench.due[index]? = some output := by
    rw [show bench.due = bench.sent ++ rest from hdue, List.getElem?_append_left]
    · exact houtput
    · exact (List.getElem?_eq_some_iff.mp houtput).1
  have htaken : bench.due[index]? = some (sentFrame params frame) := by
    rw [due, List.getElem?_append_left, List.getElem?_map, hframe]
    · rfl
    · rw [List.length_map]
      exact (List.getElem?_eq_some_iff.mp hframe).1
  rw [hsame, Option.some.injEq] at htaken
  exact htaken

/-- For every sequence of frames, every pattern of both handshakes and of `enable`. -/
theorem transparent_run (mem : BitVec params.bufAddrWidth → Bool × BitVec 8)
    (doutR : Bool × BitVec 8) (metaMem : BitVec params.metaAddrWidth → TxCsumMeta)
    (cycles : List TxCsumIn) :
    (runFrom step (start mem doutR metaMem) cycles).Transparent := by
  have hholds := holds_run mem doutR metaMem cycles
  constructor
  · exact hholds.shows
  · exact fun frame _ => sends_sentFrame params frame
  · exact hholds.steady
  · exact hholds.free
  · intro more hcycles henough
    apply drained hholds hcycles
    refine le_trans (Nat.add_le_add_left ?_ _) henough
    rw [settling]
    split
    · exact BitVec.isLt _
    · exact Nat.zero_le _

/-- An IPv4 header whose datagram is longer than its frame. -/
def headerAlone : List (BitVec 8) :=
  List.replicate 12 0x02 ++ [0x08, 0x00] ++
    [0x45, 0, 0, 40, 0, 0, 0, 0, 64, 6, 0xDE, 0xAD, 10, 0, 0, 1, 10, 0, 0, 2]

def smallParams : TxCsumParams := ⟨64, 7, 1, by decide, by decide, by decide⟩

/-- The frame goes in with `enable` high and comes out. -/
def headerCycles : List TxCsumIn :=
  (headerAlone.mapIdx fun index data => ⟨true, data, true, index + 1 == 34, true⟩) ++
    List.replicate 42 ⟨true, 0, false, false, true⟩

/-- Such a header keeps the checksum that software left in it. -/
theorem header_unpatched :
    let bench := runFrom step
      (start (fun _ => (false, 0)) (false, 0) fun _ => ⟨false, 0, 0, false, 0, 0⟩ :
        TxCsumBench smallParams) headerCycles
    bench.taken = [⟨true, headerAlone⟩] ∧ headerAlone.length ≤ smallParams.maxFrame ∧
      headerWhole headerAlone = true ∧ bench.sent = [headerAlone] ∧
      wordAt headerAlone (l3Offset headerAlone + 10) ≠ ipChecksum headerAlone ∧
      onesFold 16 (headerSum false headerAlone) ≠ 65535 := by
  decide +kernel

end TxCsumBench

end EmacZero
