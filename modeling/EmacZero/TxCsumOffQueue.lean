/-
The egress side of `tx_csum_off`: the byte buffer and the metadata FIFO hold the same
committed frames, and the bytes that come out are the patched ones of the first.
-/
import EmacZero.TxCsumOffBench

namespace EmacZero

/-- The words of a frame in the buffer: TLAST is on its last byte. -/
def frameBeats (bytes : List (BitVec 8)) : List (Bool × BitVec 8) :=
  bytes.mapIdx fun index data => (index + 1 == bytes.length, data)

/-- The words of a frame that has not ended. -/
def openBeats (bytes : List (BitVec 8)) : List (Bool × BitVec 8) :=
  bytes.map fun data => (false, data)

@[simp] theorem length_frameBeats (bytes : List (BitVec 8)) :
    (frameBeats bytes).length = bytes.length := by
  simp [frameBeats]

@[simp] theorem length_openBeats (bytes : List (BitVec 8)) :
    (openBeats bytes).length = bytes.length := by
  simp [openBeats]

theorem openBeats_concat (bytes : List (BitVec 8)) (data : BitVec 8) :
    openBeats (bytes ++ [data]) = openBeats bytes ++ [(false, data)] := by
  simp [openBeats]

/-- The last byte makes a frame of the bytes so far. -/
theorem frameBeats_concat (bytes : List (BitVec 8)) (data : BitVec 8) :
    frameBeats (bytes ++ [data]) = openBeats bytes ++ [(true, data)] := by
  apply List.ext_getElem
  · simp
  · intro index hleft hright
    simp only [length_frameBeats, List.length_append, List.length_singleton] at hleft
    by_cases hlast : index < bytes.length
    · have hnot : index ≠ bytes.length := by omega
      simp [frameBeats, openBeats, hlast, hnot]
    · obtain rfl : index = bytes.length := by omega
      simp [frameBeats, openBeats]

namespace TxCsumOff

variable {params : TxCsumParams} {stage : TxCsumOff params}

/-- The metadata FIFO. -/
def metaFifo (stage : TxCsumOff params) : SyncFifo TxCsumMeta params.metaAddrWidth :=
  ⟨stage.metaMem, stage.metaWr, stage.metaRd, stage.metaQ, true⟩

theorem metaValid_iff : stage.metaValid = true ↔ stage.metaFifo.stored ≠ [] := by
  have hempty : stage.metaFifo.empty = !stage.metaValid := by
    rw [SyncFifo.empty, metaValid, Bool.eq_iff_iff]
    simp only [SyncFifo.occ, metaFifo, beq_iff_eq, Bool.not_eq_true', bne_eq_false_iff_eq]
    exact sub_eq_zero
  rw [← Bool.not_eq_false, ← Bool.not_eq_true', ← hempty, SyncFifo.empty_iff,
    ← SyncFifo.length_stored, List.length_eq_zero_iff]

/-- The metadata FIFO gains what is committed and loses what is popped. -/
theorem metaFifo_clkEdge (hvalid : stage.metaFifo.Valid) (i : TxCsumIn) :
    (stage.clkEdge i).metaFifo.Valid ∧
      (stage.clkEdge i).metaFifo.stored =
        stage.metaFifo.stored.drop (stage.metaPop i).toNat ++
          if stage.commit then [stage.metaIn] else [] := by
  have hread : stage.metaFifo.issueRead (stage.metaPop i) = stage.metaPop i := by
    cases hpop : stage.metaPop i with
    | false => simp [SyncFifo.issueRead, SyncFifo.pop, metaFifo]
    | true =>
        have hmeta : stage.metaValid = true := by
          simp only [metaPop, bufPop, mTvalid, Bool.and_eq_true] at hpop
          exact hpop.1.1.2
        have hempty : stage.metaFifo.empty = false := by
          rw [metaValid_iff] at hmeta
          rw [← Bool.not_eq_true, SyncFifo.empty_iff, ← SyncFifo.length_stored,
            List.length_eq_zero_iff]
          exact hmeta
        rw [SyncFifo.issueRead, hempty, SyncFifo.pop]
        simp
  have hpush : stage.metaFifo.pushOk stage.commit (stage.metaPop i) = stage.commit := by
    cases hcommit : stage.commit with
    | false => rfl
    | true =>
        have hfull : stage.metaFifo.full = false := by
          simp only [commit, Bool.and_eq_true, Bool.not_eq_true'] at hcommit
          exact hcommit.2
        simp [SyncFifo.pushOk, hfull]
  have hmem : (stage.clkEdge i).metaMem =
      (stage.metaFifo.clkEdge stage.commit stage.metaIn (stage.metaPop i)).mem := by
    rw [SyncFifo.clkEdge, hpush]
    rfl
  have hwr : (stage.clkEdge i).metaWr =
      (stage.metaFifo.clkEdge stage.commit stage.metaIn (stage.metaPop i)).wrPtr := by
    rw [SyncFifo.clkEdge, hpush]
    rfl
  have hrd : (stage.clkEdge i).metaRd =
      (stage.metaFifo.clkEdge stage.commit stage.metaIn (stage.metaPop i)).rdPtr := by
    rw [SyncFifo.clkEdge, hread]
    rfl
  have hnext := hvalid.clkEdge stage.commit stage.metaIn (stage.metaPop i)
  have hstored := SyncFifo.stored_clkEdge hvalid stage.commit stage.metaIn (stage.metaPop i)
  rw [hread, hpush] at hstored
  constructor
  · constructor
    · have hle := hnext.occ_le
      rw [SyncFifo.occ, ← hwr, ← hrd] at hle
      exact hle
    · intro hnone
      cases hnone
  · rw [← hstored, SyncFifo.stored, SyncFifo.stored, SyncFifo.occ, SyncFifo.occ, ← hmem, ← hwr,
      ← hrd]
    rfl

end TxCsumOff

namespace TxCsumBench

variable {params : TxCsumParams} {bench : TxCsumBench params}

/-- The words of committed frames. -/
def queueBeats (queue : List (List (BitVec 8) × TxCsumMeta)) : List (Bool × BitVec 8) :=
  queue.flatMap fun frame => frameBeats frame.1

/-- What comes out of committed frames. -/
def queueOut (queue : List (List (BitVec 8) × TxCsumMeta)) : List (List (BitVec 8)) :=
  queue.map fun frame => frame.2.patched frame.1

/-- The bytes of the first committed frame that have come out. -/
structure Heads (bench : TxCsumBench params) (queue : List (List (BitVec 8) × TxCsumMeta)) :
    Prop where
  nonempty : ∀ frame ∈ queue, frame.1 ≠ []
  egPos : bench.stage.egPos = BitVec.ofNat 14 bench.sending.length
  idle : queue = [] → bench.sending = []
  head : ∀ frame ∈ queue.head?, bench.sending.length < frame.1.length ∧
    bench.sending = (frame.2.patched frame.1).take bench.sending.length

/-- The committed frames, and behind them the words of the frame that is going in. -/
structure Queued (bench : TxCsumBench params) (queue : List (List (BitVec 8) × TxCsumMeta))
    (pending : List (Bool × BitVec 8)) : Prop where
  bufValid : bench.stage.uBuf.Valid
  metaValid : bench.stage.metaFifo.Valid
  words : bench.stage.uBuf.words = (queueBeats queue).drop bench.sending.length ++ pending
  metas : bench.stage.metaFifo.stored = queue.map Prod.snd
  heads : bench.Heads queue
  staged : bench.stage.uBuf.doutValidR = false → queue = []

variable {queue : List (List (BitVec 8) × TxCsumMeta)} {pending : List (Bool × BitVec 8)}

/-- The stage offers a byte as long as a frame is committed. -/
theorem Queued.mTvalid_iff (hqueued : bench.Queued queue pending) :
    bench.stage.mTvalid = true ↔ queue ≠ [] := by
  have hmeta := @TxCsumOff.metaValid_iff params bench.stage
  rw [hqueued.metas, Ne, List.map_eq_nil_iff] at hmeta
  rw [TxCsumOff.mTvalid, Bool.and_eq_true, hmeta]
  constructor
  · exact fun hvalid => hvalid.2
  · intro hne
    refine ⟨?_, hne⟩
    rw [← Bool.not_eq_false]
    exact fun hnone => hne (hqueued.staged hnone)

/-- The byte on the output is the next one of the first frame. -/
theorem Queued.output {first : List (BitVec 8) × TxCsumMeta}
    {rest : List (List (BitVec 8) × TxCsumMeta)}
    (hqueued : bench.Queued (first :: rest) pending)
    (hlt : bench.sending.length < (first.2.patched first.1).length) :
    bench.stage.mTdata = (first.2.patched first.1)[bench.sending.length] ∧
      bench.stage.mTlast = (bench.sending.length + 1 == first.1.length) := by
  have hvalid : bench.stage.uBuf.doutValidR = true := by
    rw [← Bool.not_eq_false]
    intro hnone
    cases hqueued.staged hnone
  have hshort : bench.sending.length < first.1.length := by simpa using hlt
  have hin : bench.sending.length < (frameBeats first.1).length := by simpa using hlt
  have hhead : bench.stage.uBuf.doutR =
      (bench.sending.length + 1 == first.1.length, first.1[bench.sending.length]) := by
    have hwords := hqueued.words
    rw [SyncFifo.words_of_rdValid hvalid, queueBeats, List.flatMap_cons,
      List.drop_append_of_le_length hin.le, List.drop_eq_getElem_cons hin] at hwords
    rw [(List.cons.inj hwords).1]
    simp [frameBeats]
  have hmeta : bench.stage.metaQ = first.2 := by
    have hstored := hqueued.metas
    have hpos : 0 < bench.stage.metaFifo.stored.length := by rw [hstored]; simp
    have hfirst : bench.stage.metaFifo.stored[0] = bench.stage.metaQ := by
      simp [SyncFifo.stored, TxCsumOff.metaFifo, TxCsumOff.metaQ]
    rw [← hfirst]
    simp [hstored]
  constructor
  · rw [TxCsumOff.mTdata, hmeta, hqueued.heads.egPos, hhead]
    simp [TxCsumMeta.patched]
  · rw [TxCsumOff.mTlast, hhead]

/-- A committed frame goes behind the others. -/
theorem Heads.append (hheads : bench.Heads queue) {bytes : List (BitVec 8)} (hne : bytes ≠ [])
    (q : TxCsumMeta) : bench.Heads (queue ++ [(bytes, q)]) where
  nonempty frame hframe := by
    rcases List.mem_append.mp hframe with hframe | hframe
    · exact hheads.nonempty frame hframe
    · rw [List.mem_singleton.mp hframe]
      exact hne
  egPos := hheads.egPos
  idle hnil := by simp at hnil
  head frame hframe := by
    cases queue with
    | nil =>
        obtain rfl := Option.some.inj hframe
        rw [hheads.idle rfl]
        exact ⟨List.length_pos_of_ne_nil hne, rfl⟩
    | cons first rest => exact hheads.head frame hframe

/-- What a cycle makes of the committed frames: the byte that is taken leaves, and with a
frame's last byte the frame. -/
structure Advances (bench : TxCsumBench params) (i : TxCsumIn)
    (queue : List (List (BitVec 8) × TxCsumMeta)) : Prop where
  heads : (bench.step i).Heads (queue.drop (bench.stage.metaPop i).toNat)
  beats : (queueBeats (queue.drop (bench.stage.metaPop i).toNat)).drop
      (bench.step i).sending.length =
    ((queueBeats queue).drop bench.sending.length).drop (bench.stage.bufPop i).toNat
  out : (bench.step i).sent ++ queueOut (queue.drop (bench.stage.metaPop i).toNat) =
    bench.sent ++ queueOut queue

theorem Queued.advances (hqueued : bench.Queued queue pending) (i : TxCsumIn) :
    bench.Advances i queue := by
  cases hpop : bench.stage.bufPop i with
  | false =>
      have hmeta : bench.stage.metaPop i = false := by rw [TxCsumOff.metaPop, hpop, Bool.false_and]
      have hsending : (bench.step i).sending = bench.sending := by simp [step, hpop]
      have hegPos : (bench.step i).stage.egPos = bench.stage.egPos := by
        simp [step, TxCsumOff.clkEdge, hpop]
      constructor
      · rw [hmeta]
        obtain ⟨hnonempty, hpos, hidle, hhead⟩ := hqueued.heads
        refine ⟨hnonempty, ?_, ?_, ?_⟩
        · rw [hegPos, hsending, hpos]
        · rw [hsending]
          exact hidle
        · rw [hsending]
          exact hhead
      · rw [hmeta, hsending, hpop]
        rfl
      · rw [hmeta]
        simp [step, hpop]
  | true =>
      have hvalid : bench.stage.mTvalid = true := by
        rw [TxCsumOff.bufPop, Bool.and_eq_true] at hpop
        exact hpop.1
      obtain ⟨first, rest, rfl⟩ := List.exists_cons_of_ne_nil (hqueued.mTvalid_iff.mp hvalid)
      obtain ⟨hlt, hsofar⟩ := hqueued.heads.head first rfl
      have hin : bench.sending.length < (first.2.patched first.1).length := by simpa using hlt
      obtain ⟨hdata, hlast⟩ := hqueued.output hin
      have hmeta : bench.stage.metaPop i = bench.stage.mTlast := by
        rw [TxCsumOff.metaPop, hpop, Bool.true_and]
        rfl
      have hgrown : bench.sending ++ [bench.stage.mTdata] =
          (first.2.patched first.1).take (bench.sending.length + 1) := by
        rw [List.take_add_one, List.getElem?_eq_getElem hin, ← hdata, ← hsofar]
        rfl
      by_cases hend : bench.sending.length + 1 = first.1.length
      · have htlast : bench.stage.mTlast = true := by rw [hlast, hend, beq_self_eq_true]
        have hsending : (bench.step i).sending = [] := by simp [step, hpop, htlast]
        have hwhole : (first.2.patched first.1).take (bench.sending.length + 1) =
            first.2.patched first.1 := by
          rw [hend, ← length_patched first.2, List.take_length]
        have hrest : (first :: rest).drop (bench.stage.metaPop i).toNat = rest := by
          rw [hmeta, htlast]
          rfl
        constructor
        · rw [hrest]
          refine ⟨fun frame hframe =>
            hqueued.heads.nonempty frame (List.mem_cons_of_mem _ hframe), ?_, ?_, ?_⟩
          · rw [hsending]
            have hdout : bench.stage.uBuf.doutR.1 = true := htlast
            simp [step, TxCsumOff.clkEdge, hpop, hdout]
          · exact fun _ => hsending
          · intro frame hframe
            rw [hsending]
            have hne := hqueued.heads.nonempty frame
              (List.mem_cons_of_mem _ (List.mem_of_mem_head? hframe))
            exact ⟨List.length_pos_of_ne_nil hne, rfl⟩
        · rw [hrest, hsending, hpop, List.drop_drop, queueBeats, queueBeats, List.flatMap_cons,
            Bool.toNat_true, hend, List.drop_left' (by simp)]
          rfl
        · rw [hrest]
          simp [step, hpop, htlast, hgrown, hwhole, queueOut]
      · have htlast : bench.stage.mTlast = false := by
          rw [hlast]
          exact beq_eq_false_iff_ne.mpr hend
        have hsending : (bench.step i).sending = bench.sending ++ [bench.stage.mTdata] := by
          simp [step, hpop, htlast]
        have hsame : (first :: rest).drop (bench.stage.metaPop i).toNat = first :: rest := by
          rw [hmeta, htlast]
          rfl
        constructor
        · rw [hsame]
          refine ⟨hqueued.heads.nonempty, ?_, ?_, ?_⟩
          · rw [hsending, List.length_append, List.length_singleton]
            have hdout : bench.stage.uBuf.doutR.1 = false := htlast
            simp [step, TxCsumOff.clkEdge, hpop, hdout, hqueued.heads.egPos, BitVec.ofNat_add]
          · intro hnil
            cases hnil
          · intro frame hframe
            obtain rfl := Option.some.inj hframe
            rw [hsending, List.length_append, List.length_singleton]
            exact ⟨by omega, hgrown⟩
        · rw [hsame, hsending, hpop, List.drop_drop, List.length_append, List.length_singleton]
          rfl
        · rw [hsame]
          simp [step, hpop, htlast]

end TxCsumBench

end EmacZero
