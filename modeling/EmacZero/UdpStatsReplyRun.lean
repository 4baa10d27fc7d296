/-
`udp_stats_reply` over whole runs: while every query comes as a whole, what comes out are
the replies to the queries, and the statistics are cleared for those that ask for it.
-/
import EmacZero.UdpStatsReplySend

namespace EmacZero

variable {our : NetOur} {statsPort : BitVec 16} {bench : StatsBench} {i : StatsReplyIn}

namespace StatsBench

/-- The reply to the query with this number. -/
def replyOf (our : NetOur) (statsPort : BitVec 16) (number : Nat) (query : StatsQuery) :
    List (BitVec 8) :=
  statsFrame our statsPort (.ofNat 16 (5001 + number)) query

/-- The responder that the bench is. -/
def replier (bench : StatsBench) : Replier StatsQuery (BitVec 8) where
  requests := bench.requests
  pending := bench.reply.rx.pktReady
  place := if bench.reply.tx.txState = .idle then none else some bench.reply.tx.place
  slice := bench.reply.slice
  sent := bench.sent

/-- What the responder is at: nothing, a query that has come, or its reply. -/
inductive Phase (our : NetOur) (statsPort : BitVec 16) (bench : StatsBench) : Prop
  | resting (hready : bench.reply.rx.pktReady = false) (hresting : StatsResting bench.reply.tx)
      (hid : bench.reply.tx.ipIdCnt = .ofNat 16 (5000 + bench.requests.length))
  | pending (before : List StatsQuery) (query : StatsQuery)
      (hrequests : bench.requests = before ++ [query])
      (hready : bench.reply.rx.pktReady = true) (hresting : StatsResting bench.reply.tx)
      (hid : bench.reply.tx.ipIdCnt = .ofNat 16 (5000 + before.length))
      (hloaded : StatsLoaded bench.reply.rx query) (hquiet : bench.heard = [])
  | sending (before : List StatsQuery) (query : StatsQuery)
      (hrequests : bench.requests = before ++ [query])
      (hready : bench.reply.rx.pktReady = false) (hwalking : StatsWalking bench.reply.tx)
      (hid : bench.reply.tx.ipIdCnt = .ofNat 16 (5001 + before.length))
      (hloaded : StatsLoaded bench.reply.rx query)
      (hacc : bench.reply.tx.ipCsumAcc = ipCsumSum StatsReply.ipTotalLen bench.reply.tx.ipIdCnt
        0x11 our.ip bench.reply.rx.replyDstIp)
      (hquiet : bench.heard = [])

structure Holds (our : NetOur) (statsPort : BitVec 16) (bench : StatsBench) : Prop where
  receiving : bench.Receiving statsPort
  phase : Phase our statsPort bench
  replies : bench.replier.Holds (replyOf our statsPort)
  cleared : bench.cleared = bench.requests.countP StatsQuery.clears

theorem holds_start (our : NetOur) (statsPort : BitVec 16) : start.Holds our statsPort where
  receiving := ⟨List.nil_suffix, rfl, fun _ hmem => absurd hmem (Option.not_mem_none _)⟩
  phase := .resting rfl ⟨rfl, rfl, rfl, rfl⟩ rfl
  replies := ⟨fun hpending => absurd hpending Bool.false_ne_true,
    fun _ hplace => absurd hplace.symm (Option.some_ne_none _),
    ⟨fun _ => ⟨rfl, .nil⟩, fun hne => absurd rfl hne⟩⟩
  cleared := rfl

theorem place_idle (hidle : bench.reply.tx.txState = .idle) : bench.replier.place = none :=
  if_pos hidle

theorem place_busy (hbusy : bench.reply.tx.txState ≠ .idle) :
    bench.replier.place = some bench.reply.tx.place := if_neg hbusy

theorem busyAgrees (hholds : bench.Holds our statsPort) : bench.BusyAgrees := by
  have hreplying : bench.replying = (bench.reply.rx.pktReady || bench.replier.place.isSome) :=
    hholds.replies.replying_eq
  rw [BusyAgrees, hreplying, Bool.or_comm]
  cases hholds.phase with
  | resting hready hresting hid =>
      rw [place_idle hresting.idle, hresting.active, Option.isSome_none]
  | pending before query hrequests hready hresting hid hloaded hquiet =>
      rw [place_idle hresting.idle, hresting.active, Option.isSome_none]
  | sending before query hrequests hready hwalking hid hloaded hacc hquiet =>
      rw [place_busy hwalking.busy, hwalking.active, Option.isSome_some]

theorem step_rx : (bench.step our statsPort i).reply.rx = bench.reply.rx.clkEdge statsPort
    bench.reply.tx.replyActive bench.reply.replyTake (bench.feed.drive i.rx) i.stats := rfl

/-- A cycle in which no query is taken. -/
theorem refused_step (hrefuses : bench.reply.rx.accepts statsPort bench.reply.tx.replyActive
      bench.reply.replyTake (bench.feed.drive i.rx) = false) :
    (bench.step our statsPort i).cleared = bench.cleared ∧
      (bench.step our statsPort i).reply.rx.pktReady =
        (!bench.reply.replyTake && bench.reply.rx.pktReady) ∧
      ∀ query, StatsLoaded bench.reply.rx query →
        StatsLoaded (bench.step our statsPort i).reply.rx query := by
  obtain ⟨hready, hclear, hlat, hmac, hip, hport⟩ :=
    @StatsReplyRx.clkEdge_refuses statsPort _ _ _ _ i.stats hrefuses
  rw [← @step_rx our] at hready hclear hlat hmac hip hport
  refine ⟨?_, hready, fun query hloaded => ⟨hlat.trans hloaded.lat, hmac.trans hloaded.mac,
    hip.trans hloaded.ip, hport.trans hloaded.port⟩⟩
  change (if (bench.step our statsPort i).reply.rx.clearStats then _ else _) = _
  rw [hclear, if_neg Bool.false_ne_true]

/-- A byte that arrives while a reply is pending or active does nothing. -/
theorem quiet_step (hholds : bench.Holds our statsPort) (hreplying : bench.replying = true)
    (hquiet : bench.heard = []) (htake : bench.reply.replyTake = bench.reply.rx.pktReady) :
    (bench.step our statsPort i).requests = bench.requests ∧
      (bench.step our statsPort i).cleared =
        (bench.step our statsPort i).requests.countP StatsQuery.clears ∧
      (bench.step our statsPort i).heard = [] ∧
      (bench.step our statsPort i).reply.rx.pktReady = false ∧
      ∀ query, StatsLoaded bench.reply.rx query →
        StatsLoaded (bench.step our statsPort i).reply.rx query := by
  have hnone : ¬ bench.Requests statsPort i := by
    intro hrequests
    have hidle := (heardNow_eq hholds.receiving hrequests.2).1
    rw [hreplying] at hidle
    exact absurd hidle (by decide)
  have hrefuses : bench.reply.rx.accepts statsPort bench.reply.tx.replyActive
      bench.reply.replyTake (bench.feed.drive i.rx) = false := by
    rw [← Bool.not_eq_true, accepts_iff hholds.receiving (busyAgrees hholds), hreplying]
    exact fun hall => absurd hall.2 (by decide)
  obtain ⟨hcleared, hready, hkeep⟩ := @refused_step our statsPort bench i hrefuses
  have hsame : (bench.step our statsPort i).requests = bench.requests := if_neg hnone
  refine ⟨hsame, ?_, ?_, ?_, hkeep⟩
  · rw [hcleared, hsame, hholds.cleared]
  · simp only [step, heardNow, hreplying, if_true, hquiet, ite_self]
  · rw [hready, htake, Bool.not_and_self]

/-- Between replies. -/
theorem resting_step (hholds : bench.Holds our statsPort) (hwhole : bench.Whole statsPort i)
    (hready : bench.reply.rx.pktReady = false) (hresting : StatsResting bench.reply.tx)
    (hid : bench.reply.tx.ipIdCnt = .ofNat 16 (5000 + bench.requests.length)) :
    Phase our statsPort (bench.step our statsPort i) ∧
      Replier.Moves (replyOf our statsPort) bench.replier (bench.step our statsPort i).replier
        i.txReady ∧
      (bench.step our statsPort i).cleared =
        (bench.step our statsPort i).requests.countP StatsQuery.clears := by
  have hbusy := busyAgrees hholds
  have haccepts := accepts_iff_requests hholds.receiving hbusy hwhole
  obtain ⟨hresting', hid'⟩ :=
    @StatsReply.rest_resting our bench.reply i.txReady hresting hready
  have hplace := place_idle hresting.idle
  have hplace' := @place_idle (bench.step our statsPort i) hresting'.idle
  by_cases hrequests : bench.Requests statsPort i
  · have hedge := @StatsReplyRx.clkEdge_accepts statsPort _ _ _ _ i.stats
      (haccepts.mpr hrequests)
    rw [← @step_rx our] at hedge
    have hready' : (bench.step our statsPort i).reply.rx.pktReady = true := by rw [hedge]
    have hlonger : (bench.step our statsPort i).requests = bench.requests ++
        [⟨bench.feed.arrived i.rx, (bench.feed.drive i.rx).source, i.stats⟩] :=
      if_pos hrequests
    have hheard : (bench.step our statsPort i).heard = [] := by
      simp only [step, hrequests.1.1, hrequests.1.2.1, if_true]
    refine ⟨.pending bench.requests _ hlonger hready' hresting' (hid'.trans hid) ?_ hheard,
      .rest (some _) (bench.reply.offer our statsPort) hready hplace hresting.valid hlonger
        hready' hplace' rfl rfl, ?_⟩
    · rw [hedge]
      exact ⟨rfl, rfl, rfl, rfl⟩
    · change (if (bench.step our statsPort i).reply.rx.clearStats then _ else _) = _
      rw [hedge, hlonger, List.countP_append, List.countP_singleton, hholds.cleared]
      dsimp only
      rw [queryClearNext_eq hholds.receiving hrequests]
      split <;> rfl
  · have hrefuses : bench.reply.rx.accepts statsPort bench.reply.tx.replyActive
        bench.reply.replyTake (bench.feed.drive i.rx) = false := by
      rw [← Bool.not_eq_true, haccepts]
      exact hrequests
    obtain ⟨hcleared, hready', -⟩ := @refused_step our statsPort bench i hrefuses
    rw [hready, Bool.and_false] at hready'
    have hsame : (bench.step our statsPort i).requests = bench.requests := if_neg hrequests
    refine ⟨.resting hready' hresting' ?_, .rest none (bench.reply.offer our statsPort) hready
      hplace hresting.valid (hsame.trans (List.append_nil _).symm) hready' hplace' rfl rfl, ?_⟩
    · rw [hsame]
      exact hid'.trans hid
    · rw [hcleared, hsame, hholds.cleared]

/-- A reply begins in the cycle after its query was accepted. -/
theorem pending_step (hholds : bench.Holds our statsPort) {before : List StatsQuery}
    {query : StatsQuery} (hrequests : bench.requests = before ++ [query])
    (hready : bench.reply.rx.pktReady = true) (hresting : StatsResting bench.reply.tx)
    (hid : bench.reply.tx.ipIdCnt = .ofNat 16 (5000 + before.length))
    (hloaded : StatsLoaded bench.reply.rx query) (hquiet : bench.heard = []) :
    Phase our statsPort (bench.step our statsPort i) ∧
      Replier.Moves (replyOf our statsPort) bench.replier (bench.step our statsPort i).replier
        i.txReady ∧
      (bench.step our statsPort i).cleared =
        (bench.step our statsPort i).requests.countP StatsQuery.clears := by
  have hreplying : bench.replying = true := by
    rw [← busyAgrees hholds, hready, Bool.or_true]
  obtain ⟨hsame, hcleared, hquiet', hready', hkeep⟩ := @quiet_step our statsPort bench i hholds
    hreplying hquiet (StatsReply.take_of_resting hresting)
  obtain ⟨hwalking, hfirst, hid', hacc⟩ :=
    @StatsReply.begin_walking our bench.reply i.txReady hresting hready
  have hloaded' := hkeep query hloaded
  have hnext : (bench.step our statsPort i).reply.tx.ipIdCnt =
      .ofNat 16 (5001 + before.length) := by
    rw [show 5001 + before.length = 5000 + before.length + 1 by omega, BitVec.ofNat_add, ← hid]
    exact hid'
  have hreply : bench.replier.reply (replyOf our statsPort) ≠ [] := by
    rw [Replier.reply_eq hrequests, replyOf, ← List.length_pos_iff_ne_nil, length_statsFrame]
    decide
  refine ⟨.sending before query (hsame.trans hrequests) hready' hwalking hnext hloaded' ?_
    hquiet', .begin (bench.reply.offer our statsPort) hready hresting.valid hreply hsame hready' ?_
      rfl rfl, hcleared⟩
  · rw [hloaded'.ip, ← hloaded.ip]
    rw [← hid'] at hacc
    exact hacc
  · rw [@place_busy (bench.step our statsPort i) hwalking.busy]
    exact congrArg some hfirst

/-- A reply goes on, or comes to its end. -/
theorem sending_step (hholds : bench.Holds our statsPort) {before : List StatsQuery}
    {query : StatsQuery} (hrequests : bench.requests = before ++ [query])
    (hready : bench.reply.rx.pktReady = false) (hwalking : StatsWalking bench.reply.tx)
    (hid : bench.reply.tx.ipIdCnt = .ofNat 16 (5001 + before.length))
    (hloaded : StatsLoaded bench.reply.rx query)
    (hacc : bench.reply.tx.ipCsumAcc = ipCsumSum StatsReply.ipTotalLen bench.reply.tx.ipIdCnt
      0x11 our.ip bench.reply.rx.replyDstIp)
    (hquiet : bench.heard = []) :
    Phase our statsPort (bench.step our statsPort i) ∧
      Replier.Moves (replyOf our statsPort) bench.replier (bench.step our statsPort i).replier
        i.txReady ∧
      (bench.step our statsPort i).cleared =
        (bench.step our statsPort i).requests.countP StatsQuery.clears := by
  have hreplying : bench.replying = true := by
    rw [← busyAgrees hholds, hwalking.active, Bool.true_or]
  obtain ⟨hsame, hcleared, hquiet', hready', hkeep⟩ := @quiet_step our statsPort bench i hholds
    hreplying hquiet ((StatsReply.take_of_walking hwalking).trans hready.symm)
  have hloaded' := hkeep query hloaded
  have hplace := hwalking.place_lt
  have hreply : bench.replier.reply (replyOf our statsPort) =
      statsFrame our statsPort bench.reply.tx.ipIdCnt query := by
    rw [Replier.reply_eq hrequests, replyOf, hid]
  have hlength : (bench.replier.reply (replyOf our statsPort)).length = 86 := by
    rw [hreply, length_statsFrame]
  have hbyte : (bench.replier.reply (replyOf our statsPort))[bench.reply.tx.place]? =
      some (bench.reply.txDataMux our statsPort) := by
    have hmux := @StatsReply.txDataMux_eq our statsPort _ _ hloaded hacc hwalking.within
    rw [← hreply, List.getD_eq_getElem _ _ (hplace.trans_eq hlength.symm)] at hmux
    rw [hmux]
    exact List.getElem?_eq_getElem _
  have hmoves : ∀ hnext : (bench.step our statsPort i).replier.place =
      if bench.reply.slice.ready i.txReady then
        if bench.reply.tx.place + 1 = 86 then none else some (bench.reply.tx.place + 1)
      else some bench.reply.tx.place,
      Replier.Moves (replyOf our statsPort) bench.replier (bench.step our statsPort i).replier
        i.txReady := by
    intro hnext
    rw [← hlength] at hnext
    refine .walk (bench.reply.offer our statsPort) bench.reply.tx.place hready
      (place_busy hwalking.busy) hwalking.valid ?_ hbyte hsame hready' hnext rfl rfl
    rw [hlength]
    exact hwalking.last
  have hsending : StatsWalking (bench.step our statsPort i).reply.tx →
      (bench.step our statsPort i).reply.tx.ipIdCnt = bench.reply.tx.ipIdCnt →
      (bench.step our statsPort i).reply.tx.ipCsumAcc = bench.reply.tx.ipCsumAcc →
      Phase our statsPort (bench.step our statsPort i) := by
    intro hwalking' hid' hacc'
    refine .sending before query (hsame.trans hrequests) hready' hwalking' (hid'.trans hid)
      hloaded' ?_ hquiet'
    rw [hloaded'.ip, ← hloaded.ip, hid', hacc']
    exact hacc
  cases htaken : bench.reply.slice.ready i.txReady with
  | false =>
      rw [htaken, if_neg Bool.false_ne_true] at hmoves
      obtain ⟨hwalking', hplace', hid', hacc'⟩ :=
        @StatsReply.stall_walking our bench.reply i.txReady hwalking htaken
      refine ⟨hsending hwalking' hid' hacc', hmoves ?_, hcleared⟩
      have hbusy := @place_busy (bench.step our statsPort i) hwalking'.busy
      exact hbusy.trans (congrArg some hplace')
  | true =>
      rw [htaken, if_pos rfl] at hmoves
      obtain ⟨hid', hacc'⟩ := @StatsReply.taken_edge our bench.reply i.txReady hwalking.busy
      by_cases hlast : bench.reply.tx.place + 1 = 86
      · rw [if_pos hlast] at hmoves
        have hresting :=
          @StatsReply.last_resting our bench.reply i.txReady hwalking htaken hlast
        refine ⟨.resting hready' hresting ?_, hmoves (place_idle hresting.idle), hcleared⟩
        rw [hsame, hrequests, List.length_append, List.length_singleton]
        refine (hid'.trans hid).trans (congrArg _ ?_)
        omega
      · rw [if_neg hlast] at hmoves
        obtain ⟨hwalking', hplace'⟩ :=
          @StatsReply.taken_walking our bench.reply i.txReady hwalking htaken hlast
        refine ⟨hsending hwalking' hid' hacc', hmoves ?_, hcleared⟩
        have hbusy := @place_busy (bench.step our statsPort i) hwalking'.busy
        exact hbusy.trans (congrArg some hplace')

theorem phase_step (hholds : bench.Holds our statsPort) (hwhole : bench.Whole statsPort i) :
    Phase our statsPort (bench.step our statsPort i) ∧
      Replier.Moves (replyOf our statsPort) bench.replier (bench.step our statsPort i).replier
        i.txReady ∧
      (bench.step our statsPort i).cleared =
        (bench.step our statsPort i).requests.countP StatsQuery.clears := by
  cases hholds.phase with
  | resting hready hresting hid => exact resting_step hholds hwhole hready hresting hid
  | pending before query hrequests hready hresting hid hloaded hquiet =>
      exact pending_step hholds hrequests hready hresting hid hloaded hquiet
  | sending before query hrequests hready hwalking hid hloaded hacc hquiet =>
      exact sending_step hholds hrequests hready hwalking hid hloaded hacc hquiet

theorem quiet_of_replying (hholds : bench.Holds our statsPort)
    (hreplying : bench.replying = true) : bench.heard = [] := by
  have hbusy := busyAgrees hholds
  rw [BusyAgrees, hreplying] at hbusy
  cases hholds.phase with
  | resting hready hresting hid =>
      rw [hready, hresting.active] at hbusy
      exact absurd hbusy (by decide)
  | pending before query hrequests hready hresting hid hloaded hquiet => exact hquiet
  | sending before query hrequests hready hwalking hid hloaded hacc hquiet => exact hquiet

theorem holds_step (hholds : bench.Holds our statsPort) (hwhole : bench.Whole statsPort i) :
    (bench.step our statsPort i).Holds our statsPort := by
  obtain ⟨hphase, hmoves, hcleared⟩ := @phase_step our statsPort bench i hholds hwhole
  exact ⟨receiving_step hholds.receiving (busyAgrees hholds) (quiet_of_replying hholds), hphase,
    hholds.replies.moves hmoves, hcleared⟩

theorem reply_le (bench : StatsBench) :
    (bench.replier.reply (replyOf our statsPort)).length ≤ 86 := by
  rcases List.eq_nil_or_concat' bench.requests with hnil | ⟨before, query, hrequests⟩
  · have hnone : bench.replier.reply (replyOf our statsPort) = [] := by
      have hnil' : bench.replier.requests = [] := hnil
      rw [Replier.reply, hnil']
      rfl
    rw [hnone]
    exact Nat.zero_le _
  · rw [Replier.reply_eq hrequests, replyOf, length_statsFrame]

/-- Each query has its answer in the list of replies. -/
theorem answers_replies (our : NetOur) (statsPort : BitVec 16) (requests : List StatsQuery) :
    List.Forall₂ (StatsAnswers our statsPort) requests
      (Replier.replies (replyOf our statsPort) requests) := by
  induction requests using List.reverseRecOn with
  | nil => exact .nil
  | append_singleton before query ih =>
      rw [Replier.replies_concat]
      refine List.rel_append ih (.cons (udpFrame_carries ?_) .nil)
      rw [length_statsPayload]
      decide

/-- While every query comes as a whole, the frames that come out are the replies to the
queries, in their order, each with the statistics at its query's last byte, a reply is out
when the receiver has been ready often enough, and `clear_stats` has been high once for each
query that asks for it. -/
theorem statsReply_run (our : NetOur) (statsPort : BitVec 16) {first last : List StatsReplyIn}
    (hwhole : Along (step our statsPort) (Whole statsPort) start (first ++ last)) :
    let earlier := runFrom (step our statsPort) start first
    let bench := runFrom (step our statsPort) start (first ++ last)
    (∃ replies owed, List.Forall₂ (StatsAnswers our statsPort) bench.requests replies ∧
      replies = bench.sent.whole ++ owed ∧ bench.sent.part <+: owed.headD []) ∧
    (88 ≤ last.countP StatsReplyIn.txReady →
      earlier.requests.length ≤ bench.sent.whole.length) ∧
    bench.cleared = bench.requests.countP StatsQuery.clears := by
  have hstep : ∀ (bench : StatsBench) (i : StatsReplyIn), bench.Whole statsPort i →
      bench.Holds our statsPort → (bench.step our statsPort i).Holds our statsPort :=
    fun _ _ hok hholds => holds_step hholds hok
  have hstart := holds_start our statsPort
  have hholds := invariant_along hstep hstart hwhole
  refine ⟨?_, fun henough => ?_, hholds.cleared⟩
  · obtain ⟨owed, hout, hpart⟩ := hholds.replies.out_replies
    exact ⟨_, owed, answers_replies our statsPort _, hout, hpart⟩
  · obtain ⟨hfirst, hlast⟩ := along_append.mp hwhole
    have hbefore := invariant_along hstep hstart hfirst
    rw [runFrom_append]
    exact Replier.sent_along replier StatsReplyIn.txReady hstep
      (fun _ _ hok hholds => (phase_step hholds hok).2.1) (fun _ hholds => hholds.replies)
      (fun bench _ => reply_le bench) hlast hbefore henough

def statsOur : NetOur := ⟨0x020000000001, 0x0A000001⟩

def statsHost : UdpSource := ⟨0x020000000002, 0x0A000002, 5555, 5003, 0⟩

/-- A payload byte by byte. -/
def statsBeats (stats : UdpStats) : List (BitVec 8) → List StatsReplyIn
  | [] => []
  | data :: rest => ⟨⟨data, true, rest.isEmpty, false, statsHost⟩, stats, true⟩ ::
      statsBeats stats rest

def statsIdle : StatsReplyIn :=
  ⟨⟨0, false, false, false, statsHost⟩, ⟨0, 0, 0, 0, 0, 0, 0, 0, 0⟩, true⟩

theorem statsReply_run_clear :
    let first := statsBeats ⟨3, 300, 0, 2, 0, 0, 0, 0x0A000002, 5555⟩ [0x43]
    let bench := runFrom (step statsOur 5003) start (first ++ List.replicate 88 statsIdle)
    1 ≤ bench.sent.whole.length ∧ bench.cleared = 1 := by
  intro first bench
  have hwhole : Along (step statsOur 5003) (Whole 5003) start
      (first ++ List.replicate 88 statsIdle) := by decide +kernel
  obtain ⟨-, hout, hcleared⟩ := statsReply_run statsOur 5003 hwhole
  exact ⟨(by decide +kernel : 1 ≤ (runFrom (step statsOur 5003) start first).requests.length).trans
    (hout (by decide +kernel)), hcleared.trans (by decide +kernel)⟩

/-- A datagram that begins during a reply and goes on after it: a byte in its middle clears
the statistics, and its end is answered. -/
theorem statsReply_run_middle :
    let stats : UdpStats := ⟨3, 300, 0, 2, 0, 0, 0, 0x0A000002, 5555⟩
    let events := statsBeats stats [0x47] ++ statsBeats stats (0x47 :: List.replicate 120 0x43) ++
      List.replicate 100 statsIdle
    let bench := runFrom (step statsOur 5003) start events
    bench.requests.length = 1 ∧ bench.requests.countP StatsQuery.clears = 0 ∧
      bench.cleared = 1 ∧ bench.sent.whole.length = 2 := by
  decide +kernel

end StatsBench

end EmacZero
