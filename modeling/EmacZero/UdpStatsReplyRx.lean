/-
The query parser of `udp_stats_reply`: what it has seen of a datagram, and which queries
are taken.
-/
import EmacZero.UdpStatsReply

namespace EmacZero

namespace StatsReplyRx

variable {statsPort : BitVec 16} {rx : StatsReplyRx} {replyActive replyTake : Bool}
  {i : UdpRxIn} {stats : UdpStats}

/-- What an accepted query sets. -/
theorem clkEdge_accepts (haccepts : rx.accepts statsPort replyActive replyTake i = true) :
    rx.clkEdge statsPort replyActive replyTake i stats =
      { pktReady := true
        queryIsClear := false
        replyDstIp := i.source.srcIp
        replyDstMac := i.source.srcMac
        replyDstPort := i.source.srcPort
        rxState := .idle
        clearStats := rx.queryClearNext i
        lat := stats } := by
  simp only [accepts, Bool.and_eq_true, Bool.not_eq_true'] at haccepts
  obtain ⟨⟨htake, ⟨hvalid, hactive⟩, hready⟩, hlatch⟩ := haccepts
  have herr : i.err = false := by
    simp only [doLatchQuery, Bool.and_eq_true, Bool.not_eq_true'] at hlatch
    exact hlatch.1.2
  simp only [clkEdge, htake, hvalid, hactive, hready, hlatch, herr, Bool.not_false, Bool.and_self,
    Bool.and_false, Bool.false_eq_true, if_true, if_false]

/-- What stays where no query is accepted. -/
theorem clkEdge_refuses (hrefuses : rx.accepts statsPort replyActive replyTake i = false) :
    (rx.clkEdge statsPort replyActive replyTake i stats).pktReady =
        (!replyTake && rx.pktReady) ∧
      (rx.clkEdge statsPort replyActive replyTake i stats).clearStats = false ∧
      (rx.clkEdge statsPort replyActive replyTake i stats).lat = rx.lat ∧
      (rx.clkEdge statsPort replyActive replyTake i stats).replyDstMac = rx.replyDstMac ∧
      (rx.clkEdge statsPort replyActive replyTake i stats).replyDstIp = rx.replyDstIp ∧
      (rx.clkEdge statsPort replyActive replyTake i stats).replyDstPort = rx.replyDstPort := by
  simp only [clkEdge]
  cases htake : replyTake with
  | true =>
      simp only [if_true]
      split <;> exact ⟨rfl, rfl, rfl, rfl, rfl, rfl⟩
  | false =>
      simp only [Bool.false_eq_true, if_false]
      cases hfree : i.valid && !replyActive && !rx.pktReady with
      | false =>
          simp only [Bool.false_eq_true, if_false]
          split <;> split <;> exact ⟨rfl, rfl, rfl, rfl, rfl, rfl⟩
      | true =>
          rw [accepts, htake, hfree, Bool.not_false, Bool.true_and, Bool.true_and] at hrefuses
          simp only [hrefuses, if_true, Bool.false_eq_true, if_false]
          cases rx.rxState with
          | idle => dsimp only; split <;> split <;> exact ⟨rfl, rfl, rfl, rfl, rfl, rfl⟩
          | capture => dsimp only; split <;> exact ⟨rfl, rfl, rfl, rfl, rfl, rfl⟩
          | drain => dsimp only; split <;> split <;> exact ⟨rfl, rfl, rfl, rfl, rfl, rfl⟩

/-- The parser does not move without a byte. -/
theorem clkEdge_idle (hidle : i.valid = false) :
    (rx.clkEdge statsPort replyActive replyTake i stats).rxState = rx.rxState ∧
      (rx.clkEdge statsPort replyActive replyTake i stats).queryIsClear = rx.queryIsClear := by
  simp only [clkEdge, hidle, Bool.false_and, Bool.false_eq_true, if_false]
  split <;> exact ⟨rfl, rfl⟩

/-- It is idle behind a last byte. -/
theorem clkEdge_last (hvalid : i.valid = true) (hlast : i.last = true)
    (hquiet : replyTake = true → rx.rxState = .idle) :
    (rx.clkEdge statsPort replyActive replyTake i stats).rxState = .idle := by
  cases herr : i.err with
  | true => simp only [clkEdge, hvalid, hlast, herr, Bool.and_self, if_true]
  | false =>
      simp only [clkEdge, hvalid, hlast, herr, Bool.and_self, Bool.and_false, Bool.false_eq_true,
        if_true, if_false, Bool.true_and]
      cases htake : replyTake with
      | true => simp only [if_true, hquiet htake]
      | false =>
          simp only [Bool.false_eq_true, if_false]
          split
          · rename_i hfree
            cases hlatch : rx.doLatchQuery statsPort i with
            | true => rfl
            | false =>
                simp only [doLatchQuery, hvalid, herr, hlast] at hlatch
                cases hstate : rx.rxState with
                | drain => rfl
                | idle =>
                    rw [hstate] at hlatch
                    have hport : i.source.dstPort ≠ statsPort := by
                      intro hsame
                      simp [hsame] at hlatch
                    simp only [if_neg hport, Bool.false_eq_true, if_false]
                | capture =>
                    rw [hstate] at hlatch
                    simp at hlatch
          · rfl

/-- A byte before the last while a reply is pending or active is not looked at. -/
theorem clkEdge_busy (hmore : i.last = false)
    (hbusy : (replyActive || rx.pktReady) = true) :
    (rx.clkEdge statsPort replyActive replyTake i stats).rxState = rx.rxState ∧
      (rx.clkEdge statsPort replyActive replyTake i stats).queryIsClear = rx.queryIsClear := by
  have hfree : (i.valid && !replyActive && !rx.pktReady) = false := by
    rw [Bool.and_assoc, ← Bool.not_or, hbusy, Bool.not_true, Bool.and_false]
  simp only [clkEdge, hmore, hfree, Bool.and_false, Bool.false_and, Bool.false_eq_true, if_false]
  split <;> exact ⟨rfl, rfl⟩

/-- A byte before the last that the parser looks at. -/
theorem clkEdge_more (hvalid : i.valid = true) (hmore : i.last = false)
    (htake : replyTake = false) (hfree : (replyActive || rx.pktReady) = false) :
    (rx.clkEdge statsPort replyActive replyTake i stats).rxState =
        (match rx.rxState with
        | .idle => if i.source.dstPort = statsPort then .capture else .drain
        | state => state) ∧
      (rx.clkEdge statsPort replyActive replyTake i stats).queryIsClear =
        if rx.rxState = .idle ∧ i.source.dstPort = statsPort then i.data == 0x43
        else rx.queryIsClear := by
  rw [Bool.or_eq_false_iff] at hfree
  have hlatch : rx.doLatchQuery statsPort i = false := by
    simp only [doLatchQuery, hmore, Bool.and_false, Bool.or_self]
  simp only [clkEdge, hvalid, hmore, htake, hfree.1, hfree.2, hlatch, Bool.not_false,
    Bool.and_self, Bool.and_false, Bool.false_and, Bool.false_eq_true, if_true, if_false]
  cases hstate : rx.rxState with
  | idle =>
      by_cases hport : i.source.dstPort = statsPort
      · simp [hport]
      · simp [hport]
  | capture => simp
  | drain => simp

end StatsReplyRx

namespace StatsBench

variable {our : NetOur} {statsPort : BitVec 16} {bench : StatsBench} {i : StatsReplyIn}

/-- The parser behind the bytes so far. -/
structure Receiving (statsPort : BitVec 16) (bench : StatsBench) : Prop where
  suffix : bench.heard <:+ bench.feed.bytes
  state : bench.reply.rx.rxState =
    if bench.heard = [] then .idle
    else if bench.feed.source.dstPort = statsPort then .capture
    else .drain
  clear : ∀ first ∈ bench.heard.head?, bench.feed.source.dstPort = statsPort →
    bench.reply.rx.queryIsClear = (first == 0x43)

/-- `reply_active || pkt_ready` is said by what is out. -/
def BusyAgrees (bench : StatsBench) : Prop :=
  (bench.reply.tx.replyActive || bench.reply.rx.pktReady) = bench.replying

theorem heard_source (hrx : bench.Receiving statsPort) (hheard : bench.heard ≠ []) :
    (bench.feed.drive i.rx).source = bench.feed.source := by
  apply UdpFeed.drive_source
  rw [UdpFeed.between, List.isEmpty_eq_false_iff]
  intro hnil
  have hsuffix := hrx.suffix
  rw [hnil, List.suffix_nil] at hsuffix
  exact hheard hsuffix

theorem take_of_quiet (hbusy : bench.BusyAgrees) (hreplying : bench.replying = false) :
    bench.reply.replyTake = false := by
  rw [BusyAgrees, hreplying, Bool.or_eq_false_iff] at hbusy
  rw [StatsReply.replyTake, hbusy.2, Bool.and_false, Bool.false_and]

/-- What is accepted: a datagram for the port that ends without an error while no reply is
pending or active. -/
theorem accepts_iff (hrx : bench.Receiving statsPort) (hbusy : bench.BusyAgrees) :
    bench.reply.rx.accepts statsPort bench.reply.tx.replyActive bench.reply.replyTake
        (bench.feed.drive i.rx) = true ↔
      bench.Ends statsPort i ∧ bench.replying = false := by
  cases hreplying : bench.replying with
  | true =>
      have hfree : (!bench.reply.tx.replyActive && !bench.reply.rx.pktReady) = false := by
        rw [BusyAgrees, hreplying] at hbusy
        rw [← Bool.not_or, hbusy]
        rfl
      rw [StatsReplyRx.accepts, Bool.and_assoc (bench.feed.drive i.rx).valid, hfree]
      simp
  | false =>
      have htake := take_of_quiet hbusy hreplying
      rw [BusyAgrees, hreplying, Bool.or_eq_false_iff] at hbusy
      rw [StatsReplyRx.accepts, htake, hbusy.1, hbusy.2, StatsReplyRx.doLatchQuery, hrx.state, Ends,
        UdpFeed.drive_valid, UdpFeed.drive_last, UdpFeed.drive_err]
      by_cases hheard : bench.heard = []
      · rw [if_pos hheard]
        simp
        tauto
      · rw [if_neg hheard, @heard_source statsPort bench i hrx hheard]
        by_cases hport : bench.feed.source.dstPort = statsPort
        · rw [if_pos hport]
          simp [hport]
          tauto
        · rw [if_neg hport]
          simp [hport]

/-- Of a datagram whose bytes all came while no reply was pending or active, all were heard. -/
theorem heardNow_eq (hrx : bench.Receiving statsPort)
    (hall : (bench.heardNow i).length = (bench.feed.arrived i.rx).length) :
    bench.replying = false ∧ bench.heard = bench.feed.bytes := by
  have hshort := hrx.suffix.length_le
  cases hreplying : bench.replying with
  | true =>
      rw [heardNow, hreplying, if_pos rfl, UdpFeed.arrived, List.length_append] at hall
      have hone : [i.rx.data].length = 1 := rfl
      omega
  | false =>
      rw [heardNow, hreplying, if_neg Bool.false_ne_true, UdpFeed.arrived, List.length_append,
        List.length_append] at hall
      exact ⟨rfl, hrx.suffix.eq_of_length (Nat.add_right_cancel hall)⟩

/-- While every query came as a whole, what is accepted is what is to be answered. -/
theorem accepts_iff_requests (hrx : bench.Receiving statsPort) (hbusy : bench.BusyAgrees)
    (hwhole : bench.Whole statsPort i) :
    bench.reply.rx.accepts statsPort bench.reply.tx.replyActive bench.reply.replyTake
        (bench.feed.drive i.rx) = true ↔ bench.Requests statsPort i := by
  rw [accepts_iff hrx hbusy]
  constructor
  · rintro ⟨hends, hreplying⟩
    exact ⟨hends, hwhole hends hreplying⟩
  · rintro ⟨hends, hall⟩
    exact ⟨hends, (heardNow_eq hrx hall).1⟩

/-- A query is the command to clear by its first byte. -/
theorem queryClearNext_eq (hrx : bench.Receiving statsPort)
    (hrequests : bench.Requests statsPort i) :
    bench.reply.rx.queryClearNext (bench.feed.drive i.rx) =
      StatsQuery.clears ⟨bench.feed.arrived i.rx, (bench.feed.drive i.rx).source, i.stats⟩ := by
  obtain ⟨⟨-, -, -, hport⟩, hall⟩ := hrequests
  obtain ⟨-, hheard⟩ := heardNow_eq hrx hall
  rw [StatsReplyRx.queryClearNext, hrx.state, StatsQuery.clears, UdpFeed.arrived, ← hheard]
  cases hbytes : bench.heard with
  | nil => simp
  | cons first rest =>
      rw [@heard_source statsPort bench i hrx (by rw [hbytes]; exact List.cons_ne_nil _ _)] at hport
      have hclear := hrx.clear first (by rw [hbytes]; rfl) hport
      simp [hport, hclear]

theorem receiving_step (hrx : bench.Receiving statsPort) (hbusy : bench.BusyAgrees)
    (hquiet : bench.replying = true → bench.heard = []) :
    (bench.step our statsPort i).Receiving statsPort := by
  have hrx' : (bench.step our statsPort i).reply.rx = bench.reply.rx.clkEdge statsPort
      bench.reply.tx.replyActive bench.reply.replyTake (bench.feed.drive i.rx) i.stats := rfl
  have hdrive : (bench.feed.drive i.rx).valid = i.rx.valid := UdpFeed.drive_valid _ _
  cases hvalid : i.rx.valid with
  | false =>
      have hfeed : (bench.step our statsPort i).feed = bench.feed := UdpFeed.next_idle _ _ hvalid
      have hheard : (bench.step our statsPort i).heard = bench.heard := by
        simp only [step, hvalid, Bool.false_eq_true, if_false]
      obtain ⟨hstate, hclear⟩ := @StatsReplyRx.clkEdge_idle statsPort bench.reply.rx
        bench.reply.tx.replyActive bench.reply.replyTake _ i.stats (hdrive.trans hvalid)
      refine ⟨by rw [hfeed, hheard]; exact hrx.suffix, ?_, ?_⟩
      · rw [hrx', hstate, hfeed, hheard, hrx.state]
      · rw [hrx', hclear, hfeed, hheard]
        exact hrx.clear
  | true =>
      cases hlast : i.rx.last with
      | true =>
          have hheard : (bench.step our statsPort i).heard = [] := by
            simp only [step, hvalid, hlast, if_true]
          have hstate := @StatsReplyRx.clkEdge_last statsPort bench.reply.rx
            bench.reply.tx.replyActive bench.reply.replyTake _ i.stats (hdrive.trans hvalid)
            ((UdpFeed.drive_last _ _).trans hlast) fun htake => by
              have hreplying : bench.replying = true := by
                by_contra hfree
                have hidle := take_of_quiet hbusy (Bool.not_eq_true _ ▸ hfree)
                rw [htake] at hidle
                exact absurd hidle (by decide)
              rw [hrx.state, if_pos (hquiet hreplying)]
          refine ⟨by rw [hheard]; exact List.nil_suffix, ?_, ?_⟩
          · rw [hrx', hstate, hheard, if_pos rfl]
          · rw [hheard]
            exact fun _ hmem => absurd hmem (Option.not_mem_none _)
      | false =>
          have hfeed : (bench.step our statsPort i).feed =
              ⟨(bench.feed.drive i.rx).source, bench.feed.arrived i.rx⟩ :=
            UdpFeed.next_more _ _ hvalid hlast
          have hheard : (bench.step our statsPort i).heard = bench.heardNow i := by
            simp only [step, hvalid, hlast, if_true, Bool.false_eq_true, if_false]
          have hmore := (UdpFeed.drive_last bench.feed i.rx).trans hlast
          cases hreplying : bench.replying with
          | true =>
              have hnone := hquiet hreplying
              have hnow : bench.heardNow i = [] := by
                rw [heardNow, hreplying, if_pos rfl, hnone]
              obtain ⟨hstate, -⟩ := @StatsReplyRx.clkEdge_busy statsPort bench.reply.rx
                bench.reply.tx.replyActive bench.reply.replyTake _ i.stats hmore
                (hbusy.trans hreplying)
              refine ⟨by rw [hheard, hnow]; exact List.nil_suffix, ?_, ?_⟩
              · rw [hrx', hstate, hheard, hnow, hrx.state, if_pos hnone, if_pos rfl]
              · rw [hheard, hnow]
                exact fun _ hmem => absurd hmem (Option.not_mem_none _)
          | false =>
              have hnow : bench.heardNow i = bench.heard ++ [i.rx.data] := by
                rw [heardNow, hreplying, if_neg Bool.false_ne_true]
              obtain ⟨hstate, hclear⟩ := @StatsReplyRx.clkEdge_more statsPort bench.reply.rx
                bench.reply.tx.replyActive bench.reply.replyTake _ i.stats (hdrive.trans hvalid)
                hmore (take_of_quiet hbusy hreplying) (hbusy.trans hreplying)
              have hsome : bench.heard ++ [i.rx.data] ≠ [] := List.concat_ne_nil _ _
              obtain ⟨before, hbefore⟩ := hrx.suffix
              refine ⟨?_, ?_, ?_⟩
              · rw [hheard, hnow, hfeed]
                exact ⟨before, by rw [← List.append_assoc, hbefore]; rfl⟩
              · rw [hrx', hstate, hheard, hnow, hfeed, if_neg hsome, hrx.state]
                by_cases hnone : bench.heard = []
                · rw [if_pos hnone]
                · rw [if_neg hnone, @heard_source statsPort bench i hrx hnone]
                  split <;> rfl
              · rw [hrx', hclear, hheard, hnow, hfeed, hrx.state]
                intro first hfirst hport
                cases hbytes : bench.heard with
                | nil =>
                    rw [hbytes] at hfirst
                    obtain rfl := Option.some.inj hfirst
                    rw [if_pos ⟨if_pos rfl, hport⟩, UdpFeed.drive_data]
                | cons head rest =>
                    rw [hbytes] at hfirst
                    obtain rfl := Option.some.inj hfirst
                    have hne : bench.heard ≠ [] := by rw [hbytes]; exact List.cons_ne_nil _ _
                    have hown : bench.feed.source.dstPort = statsPort := by
                      rw [← @heard_source statsPort bench i hrx hne]
                      exact hport
                    have hbusyState : ¬ ((if head :: rest = [] then StatsRxState.idle
                        else if bench.feed.source.dstPort = statsPort then .capture
                        else .drain) = .idle ∧
                        (bench.feed.drive i.rx).source.dstPort = statsPort) := by
                      rw [if_neg (List.cons_ne_nil _ _), if_pos hown]
                      exact fun hboth => absurd hboth.1 (by decide)
                    rw [if_neg hbusyState]
                    exact hrx.clear head (by rw [hbytes]; rfl) hown

end StatsBench

/-- The registers hold a query that is to be answered. -/
structure StatsLoaded (rx : StatsReplyRx) (query : StatsQuery) : Prop where
  lat : rx.lat = query.stats
  mac : rx.replyDstMac = query.source.srcMac
  ip : rx.replyDstIp = query.source.srcIp
  port : rx.replyDstPort = query.source.srcPort

end EmacZero
