/-
The transmit state machine of `udp_stats_reply`: it walks along the reply, a byte for each
that the output register takes.
-/
import EmacZero.UdpStatsReplyRx

namespace EmacZero

variable {our : NetOur} {statsPort : BitVec 16} {reply : StatsReply} {query : StatsQuery}
  {txReady : Bool}

/-- The reply to a query, with the IP identification that the counter gives it. -/
def statsFrame (our : NetOur) (statsPort id : BitVec 16) (query : StatsQuery) :
    List (BitVec 8) :=
  udpFrame our id query.source.srcMac query.source.srcIp statsPort query.source.srcPort
    (statsPayload query.stats)

theorem length_statsPayload (stats : UdpStats) : (statsPayload stats).length = 44 := rfl

theorem length_statsFrame {id : BitVec 16} : (statsFrame our statsPort id query).length = 86 :=
  length_udpFrame

namespace StatsReplyTx

/-- Where in the frame the state machine is. -/
def place (tx : StatsReplyTx) : Nat :=
  match tx.txState with
  | .idle => 0
  | .ethHdr => tx.txCnt.toNat
  | .ipHdr => 14 + tx.txCnt.toNat
  | .udp => 34 + tx.txCnt.toNat

/-- The counter is within what the state sends. -/
def Within (tx : StatsReplyTx) : Prop :=
  match tx.txState with
  | .idle => False
  | .ethHdr => tx.txCnt.toNat < 14
  | .ipHdr => tx.txCnt.toNat < 20
  | .udp => tx.txCnt.toNat < 52

end StatsReplyTx

/-- Nothing is being sent. -/
structure StatsResting (tx : StatsReplyTx) : Prop where
  idle : tx.txState = .idle
  valid : tx.srcValid = false
  last : tx.srcLast = false
  active : tx.replyActive = false

/-- A reply is being sent. -/
structure StatsWalking (tx : StatsReplyTx) : Prop where
  within : tx.Within
  valid : tx.srcValid = true
  last : tx.srcLast = true ↔ tx.place + 1 = 86
  active : tx.replyActive = true

/-- The headers before the UDP header, which is sent together with the payload. -/
def statsHeaders : HeaderChain StatsTxState where
  header
    | .ethHdr => some ⟨0, 14, .ipHdr⟩
    | .ipHdr => some ⟨14, 20, .udp⟩
    | _ => none
  body := .udp
  total := 34
  length_lt state sec hsec := by cases state <;> cases hsec <;> decide
  next state sec hsec := by
    cases state <;> cases hsec
    · exact .inr ⟨_, rfl, by decide, rfl⟩
    · exact .inl ⟨rfl, rfl⟩
  stop := rfl

/-- The registers that walk along the headers. -/
def StatsReplyTx.headerWalk (tx : StatsReplyTx) : HeaderWalk StatsTxState :=
  ⟨tx.txState, tx.txCnt, tx.srcValid, tx.srcLast, tx.replyActive⟩

namespace StatsWalking

variable {tx : StatsReplyTx}

theorem busy (hwalking : StatsWalking tx) : tx.txState ≠ .idle := by
  intro hidle
  have hwithin := hwalking.within
  rw [StatsReplyTx.Within, hidle] at hwithin
  exact hwithin

/-- A place in the headers, or one in the UDP datagram. -/
theorem place_cases (hwalking : StatsWalking tx) :
    (tx.place < 34 ∧ ∃ sec, statsHeaders.header tx.txState = some sec ∧
        tx.txCnt.toNat < sec.length ∧ tx.place = sec.first + tx.txCnt.toNat) ∨
      (tx.txState = .udp ∧ tx.place = 34 + tx.txCnt.toNat ∧ tx.txCnt.toNat < 52) := by
  have hwithin := hwalking.within
  rw [StatsReplyTx.Within] at hwithin
  rw [StatsReplyTx.place]
  cases hstate : tx.txState with
  | idle => exact absurd hstate hwalking.busy
  | ethHdr =>
      simp only [hstate] at hwithin ⊢
      exact .inl ⟨by omega, _, rfl, hwithin, (Nat.zero_add _).symm⟩
  | ipHdr =>
      simp only [hstate] at hwithin ⊢
      exact .inl ⟨by omega, _, rfl, hwithin, rfl⟩
  | udp =>
      simp only [hstate] at hwithin ⊢
      exact .inr ⟨trivial, trivial, hwithin⟩

theorem place_lt (hwalking : StatsWalking tx) : tx.place < 86 := by
  obtain ⟨hhead, -⟩ | ⟨-, hplace, hwithin⟩ := hwalking.place_cases <;> omega

theorem in_headers (hwalking : StatsWalking tx) (hhead : tx.place < 34) :
    tx.headerWalk.In statsHeaders tx.place := by
  have hlast : tx.srcLast = false := by
    rw [← Bool.not_eq_true, hwalking.last]
    omega
  obtain ⟨-, hheader⟩ | ⟨-, hplace, -⟩ := hwalking.place_cases
  · exact ⟨hheader, hwalking.valid, hlast, hwalking.active⟩
  · omega

theorem of_headers {place : Nat} (hin : tx.headerWalk.In statsHeaders place) :
    StatsWalking tx ∧ tx.place = place := by
  obtain ⟨⟨sec, hsec, hcnt, rfl⟩, hvalid, hlast, hactive⟩ := hin
  have hat : tx.place = sec.first + tx.txCnt.toNat ∧ tx.place < 34 ∧ tx.Within := by
    change statsHeaders.header tx.txState = some sec at hsec
    change tx.txCnt.toNat < sec.length at hcnt
    rw [StatsReplyTx.place, StatsReplyTx.Within]
    cases hstate : tx.txState with
    | idle | udp =>
        rw [hstate] at hsec
        cases hsec
    | ethHdr =>
        rw [hstate] at hsec
        cases hsec
        exact ⟨(Nat.zero_add _).symm, hcnt.trans (by decide), hcnt⟩
    | ipHdr =>
        rw [hstate] at hsec
        cases hsec
        exact ⟨rfl, Nat.add_lt_add_left hcnt 14, hcnt⟩
  obtain ⟨hplace, hhead, hwithin⟩ := hat
  refine ⟨⟨hwithin, hvalid, ?_, hactive⟩, hplace⟩
  rw [show tx.srcLast = false from hlast, Bool.false_eq_true, false_iff]
  omega

theorem of_udp {cnt : Nat} {last : Bool} (hat : tx.headerWalk.At .udp cnt last) (hcnt : cnt < 52)
    (hlast : last = true ↔ cnt + 1 = 52) : StatsWalking tx ∧ tx.place = 34 + cnt := by
  obtain ⟨hstate, hcnt', hvalid, hlast', hactive⟩ := hat
  simp only [StatsReplyTx.headerWalk] at hstate hcnt' hvalid hlast' hactive
  have hplace : tx.place = 34 + cnt := by rw [StatsReplyTx.place, hstate, ← hcnt']
  refine ⟨⟨?_, hvalid, ?_, hactive⟩, hplace⟩
  · rw [StatsReplyTx.Within, hstate]
    exact hcnt'.trans_lt hcnt
  · rw [hlast', hlast, hplace]
    omega

end StatsWalking

namespace StatsReply

/-- The multiplexer gives the frame's byte at this place. -/
theorem txDataMux_eq (hloaded : StatsLoaded reply.rx query)
    (hacc : reply.tx.ipCsumAcc =
      ipCsumSum ipTotalLen reply.tx.ipIdCnt 0x11 our.ip reply.rx.replyDstIp)
    (hwithin : reply.tx.Within) :
    reply.txDataMux our statsPort =
      (statsFrame our statsPort reply.tx.ipIdCnt query).getD reply.tx.place 0 := by
  have htotal : ipTotalLen = 28 + .ofNat 16 (statsPayload query.stats).length := by
    rw [length_statsPayload]
    decide
  have hudp : udpTotalLen = 8 + .ofNat 16 (statsPayload query.stats).length := by
    rw [length_statsPayload]
    decide
  rw [StatsReplyTx.Within] at hwithin
  rw [txDataMux, StatsReplyTx.place, statsFrame, hacc, htotal, hudp, hloaded.mac, hloaded.ip,
    hloaded.port, hloaded.lat]
  cases hstate : reply.tx.txState with
  | idle => rw [hstate] at hwithin; exact hwithin.elim
  | ethHdr =>
      rw [hstate] at hwithin
      exact (udpFrame_ethHdr hwithin).symm
  | ipHdr =>
      rw [hstate] at hwithin
      exact (udpFrame_ipHdr hwithin).symm
  | udp =>
      rw [hstate] at hwithin
      simp only at hwithin ⊢
      have hhead : (udpHeader statsPort query.source.srcPort
          (8 + .ofNat 16 (statsPayload query.stats).length)).length = 8 := rfl
      by_cases hcnt : reply.tx.txCnt.toNat < 8
      · rw [udpFrame_udpHdr hcnt, List.getD_append _ _ _ _ hcnt]
      · obtain ⟨cnt, hplace⟩ := Nat.exists_eq_add_of_le (Nat.le_of_not_lt hcnt)
        rw [hplace, ← Nat.add_assoc, udpFrame_payload,
          List.getD_append_right _ _ _ _ (by rw [hhead]; exact Nat.le_add_right _ _), hhead,
          Nat.add_sub_cancel_left]

theorem take_of_resting (hresting : StatsResting reply.tx) :
    reply.replyTake = reply.rx.pktReady := by
  rw [replyTake, hresting.idle, hresting.active, Bool.not_false, Bool.and_true]
  exact Bool.true_and _

theorem take_of_walking (hwalking : StatsWalking reply.tx) : reply.replyTake = false := by
  rw [replyTake, hwalking.active, Bool.not_true, Bool.and_false]

/-- A reply begins. -/
theorem begin_walking (hresting : StatsResting reply.tx) (hready : reply.rx.pktReady = true) :
    StatsWalking (reply.txEdge our txReady) ∧ (reply.txEdge our txReady).place = 0 ∧
      (reply.txEdge our txReady).ipIdCnt = reply.tx.ipIdCnt + 1 ∧
      (reply.txEdge our txReady).ipCsumAcc =
        ipCsumSum ipTotalLen (reply.tx.ipIdCnt + 1) 0x11 our.ip reply.rx.replyDstIp := by
  have htake := (take_of_resting hresting).trans hready
  have hedge : reply.txEdge our txReady =
      { reply.tx with
        txStart := true
        srcLast := false
        txState := .ethHdr
        txCnt := 0
        replyActive := true
        srcValid := true
        ipIdCnt := reply.tx.ipIdCnt + 1
        ipCsumAcc := ipCsumSum ipTotalLen (reply.tx.ipIdCnt + 1) 0x11 our.ip
          reply.rx.replyDstIp } := by
    simp only [txEdge, hresting.idle, htake, hresting.last, ite_self, if_true]
  rw [hedge]
  refine ⟨⟨Nat.zero_lt_succ 13, rfl, ?_, rfl⟩, rfl, rfl, rfl⟩
  change false = true ↔ 0 + 1 = 86
  simp

theorem rest_resting (hresting : StatsResting reply.tx) (hready : reply.rx.pktReady = false) :
    StatsResting (reply.txEdge our txReady) ∧
      (reply.txEdge our txReady).ipIdCnt = reply.tx.ipIdCnt := by
  have htake := (take_of_resting hresting).trans hready
  have hedge : reply.txEdge our txReady =
      { reply.tx with
        txStart := if txReady && reply.slice.valid then false else reply.tx.txStart
        srcLast := false
        srcValid := false } := by
    simp only [txEdge, hresting.idle, htake, hresting.last, ite_self, Bool.false_eq_true, if_false]
  rw [hedge]
  exact ⟨⟨hresting.idle, rfl, rfl, hresting.active⟩, rfl⟩

/-- The output register does not take the byte. -/
theorem stall_walking (hwalking : StatsWalking reply.tx)
    (hstall : reply.slice.ready txReady = false) :
    StatsWalking (reply.txEdge our txReady) ∧
      (reply.txEdge our txReady).place = reply.tx.place ∧
      (reply.txEdge our txReady).ipIdCnt = reply.tx.ipIdCnt ∧
      (reply.txEdge our txReady).ipCsumAcc = reply.tx.ipCsumAcc := by
  have hedge : reply.txEdge our txReady =
      { reply.tx with
        txStart := if txReady && reply.slice.valid then false else reply.tx.txStart
        srcValid := true } := by
    have hbusy := hwalking.busy
    rw [txEdge]
    cases hstate : reply.tx.txState with
    | idle => exact absurd hstate hbusy
    | ethHdr => simp only [hstate, hstall, Bool.false_and, Bool.false_eq_true, if_false]
    | ipHdr => simp only [hstate, hstall, Bool.false_and, Bool.false_eq_true, if_false]
    | udp => simp only [hstate, hstall, Bool.false_and, Bool.false_eq_true, if_false]
  rw [hedge]
  exact ⟨⟨hwalking.within, rfl, hwalking.last, hwalking.active⟩, rfl, rfl, rfl⟩

/-- What a byte that the register takes does not change. -/
theorem taken_edge (hbusy : reply.tx.txState ≠ .idle) :
    (reply.txEdge our txReady).ipIdCnt = reply.tx.ipIdCnt ∧
      (reply.txEdge our txReady).ipCsumAcc = reply.tx.ipCsumAcc := by
  rw [txEdge]
  cases hstate : reply.tx.txState with
  | idle => exact absurd hstate hbusy
  | ethHdr => simp only; split <;> [split; skip] <;> exact ⟨rfl, rfl⟩
  | ipHdr => simp only; split <;> [split; skip] <;> exact ⟨rfl, rfl⟩
  | udp => simp only; split <;> [split; skip] <;> exact ⟨rfl, rfl⟩

/-- A byte of the headers is taken. -/
theorem headers_edge {place : Nat} (hin : reply.tx.headerWalk.In statsHeaders place)
    (htaken : reply.slice.ready txReady = true) :
    (reply.txEdge our txReady).headerWalk = reply.tx.headerWalk.taken statsHeaders false := by
  have hvalid : reply.tx.srcValid = true := hin.valid
  obtain ⟨sec, hsec, -⟩ := hin.header
  change statsHeaders.header reply.tx.txState = some sec at hsec
  cases hstate : reply.tx.txState with
  | idle | udp =>
      rw [hstate] at hsec
      cases hsec
  | ethHdr | ipHdr =>
      simp only [txEdge, StatsReplyTx.headerWalk, HeaderWalk.taken, statsHeaders, hstate, hvalid,
        htaken, Bool.and_self, if_true, Nat.reduceSub, BitVec.ofNat_eq_ofNat]
      split <;> rfl

/-- The output register takes a byte that is not the last. -/
theorem taken_walking (hwalking : StatsWalking reply.tx)
    (htaken : reply.slice.ready txReady = true) (hmore : reply.tx.place + 1 ≠ 86) :
    StatsWalking (reply.txEdge our txReady) ∧
      (reply.txEdge our txReady).place = reply.tx.place + 1 := by
  have hvalid := hwalking.valid
  have hactive := hwalking.active
  obtain ⟨hhead, -⟩ | ⟨hstate, hplace, hwithin⟩ := hwalking.place_cases
  · have hin := hwalking.in_headers hhead
    have hedge : (reply.txEdge our txReady).headerWalk =
        reply.tx.headerWalk.taken statsHeaders false := headers_edge hin htaken
    obtain hnext | ⟨hend, hnext⟩ := hin.taken false
    · exact StatsWalking.of_headers (hedge ▸ hnext)
    · rw [hend]
      exact StatsWalking.of_udp (hedge ▸ hnext) (by decide) (by decide)
  rw [hplace] at hmore
  have hcnt := toNat_cnt_succ (hwithin.trans (by decide))
  have hend : reply.tx.txCnt ≠ 51 := by
    intro heq
    rw [heq] at hmore
    exact hmore rfl
  have harm : (if reply.tx.txCnt = 50 then true else false) = true ↔
      reply.tx.txCnt.toNat + 2 = 52 := by
    rw [Bool.if_true_left, Bool.or_false, decide_eq_true_iff, ← BitVec.toNat_inj]
    change _ = 50 ↔ _
    omega
  have hedge : reply.txEdge our txReady = { reply.tx with
      txStart := if txReady && reply.slice.valid then false else reply.tx.txStart
      srcLast := if reply.tx.txCnt = 50 then true else false
      srcValid := true
      txCnt := reply.tx.txCnt + 1 } := by
    simp only [txEdge, hstate, htaken, hvalid, hend, Bool.and_self, if_true, if_false]
  rw [hplace, Nat.add_assoc, hedge]
  exact StatsWalking.of_udp ⟨hstate, hcnt, rfl, rfl, hactive⟩ (by omega) harm

/-- The output register takes the last byte. -/
theorem last_resting (hwalking : StatsWalking reply.tx)
    (htaken : reply.slice.ready txReady = true) (hlast : reply.tx.place + 1 = 86) :
    StatsResting (reply.txEdge our txReady) := by
  have hvalid := hwalking.valid
  obtain ⟨hhead, -⟩ | ⟨hstate, hplace, -⟩ := hwalking.place_cases
  · omega
  have hend : reply.tx.txCnt = 51 := by
    apply BitVec.eq_of_toNat_eq
    change _ = 51
    omega
  have hnotarm : reply.tx.txCnt ≠ 50 := by
    rw [hend]
    decide
  have hedge : reply.txEdge our txReady = { reply.tx with
      txStart := if txReady && reply.slice.valid then false else reply.tx.txStart
      srcLast := false
      srcValid := false
      txCnt := reply.tx.txCnt + 1
      txState := .idle
      replyActive := false } := by
    simp only [txEdge, hstate, htaken, hvalid, if_neg hnotarm, if_pos hend, Bool.and_self,
      if_true]
  rw [hedge]
  exact ⟨rfl, rfl, rfl, rfl⟩

end StatsReply

end EmacZero
