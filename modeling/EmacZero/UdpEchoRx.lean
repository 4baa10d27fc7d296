/-
The receiver of `udp_echo`: what of a datagram is in the buffer, and which datagrams are
accepted.
-/
import EmacZero.UdpEcho

namespace EmacZero

variable {params : UdpEchoParams}

namespace UdpEchoParams

theorem bufSize_le (params : UdpEchoParams) : params.bufSize ≤ 2 ^ params.addrW :=
  Nat.le_pow_clog (by decide) _

theorem pow_succ_eq (params : UdpEchoParams) :
    2 ^ (params.addrW + 1) = 2 ^ params.addrW + 2 ^ params.addrW := by
  rw [Nat.pow_succ, Nat.mul_two]

theorem bufMax_toNat (params : UdpEchoParams) : params.bufMax.toNat = params.bufSize := by
  have hle := params.bufSize_le
  have hlt := params.one_lt
  rw [bufMax, BitVec.toNat_ofNat, Nat.mod_eq_of_lt]
  rw [params.pow_succ_eq]
  omega

theorem one_toNat (params : UdpEchoParams) : (1 : BitVec (params.addrW + 1)).toNat = 1 :=
  Nat.mod_eq_of_lt (Nat.one_lt_two_pow (Nat.succ_ne_zero _))

end UdpEchoParams

/-- The payload is in the buffer. -/
def UdpBuffered (rx : UdpEchoRx params) (payload : List (BitVec 8)) : Prop :=
  ∀ index < payload.length, rx.udpBuf (.ofNat _ index) = byteAt payload index

namespace UdpEchoRx

variable {rx : UdpEchoRx params} {replyActive : Bool} {i : UdpRxIn}

theorem clkEdge_idle (hidle : i.valid = false) : rx.clkEdge replyActive i =
    { rx with pktReady := false } := by
  simp only [clkEdge, accepts, hidle, Bool.false_and, Bool.false_eq_true, if_false]

theorem clkEdge_dropped (hvalid : i.valid = true) (hdrops : rx.drops replyActive i = true) :
    rx.clkEdge replyActive i =
      { rx with
        pktReady := false
        rxAccept :=
          if i.last then false
          else if rx.rxCnt = 0 then params.listens i.source.dstPort
          else rx.rxAccept
        rxCnt := if i.last then 0 else rx.rxCnt } := by
  simp only [clkEdge, accepts, hvalid, hdrops, Bool.not_true, Bool.and_false, Bool.false_and,
    if_true]

theorem clkEdge_pktReady (rx : UdpEchoRx params) (replyActive : Bool) (i : UdpRxIn) :
    (rx.clkEdge replyActive i).pktReady = rx.accepts replyActive i := by
  simp only [clkEdge]
  split
  · split
    · rfl
    · split <;> rfl
  · rfl

/-- What a byte that is taken does to the count and the buffer. -/
theorem clkEdge_taken (hvalid : i.valid = true) (hdrops : rx.drops replyActive i = false) :
    (rx.clkEdge replyActive i).rxAccept =
        (if i.last then false
        else if rx.rxCnt = 0 then params.listens i.source.dstPort
        else rx.rxAccept) ∧
      (rx.clkEdge replyActive i).rxCnt = (if i.last then 0 else rx.rxCnt + 1) ∧
      (rx.clkEdge replyActive i).payloadLen =
        (if i.last then rx.rxCnt + 1 else rx.payloadLen) ∧
      (rx.clkEdge replyActive i).udpBuf =
        if rx.rxCnt < params.bufMax then
          Function.update rx.udpBuf (rx.rxCnt.extractLsb' 0 params.addrW) i.data
        else rx.udpBuf := by
  simp only [clkEdge, hvalid, hdrops, if_true, Bool.false_eq_true, if_false]
  split <;> exact ⟨rfl, rfl, rfl, rfl⟩

/-- The registers that only an accepted datagram sets. -/
theorem clkEdge_accepts (haccepts : rx.accepts replyActive i = true) :
    (rx.clkEdge replyActive i).replyDstIp = i.source.srcIp ∧
      (rx.clkEdge replyActive i).replyDstMac = i.source.srcMac ∧
      (rx.clkEdge replyActive i).replyDstPort = i.source.srcPort ∧
      (rx.clkEdge replyActive i).replySrcPort = i.source.dstPort := by
  have hvalid : i.valid = true ∧ rx.drops replyActive i = false := by
    simp only [accepts, Bool.and_eq_true, Bool.not_eq_true'] at haccepts
    exact haccepts.1.1.1
  simp only [clkEdge, hvalid, haccepts, if_true, Bool.false_eq_true, if_false, and_self]

/-- A byte that goes into the buffer at the end of what is there. -/
theorem buffered_byte {bytes : List (BitVec 8)} (hbuffered : UdpBuffered rx bytes)
    (hvalid : i.valid = true) (hdrops : rx.drops replyActive i = false)
    (hcnt : rx.rxCnt.toNat = bytes.length) (hroom : bytes.length < params.bufSize) :
    UdpBuffered (rx.clkEdge replyActive i) (bytes ++ [i.data]) := by
  have hbound := params.bufSize_le
  have hroom' : rx.rxCnt < params.bufMax := by
    rw [BitVec.lt_def, hcnt, params.bufMax_toNat]
    exact hroom
  have hat : (rx.rxCnt.extractLsb' 0 params.addrW : BitVec params.addrW) =
      .ofNat _ bytes.length := by
    apply BitVec.eq_of_toNat_eq
    rw [BitVec.extractLsb'_toNat, BitVec.toNat_ofNat, hcnt, Nat.shiftRight_zero]
  intro index hindex
  rw [List.length_append, List.length_singleton] at hindex
  rw [byteAt_concat, (clkEdge_taken hvalid hdrops).2.2.2, if_pos hroom', hat]
  by_cases hsame : index = bytes.length
  · rw [if_pos hsame, hsame, Function.update_self]
  · have hother : BitVec.ofNat params.addrW index ≠ .ofNat _ bytes.length := by
      rw [Ne, ← BitVec.toNat_inj, BitVec.toNat_ofNat, BitVec.toNat_ofNat,
        Nat.mod_eq_of_lt (by omega), Nat.mod_eq_of_lt (by omega)]
      exact hsame
    rw [if_neg hsame, Function.update_of_ne hother]
    exact hbuffered index (by omega)

end UdpEchoRx

namespace UdpEchoBench

variable {our : NetOur} {bench : UdpEchoBench params} {i : UdpEchoIn}

/-- The receive block behind the bytes so far. -/
structure Receiving (bench : UdpEchoBench params) : Prop where
  suffix : bench.heard <:+ bench.feed.bytes
  cnt : bench.echo.rx.rxCnt.toNat =
    if params.listens bench.feed.source.dstPort then
      bench.heard.length % 2 ^ (params.addrW + 1)
    else 0
  accept : bench.echo.rx.rxCnt ≠ 0 → bench.echo.rx.rxAccept = true
  buffered : params.listens bench.feed.source.dstPort = true →
    bench.heard.length ≤ params.bufSize → UdpBuffered bench.echo.rx bench.heard

/-- `reply_active || pkt_ready` is said by what is out. -/
def BusyAgrees (bench : UdpEchoBench params) : Prop :=
  (bench.echo.tx.replyActive || bench.echo.rx.pktReady) = bench.replying

/-- A count that is not 0 is of a datagram for the port. -/
theorem counting (hrx : bench.Receiving) (hcnt : bench.echo.rx.rxCnt ≠ 0) :
    params.listens bench.feed.source.dstPort = true ∧ bench.heard ≠ [] := by
  have hpos : bench.echo.rx.rxCnt.toNat ≠ 0 := fun hzero => hcnt (BitVec.eq_of_toNat_eq hzero)
  rw [hrx.cnt] at hpos
  cases hlistens : params.listens bench.feed.source.dstPort with
  | false =>
      rw [hlistens] at hpos
      exact absurd rfl hpos
  | true =>
      rw [hlistens, if_pos rfl] at hpos
      refine ⟨rfl, fun hnil => hpos ?_⟩
      rw [hnil]
      exact Nat.zero_mod _

theorem heard_source (hrx : bench.Receiving) (hheard : bench.heard ≠ []) :
    (bench.feed.drive i.rx).source = bench.feed.source := by
  apply UdpFeed.drive_source
  rw [UdpFeed.between, List.isEmpty_eq_false_iff]
  intro hnil
  have hsuffix := hrx.suffix
  rw [hnil, List.suffix_nil] at hsuffix
  exact hheard hsuffix

/-- A byte is dropped while a reply is pending or active, and when it is for another port. -/
theorem drops_eq (hrx : bench.Receiving) (hbusy : bench.BusyAgrees) :
    bench.echo.rx.drops bench.echo.tx.replyActive (bench.feed.drive i.rx) =
      (bench.replying || !params.listens (bench.feed.drive i.rx).source.dstPort) := by
  rw [UdpEchoRx.drops, hbusy]
  by_cases hcnt : bench.echo.rx.rxCnt = 0
  · rw [hcnt, UdpEchoParams.listens, Bool.not_or, bne_self_eq_false, beq_self_eq_true]
    simp only [Bool.true_and, Bool.false_and, Bool.or_false, bne]
  · obtain ⟨hlistens, hheard⟩ := counting hrx hcnt
    have hzero : (bench.echo.rx.rxCnt == 0) = false := beq_eq_false_iff_ne.mpr hcnt
    rw [heard_source hrx hheard, hlistens, bne, hzero, hrx.accept hcnt]
    simp only [Bool.false_and, Bool.not_true, Bool.and_false, Bool.or_false]

theorem rxCnt_eq (hrx : bench.Receiving)
    (hlistens : params.listens (bench.feed.drive i.rx).source.dstPort = true) :
    bench.echo.rx.rxCnt.toNat = bench.heard.length % 2 ^ (params.addrW + 1) := by
  rw [hrx.cnt]
  by_cases hheard : bench.heard = []
  · rw [hheard, List.length_nil, Nat.zero_mod, ite_self]
  · rw [← @heard_source params bench i hrx hheard, hlistens, if_pos rfl]

/-- The count with one more byte. -/
theorem rxCnt_next (hrx : bench.Receiving)
    (hlistens : params.listens (bench.feed.drive i.rx).source.dstPort = true) :
    (bench.echo.rx.rxCnt + 1).toNat = (bench.heard.length + 1) % 2 ^ (params.addrW + 1) := by
  rw [BitVec.toNat_add, params.one_toNat, rxCnt_eq hrx hlistens, Nat.mod_add_mod]

/-- What is accepted: a datagram for the port that ends without an error while no reply is
pending or active, and whose number of bytes since then fits modulo the count's range. -/
theorem accepts_iff (hrx : bench.Receiving) (hbusy : bench.BusyAgrees) :
    bench.echo.rx.accepts bench.echo.tx.replyActive (bench.feed.drive i.rx) = true ↔
      bench.Ends i ∧ bench.replying = false ∧
        (bench.heardNow i).length % 2 ^ (params.addrW + 1) ≤ params.bufSize := by
  rw [UdpEchoRx.accepts, drops_eq hrx hbusy, Ends, UdpFeed.drive_valid, UdpFeed.drive_last,
    UdpFeed.drive_err]
  cases hlistens : params.listens (bench.feed.drive i.rx).source.dstPort with
  | false => simp
  | true =>
      have hnext : bench.echo.rx.rxCnt + 1 ≤ params.bufMax ↔
          (bench.heard.length + 1) % 2 ^ (params.addrW + 1) ≤ params.bufSize := by
        rw [BitVec.le_def, rxCnt_next hrx hlistens, params.bufMax_toNat]
      cases hreplying : bench.replying with
      | true => simp
      | false =>
          have hnow : (bench.heardNow i).length = bench.heard.length + 1 := by
            rw [heardNow, hreplying, if_neg Bool.false_ne_true, List.length_append]
            rfl
          rw [hnow, ← hnext]
          simp only [Bool.not_true, Bool.or_false, Bool.not_false, Bool.and_true, Bool.and_eq_true,
            Bool.not_eq_true', decide_eq_true_eq, and_true, true_and, and_assoc]

/-- Of a datagram whose bytes all came while no reply was pending or active, all were heard. -/
theorem heardNow_eq (hrx : bench.Receiving)
    (hall : (bench.heardNow i).length = (bench.feed.arrived i.rx).length) :
    bench.replying = false ∧ bench.heardNow i = bench.feed.arrived i.rx := by
  have hshort := hrx.suffix.length_le
  cases hreplying : bench.replying with
  | true =>
      rw [heardNow, hreplying, if_pos rfl, UdpFeed.arrived, List.length_append] at hall
      have hone : [i.rx.data].length = 1 := rfl
      omega
  | false =>
      rw [heardNow, hreplying, if_neg Bool.false_ne_true, UdpFeed.arrived, List.length_append,
        List.length_append] at hall
      rw [heardNow, hreplying, if_neg Bool.false_ne_true, UdpFeed.arrived,
        hrx.suffix.eq_of_length (Nat.add_right_cancel hall)]
      exact ⟨rfl, rfl⟩

/-- While every datagram fits, what is accepted is what is to be echoed. -/
theorem accepts_iff_requests (hrx : bench.Receiving) (hbusy : bench.BusyAgrees)
    (hfits : bench.Fits i) :
    bench.echo.rx.accepts bench.echo.tx.replyActive (bench.feed.drive i.rx) = true ↔
      bench.Requests i := by
  rw [accepts_iff hrx hbusy]
  constructor
  · rintro ⟨hends, hreplying, hcount⟩
    exact ⟨hends, hfits hends hreplying hcount⟩
  · rintro ⟨hends, hall, hsmall⟩
    refine ⟨hends, (heardNow_eq hrx hall).1, ?_⟩
    rw [hall]
    exact (Nat.mod_le _ _).trans hsmall

/-- The buffer with one more byte of a datagram for the port. -/
theorem buffered_now (hrx : bench.Receiving) (hvalid : (bench.feed.drive i.rx).valid = true)
    (hdrop : bench.echo.rx.drops bench.echo.tx.replyActive (bench.feed.drive i.rx) = false)
    (hlistens : params.listens (bench.feed.drive i.rx).source.dstPort = true)
    (hroom : bench.heard.length < params.bufSize) :
    UdpBuffered (bench.echo.rx.clkEdge bench.echo.tx.replyActive (bench.feed.drive i.rx))
      (bench.heard ++ [i.rx.data]) := by
  have hbound := params.bufSize_le
  have hrange := params.pow_succ_eq
  have hcnt := rxCnt_eq hrx hlistens
  rw [Nat.mod_eq_of_lt (by omega)] at hcnt
  rw [← UdpFeed.drive_data bench.feed i.rx]
  refine UdpEchoRx.buffered_byte ?_ hvalid hdrop hcnt hroom
  by_cases hheard : bench.heard = []
  · rw [hheard]
    exact fun _ hindex => absurd hindex (Nat.not_lt_zero _)
  · rw [heard_source hrx hheard] at hlistens
    exact hrx.buffered hlistens hroom.le

/-- The last byte of a datagram. -/
theorem last_receiving (hvalid : i.rx.valid = true) (hlast : i.rx.last = true) :
    (bench.step our i).Receiving := by
  have hbyte : (bench.feed.drive i.rx).valid = true := by
    rw [UdpFeed.drive_valid]
    exact hvalid
  have hend : (bench.feed.drive i.rx).last = true := by
    rw [UdpFeed.drive_last]
    exact hlast
  have hcnt : (bench.step our i).echo.rx.rxCnt = 0 := by
    change (bench.echo.rx.clkEdge bench.echo.tx.replyActive (bench.feed.drive i.rx)).rxCnt = 0
    cases hdrop : bench.echo.rx.drops bench.echo.tx.replyActive (bench.feed.drive i.rx) with
    | true => rw [UdpEchoRx.clkEdge_dropped hbyte hdrop, hend, if_pos rfl, if_pos rfl]
    | false => rw [(UdpEchoRx.clkEdge_taken hbyte hdrop).2.1, hend, if_pos rfl]
  have hheard : (bench.step our i).heard = [] := by
    simp only [step, hvalid, hlast, if_true]
  refine ⟨by rw [hheard]; exact List.nil_suffix, ?_, fun hne => absurd hcnt hne, ?_⟩
  · rw [hcnt, hheard, List.length_nil, Nat.zero_mod, ite_self]
    rfl
  · rw [hheard]
    exact fun _ _ _ hindex => absurd hindex (Nat.not_lt_zero _)

/-- A byte that is dropped, before the last. -/
theorem dropped_receiving (hrx : bench.Receiving) (hbusy : bench.BusyAgrees)
    (hquiet : bench.replying = true → bench.heard = [])
    (hvalid : (bench.feed.drive i.rx).valid = true) (hmore : i.rx.last = false)
    (hdrop : bench.echo.rx.drops bench.echo.tx.replyActive (bench.feed.drive i.rx) = true)
    (hfeed : (bench.step our i).feed =
      ⟨(bench.feed.drive i.rx).source, bench.feed.arrived i.rx⟩)
    (hheard : (bench.step our i).heard = bench.heardNow i) :
    (bench.step our i).Receiving := by
  have hrx' : (bench.step our i).echo.rx =
      bench.echo.rx.clkEdge bench.echo.tx.replyActive (bench.feed.drive i.rx) := rfl
  rw [UdpEchoRx.clkEdge_dropped hvalid hdrop, UdpFeed.drive_last, hmore,
    if_neg Bool.false_ne_true, if_neg Bool.false_ne_true] at hrx'
  rw [drops_eq hrx hbusy, Bool.or_eq_true, Bool.not_eq_true'] at hdrop
  have hcurrent : (bench.step our i).feed.source = (bench.feed.drive i.rx).source := by rw [hfeed]
  refine ⟨?_, ?_, ?_, ?_⟩
  · obtain ⟨before, hbefore⟩ := hrx.suffix
    rw [hheard, hfeed, heardNow]
    split
    · rename_i hreplying
      rw [hquiet hreplying]
      exact List.nil_suffix
    · exact ⟨before, by rw [← List.append_assoc, hbefore]; rfl⟩
  · rw [hrx', hcurrent, hheard]
    change bench.echo.rx.rxCnt.toNat = _
    rcases hdrop with hreplying | hother
    · rw [heardNow, hreplying, if_pos rfl, hrx.cnt, hquiet hreplying, List.length_nil,
        Nat.zero_mod, ite_self, ite_self]
    · rw [hother, if_neg Bool.false_ne_true]
      by_contra hpos
      have hcnt : bench.echo.rx.rxCnt ≠ 0 := fun hzero => hpos (by rw [hzero]; rfl)
      obtain ⟨hlistens, hsome⟩ := counting hrx hcnt
      rw [heard_source hrx hsome, hlistens] at hother
      exact nomatch hother
  · rw [hrx']
    intro hcnt
    change (if bench.echo.rx.rxCnt = 0 then _ else bench.echo.rx.rxAccept) = true
    have hcnt' : bench.echo.rx.rxCnt ≠ 0 := hcnt
    rw [if_neg hcnt']
    exact hrx.accept hcnt'
  · rw [hcurrent, hheard]
    intro hlistens
    rcases hdrop with hreplying | hother
    · rw [heardNow, hreplying, if_pos rfl, hquiet hreplying]
      exact fun _ _ hindex => absurd hindex (Nat.not_lt_zero _)
    · rw [hlistens] at hother
      exact nomatch hother

/-- A byte that is taken, before the last. -/
theorem taken_receiving (hrx : bench.Receiving) (hbusy : bench.BusyAgrees)
    (hvalid : (bench.feed.drive i.rx).valid = true) (hmore : i.rx.last = false)
    (hdrop : bench.echo.rx.drops bench.echo.tx.replyActive (bench.feed.drive i.rx) = false)
    (hfeed : (bench.step our i).feed =
      ⟨(bench.feed.drive i.rx).source, bench.feed.arrived i.rx⟩)
    (hheard : (bench.step our i).heard = bench.heardNow i) :
    (bench.step our i).Receiving := by
  obtain ⟨haccept, hcnt, -, -⟩ := UdpEchoRx.clkEdge_taken hvalid hdrop
  rw [UdpFeed.drive_last, hmore, if_neg Bool.false_ne_true] at haccept hcnt
  have hidle : bench.replying = false ∧
      params.listens (bench.feed.drive i.rx).source.dstPort = true := by
    rw [drops_eq hrx hbusy, Bool.or_eq_false_iff, Bool.not_eq_false'] at hdrop
    exact hdrop
  obtain ⟨hreplying, hlistens⟩ := hidle
  have hnow : bench.heardNow i = bench.heard ++ [i.rx.data] := by
    rw [heardNow, hreplying, if_neg Bool.false_ne_true]
  rw [hnow] at hheard
  refine ⟨?_, ?_, fun _ => ?_, fun _ hsmall => ?_⟩
  · obtain ⟨before, hbefore⟩ := hrx.suffix
    rw [hheard, hfeed]
    exact ⟨before, by rw [← List.append_assoc, hbefore]; rfl⟩
  · rw [hfeed, hheard, List.length_append]
    change (bench.echo.rx.clkEdge _ _).rxCnt.toNat = if params.listens _ then _ else _
    rw [hcnt, hlistens, if_pos rfl]
    exact rxCnt_next hrx hlistens
  · change (bench.echo.rx.clkEdge _ _).rxAccept = true
    rw [haccept, hlistens]
    by_cases hzero : bench.echo.rx.rxCnt = 0
    · rw [if_pos hzero]
    · rw [if_neg hzero]
      exact hrx.accept hzero
  · rw [hheard, List.length_append, List.length_singleton] at hsmall
    rw [hheard]
    exact buffered_now hrx hvalid hdrop hlistens hsmall

theorem receiving_step (hrx : bench.Receiving) (hbusy : bench.BusyAgrees)
    (hquiet : bench.replying = true → bench.heard = []) :
    (bench.step our i).Receiving := by
  have hdrops := @drops_eq params bench i hrx hbusy
  cases hvalid : i.rx.valid with
  | false =>
      have hrx' : (bench.step our i).echo.rx = { bench.echo.rx with pktReady := false } :=
        UdpEchoRx.clkEdge_idle (by rw [UdpFeed.drive_valid]; exact hvalid)
      have hfeed : (bench.step our i).feed = bench.feed := UdpFeed.next_idle _ _ hvalid
      have hheard : (bench.step our i).heard = bench.heard := by
        simp only [step, hvalid, Bool.false_eq_true, if_false]
      refine ⟨by rw [hfeed, hheard]; exact hrx.suffix, by rw [hrx', hfeed, hheard]; exact hrx.cnt,
        by rw [hrx']; exact hrx.accept, ?_⟩
      rw [hrx', hfeed, hheard]
      exact hrx.buffered
  | true =>
      have hbyte : (bench.feed.drive i.rx).valid = true := by
        rw [UdpFeed.drive_valid]
        exact hvalid
      cases hlast : i.rx.last with
      | true => exact last_receiving hvalid hlast
      | false =>
          have hfeed : (bench.step our i).feed = ⟨(bench.feed.drive i.rx).source,
              bench.feed.arrived i.rx⟩ := UdpFeed.next_more _ _ hvalid hlast
          have hheard : (bench.step our i).heard = bench.heardNow i := by
            simp only [step, hvalid, hlast, if_true, Bool.false_eq_true, if_false]
          cases hdrop : bench.echo.rx.drops bench.echo.tx.replyActive (bench.feed.drive i.rx) with
          | true => exact dropped_receiving hrx hbusy hquiet hbyte hlast hdrop hfeed hheard
          | false => exact taken_receiving hrx hbusy hbyte hlast hdrop hfeed hheard

end UdpEchoBench

/-- The registers hold a datagram that is to be echoed. -/
structure UdpLoaded (rx : UdpEchoRx params) (datagram : UdpDatagram) : Prop where
  len : rx.payloadLen.toNat = datagram.payload.length
  buffered : UdpBuffered rx datagram.payload
  mac : rx.replyDstMac = datagram.source.srcMac
  ip : rx.replyDstIp = datagram.source.srcIp
  toPort : rx.replyDstPort = datagram.source.srcPort
  fromPort : rx.replySrcPort = datagram.source.dstPort
  some : 0 < datagram.payload.length
  short : datagram.payload.length ≤ params.bufSize

/-- A datagram stays while bytes are dropped. -/
theorem UdpLoaded.keep {rx : UdpEchoRx params} {datagram : UdpDatagram} {replyActive : Bool}
    {i : UdpRxIn} (hloaded : UdpLoaded rx datagram)
    (hdrops : i.valid = true → rx.drops replyActive i = true) :
    UdpLoaded (rx.clkEdge replyActive i) datagram := by
  cases hvalid : i.valid with
  | false =>
      rw [UdpEchoRx.clkEdge_idle hvalid]
      exact ⟨hloaded.len, hloaded.buffered, hloaded.mac, hloaded.ip, hloaded.toPort,
        hloaded.fromPort, hloaded.some, hloaded.short⟩
  | true =>
      rw [UdpEchoRx.clkEdge_dropped hvalid (hdrops hvalid)]
      exact ⟨hloaded.len, hloaded.buffered, hloaded.mac, hloaded.ip, hloaded.toPort,
        hloaded.fromPort, hloaded.some, hloaded.short⟩

namespace UdpEchoBench

variable {our : NetOur} {bench : UdpEchoBench params} {i : UdpEchoIn}

/-- A datagram that is to be echoed is in the registers after its last byte. -/
theorem loaded_request (hrx : bench.Receiving) (hbusy : bench.BusyAgrees)
    (hrequests : bench.Requests i) :
    UdpLoaded (bench.step our i).echo.rx
      ⟨bench.feed.arrived i.rx, (bench.feed.drive i.rx).source⟩ := by
  obtain ⟨⟨hvalid, hlast, herr, hlistens⟩, hall, hsmall⟩ := hrequests
  obtain ⟨hreplying, hnow⟩ := heardNow_eq hrx hall
  have hbound := params.bufSize_le
  have hrange := params.pow_succ_eq
  have hbyte : (bench.feed.drive i.rx).valid = true := by
    rw [UdpFeed.drive_valid]
    exact hvalid
  have hdrop : bench.echo.rx.drops bench.echo.tx.replyActive (bench.feed.drive i.rx) = false := by
    rw [drops_eq hrx hbusy, hreplying, hlistens]
    rfl
  have hheard : bench.heard ++ [i.rx.data] = bench.feed.arrived i.rx := by
    rw [← hnow, heardNow, hreplying, if_neg Bool.false_ne_true]
  have hlength : bench.heard.length + 1 = (bench.feed.arrived i.rx).length := by
    rw [← hheard, List.length_append]
    rfl
  have haccepts : bench.echo.rx.accepts bench.echo.tx.replyActive (bench.feed.drive i.rx) =
      true := by
    rw [accepts_iff hrx hbusy]
    refine ⟨⟨hvalid, hlast, herr, hlistens⟩, hreplying, ?_⟩
    rw [hall]
    exact (Nat.mod_le _ _).trans hsmall
  obtain ⟨hip, hmac, hto, hfrom⟩ := UdpEchoRx.clkEdge_accepts haccepts
  refine ⟨?_, ?_, hmac, hip, hto, hfrom, ?_, hsmall⟩
  · change (bench.echo.rx.clkEdge _ _).payloadLen.toNat = _
    rw [(UdpEchoRx.clkEdge_taken hbyte hdrop).2.2.1, UdpFeed.drive_last, hlast, if_pos rfl,
      rxCnt_next hrx hlistens, hlength, Nat.mod_eq_of_lt (by omega)]
  · change UdpBuffered (bench.echo.rx.clkEdge _ _) (bench.feed.arrived i.rx)
    rw [← hheard]
    exact buffered_now hrx hbyte hdrop hlistens (by omega)
  · change 0 < (bench.feed.arrived i.rx).length
    omega

end UdpEchoBench

end EmacZero
