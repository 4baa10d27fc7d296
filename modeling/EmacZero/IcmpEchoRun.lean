/-
`icmp_echo` over whole runs: every request that is to be answered gets its reply, and
nothing else comes out.
-/
import EmacZero.IcmpEchoSend

namespace EmacZero

variable {params : IcmpEchoParams} {our : NetOur} {bench : IcmpEchoBench params}
  {i : IcmpEchoIn}

namespace IcmpEchoBench

/-- What of the message that is arriving goes into the buffer. -/
def stored (bench : IcmpEchoBench params) : List (BitVec 8) :=
  if bench.taken then bench.current else []

/-- The receive blocks behind the bytes so far. -/
structure Receiving (bench : IcmpEchoBench params) : Prop where
  inPkt : bench.echo.rx.rxInPkt = !bench.current.isEmpty
  drop : bench.current ≠ [] → bench.echo.rx.rxDrop = !bench.taken
  counted : IcmpCounted bench.echo.rx bench.stored
  buffered : IcmpBuffered bench.echo.rx bench.stored

/-- `rx_busy` is said by what is out. -/
def BusyAgrees (bench : IcmpEchoBench params) : Prop :=
  bench.echo.rx.rxBusy bench.echo.tx.replyActive = bench.replying

/-- A byte is skipped if its message began while a reply was pending or active. -/
theorem rxSkip_eq (hrx : bench.Receiving) (hbusy : bench.BusyAgrees)
    (hvalid : i.icmpRxValid = true) :
    bench.echo.rx.rxSkip bench.echo.tx.replyActive i = !bench.takenNow := by
  rw [IcmpRx.rxSkip, IcmpRx.rxSop, hvalid, hrx.inPkt, takenNow, Bool.not_not, Bool.true_and]
  by_cases hcurrent : bench.current = []
  · rw [hcurrent, List.isEmpty_nil, if_pos rfl, if_pos rfl, Bool.not_not]
    exact hbusy
  · rw [List.isEmpty_eq_false_iff.mpr hcurrent, if_neg Bool.false_ne_true,
      if_neg Bool.false_ne_true]
    exact hrx.drop hcurrent

theorem stored_now (htaken : bench.takenNow = true) : bench.stored = bench.current := by
  rw [takenNow] at htaken
  by_cases hcurrent : bench.current = []
  · rw [stored, hcurrent, ite_self]
  · rw [List.isEmpty_eq_false_iff.mpr hcurrent, if_neg Bool.false_ne_true] at htaken
    rw [stored, htaken, if_pos rfl]

/-- What is accepted is what is to be answered. -/
theorem rxAccept_iff (hrx : bench.Receiving) (hbusy : bench.BusyAgrees) :
    bench.echo.rx.rxAccept bench.echo.tx.replyActive i = true ↔ bench.Requests i := by
  by_cases hend : i.icmpRxValid = true ∧ i.icmpRxLast = true
  · obtain ⟨hvalid, hlast⟩ := hend
    have hskip := rxSkip_eq hrx hbusy hvalid
    cases htaken : bench.takenNow with
    | false =>
        rw [htaken, Bool.not_false] at hskip
        simp [IcmpRx.rxAccept, Requests, hskip, htaken]
    | true =>
        rw [htaken, Bool.not_true] at hskip
        have hcounted := hrx.counted
        rw [stored_now htaken] at hcounted
        rw [IcmpRx.rxAccept_eq hcounted hvalid hlast hskip, Requests, arrived]
        simp only [hvalid, hlast, htaken, true_and]
  · constructor
    · intro haccept
      simp only [IcmpRx.rxAccept, Bool.and_eq_true] at haccept
      exact absurd ⟨haccept.1.1.1.1.1.1, haccept.1.1.1.1.1.2⟩ hend
    · exact fun hrequests => absurd ⟨hrequests.1, hrequests.2.1⟩ hend

/-- Nothing is stored of what is not to be taken. -/
theorem rxStore_quiet (hrx : bench.Receiving) (hbusy : bench.BusyAgrees)
    (hquiet : i.icmpRxValid = true → bench.takenNow = false) :
    bench.echo.rx.rxStore bench.echo.tx.replyActive i = false := by
  rw [IcmpRx.rxStore]
  cases hvalid : i.icmpRxValid with
  | false => rfl
  | true =>
      rw [rxSkip_eq hrx hbusy hvalid, hquiet hvalid]
      rfl

theorem stored_quiet (hquiet : bench.takenNow = false) : bench.stored = [] := by
  rw [takenNow] at hquiet
  by_cases hcurrent : bench.current = []
  · rw [stored, hcurrent, ite_self]
  · rw [List.isEmpty_eq_false_iff.mpr hcurrent, if_neg Bool.false_ne_true] at hquiet
    rw [stored, hquiet, if_neg Bool.false_ne_true]

theorem receiving_step (hrx : bench.Receiving) (hbusy : bench.BusyAgrees) :
    (bench.step our i).Receiving := by
  have hinPkt : (bench.step our i).echo.rx.rxInPkt =
      if i.icmpRxValid then !i.icmpRxLast else bench.echo.rx.rxInPkt := rfl
  have hcurrent : (bench.step our i).current =
      if i.icmpRxValid then if i.icmpRxLast then [] else bench.arrived i else bench.current := rfl
  have htaken : (bench.step our i).taken =
      if i.icmpRxValid then bench.takenNow else bench.taken := rfl
  have hdrop : (bench.step our i).echo.rx.rxDrop =
      if bench.echo.rx.rxSop i then bench.echo.rx.rxBusy bench.echo.tx.replyActive
      else bench.echo.rx.rxDrop := rfl
  cases hvalid : i.icmpRxValid with
  | false =>
      rw [hvalid, if_neg Bool.false_ne_true] at hinPkt hcurrent htaken
      have hsop : bench.echo.rx.rxSop i = false := by rw [IcmpRx.rxSop, hvalid]; rfl
      rw [hsop, if_neg Bool.false_ne_true] at hdrop
      have hstored : (bench.step our i).stored = bench.stored := by
        rw [stored, stored, hcurrent, htaken]
      have hstore := rxStore_quiet hrx hbusy fun hbyte => absurd hbyte (by rw [hvalid]; decide)
      refine ⟨by rw [hinPkt, hcurrent]; exact hrx.inPkt, ?_, ?_, ?_⟩
      · rw [hcurrent, hdrop, htaken]
        exact hrx.drop
      · rw [hstored]
        exact IcmpRx.counted_skip hstore (.inl hvalid) hrx.counted
      · rw [hstored]
        exact IcmpRx.buffered_skip hstore hrx.buffered
  | true =>
      rw [hvalid, if_pos rfl] at hinPkt hcurrent htaken
      cases hlast : i.icmpRxLast with
      | true =>
          rw [hlast] at hinPkt hcurrent
          have hstored : (bench.step our i).stored = [] := by
            rw [stored, hcurrent]
            exact ite_self _
          refine ⟨by rw [hinPkt, hcurrent]; rfl, fun hne => absurd hcurrent hne, ?_, ?_⟩
          · rw [hstored]
            exact IcmpRx.counted_last (by rw [hvalid, hlast]; rfl)
          · rw [hstored]
            exact .nil
      | false =>
          rw [hlast] at hinPkt hcurrent
          have hskip := rxSkip_eq hrx hbusy hvalid
          have hnext : (bench.step our i).stored =
              if bench.takenNow then bench.arrived i else [] := by
            rw [stored, htaken, hcurrent, if_neg Bool.false_ne_true]
          have hboth : IcmpCounted (bench.step our i).echo.rx (bench.step our i).stored ∧
              IcmpBuffered (bench.step our i).echo.rx (bench.step our i).stored := by
            rw [hnext]
            cases hnow : bench.takenNow with
            | false =>
                rw [hnow, Bool.not_false] at hskip
                have hcounted := hrx.counted
                rw [stored_quiet hnow] at hcounted
                exact ⟨IcmpRx.counted_skip (rxStore_quiet hrx hbusy fun _ => hnow)
                  (.inr ⟨hlast, hskip⟩) hcounted, .nil⟩
            | true =>
                rw [hnow, Bool.not_true] at hskip
                have hcounted := hrx.counted
                have hbuffered := hrx.buffered
                rw [stored_now hnow] at hcounted hbuffered
                exact ⟨IcmpRx.counted_more hcounted hvalid hlast hskip,
                  IcmpRx.buffered_byte hcounted hbuffered hvalid hskip⟩
          refine ⟨?_, fun _ => ?_, hboth.1, hboth.2⟩
          · rw [hinPkt, hcurrent, if_neg Bool.false_ne_true, arrived,
              List.isEmpty_eq_false_iff.mpr (List.concat_ne_nil _ _)]
          · rw [htaken, hdrop]
            exact hskip

/-- The reply to the request with this number. -/
def replyOf (our : NetOur) (number : Nat) (request : IcmpRequest) : List (BitVec 8) :=
  icmpReply our (.ofNat 16 (1001 + number)) request

/-- The responder that the bench is. -/
def replier (bench : IcmpEchoBench params) : Replier IcmpRequest (BitVec 8) where
  requests := bench.requests
  pending := bench.echo.rx.pktReady
  place := if bench.echo.tx.txState = .idle then none else some bench.echo.tx.place
  slice := bench.echo.slice
  sent := bench.sent

theorem place_idle (hidle : bench.echo.tx.txState = .idle) : bench.replier.place = none :=
  if_pos hidle

theorem place_busy (hbusy : bench.echo.tx.txState ≠ .idle) :
    bench.replier.place = some bench.echo.tx.place := if_neg hbusy

/-- What the responder is at: nothing, a request that has come, or its reply. -/
inductive Phase (our : NetOur) (bench : IcmpEchoBench params) : Prop
  | resting (hready : bench.echo.rx.pktReady = false) (hresting : IcmpResting bench.echo.tx)
      (hid : bench.echo.tx.ipIdCnt = .ofNat 16 (1000 + bench.requests.length))
  | pending (before : List IcmpRequest) (request : IcmpRequest)
      (hrequests : bench.requests = before ++ [request])
      (hready : bench.echo.rx.pktReady = true) (hresting : IcmpResting bench.echo.tx)
      (hid : bench.echo.tx.ipIdCnt = .ofNat 16 (1000 + before.length))
      (hloaded : IcmpLoaded bench.echo.rx request)
      (hquiet : bench.current ≠ [] → bench.taken = false)
  | sending (before : List IcmpRequest) (request : IcmpRequest)
      (hrequests : bench.requests = before ++ [request])
      (hready : bench.echo.rx.pktReady = false)
      (hwalking : IcmpWalking bench.echo.tx request.bytes.length)
      (hid : bench.echo.tx.ipIdCnt = .ofNat 16 (1001 + before.length))
      (hloaded : IcmpLoaded bench.echo.rx request)
      (hacc : bench.echo.tx.ipCsumAcc = ipCsumSum bench.echo.rx.ipTotalLen
        bench.echo.tx.ipIdCnt 0x01 our.ip bench.echo.rx.replyDstIp)
      (hquiet : bench.current ≠ [] → bench.taken = false)

structure Holds (our : NetOur) (bench : IcmpEchoBench params) : Prop where
  receiving : bench.Receiving
  phase : Phase our bench
  replies : bench.replier.Holds (replyOf our)

theorem holds_start (our : NetOur) : (start : IcmpEchoBench params).Holds our where
  receiving :=
    ⟨rfl, fun hne => absurd rfl hne,
      ⟨(Nat.zero_min params.maxLen).symm, rfl, fun hpos => absurd hpos (Nat.lt_irrefl 0)⟩, .nil⟩
  phase := .resting rfl ⟨rfl, rfl, rfl, rfl⟩ rfl
  replies := ⟨fun hpending => (nomatch hpending), fun _ hplace => (nomatch hplace),
    ⟨fun _ => ⟨rfl, .nil⟩, fun hne => absurd rfl hne⟩⟩

theorem busyAgrees (hholds : bench.Holds our) : bench.BusyAgrees := by
  have hreplying : bench.replying = (bench.echo.rx.pktReady || bench.replier.place.isSome) :=
    hholds.replies.replying_eq
  rw [BusyAgrees, IcmpRx.rxBusy, hreplying]
  cases hholds.phase with
  | resting hready hresting hid =>
      rw [place_idle hresting.idle, hresting.active, Option.isSome_none]
  | pending before request hrequests hready hresting hid hloaded hquiet =>
      rw [place_idle hresting.idle, hresting.active, Option.isSome_none]
  | sending before request hrequests hready hwalking hid hloaded hacc hquiet =>
      rw [place_busy hwalking.busy, hwalking.active, Option.isSome_some]

/-- A message that arrives while a reply is pending or active does nothing. -/
theorem quiet_step (hholds : bench.Holds our) (hreplying : bench.replying = true)
    (hquiet : bench.current ≠ [] → bench.taken = false) :
    ¬ bench.Requests i ∧ (bench.step our i).requests = bench.requests ∧
      ((bench.step our i).current ≠ [] → (bench.step our i).taken = false) ∧
      (bench.step our i).echo.rx.pktReady = false ∧
      ∀ request, IcmpLoaded bench.echo.rx request →
        IcmpLoaded (bench.step our i).echo.rx request := by
  have hbusy := busyAgrees hholds
  have hnow : bench.takenNow = false := by
    rw [takenNow, hreplying]
    by_cases hcurrent : bench.current = []
    · rw [hcurrent]
      rfl
    · rw [List.isEmpty_eq_false_iff.mpr hcurrent]
      exact hquiet hcurrent
  have hnone : ¬ bench.Requests i := by
    intro hrequests
    have htaken := hrequests.2.2.1
    rw [hnow] at htaken
    exact nomatch htaken
  have haccept : bench.echo.rx.rxAccept bench.echo.tx.replyActive i = false := by
    rw [← Bool.not_eq_true, rxAccept_iff hholds.receiving hbusy]
    exact hnone
  refine ⟨hnone, if_neg hnone, ?_, haccept, fun request hloaded => ?_⟩
  · simp only [step, hnow]
    cases i.icmpRxValid with
    | false => exact hquiet
    | true => exact fun _ => rfl
  · exact hloaded.keep (rxStore_quiet hholds.receiving hbusy fun _ => hnow) haccept

/-- Between replies. -/
theorem resting_step (hholds : bench.Holds our) (hready : bench.echo.rx.pktReady = false)
    (hresting : IcmpResting bench.echo.tx)
    (hid : bench.echo.tx.ipIdCnt = .ofNat 16 (1000 + bench.requests.length)) :
    Phase our (bench.step our i) ∧
      Replier.Moves (replyOf our) bench.replier (bench.step our i).replier i.txReady := by
  have hrx := hholds.receiving
  have hbusy := busyAgrees hholds
  have haccepts := @rxAccept_iff params bench i hrx hbusy
  have hpkt : (bench.step our i).echo.rx.pktReady =
      bench.echo.rx.rxAccept bench.echo.tx.replyActive i := rfl
  obtain ⟨hresting', hid'⟩ := @IcmpEcho.rest_resting params our bench.echo i hresting hready
  have hplace := place_idle hresting.idle
  have hplace' := @place_idle params (bench.step our i) hresting'.idle
  by_cases hrequests : bench.Requests i
  · have haccept := haccepts.mpr hrequests
    have hlonger : (bench.step our i).requests =
        bench.requests ++ [⟨bench.arrived i, i.rxSrcMac, i.icmpRxSrcIp⟩] := if_pos hrequests
    obtain ⟨hvalid, hlast, htaken, -, htype, hlong, hshort⟩ := hrequests
    have hloaded : IcmpLoaded (bench.step our i).echo.rx
        ⟨bench.arrived i, i.rxSrcMac, i.icmpRxSrcIp⟩ := by
      have hskip := rxSkip_eq hrx hbusy hvalid
      have hcounted := hrx.counted
      have hbuffered := hrx.buffered
      rw [htaken, Bool.not_true] at hskip
      rw [stored_now htaken] at hcounted hbuffered
      exact loaded_accept hcounted hbuffered hvalid hskip haccept htype hlong hshort
    have hended : (bench.step our i).current = [] := by
      simp only [step, hvalid, hlast, if_true]
    exact ⟨.pending bench.requests _ hlonger (hpkt.trans haccept) hresting' (hid'.trans hid)
        hloaded fun hne => absurd hended hne,
      .rest (some _) (bench.echo.offer our) hready hplace hresting.valid hlonger
        (hpkt.trans haccept) hplace' rfl rfl⟩
  · have hready' : (bench.step our i).echo.rx.pktReady = false := by
      rw [hpkt, ← Bool.not_eq_true, haccepts]
      exact hrequests
    have hsame : (bench.step our i).requests = bench.requests := if_neg hrequests
    refine ⟨.resting hready' hresting' ?_, .rest none (bench.echo.offer our) hready hplace
      hresting.valid (hsame.trans (List.append_nil _).symm) hready' hplace' rfl rfl⟩
    rw [hsame]
    exact hid'.trans hid

/-- A reply begins in the cycle after its request was accepted. -/
theorem pending_step (hholds : bench.Holds our) {before : List IcmpRequest}
    {request : IcmpRequest} (hrequests : bench.requests = before ++ [request])
    (hready : bench.echo.rx.pktReady = true) (hresting : IcmpResting bench.echo.tx)
    (hid : bench.echo.tx.ipIdCnt = .ofNat 16 (1000 + before.length))
    (hloaded : IcmpLoaded bench.echo.rx request)
    (hquiet : bench.current ≠ [] → bench.taken = false) :
    Phase our (bench.step our i) ∧
      Replier.Moves (replyOf our) bench.replier (bench.step our i).replier i.txReady := by
  have hreplying : bench.replying = true := by
    rw [← busyAgrees hholds, IcmpRx.rxBusy, hready, Bool.true_or]
  obtain ⟨-, hsame, hquiet', hready', hkeep⟩ :=
    @quiet_step params our bench i hholds hreplying hquiet
  obtain ⟨hwalking, hfirst, hid', hacc⟩ :=
    @IcmpEcho.begin_walking params our bench.echo i hresting hready request.bytes.length
  have hloaded' := hkeep request hloaded
  have hnext : (bench.step our i).echo.tx.ipIdCnt = .ofNat 16 (1001 + before.length) := by
    rw [show 1001 + before.length = 1000 + before.length + 1 by omega, BitVec.ofNat_add, ← hid]
    exact hid'
  have hreply : bench.replier.reply (replyOf our) ≠ [] := by
    rw [Replier.reply_eq hrequests, replyOf, ← List.length_pos_iff_ne_nil,
      length_icmpReply hloaded.long]
    exact Nat.lt_add_right _ (by decide)
  refine ⟨.sending before request (hsame.trans hrequests) hready' hwalking hnext hloaded' ?_
    hquiet', .begin (bench.echo.offer our) hready hresting.valid hreply hsame hready' ?_ rfl rfl⟩
  · rw [(IcmpEcho.ipTotalLen_eq hloaded').trans (IcmpEcho.ipTotalLen_eq hloaded).symm,
      hloaded'.ip, ← hloaded.ip]
    rw [← hid'] at hacc
    exact hacc
  · have hplace := @place_busy params (bench.step our i) hwalking.busy
    rw [hplace]
    exact congrArg some hfirst

/-- A reply goes on, or comes to its end. -/
theorem sending_step (hholds : bench.Holds our) {before : List IcmpRequest}
    {request : IcmpRequest} (hrequests : bench.requests = before ++ [request])
    (hready : bench.echo.rx.pktReady = false)
    (hwalking : IcmpWalking bench.echo.tx request.bytes.length)
    (hid : bench.echo.tx.ipIdCnt = .ofNat 16 (1001 + before.length))
    (hloaded : IcmpLoaded bench.echo.rx request)
    (hacc : bench.echo.tx.ipCsumAcc = ipCsumSum bench.echo.rx.ipTotalLen
      bench.echo.tx.ipIdCnt 0x01 our.ip bench.echo.rx.replyDstIp)
    (hquiet : bench.current ≠ [] → bench.taken = false) :
    Phase our (bench.step our i) ∧
      Replier.Moves (replyOf our) bench.replier (bench.step our i).replier i.txReady := by
  have hreplying : bench.replying = true := by
    rw [← busyAgrees hholds, IcmpRx.rxBusy, hwalking.active, Bool.or_true]
  obtain ⟨-, hsame, hquiet', hready', hkeep⟩ :=
    @quiet_step params our bench i hholds hreplying hquiet
  have hloaded' := hkeep request hloaded
  have hplace := hwalking.place_lt
  have hreply : bench.replier.reply (replyOf our) =
      icmpReply our bench.echo.tx.ipIdCnt request := by
    rw [Replier.reply_eq hrequests, replyOf, hid]
  have hlength : (bench.replier.reply (replyOf our)).length = 34 + request.bytes.length := by
    rw [hreply]
    exact length_icmpReply hloaded.long
  have hbyte : (bench.replier.reply (replyOf our))[bench.echo.tx.place]? =
      some (bench.echo.txDataMux our) := by
    have hmux := IcmpEcho.txDataMux_eq hloaded hacc hwalking.within
    rw [← hreply, List.getD_eq_getElem _ _ (hplace.trans_eq hlength.symm)] at hmux
    rw [hmux]
    exact List.getElem?_eq_getElem _
  have hmoves : ∀ hnext : (bench.step our i).replier.place =
      if bench.echo.slice.ready i.txReady then
        if bench.echo.tx.place + 1 = 34 + request.bytes.length then none
        else some (bench.echo.tx.place + 1)
      else some bench.echo.tx.place,
      Replier.Moves (replyOf our) bench.replier (bench.step our i).replier i.txReady := by
    intro hnext
    rw [← hlength] at hnext
    refine .walk (bench.echo.offer our) bench.echo.tx.place hready (place_busy hwalking.busy)
      hwalking.valid ?_ hbyte hsame hready' hnext rfl rfl
    rw [hlength]
    exact hwalking.last
  have hsending : IcmpWalking (bench.step our i).echo.tx request.bytes.length →
      (bench.step our i).echo.tx.ipIdCnt = bench.echo.tx.ipIdCnt →
      (bench.step our i).echo.tx.ipCsumAcc = bench.echo.tx.ipCsumAcc →
      Phase our (bench.step our i) := by
    intro hwalking' hid' hacc'
    refine .sending before request (hsame.trans hrequests) hready' hwalking' (hid'.trans hid)
      hloaded' ?_ hquiet'
    rw [(IcmpEcho.ipTotalLen_eq hloaded').trans (IcmpEcho.ipTotalLen_eq hloaded).symm,
      hloaded'.ip, ← hloaded.ip, hid', hacc']
    exact hacc
  cases htaken : bench.echo.slice.ready i.txReady with
  | false =>
      rw [htaken, if_neg Bool.false_ne_true] at hmoves
      obtain ⟨hwalking', hplace', hid', hacc'⟩ :=
        @IcmpEcho.stall_walking params our bench.echo i _ hwalking htaken
      refine ⟨hsending hwalking' hid' hacc', hmoves ?_⟩
      have hbusy := @place_busy params (bench.step our i) hwalking'.busy
      exact hbusy.trans (congrArg some hplace')
  | true =>
      rw [htaken, if_pos rfl] at hmoves
      obtain ⟨hid', hacc'⟩ := @IcmpEcho.taken_edge params our bench.echo i hwalking.busy
      by_cases hlast : bench.echo.tx.place + 1 = 34 + request.bytes.length
      · rw [if_pos hlast] at hmoves
        have hresting := @IcmpEcho.last_resting params our bench.echo i _ hwalking
          hloaded.len hloaded.long htaken hlast
        refine ⟨.resting hready' hresting ?_, hmoves (place_idle hresting.idle)⟩
        rw [hsame, hrequests, List.length_append, List.length_singleton]
        refine (hid'.trans hid).trans (congrArg _ ?_)
        omega
      · rw [if_neg hlast] at hmoves
        obtain ⟨hwalking', hplace'⟩ := @IcmpEcho.taken_walking params our bench.echo i _
          hwalking hloaded.len hloaded.long htaken hlast
        refine ⟨hsending hwalking' hid' hacc', hmoves ?_⟩
        have hbusy := @place_busy params (bench.step our i) hwalking'.busy
        exact hbusy.trans (congrArg some hplace')

theorem phase_step (hholds : bench.Holds our) :
    Phase our (bench.step our i) ∧
      Replier.Moves (replyOf our) bench.replier (bench.step our i).replier i.txReady := by
  cases hholds.phase with
  | resting hready hresting hid => exact resting_step hholds hready hresting hid
  | pending before request hrequests hready hresting hid hloaded hquiet =>
      exact pending_step hholds hrequests hready hresting hid hloaded hquiet
  | sending before request hrequests hready hwalking hid hloaded hacc hquiet =>
      exact sending_step hholds hrequests hready hwalking hid hloaded hacc hquiet

theorem holds_step (hholds : bench.Holds our) : (bench.step our i).Holds our := by
  obtain ⟨hphase, hmoves⟩ := @phase_step params our bench i hholds
  exact ⟨receiving_step hholds.receiving (busyAgrees hholds), hphase,
    hholds.replies.moves hmoves⟩

/-- The requests are echo requests that fit. -/
def Fitting (bench : IcmpEchoBench params) : Prop :=
  ∀ request ∈ bench.requests, request.bytes.take 2 = [0x08, 0x00] ∧
    8 ≤ request.bytes.length ∧ request.bytes.length ≤ params.maxLen

theorem fitting_step (hfitting : bench.Fitting) : (bench.step our i).Fitting := by
  intro request hmem
  simp only [step] at hmem
  split at hmem
  · rename_i hrequests
    rcases List.mem_append.mp hmem with hold | hnew
    · exact hfitting request hold
    · rw [List.mem_singleton.mp hnew]
      exact hrequests.2.2.2.2
  · exact hfitting request hmem

theorem reply_le (hfitting : bench.Fitting) :
    (bench.replier.reply (replyOf our)).length ≤ 34 + params.maxLen := by
  rcases List.eq_nil_or_concat' bench.requests with hnil | ⟨before, request, hrequests⟩
  · have hnone : bench.replier.reply (replyOf our) = [] := by
      have hnil' : bench.replier.requests = [] := hnil
      rw [Replier.reply, hnil']
      rfl
    rw [hnone]
    exact Nat.zero_le _
  · have hmem : request ∈ bench.requests := by
      rw [hrequests]
      exact List.mem_append_right _ (List.mem_singleton_self _)
    obtain ⟨-, hlong, hshort⟩ := hfitting request hmem
    rw [Replier.reply_eq hrequests, replyOf, length_icmpReply hlong]
    exact Nat.add_le_add_left hshort 34

/-- Each request has its answer in the list of replies. -/
theorem answers_replies (our : NetOur) (params : IcmpEchoParams) (requests : List IcmpRequest)
    (hfitting : ∀ request ∈ requests, request.bytes.take 2 = [0x08, 0x00] ∧
      8 ≤ request.bytes.length ∧ request.bytes.length ≤ params.maxLen) :
    List.Forall₂ (IcmpAnswers our) requests (Replier.replies (replyOf our) requests) := by
  induction requests using List.reverseRecOn with
  | nil => exact .nil
  | append_singleton before request ih =>
      rw [Replier.replies_concat]
      obtain ⟨htype, hlong, hshort⟩ :=
        hfitting request (List.mem_append_right _ (List.mem_singleton_self request))
      exact List.rel_append
        (ih fun other hother => hfitting other (List.mem_append_left _ hother))
        (.cons (icmpReply_answers hlong (hshort.trans params.le_max) htype) .nil)

/-- In every run the frames that come out are the answers to the requests, in their order,
and a request's answer is out when the receiver has been ready often enough. -/
theorem icmpEcho_run (our : NetOur) (first last : List IcmpEchoIn) :
    let earlier := runFrom (step our) (start : IcmpEchoBench params) first
    let bench := runFrom (step our) (start : IcmpEchoBench params) (first ++ last)
    (∃ replies owed, List.Forall₂ (IcmpAnswers our) bench.requests replies ∧
      replies = bench.sent.whole ++ owed ∧ bench.sent.part <+: owed.headD []) ∧
    (36 + params.maxLen ≤ last.countP IcmpEchoIn.txReady →
      earlier.requests.length ≤ bench.sent.whole.length) := by
  have hstep : ∀ (bench : IcmpEchoBench params) (i : IcmpEchoIn), True →
      bench.Holds our ∧ bench.Fitting → (bench.step our i).Holds our ∧ (bench.step our i).Fitting :=
    fun bench i _ hboth => ⟨holds_step hboth.1, fitting_step hboth.2⟩
  have hstart : (start : IcmpEchoBench params).Holds our ∧
      (start : IcmpEchoBench params).Fitting := ⟨holds_start our, fun _ hmem => (nomatch hmem)⟩
  have hfree : ∀ (bench : IcmpEchoBench params) (events : List IcmpEchoIn),
      Along (step our) (fun _ _ => True) bench events :=
    along_of_forall fun _ _ => trivial
  refine ⟨?_, fun henough => ?_⟩
  · obtain ⟨hholds, hfitting⟩ := invariant_along hstep hstart (hfree start (first ++ last))
    obtain ⟨owed, hout, hpart⟩ := hholds.replies.out_replies
    exact ⟨_, owed, answers_replies our params _ hfitting, hout, hpart⟩
  · have hbefore := invariant_along hstep hstart (hfree start first)
    rw [runFrom_append]
    refine Replier.sent_along replier IcmpEchoIn.txReady hstep
      (fun _ _ _ hboth => (phase_step hboth.1).2) (fun _ hboth => hboth.1.replies)
      (fun _ hboth => reply_le hboth.2) (hfree _ last) hbefore ?_
    omega

end IcmpEchoBench

end EmacZero
