/-
`udp_echo` over whole runs: while every datagram fits, what comes out are the echoes of
the datagrams that are to be echoed.
-/
import EmacZero.UdpEchoSend

namespace EmacZero

variable {params : UdpEchoParams} {our : NetOur} {bench : UdpEchoBench params}
  {i : UdpEchoIn}

namespace UdpEchoBench

/-- The echo of the datagram with this number. -/
def echoOf (our : NetOur) (number : Nat) (datagram : UdpDatagram) : List (BitVec 8) :=
  udpEchoFrame our (.ofNat 16 (2001 + number)) datagram

/-- The responder that the bench is. -/
def replier (bench : UdpEchoBench params) : Replier UdpDatagram (BitVec 8) where
  requests := bench.requests
  pending := bench.echo.rx.pktReady
  place := if bench.echo.tx.txState = .idle then none else some bench.echo.tx.place
  slice := bench.echo.slice
  sent := bench.sent

/-- What the responder is at: nothing, a datagram that has come, or its echo. -/
inductive Phase (our : NetOur) (bench : UdpEchoBench params) : Prop
  | resting (hready : bench.echo.rx.pktReady = false) (hresting : UdpEchoResting bench.echo.tx)
      (hid : bench.echo.tx.ipIdCnt = .ofNat 16 (2000 + bench.requests.length))
  | pending (before : List UdpDatagram) (datagram : UdpDatagram)
      (hrequests : bench.requests = before ++ [datagram])
      (hready : bench.echo.rx.pktReady = true) (hresting : UdpEchoResting bench.echo.tx)
      (hid : bench.echo.tx.ipIdCnt = .ofNat 16 (2000 + before.length))
      (hloaded : UdpLoaded bench.echo.rx datagram) (hquiet : bench.heard = [])
  | sending (before : List UdpDatagram) (datagram : UdpDatagram)
      (hrequests : bench.requests = before ++ [datagram])
      (hready : bench.echo.rx.pktReady = false)
      (hwalking : UdpEchoWalking bench.echo.tx datagram.payload.length)
      (hid : bench.echo.tx.ipIdCnt = .ofNat 16 (2001 + before.length))
      (hloaded : UdpLoaded bench.echo.rx datagram)
      (hacc : bench.echo.tx.ipCsumAcc = ipCsumSum bench.echo.rx.ipTotalLen
        bench.echo.tx.ipIdCnt 0x11 our.ip bench.echo.rx.replyDstIp)
      (hquiet : bench.heard = [])

structure Holds (our : NetOur) (bench : UdpEchoBench params) : Prop where
  receiving : bench.Receiving
  phase : Phase our bench
  replies : bench.replier.Holds (echoOf our)

theorem holds_start (our : NetOur) : (start : UdpEchoBench params).Holds our where
  receiving := by
    refine ⟨List.nil_suffix, ?_, fun hne => absurd rfl hne, fun _ _ _ hindex =>
      absurd hindex (Nat.not_lt_zero _)⟩
    change 0 = if params.listens _ then 0 % _ else 0
    rw [Nat.zero_mod, ite_self]
  phase := .resting rfl ⟨rfl, rfl, rfl, rfl⟩ rfl
  replies := ⟨fun hpending => (nomatch hpending), fun _ hplace => (nomatch hplace),
    ⟨fun _ => ⟨rfl, .nil⟩, fun hne => absurd rfl hne⟩⟩

theorem place_idle (hidle : bench.echo.tx.txState = .idle) : bench.replier.place = none :=
  if_pos hidle

theorem place_busy (hbusy : bench.echo.tx.txState ≠ .idle) :
    bench.replier.place = some bench.echo.tx.place := if_neg hbusy

theorem busyAgrees (hholds : bench.Holds our) : bench.BusyAgrees := by
  have hreplying : bench.replying = (bench.echo.rx.pktReady || bench.replier.place.isSome) :=
    hholds.replies.replying_eq
  rw [BusyAgrees, hreplying, Bool.or_comm]
  cases hholds.phase with
  | resting hready hresting hid =>
      rw [place_idle hresting.idle, hresting.active, Option.isSome_none]
  | pending before datagram hrequests hready hresting hid hloaded hquiet =>
      rw [place_idle hresting.idle, hresting.active, Option.isSome_none]
  | sending before datagram hrequests hready hwalking hid hloaded hacc hquiet =>
      rw [place_busy hwalking.busy, hwalking.active, Option.isSome_some]

/-- A byte that arrives while a reply is pending or active does nothing. -/
theorem quiet_step (hholds : bench.Holds our) (hreplying : bench.replying = true)
    (hquiet : bench.heard = []) :
    (bench.step our i).requests = bench.requests ∧ (bench.step our i).heard = [] ∧
      (bench.step our i).echo.rx.pktReady = false ∧
      ∀ datagram, UdpLoaded bench.echo.rx datagram →
        UdpLoaded (bench.step our i).echo.rx datagram := by
  have hbusy := busyAgrees hholds
  have hnone : ¬ bench.Requests i := by
    intro hrequests
    have hidle := (heardNow_eq hholds.receiving hrequests.2.1).1
    rw [hreplying] at hidle
    exact nomatch hidle
  have hpkt : (bench.step our i).echo.rx.pktReady =
      bench.echo.rx.accepts bench.echo.tx.replyActive (bench.feed.drive i.rx) :=
    UdpEchoRx.clkEdge_pktReady _ _ _
  refine ⟨if_neg hnone, ?_, ?_, fun datagram hloaded => hloaded.keep fun _ => ?_⟩
  · simp only [step, heardNow, hreplying, if_true, hquiet, ite_self]
  · rw [hpkt, ← Bool.not_eq_true, accepts_iff hholds.receiving hbusy, hreplying]
    exact fun hall => nomatch hall.2.1
  · rw [drops_eq hholds.receiving hbusy, hreplying, Bool.true_or]

/-- Between replies. -/
theorem resting_step (hholds : bench.Holds our) (hfits : bench.Fits i)
    (hready : bench.echo.rx.pktReady = false) (hresting : UdpEchoResting bench.echo.tx)
    (hid : bench.echo.tx.ipIdCnt = .ofNat 16 (2000 + bench.requests.length)) :
    Phase our (bench.step our i) ∧
      Replier.Moves (echoOf our) bench.replier (bench.step our i).replier i.txReady := by
  have hbusy := busyAgrees hholds
  have haccepts := accepts_iff_requests hholds.receiving hbusy hfits
  have hpkt : (bench.step our i).echo.rx.pktReady =
      bench.echo.rx.accepts bench.echo.tx.replyActive (bench.feed.drive i.rx) :=
    UdpEchoRx.clkEdge_pktReady _ _ _
  obtain ⟨hresting', hid'⟩ :=
    @UdpEcho.rest_resting params our bench.echo i.txReady hresting hready
  have hplace := place_idle hresting.idle
  have hplace' := @place_idle params (bench.step our i) hresting'.idle
  by_cases hrequests : bench.Requests i
  · have hready' := hpkt.trans (haccepts.mpr hrequests)
    have hlonger : (bench.step our i).requests =
        bench.requests ++ [⟨bench.feed.arrived i.rx, (bench.feed.drive i.rx).source⟩] :=
      if_pos hrequests
    have hheard : (bench.step our i).heard = [] := by
      simp only [step, hrequests.1.1, hrequests.1.2.1, if_true]
    exact ⟨.pending bench.requests _ hlonger hready' hresting' (hid'.trans hid)
        (loaded_request hholds.receiving hbusy hrequests) hheard,
      .rest (some _) (bench.echo.offer our) hready hplace hresting.valid hlonger hready' hplace'
        rfl rfl⟩
  · have hready' : (bench.step our i).echo.rx.pktReady = false := by
      rw [hpkt, ← Bool.not_eq_true, haccepts]
      exact hrequests
    have hsame : (bench.step our i).requests = bench.requests := if_neg hrequests
    refine ⟨.resting hready' hresting' ?_, .rest none (bench.echo.offer our) hready hplace
      hresting.valid (hsame.trans (List.append_nil _).symm) hready' hplace' rfl rfl⟩
    rw [hsame]
    exact hid'.trans hid

/-- A reply begins in the cycle after its datagram was accepted. -/
theorem pending_step (hholds : bench.Holds our) {before : List UdpDatagram}
    {datagram : UdpDatagram} (hrequests : bench.requests = before ++ [datagram])
    (hready : bench.echo.rx.pktReady = true) (hresting : UdpEchoResting bench.echo.tx)
    (hid : bench.echo.tx.ipIdCnt = .ofNat 16 (2000 + before.length))
    (hloaded : UdpLoaded bench.echo.rx datagram) (hquiet : bench.heard = []) :
    Phase our (bench.step our i) ∧
      Replier.Moves (echoOf our) bench.replier (bench.step our i).replier i.txReady := by
  have hreplying : bench.replying = true := by
    rw [← busyAgrees hholds, hready, Bool.or_true]
  obtain ⟨hsame, hquiet', hready', hkeep⟩ := @quiet_step params our bench i hholds hreplying hquiet
  obtain ⟨hwalking, hfirst, hid', hacc⟩ :=
    @UdpEcho.begin_walking params our bench.echo i.txReady hresting hready datagram.payload.length
  have hloaded' := hkeep datagram hloaded
  have hnext : (bench.step our i).echo.tx.ipIdCnt = .ofNat 16 (2001 + before.length) := by
    rw [show 2001 + before.length = 2000 + before.length + 1 by omega, BitVec.ofNat_add, ← hid]
    exact hid'
  have hreply : bench.replier.reply (echoOf our) ≠ [] := by
    rw [Replier.reply_eq hrequests, echoOf, udpEchoFrame, ← List.length_pos_iff_ne_nil,
      length_udpFrame]
    exact Nat.lt_add_right _ (by decide)
  refine ⟨.sending before datagram (hsame.trans hrequests) hready' hwalking hnext hloaded' ?_
    hquiet', .begin (bench.echo.offer our) hready hresting.valid hreply hsame hready' ?_ rfl rfl⟩
  · have htotal := (UdpEcho.lens_eq hloaded').1.trans (UdpEcho.lens_eq hloaded).1.symm
    rw [htotal, hloaded'.ip, ← hloaded.ip]
    rw [← hid'] at hacc
    exact hacc
  · have hplace := @place_busy params (bench.step our i) hwalking.busy
    rw [hplace]
    exact congrArg some hfirst

/-- A reply goes on, or comes to its end. -/
theorem sending_step (hholds : bench.Holds our) {before : List UdpDatagram}
    {datagram : UdpDatagram} (hrequests : bench.requests = before ++ [datagram])
    (hready : bench.echo.rx.pktReady = false)
    (hwalking : UdpEchoWalking bench.echo.tx datagram.payload.length)
    (hid : bench.echo.tx.ipIdCnt = .ofNat 16 (2001 + before.length))
    (hloaded : UdpLoaded bench.echo.rx datagram)
    (hacc : bench.echo.tx.ipCsumAcc = ipCsumSum bench.echo.rx.ipTotalLen
      bench.echo.tx.ipIdCnt 0x11 our.ip bench.echo.rx.replyDstIp)
    (hquiet : bench.heard = []) :
    Phase our (bench.step our i) ∧
      Replier.Moves (echoOf our) bench.replier (bench.step our i).replier i.txReady := by
  have hreplying : bench.replying = true := by
    rw [← busyAgrees hholds, hwalking.active, Bool.true_or]
  obtain ⟨hsame, hquiet', hready', hkeep⟩ := @quiet_step params our bench i hholds hreplying hquiet
  have hloaded' := hkeep datagram hloaded
  have hsmall := hloaded.short.trans params.le_max
  have hplace := hwalking.place_lt
  have hreply : bench.replier.reply (echoOf our) =
      udpEchoFrame our bench.echo.tx.ipIdCnt datagram := by
    rw [Replier.reply_eq hrequests, echoOf, hid]
  have hlength : (bench.replier.reply (echoOf our)).length = 42 + datagram.payload.length := by
    rw [hreply]
    exact length_udpFrame
  have hbyte : (bench.replier.reply (echoOf our))[bench.echo.tx.place]? =
      some (bench.echo.txDataMux our) := by
    have hmux := UdpEcho.txDataMux_eq hloaded hacc hwalking.within
    rw [← hreply, List.getD_eq_getElem _ _ (hplace.trans_eq hlength.symm)] at hmux
    rw [hmux]
    exact List.getElem?_eq_getElem _
  have hmoves : ∀ hnext : (bench.step our i).replier.place =
      if bench.echo.slice.ready i.txReady then
        if bench.echo.tx.place + 1 = 42 + datagram.payload.length then none
        else some (bench.echo.tx.place + 1)
      else some bench.echo.tx.place,
      Replier.Moves (echoOf our) bench.replier (bench.step our i).replier i.txReady := by
    intro hnext
    rw [← hlength] at hnext
    refine .walk (bench.echo.offer our) bench.echo.tx.place hready (place_busy hwalking.busy)
      hwalking.valid ?_ hbyte hsame hready' hnext rfl rfl
    rw [hlength]
    exact hwalking.last
  have hsending : UdpEchoWalking (bench.step our i).echo.tx datagram.payload.length →
      (bench.step our i).echo.tx.ipIdCnt = bench.echo.tx.ipIdCnt →
      (bench.step our i).echo.tx.ipCsumAcc = bench.echo.tx.ipCsumAcc →
      Phase our (bench.step our i) := by
    intro hwalking' hid' hacc'
    have htotal := (UdpEcho.lens_eq hloaded').1.trans (UdpEcho.lens_eq hloaded).1.symm
    refine .sending before datagram (hsame.trans hrequests) hready' hwalking' (hid'.trans hid)
      hloaded' ?_ hquiet'
    rw [htotal, hloaded'.ip, ← hloaded.ip, hid', hacc']
    exact hacc
  cases htaken : bench.echo.slice.ready i.txReady with
  | false =>
      rw [htaken, if_neg Bool.false_ne_true] at hmoves
      obtain ⟨hwalking', hplace', hid', hacc'⟩ :=
        @UdpEcho.stall_walking params our bench.echo i.txReady _ hwalking htaken
      refine ⟨hsending hwalking' hid' hacc', hmoves ?_⟩
      have hbusy := @place_busy params (bench.step our i) hwalking'.busy
      exact hbusy.trans (congrArg some hplace')
  | true =>
      rw [htaken, if_pos rfl] at hmoves
      obtain ⟨hid', hacc'⟩ := @UdpEcho.taken_edge params our bench.echo i.txReady hwalking.busy
      by_cases hlast : bench.echo.tx.place + 1 = 42 + datagram.payload.length
      · rw [if_pos hlast] at hmoves
        have hresting := @UdpEcho.last_resting params our bench.echo i.txReady _ hwalking
          hloaded.len hloaded.some hsmall htaken hlast
        refine ⟨.resting hready' hresting ?_, hmoves (place_idle hresting.idle)⟩
        rw [hsame, hrequests, List.length_append, List.length_singleton]
        refine (hid'.trans hid).trans (congrArg _ ?_)
        omega
      · rw [if_neg hlast] at hmoves
        obtain ⟨hwalking', hplace'⟩ := @UdpEcho.taken_walking params our bench.echo i.txReady _
          hwalking hloaded.len hloaded.some hsmall htaken hlast
        refine ⟨hsending hwalking' hid' hacc', hmoves ?_⟩
        have hbusy := @place_busy params (bench.step our i) hwalking'.busy
        exact hbusy.trans (congrArg some hplace')

theorem phase_step (hholds : bench.Holds our) (hfits : bench.Fits i) :
    Phase our (bench.step our i) ∧
      Replier.Moves (echoOf our) bench.replier (bench.step our i).replier i.txReady := by
  cases hholds.phase with
  | resting hready hresting hid => exact resting_step hholds hfits hready hresting hid
  | pending before datagram hrequests hready hresting hid hloaded hquiet =>
      exact pending_step hholds hrequests hready hresting hid hloaded hquiet
  | sending before datagram hrequests hready hwalking hid hloaded hacc hquiet =>
      exact sending_step hholds hrequests hready hwalking hid hloaded hacc hquiet

theorem quiet_of_replying (hholds : bench.Holds our) (hreplying : bench.replying = true) :
    bench.heard = [] := by
  have hbusy := busyAgrees hholds
  rw [BusyAgrees, hreplying] at hbusy
  cases hholds.phase with
  | resting hready hresting hid =>
      rw [hready, hresting.active] at hbusy
      exact nomatch hbusy
  | pending before datagram hrequests hready hresting hid hloaded hquiet => exact hquiet
  | sending before datagram hrequests hready hwalking hid hloaded hacc hquiet => exact hquiet

theorem holds_step (hholds : bench.Holds our) (hfits : bench.Fits i) :
    (bench.step our i).Holds our := by
  obtain ⟨hphase, hmoves⟩ := @phase_step params our bench i hholds hfits
  exact ⟨receiving_step hholds.receiving (busyAgrees hholds) (quiet_of_replying hholds), hphase,
    hholds.replies.moves hmoves⟩

/-- The datagrams that are to be echoed fit the buffer. -/
def Short (bench : UdpEchoBench params) : Prop :=
  ∀ datagram ∈ bench.requests, datagram.payload.length ≤ params.bufSize

theorem short_step (hshort : bench.Short) : (bench.step our i).Short := by
  intro datagram hmem
  simp only [step] at hmem
  split at hmem
  · rename_i hrequests
    rcases List.mem_append.mp hmem with hold | hnew
    · exact hshort datagram hold
    · rw [List.mem_singleton.mp hnew]
      exact hrequests.2.2
  · exact hshort datagram hmem

theorem reply_le (hshort : bench.Short) :
    (bench.replier.reply (echoOf our)).length ≤ 42 + params.bufSize := by
  rcases List.eq_nil_or_concat' bench.requests with hnil | ⟨before, datagram, hrequests⟩
  · have hnone : bench.replier.reply (echoOf our) = [] := by
      have hnil' : bench.replier.requests = [] := hnil
      rw [Replier.reply, hnil']
      rfl
    rw [hnone]
    exact Nat.zero_le _
  · have hmem : datagram ∈ bench.requests := by
      rw [hrequests]
      exact List.mem_append_right _ (List.mem_singleton_self _)
    rw [Replier.reply_eq hrequests, echoOf, udpEchoFrame, length_udpFrame]
    exact Nat.add_le_add_left (hshort datagram hmem) 42

/-- Each datagram has its echo in the list of replies. -/
theorem echoes_replies (our : NetOur) (params : UdpEchoParams) (requests : List UdpDatagram)
    (hshort : ∀ datagram ∈ requests, datagram.payload.length ≤ params.bufSize) :
    List.Forall₂ (UdpEchoes our) requests (Replier.replies (echoOf our) requests) := by
  induction requests using List.reverseRecOn with
  | nil => exact .nil
  | append_singleton before datagram ih =>
      rw [Replier.replies_concat]
      have hfits := hshort datagram (List.mem_append_right _ (List.mem_singleton_self datagram))
      exact List.rel_append (ih fun other hother => hshort other (List.mem_append_left _ hother))
        (.cons (udpFrame_carries (hfits.trans params.le_max)) .nil)

/-- While every datagram fits, the frames that come out are the echoes of the datagrams that
are to be echoed, in their order, and an echo is out when the receiver has been ready often
enough. -/
theorem udpEcho_run (our : NetOur) {first last : List UdpEchoIn}
    (hfits : Along (step our) Fits (start : UdpEchoBench params) (first ++ last)) :
    let earlier := runFrom (step our) (start : UdpEchoBench params) first
    let bench := runFrom (step our) (start : UdpEchoBench params) (first ++ last)
    (∃ replies owed, List.Forall₂ (UdpEchoes our) bench.requests replies ∧
      replies = bench.sent.whole ++ owed ∧ bench.sent.part <+: owed.headD []) ∧
    (44 + params.bufSize ≤ last.countP UdpEchoIn.txReady →
      earlier.requests.length ≤ bench.sent.whole.length) := by
  have hstep : ∀ (bench : UdpEchoBench params) (i : UdpEchoIn), bench.Fits i →
      bench.Holds our ∧ bench.Short → (bench.step our i).Holds our ∧ (bench.step our i).Short :=
    fun bench i hok hboth => ⟨holds_step hboth.1 hok, short_step hboth.2⟩
  have hstart : (start : UdpEchoBench params).Holds our ∧ (start : UdpEchoBench params).Short :=
    ⟨holds_start our, fun _ hmem => (nomatch hmem)⟩
  refine ⟨?_, fun henough => ?_⟩
  · obtain ⟨hholds, hshort⟩ := invariant_along hstep hstart hfits
    obtain ⟨owed, hout, hpart⟩ := hholds.replies.out_replies
    exact ⟨_, owed, echoes_replies our params _ hshort, hout, hpart⟩
  · obtain ⟨hfirst, hlast⟩ := along_append.mp hfits
    have hbefore := invariant_along hstep hstart hfirst
    rw [runFrom_append]
    refine Replier.sent_along replier UdpEchoIn.txReady hstep
      (fun _ _ hok hboth => (phase_step hboth.1 hok).2) (fun _ hboth => hboth.1.replies)
      (fun _ hboth => reply_le hboth.2) hlast hbefore ?_
    omega

def echoParams : UdpEchoParams := ⟨1024, 0, by decide, by decide⟩

def echoOur : NetOur := ⟨0x020000000001, 0x0A000001⟩

/-- A payload byte by byte. -/
def echoBeats (source : UdpSource) : List (BitVec 8) → List UdpEchoIn
  | [] => []
  | data :: rest => ⟨⟨data, true, rest.isEmpty, false, source⟩, true⟩ :: echoBeats source rest

def echoIdle : UdpEchoIn := ⟨⟨0, false, false, false, ⟨0, 0, 0, 0, 0⟩⟩, true⟩

def echoHost : UdpSource := ⟨0x020000000002, 0x0A000002, 5555, 7, 0⟩

theorem udpEcho_run_two :
    2 ≤ (runFrom (step echoOur) (start : UdpEchoBench echoParams)
      ((echoBeats echoHost [1] ++ List.replicate 50 echoIdle ++ echoBeats echoHost [2, 3]) ++
        List.replicate 1100 echoIdle)).sent.whole.length := by
  have hfits : Along (step echoOur) Fits (start : UdpEchoBench echoParams)
      ((echoBeats echoHost [1] ++ List.replicate 50 echoIdle ++ echoBeats echoHost [2, 3]) ++
        List.replicate 1100 echoIdle) := by decide +kernel
  have hruns := udpEcho_run echoOur hfits
  have htwo : (runFrom (step echoOur) (start : UdpEchoBench echoParams)
      (echoBeats echoHost [1] ++ List.replicate 50 echoIdle ++
        echoBeats echoHost [2, 3])).requests.length = 2 := by decide +kernel
  rw [← htwo]
  exact hruns.2 (by decide +kernel)

/-- A datagram that begins during a reply and goes on after it: its last bytes are echoed as
a datagram. -/
theorem udpEcho_run_tail :
    let events := echoBeats echoHost [1] ++ echoBeats echoHost (List.replicate 50 2) ++
      List.replicate 60 echoIdle
    (runFrom (step echoOur) (start : UdpEchoBench echoParams) events).requests.length = 1 ∧
      (runFrom (step echoOur) (start : UdpEchoBench echoParams) events).sent.whole.length = 2 := by
  decide +kernel

end UdpEchoBench

end EmacZero
