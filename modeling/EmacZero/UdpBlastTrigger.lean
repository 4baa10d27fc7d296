/-
`udp_blast_trigger`: a datagram to the trigger port as a request for a burst of frames.
-/
import EmacZero.UdpIperfSink
import EmacZero.IpDatagram

namespace EmacZero

/-- `TRIGGER_PORT`, `IGNORE_SRC_PORT`, `DEFAULT_COUNT` and `DEFAULT_PAYLOAD`. -/
structure TriggerParams where
  triggerPort : BitVec 16
  ignoreSrcPort : BitVec 16
  defaultCount : BitVec 32
  defaultPayload : BitVec 16

/-- The outputs of the trigger beside `start`. -/
structure TriggerAsk where
  dstMac : BitVec 48
  dstIp : BitVec 32
  dstPort : BitVec 16
  srcPort : BitVec 16
  ifgDelay : BitVec 24
  packetCount : BitVec 32
  payloadSize : BitVec 16
deriving Repr, DecidableEq

/-- The registers of `udp_blast_trigger`. -/
structure UdpBlastTrigger where
  active : Bool
  accept : Bool
  byteCnt : BitVec 4
  delayAcc : BitVec 24
  countAcc : BitVec 32
  portAcc : BitVec 16
  sizeAcc : BitVec 16
  start : Bool
  ask : TriggerAsk
deriving Repr, DecidableEq

/-- From a host's port that is not the ignored one to the trigger port. -/
def UdpSource.triggers (params : TriggerParams) (source : UdpSource) : Bool :=
  source.dstPort == params.triggerPort && source.srcPort != params.ignoreSrcPort

namespace UdpBlastTrigger

section Edge

variable (params : TriggerParams) (trigger : UdpBlastTrigger) (i : UdpRxIn) (busy : Bool)

def reset : UdpBlastTrigger :=
  ⟨false, false, 0, 0, 0, 0, 0, false, ⟨0, 0, 0, 0, 0, 0, params.defaultPayload⟩⟩

def firstAccept : Bool := i.source.triggers params && !busy

def thisAccept : Bool :=
  if !trigger.active then firstAccept params i busy else trigger.accept

def takeByte : Bool := i.valid && trigger.thisAccept params i busy && trigger.byteCnt < 11

def byteCntNext : BitVec 4 :=
  if trigger.takeByte params i busy then trigger.byteCnt + 1 else trigger.byteCnt

def delayNext : BitVec 24 :=
  if trigger.takeByte params i busy && trigger.byteCnt < 3 then
    trigger.delayAcc.setWidth 16 ++ i.data
  else trigger.delayAcc

def countNext : BitVec 32 :=
  if trigger.takeByte params i busy && trigger.byteCnt ≥ 3 && trigger.byteCnt < 7 then
    trigger.countAcc.setWidth 24 ++ i.data
  else trigger.countAcc

def portNext : BitVec 16 :=
  if trigger.takeByte params i busy && trigger.byteCnt ≥ 7 && trigger.byteCnt < 9 then
    trigger.portAcc.setWidth 8 ++ i.data
  else trigger.portAcc

def sizeNext : BitVec 16 :=
  if trigger.takeByte params i busy && trigger.byteCnt ≥ 9 then
    trigger.sizeAcc.setWidth 8 ++ i.data
  else trigger.sizeAcc

/-- The request of a datagram that ends in this cycle. -/
def asks : TriggerAsk :=
  let byteCnt := trigger.byteCntNext params i busy
  let delay := trigger.delayNext params i busy
  let count := trigger.countNext params i busy
  let port := trigger.portNext params i busy
  let size := trigger.sizeNext params i busy
  { dstMac := i.source.srcMac
    dstIp := i.source.srcIp
    dstPort := if byteCnt ≥ 9 && port != 0 then port else i.source.srcPort
    srcPort := i.source.dstPort
    ifgDelay := if byteCnt ≥ 3 then delay else 0
    packetCount := if byteCnt ≥ 7 && count != 0 then count else params.defaultCount
    payloadSize := if byteCnt ≥ 11 && size != 0 then size else params.defaultPayload }

/-- A rising edge of `clk`. -/
def clkEdge : UdpBlastTrigger :=
  let next := { trigger with start := false }
  if i.valid then
    let next :=
      if !trigger.active then
        { next with
          active := true
          accept := firstAccept params i busy
          byteCnt := 0
          delayAcc := 0
          countAcc := 0
          portAcc := 0
          sizeAcc := 0 }
      else next
    -- this comes after the reset of the accumulators, so the first byte goes on top of
    -- what the last datagram has left in them
    let next :=
      if trigger.thisAccept params i busy then
        { next with
          byteCnt := trigger.byteCntNext params i busy
          delayAcc := trigger.delayNext params i busy
          countAcc := trigger.countNext params i busy
          portAcc := trigger.portNext params i busy
          sizeAcc := trigger.sizeNext params i busy }
      else next
    if i.last then
      let next :=
        if trigger.thisAccept params i busy && !i.err then
          { next with start := true, ask := trigger.asks params i busy }
        else next
      { next with active := false, accept := false, byteCnt := 0 }
    else next
  else next

end Edge

end UdpBlastTrigger

/-! What a datagram asks for. -/

/-- A datagram for the trigger. -/
structure BlastRequest where
  bytes : List (BitVec 8)
  source : UdpSource
deriving Repr, DecidableEq

namespace BlastRequest

variable (params : TriggerParams) (request : BlastRequest)

/-- The bytes of a field as a number, if all of them are there. -/
def field (first stop : Nat) : Nat :=
  if stop ≤ request.bytes.length then bigEndian (slice request.bytes first stop) else 0

/-- What the datagram asks for, with the defaults for what it does not have. -/
def ask : TriggerAsk where
  dstMac := request.source.srcMac
  dstIp := request.source.srcIp
  dstPort :=
    if request.field 7 9 = 0 then request.source.srcPort else .ofNat 16 (request.field 7 9)
  srcPort := request.source.dstPort
  ifgDelay := .ofNat 24 (request.field 0 3)
  packetCount :=
    if request.field 3 7 = 0 then params.defaultCount else .ofNat 32 (request.field 3 7)
  payloadSize :=
    if request.field 9 11 = 0 then params.defaultPayload else .ofNat 16 (request.field 9 11)

end BlastRequest

/-! The trigger within a datagram. -/

/-- A shift register whose last bytes are these. -/
def Shifted {width : Nat} (acc : BitVec width) (bytes : List (BitVec 8)) : Prop :=
  acc.toNat % 256 ^ bytes.length = bigEndian bytes

section Shifted

variable {width : Nat} {acc : BitVec width} {bytes : List (BitVec 8)}

theorem shifted_nil (acc : BitVec width) : Shifted acc [] := Nat.mod_one _

theorem Shifted.concat (hshifted : Shifted acc bytes) {keep : Nat}
    (hroom : 8 * bytes.length ≤ keep) (data : BitVec 8) :
    Shifted (acc.setWidth keep ++ data) (bytes ++ [data]) := by
  have hdvd : 256 ^ bytes.length ∣ 2 ^ keep := by
    rw [show 256 = 2 ^ 8 from rfl, ← Nat.pow_mul]
    exact Nat.pow_dvd_pow 2 hroom
  have hnext : (acc.setWidth keep ++ data).toNat = 256 * (acc.toNat % 2 ^ keep) + data.toNat := by
    rw [BitVec.toNat_append, BitVec.toNat_setWidth, ← Nat.shiftLeft_add_eq_or_of_lt data.isLt,
      Nat.shiftLeft_eq, Nat.mul_comm]
  have hlow : (256 * (acc.toNat % 2 ^ keep) + data.toNat) % 256 = data.toNat := by
    have hlt := data.isLt
    omega
  have hhigh : (256 * (acc.toNat % 2 ^ keep) + data.toNat) / 256 = acc.toNat % 2 ^ keep := by
    have hlt := data.isLt
    omega
  rw [Shifted, hnext, bigEndian_concat, List.length_append, List.length_singleton, Nat.pow_succ',
    Nat.mod_mul, hlow, hhigh, Nat.mod_mod_of_dvd _ hdvd, hshifted, Nat.add_comm]

theorem Shifted.toNat_eq (hshifted : Shifted acc bytes) (hfull : 8 * bytes.length = width) :
    acc.toNat = bigEndian bytes := by
  have hlt : acc.toNat < 256 ^ bytes.length :=
    acc.isLt.trans_eq (by rw [← hfull, Nat.pow_mul])
  rw [← hshifted]
  exact (Nat.mod_eq_of_lt hlt).symm

/-- The shift register of the field from `first` to `stop` takes the byte if it belongs there. -/
theorem Shifted.field {first stop keep : Nat} {acc : BitVec (keep + 8)}
    (hshifted : Shifted acc (slice bytes first stop)) (hroom : 8 * (stop - first) ≤ keep + 8)
    (data : BitVec 8) {takes : Prop} [Decidable takes]
    (htakes : takes ↔ first ≤ bytes.length ∧ bytes.length < stop) :
    Shifted (if takes then acc.setWidth keep ++ data else acc)
      (slice (bytes ++ [data]) first stop) := by
  by_cases hfirst : first ≤ bytes.length
  · rw [slice_concat bytes data hfirst]
    by_cases hstop : bytes.length < stop
    · rw [if_pos hstop, if_pos (htakes.mpr ⟨hfirst, hstop⟩)]
      refine hshifted.concat ?_ data
      rw [length_slice]
      omega
    · rw [if_neg hstop, if_neg fun htaken => hstop (htakes.mp htaken).2]
      exact hshifted
  · have hbefore : slice (bytes ++ [data]) first stop = [] := by
      apply slice_empty
      rw [List.length_append, List.length_singleton]
      omega
    rw [hbefore]
    exact shifted_nil _

end Shifted

namespace UdpBlastTrigger

variable {params : TriggerParams} {trigger : UdpBlastTrigger} {i : UdpRxIn} {busy : Bool}
  {bytes : List (BitVec 8)}

/-- The trigger has these bytes of a datagram that it takes. -/
structure Heard (trigger : UdpBlastTrigger) (bytes : List (BitVec 8)) : Prop where
  byteCnt : trigger.byteCnt.toNat = min bytes.length 11
  delay : Shifted trigger.delayAcc (slice bytes 0 3)
  count : Shifted trigger.countAcc (slice bytes 3 7)
  port : Shifted trigger.portAcc (slice bytes 7 9)
  size : Shifted trigger.sizeAcc (slice bytes 9 11)

theorem heard_nil (hcnt : trigger.byteCnt = 0) : Heard trigger [] where
  byteCnt := by rw [hcnt]; rfl
  delay := shifted_nil _
  count := shifted_nil _
  port := shifted_nil _
  size := shifted_nil _

/-- A byte comes to a field. -/
theorem takeByte_iff (hheard : Heard trigger bytes) (hvalid : i.valid = true)
    (haccept : trigger.thisAccept params i busy = true) :
    trigger.takeByte params i busy = true ↔ bytes.length < 11 := by
  have hcnt := hheard.byteCnt
  rw [takeByte, hvalid, haccept, Bool.and_self, Bool.true_and, decide_eq_true_iff, BitVec.lt_def,
    hcnt]
  change _ < 11 ↔ _
  omega

/-- The registers with the byte of this cycle. -/
def heardNext (params : TriggerParams) (trigger : UdpBlastTrigger) (i : UdpRxIn) (busy : Bool) :
    UdpBlastTrigger :=
  { trigger with
    byteCnt := trigger.byteCntNext params i busy
    delayAcc := trigger.delayNext params i busy
    countAcc := trigger.countNext params i busy
    portAcc := trigger.portNext params i busy
    sizeAcc := trigger.sizeNext params i busy }

theorem heard_next (hheard : Heard trigger bytes) (hvalid : i.valid = true)
    (haccept : trigger.thisAccept params i busy = true) :
    Heard (trigger.heardNext params i busy) (bytes ++ [i.data]) := by
  have htake := takeByte_iff hheard hvalid haccept
  have hcnt := hheard.byteCnt
  refine ⟨?_, ?_, ?_, ?_, ?_⟩
  · change (trigger.byteCntNext params i busy).toNat = _
    rw [byteCntNext, List.length_append, List.length_singleton]
    by_cases hfew : bytes.length < 11
    · have hnext : (trigger.byteCnt + 1).toNat = trigger.byteCnt.toNat + 1 :=
        Nat.mod_eq_of_lt (Nat.succ_lt_succ (by omega : trigger.byteCnt.toNat < 15))
      rw [if_pos (htake.mpr hfew), hnext, hcnt]
      omega
    · rw [if_neg fun htaken => hfew (htake.mp htaken), hcnt]
      omega
  · refine hheard.delay.field (Nat.le_refl 24) i.data ?_
    rw [Bool.and_eq_true, htake, decide_eq_true_iff, BitVec.lt_def, hcnt]
    change _ ∧ _ < 3 ↔ _
    omega
  · refine hheard.count.field (Nat.le_refl 32) i.data ?_
    rw [Bool.and_eq_true, Bool.and_eq_true, htake, decide_eq_true_iff, decide_eq_true_iff,
      BitVec.lt_def, ge_iff_le, BitVec.le_def, hcnt]
    change (_ ∧ 3 ≤ _) ∧ _ < 7 ↔ _
    omega
  · refine hheard.port.field (Nat.le_refl 16) i.data ?_
    rw [Bool.and_eq_true, Bool.and_eq_true, htake, decide_eq_true_iff, decide_eq_true_iff,
      BitVec.lt_def, ge_iff_le, BitVec.le_def, hcnt]
    change (_ ∧ 7 ≤ _) ∧ _ < 9 ↔ _
    omega
  · refine hheard.size.field (Nat.le_refl 16) i.data ?_
    rw [Bool.and_eq_true, htake, decide_eq_true_iff, ge_iff_le, BitVec.le_def, hcnt]
    change _ ∧ 9 ≤ _ ↔ _
    omega

/-- A field with all its bytes. -/
theorem field_eq {width first stop : Nat} {acc : BitVec width} {request : BlastRequest}
    (hshifted : Shifted acc (slice request.bytes first stop)) (hwidth : 8 * (stop - first) = width)
    (hlong : stop ≤ request.bytes.length) : request.field first stop = acc.toNat := by
  have hlength : 8 * (slice request.bytes first stop).length = width := by
    rw [length_slice, Nat.min_eq_left hlong, hwidth]
  rw [BlastRequest.field, if_pos hlong, hshifted.toNat_eq hlength]

/-- A field that the datagram may not have, or may have as 0. -/
theorem field_or {width first stop : Nat} {acc other : BitVec width} {request : BlastRequest}
    (hshifted : Shifted acc (slice request.bytes first stop)) (hwidth : 8 * (stop - first) = width)
    {enough : Prop} [Decidable enough] (henough : enough ↔ stop ≤ request.bytes.length) :
    (if (decide enough && acc != 0) = true then acc else other) =
      if request.field first stop = 0 then other else .ofNat width (request.field first stop) := by
  by_cases hlong : stop ≤ request.bytes.length
  · rw [decide_eq_true (henough.mpr hlong), Bool.true_and, field_eq hshifted hwidth hlong,
      BitVec.ofNat_toNat, BitVec.setWidth_eq]
    by_cases hzero : acc = 0
    · rw [hzero, bne_self_eq_false, if_neg Bool.false_ne_true]
      exact (if_pos BitVec.toNat_zero).symm
    · have hnat : acc.toNat ≠ 0 := fun hnat => hzero (BitVec.eq_of_toNat_eq hnat)
      rw [if_pos (bne_iff_ne.mpr hzero), if_neg hnat]
  · have hnone : request.field first stop = 0 := if_neg hlong
    rw [decide_eq_false (fun henough' => hlong (henough.mp henough')), Bool.false_and,
      if_neg Bool.false_ne_true, if_pos hnone]

/-- At the end of a datagram the trigger asks for what the datagram does. -/
theorem asks_eq {request : BlastRequest}
    (hheard : Heard (trigger.heardNext params i busy) request.bytes)
    (hsource : i.source = request.source) :
    trigger.asks params i busy = request.ask params := by
  have hcnt : (trigger.byteCntNext params i busy).toNat = min request.bytes.length 11 :=
    hheard.byteCnt
  have hlong : ∀ len : BitVec 4, len.toNat ≤ 11 →
      (trigger.byteCntNext params i busy ≥ len ↔ len.toNat ≤ request.bytes.length) := by
    intro len hlen
    rw [ge_iff_le, BitVec.le_def, hcnt]
    omega
  have hdelay : Shifted (trigger.delayNext params i busy) (slice request.bytes 0 3) := hheard.delay
  have hcount : Shifted (trigger.countNext params i busy) (slice request.bytes 3 7) := hheard.count
  have hport : Shifted (trigger.portNext params i busy) (slice request.bytes 7 9) := hheard.port
  have hsize : Shifted (trigger.sizeNext params i busy) (slice request.bytes 9 11) := hheard.size
  have hifg : (if trigger.byteCntNext params i busy ≥ 3 then trigger.delayNext params i busy
      else 0) = .ofNat 24 (request.field 0 3) := by
    by_cases hthree : 3 ≤ request.bytes.length
    · rw [if_pos ((hlong 3 (by decide)).mpr hthree), field_eq hdelay rfl hthree,
        BitVec.ofNat_toNat, BitVec.setWidth_eq]
    · rw [if_neg fun hge => hthree ((hlong 3 (by decide)).mp hge), BlastRequest.field,
        if_neg hthree]
      rfl
  rw [asks, BlastRequest.ask, hsource]
  simp only [hifg, field_or hport rfl (hlong 9 (by decide)),
    field_or hcount rfl (hlong 7 (by decide)), field_or hsize rfl (hlong 11 (by decide))]

/-- The trigger is where the datagrams are; `free` says of the one that is arriving that no
burst was in progress at its first byte. -/
structure Follows (params : TriggerParams) (trigger : UdpBlastTrigger) (feed : UdpFeed)
    (free : Bool) : Prop where
  active : trigger.active = !feed.between
  accept : feed.between = false → trigger.accept = (feed.source.triggers params && free)
  heard : feed.between = true ∨ trigger.accept = true → Heard trigger feed.bytes

section Follows

variable {feed : UdpFeed} {free : Bool}

/-- Whether the datagram of this cycle began while no burst was in progress. -/
def freeNow (feed : UdpFeed) (free busy : Bool) : Bool := if feed.between then !busy else free

theorem Follows.thisAccept_eq (hfollows : Follows params trigger feed free) :
    trigger.thisAccept params (feed.drive i) busy =
      ((feed.drive i).source.triggers params && freeNow feed free busy) := by
  rw [thisAccept, hfollows.active, Bool.not_not, freeNow]
  cases hbetween : feed.between with
  | true => rfl
  | false =>
      rw [if_neg Bool.false_ne_true, if_neg Bool.false_ne_true, hfollows.accept hbetween,
        UdpFeed.drive_source _ _ hbetween]

theorem Follows.start_eq (hfollows : Follows params trigger feed free) :
    (trigger.clkEdge params (feed.drive i) busy).start =
      (i.valid && i.last && !i.err &&
        ((feed.drive i).source.triggers params && freeNow feed free busy)) := by
  rw [← hfollows.thisAccept_eq, clkEdge, UdpFeed.drive_valid, UdpFeed.drive_last,
    UdpFeed.drive_err]
  cases hvalid : i.valid with
  | false => rfl
  | true =>
      cases hlast : i.last with
      | false =>
          cases trigger.active <;> cases trigger.thisAccept params (feed.drive i) busy <;> rfl
      | true =>
          cases trigger.active <;> cases trigger.thisAccept params (feed.drive i) busy <;>
            cases i.err <;> rfl

theorem Follows.heard_next (hfollows : Follows params trigger feed free) (hvalid : i.valid = true)
    (haccept : trigger.thisAccept params (feed.drive i) busy = true) :
    Heard (trigger.heardNext params (feed.drive i) busy) (feed.arrived i) := by
  have hheard : Heard trigger feed.bytes := by
    cases hbetween : feed.between with
    | true => exact hfollows.heard (.inl hbetween)
    | false =>
        rw [UdpBlastTrigger.thisAccept, hfollows.active, hbetween] at haccept
        exact hfollows.heard (.inr haccept)
  have hnext := UdpBlastTrigger.heard_next hheard ((feed.drive_valid i).trans hvalid) haccept
  rw [UdpFeed.drive_data] at hnext
  exact hnext

/-- The datagram's request, in the cycle after its last byte. -/
theorem Follows.ask_eq (hfollows : Follows params trigger feed free)
    (hstart : (trigger.clkEdge params (feed.drive i) busy).start = true) :
    (trigger.clkEdge params (feed.drive i) busy).ask =
      BlastRequest.ask params ⟨feed.arrived i, (feed.drive i).source⟩ := by
  rw [hfollows.start_eq, ← hfollows.thisAccept_eq] at hstart
  simp only [Bool.and_eq_true, Bool.not_eq_true'] at hstart
  obtain ⟨⟨⟨hvalid, hlast⟩, herr⟩, haccept⟩ := hstart
  have hedge : (trigger.clkEdge params (feed.drive i) busy).ask =
      trigger.asks params (feed.drive i) busy := by
    simp only [clkEdge, UdpFeed.drive_valid, UdpFeed.drive_last, UdpFeed.drive_err, hvalid, hlast,
      herr, haccept, Bool.not_false, Bool.and_self, if_true]
  rw [hedge]
  exact asks_eq (hfollows.heard_next hvalid haccept) rfl

/-- A byte of a datagram that is taken, and not the last. -/
theorem edge_taken (hvalid : i.valid = true) (hmore : i.last = false)
    (hthis : trigger.thisAccept params i busy = true) :
    trigger.clkEdge params i busy =
      { trigger.heardNext params i busy with start := false, active := true, accept := true } := by
  have haccept := hthis
  rw [thisAccept] at haccept
  cases hactive : trigger.active with
  | true =>
      rw [hactive, Bool.not_true, if_neg Bool.false_ne_true] at haccept
      simp only [clkEdge, heardNext, hvalid, hmore, hthis, hactive, haccept, Bool.not_true,
        Bool.false_eq_true, if_true, if_false]
  | false =>
      rw [hactive, Bool.not_false, if_pos rfl] at haccept
      simp only [clkEdge, heardNext, hvalid, hmore, hthis, hactive, haccept, Bool.not_false,
        Bool.false_eq_true, if_true, if_false]

/-- A byte of a datagram that is passed over. -/
theorem edge_passed (hvalid : i.valid = true) (hmore : i.last = false)
    (hthis : trigger.thisAccept params i busy = false) :
    (trigger.clkEdge params i busy).active = true ∧
      (trigger.clkEdge params i busy).accept = false := by
  have haccept := hthis
  rw [thisAccept] at haccept
  cases hactive : trigger.active with
  | true =>
      rw [hactive, Bool.not_true, if_neg Bool.false_ne_true] at haccept
      simp only [clkEdge, hvalid, hmore, hthis, hactive, haccept, Bool.not_true,
        Bool.false_eq_true, if_true, if_false, and_self]
  | false =>
      rw [hactive, Bool.not_false, if_pos rfl] at haccept
      simp only [clkEdge, hvalid, hmore, hthis, hactive, haccept, Bool.not_false,
        Bool.false_eq_true, if_true, if_false, and_self]

theorem Follows.more (hfollows : Follows params trigger feed free) (hvalid : i.valid = true)
    (hmore : i.last = false) :
    Follows params (trigger.clkEdge params (feed.drive i) busy) (feed.next i)
      (freeNow feed free busy) := by
  have hthis := @Follows.thisAccept_eq params trigger i busy _ _ hfollows
  have hnext := feed.next_more i hvalid hmore
  have hvalid' := (feed.drive_valid i).trans hvalid
  have hmore' := (feed.drive_last i).trans hmore
  have hwithin : (feed.next i).between = false := by
    rw [hnext, UdpFeed.between, UdpFeed.arrived, List.isEmpty_eq_false_iff]
    exact List.concat_ne_nil _ _
  cases haccept : trigger.thisAccept params (feed.drive i) busy with
  | true =>
      have hheard := hfollows.heard_next hvalid haccept
      rw [haccept] at hthis
      rw [edge_taken hvalid' hmore' haccept]
      refine ⟨by rw [hwithin]; rfl, fun _ => by rw [hnext]; exact hthis, fun _ => ?_⟩
      rw [hnext]
      exact ⟨hheard.byteCnt, hheard.delay, hheard.count, hheard.port, hheard.size⟩
  | false =>
      obtain ⟨hactive', haccept'⟩ := edge_passed hvalid' hmore' haccept
      rw [haccept] at hthis
      refine ⟨by rw [hwithin, hactive']; rfl, fun _ => by rw [haccept', hnext]; exact hthis,
        fun hheard => ?_⟩
      rw [hwithin, haccept'] at hheard
      exact absurd (hheard.elim (fun heq => heq) (fun heq => heq)) Bool.false_ne_true

/-- After the last byte of a datagram. -/
theorem follows_last (hvalid : i.valid = true) (hlast : i.last = true) (free' : Bool) :
    Follows params (trigger.clkEdge params (feed.drive i) busy) (feed.next i) free' := by
  have hnext := feed.next_last i hvalid hlast
  have hvalid' := (feed.drive_valid i).trans hvalid
  have hlast' := (feed.drive_last i).trans hlast
  have hbetween : (feed.next i).between = true := by rw [hnext]; rfl
  have hedge : (trigger.clkEdge params (feed.drive i) busy).active = false ∧
      (trigger.clkEdge params (feed.drive i) busy).byteCnt = 0 := by
    rw [clkEdge, hvalid', hlast']
    exact ⟨rfl, rfl⟩
  refine ⟨by rw [hedge.1, hbetween]; rfl, fun hwithin => ?_, fun _ => ?_⟩
  · rw [hbetween] at hwithin
    exact absurd hwithin.symm Bool.false_ne_true
  · rw [hnext]
    exact heard_nil hedge.2

theorem Follows.idle (hfollows : Follows params trigger feed free) (hidle : i.valid = false) :
    Follows params (trigger.clkEdge params (feed.drive i) busy) (feed.next i) free := by
  have hedge : trigger.clkEdge params (feed.drive i) busy = { trigger with start := false } := by
    simp only [clkEdge, UdpFeed.drive_valid, hidle, Bool.false_eq_true, if_false]
  rw [hedge, feed.next_idle i hidle]
  exact ⟨hfollows.active, hfollows.accept, fun hheard =>
    ⟨(hfollows.heard hheard).byteCnt, (hfollows.heard hheard).delay, (hfollows.heard hheard).count,
      (hfollows.heard hheard).port, (hfollows.heard hheard).size⟩⟩

end Follows

end UdpBlastTrigger

end EmacZero
