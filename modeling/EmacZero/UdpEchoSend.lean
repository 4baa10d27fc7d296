/-
The transmit state machine of `udp_echo`: the byte multiplexer and the counters walk along
the echo, a byte for each that the output register takes.
-/
import EmacZero.UdpEchoRx

namespace EmacZero

variable {params : UdpEchoParams} {our : NetOur} {echo : UdpEcho params}
  {datagram : UdpDatagram} {txReady : Bool} {len : Nat}

/-- The echo of a datagram, with the IP identification that the counter gives it. -/
def udpEchoFrame (our : NetOur) (id : BitVec 16) (datagram : UdpDatagram) : List (BitVec 8) :=
  udpFrame our id datagram.source.srcMac datagram.source.srcIp datagram.source.dstPort
    datagram.source.srcPort datagram.payload

namespace UdpEchoTx

/-- Where in the frame the state machine is. -/
def place (tx : UdpEchoTx params) : Nat :=
  match tx.txState with
  | .idle => 0
  | .ethHdr => tx.txCnt.toNat
  | .ipHdr => 14 + tx.txCnt.toNat
  | .udpHdr => 34 + tx.txCnt.toNat
  | .payload => 42 + tx.payloadTxCnt.toNat

/-- The counters are within what the state sends for a payload of this length. -/
def Within (tx : UdpEchoTx params) (len : Nat) : Prop :=
  match tx.txState with
  | .idle => False
  | .ethHdr => tx.txCnt.toNat < 14
  | .ipHdr => tx.txCnt.toNat < 20
  | .udpHdr => tx.txCnt.toNat < 8
  | .payload => tx.payloadTxCnt.toNat < len

end UdpEchoTx

/-- Nothing is being sent. -/
structure UdpEchoResting (tx : UdpEchoTx params) : Prop where
  idle : tx.txState = .idle
  valid : tx.srcValid = false
  last : tx.srcLast = false
  active : tx.replyActive = false

/-- An echo with a payload of this length is being sent. -/
structure UdpEchoWalking (tx : UdpEchoTx params) (len : Nat) : Prop where
  within : tx.Within len
  valid : tx.srcValid = true
  last : tx.srcLast = true ↔ tx.place + 1 = 42 + len
  active : tx.replyActive = true

def udpEchoHeaders : HeaderChain UdpEchoState where
  header
    | .ethHdr => some ⟨0, 14, .ipHdr⟩
    | .ipHdr => some ⟨14, 20, .udpHdr⟩
    | .udpHdr => some ⟨34, 8, .payload⟩
    | _ => none
  body := .payload
  total := 42
  length_lt state sec hsec := by cases state <;> cases hsec <;> decide
  next state sec hsec := by
    cases state <;> cases hsec
    · exact .inr ⟨_, rfl, by decide, rfl⟩
    · exact .inr ⟨_, rfl, by decide, rfl⟩
    · exact .inl ⟨rfl, rfl⟩
  stop := rfl

/-- The registers that walk along the headers. -/
def UdpEchoTx.headerWalk (tx : UdpEchoTx params) : HeaderWalk UdpEchoState :=
  ⟨tx.txState, tx.txCnt, tx.srcValid, tx.srcLast, tx.replyActive⟩

namespace UdpEchoWalking

variable {tx : UdpEchoTx params}

theorem busy (hwalking : UdpEchoWalking tx len) : tx.txState ≠ .idle := by
  intro hidle
  have hwithin := hwalking.within
  rw [UdpEchoTx.Within, hidle] at hwithin
  exact hwithin

/-- A place in the headers, or one in the payload. -/
theorem place_cases (hwalking : UdpEchoWalking tx len) :
    (tx.place < 42 ∧ ∃ sec, udpEchoHeaders.header tx.txState = some sec ∧
        tx.txCnt.toNat < sec.length ∧ tx.place = sec.first + tx.txCnt.toNat) ∨
      (tx.txState = .payload ∧ tx.place = 42 + tx.payloadTxCnt.toNat ∧
        tx.payloadTxCnt.toNat < len) := by
  have hwithin := hwalking.within
  rw [UdpEchoTx.Within] at hwithin
  rw [UdpEchoTx.place]
  cases hstate : tx.txState with
  | idle => exact absurd hstate hwalking.busy
  | ethHdr =>
      simp only [hstate] at hwithin ⊢
      exact .inl ⟨by omega, _, rfl, hwithin, (Nat.zero_add _).symm⟩
  | ipHdr | udpHdr =>
      simp only [hstate] at hwithin ⊢
      exact .inl ⟨by omega, _, rfl, hwithin, rfl⟩
  | payload =>
      simp only [hstate] at hwithin ⊢
      exact .inr ⟨trivial, trivial, hwithin⟩

theorem place_lt (hwalking : UdpEchoWalking tx len) : tx.place < 42 + len := by
  obtain ⟨hhead, -⟩ | ⟨-, hplace, hwithin⟩ := hwalking.place_cases <;> omega

theorem in_headers (hwalking : UdpEchoWalking tx len) (hlen : 0 < len) (hhead : tx.place < 42) :
    tx.headerWalk.In udpEchoHeaders tx.place := by
  have hlast : tx.srcLast = false := by
    rw [← Bool.not_eq_true, hwalking.last]
    omega
  obtain ⟨-, hheader⟩ | ⟨-, hplace, -⟩ := hwalking.place_cases
  · exact ⟨hheader, hwalking.valid, hlast, hwalking.active⟩
  · omega

theorem of_headers {place : Nat} (hin : tx.headerWalk.In udpEchoHeaders place) (hlen : 0 < len) :
    UdpEchoWalking tx len ∧ tx.place = place := by
  obtain ⟨⟨sec, hsec, hcnt, rfl⟩, hvalid, hlast, hactive⟩ := hin
  have hat : tx.place = sec.first + tx.txCnt.toNat ∧ tx.place < 42 ∧ tx.Within len := by
    change udpEchoHeaders.header tx.txState = some sec at hsec
    change tx.txCnt.toNat < sec.length at hcnt
    rw [UdpEchoTx.place, UdpEchoTx.Within]
    cases hstate : tx.txState with
    | idle | payload =>
        rw [hstate] at hsec
        cases hsec
    | ethHdr =>
        rw [hstate] at hsec
        cases hsec
        exact ⟨(Nat.zero_add _).symm, hcnt.trans (by decide), hcnt⟩
    | ipHdr =>
        rw [hstate] at hsec
        cases hsec
        exact ⟨rfl, (Nat.add_lt_add_left hcnt 14).trans (by decide), hcnt⟩
    | udpHdr =>
        rw [hstate] at hsec
        cases hsec
        exact ⟨rfl, Nat.add_lt_add_left hcnt 34, hcnt⟩
  obtain ⟨hplace, hhead, hwithin⟩ := hat
  refine ⟨⟨hwithin, hvalid, ?_, hactive⟩, hplace⟩
  rw [show tx.srcLast = false from hlast, Bool.false_eq_true, false_iff]
  omega

theorem of_payload {n cnt : Nat} {last : Bool} (hat : tx.headerWalk.At .payload n last)
    (hcnt : tx.payloadTxCnt.toNat = cnt) (hlt : cnt < len) (hlast : last = true ↔ cnt + 1 = len) :
    UdpEchoWalking tx len ∧ tx.place = 42 + cnt := by
  obtain ⟨hstate, -, hvalid, hlast', hactive⟩ := hat
  simp only [UdpEchoTx.headerWalk] at hstate hvalid hlast' hactive
  have hplace : tx.place = 42 + cnt := by rw [UdpEchoTx.place, hstate, ← hcnt]
  refine ⟨⟨?_, hvalid, ?_, hactive⟩, hplace⟩
  · rw [UdpEchoTx.Within, hstate]
    exact hcnt.trans_lt hlt
  · rw [hlast', hlast, hplace]
    omega

end UdpEchoWalking

namespace UdpEcho

theorem lens_eq (hloaded : UdpLoaded echo.rx datagram) :
    echo.rx.ipTotalLen = 28 + .ofNat 16 datagram.payload.length ∧
      echo.rx.udpTotalLen = 8 + .ofNat 16 datagram.payload.length := by
  have hwidth : echo.rx.payloadLen.setWidth 16 = .ofNat 16 datagram.payload.length := by
    apply BitVec.eq_of_toNat_eq
    rw [BitVec.toNat_setWidth, BitVec.toNat_ofNat, hloaded.len]
  rw [UdpEchoRx.ipTotalLen, UdpEchoRx.udpTotalLen, hwidth]
  exact ⟨rfl, rfl⟩

/-- The multiplexer gives the frame's byte at this place. -/
theorem txDataMux_eq (hloaded : UdpLoaded echo.rx datagram)
    (hacc : echo.tx.ipCsumAcc =
      ipCsumSum echo.rx.ipTotalLen echo.tx.ipIdCnt 0x11 our.ip echo.rx.replyDstIp)
    (hwithin : echo.tx.Within datagram.payload.length) :
    echo.txDataMux our =
      (udpEchoFrame our echo.tx.ipIdCnt datagram).getD echo.tx.place 0 := by
  obtain ⟨htotal, hudp⟩ := lens_eq hloaded
  have hshort := hloaded.short
  have hbound := params.bufSize_le
  rw [UdpEchoTx.Within] at hwithin
  rw [txDataMux, UdpEchoTx.place, udpEchoFrame, hacc, htotal, hudp, hloaded.mac, hloaded.ip,
    hloaded.toPort, hloaded.fromPort]
  cases hstate : echo.tx.txState with
  | idle => rw [hstate] at hwithin; exact hwithin.elim
  | ethHdr =>
      rw [hstate] at hwithin
      exact (udpFrame_ethHdr hwithin).symm
  | ipHdr =>
      rw [hstate] at hwithin
      exact (udpFrame_ipHdr hwithin).symm
  | udpHdr =>
      rw [hstate] at hwithin
      exact (udpFrame_udpHdr hwithin).symm
  | payload =>
      rw [hstate] at hwithin
      simp only at hwithin ⊢
      have hat : (echo.tx.payloadTxCnt.extractLsb' 0 params.addrW : BitVec params.addrW) =
          .ofNat _ echo.tx.payloadTxCnt.toNat := by
        apply BitVec.eq_of_toNat_eq
        rw [BitVec.extractLsb'_toNat, BitVec.toNat_ofNat, Nat.shiftRight_zero]
      rw [udpFrame_payload, hat]
      exact hloaded.buffered _ hwithin

/-- A reply begins. -/
theorem begin_walking (hresting : UdpEchoResting echo.tx) (hready : echo.rx.pktReady = true)
    (len : Nat) :
    UdpEchoWalking (echo.txEdge our txReady) len ∧ (echo.txEdge our txReady).place = 0 ∧
      (echo.txEdge our txReady).ipIdCnt = echo.tx.ipIdCnt + 1 ∧
      (echo.txEdge our txReady).ipCsumAcc = ipCsumSum echo.rx.ipTotalLen (echo.tx.ipIdCnt + 1)
        0x11 our.ip echo.rx.replyDstIp := by
  have hedge : echo.txEdge our txReady =
      { echo.tx with
        txStart := true
        srcLast := false
        txState := .ethHdr
        txCnt := 0
        replyActive := true
        srcValid := true
        ipIdCnt := echo.tx.ipIdCnt + 1
        ipCsumAcc := ipCsumSum echo.rx.ipTotalLen (echo.tx.ipIdCnt + 1) 0x11 our.ip
          echo.rx.replyDstIp } := by
    simp only [txEdge, hresting.idle, hready, hresting.active, hresting.last, ite_self,
      Bool.not_false, Bool.and_self, if_true]
  rw [hedge]
  refine ⟨⟨Nat.zero_lt_succ 13, rfl, ?_, rfl⟩, rfl, rfl, rfl⟩
  change false = true ↔ 0 + 1 = 42 + len
  rw [Bool.false_eq_true, false_iff]
  omega

theorem rest_resting (hresting : UdpEchoResting echo.tx) (hready : echo.rx.pktReady = false) :
    UdpEchoResting (echo.txEdge our txReady) ∧
      (echo.txEdge our txReady).ipIdCnt = echo.tx.ipIdCnt := by
  have hedge : echo.txEdge our txReady =
      { echo.tx with
        txStart := if txReady && echo.slice.valid then false else echo.tx.txStart
        srcLast := false
        srcValid := false } := by
    simp only [txEdge, hresting.idle, hready, hresting.last, ite_self, Bool.false_and,
      Bool.false_eq_true, if_false]
  rw [hedge]
  exact ⟨⟨hresting.idle, rfl, rfl, hresting.active⟩, rfl⟩

/-- The output register does not take the byte. -/
theorem stall_walking (hwalking : UdpEchoWalking echo.tx len)
    (hstall : echo.slice.ready txReady = false) :
    UdpEchoWalking (echo.txEdge our txReady) len ∧
      (echo.txEdge our txReady).place = echo.tx.place ∧
      (echo.txEdge our txReady).ipIdCnt = echo.tx.ipIdCnt ∧
      (echo.txEdge our txReady).ipCsumAcc = echo.tx.ipCsumAcc := by
  have hedge : echo.txEdge our txReady =
      { echo.tx with
        txStart := if txReady && echo.slice.valid then false else echo.tx.txStart
        srcValid := true } := by
    have hbusy := hwalking.busy
    rw [txEdge]
    cases hstate : echo.tx.txState with
    | idle => exact absurd hstate hbusy
    | ethHdr => simp only [hstate, hstall, Bool.false_and, Bool.false_eq_true, if_false]
    | ipHdr => simp only [hstate, hstall, Bool.false_and, Bool.false_eq_true, if_false]
    | udpHdr => simp only [hstate, hstall, Bool.false_and, Bool.false_eq_true, if_false]
    | payload => simp only [hstate, hstall, Bool.false_and, Bool.false_eq_true, if_false]
  rw [hedge]
  exact ⟨⟨hwalking.within, rfl, hwalking.last, hwalking.active⟩, rfl, rfl, rfl⟩

/-- What a byte that the register takes does not change. -/
theorem taken_edge (hbusy : echo.tx.txState ≠ .idle) :
    (echo.txEdge our txReady).ipIdCnt = echo.tx.ipIdCnt ∧
      (echo.txEdge our txReady).ipCsumAcc = echo.tx.ipCsumAcc := by
  rw [txEdge]
  cases hstate : echo.tx.txState with
  | idle => exact absurd hstate hbusy
  | ethHdr => simp only; split <;> [split; skip] <;> exact ⟨rfl, rfl⟩
  | ipHdr => simp only; split <;> [split; skip] <;> exact ⟨rfl, rfl⟩
  | udpHdr => simp only; split <;> [split; skip] <;> exact ⟨rfl, rfl⟩
  | payload => simp only; split <;> [split; skip] <;> exact ⟨rfl, rfl⟩

/-- The payload counter some bytes before the length, in the 32 bits of the comparison. -/
theorem payloadTxCnt_eq (hlen : echo.rx.payloadLen.toNat = len) (hsmall : len ≤ 65507)
    (hcnt : echo.tx.payloadTxCnt.toNat < len) {n : Nat} (hn : n ≤ 8) :
    echo.tx.payloadTxCnt.setWidth 32 = echo.rx.payloadLen.setWidth 32 - .ofNat 32 n ↔
      echo.tx.payloadTxCnt.toNat + n = len := by
  rw [BitVec.eq_sub_iff_add_eq, ← BitVec.toNat_inj, BitVec.toNat_add, BitVec.toNat_setWidth,
    BitVec.toNat_setWidth, BitVec.toNat_ofNat, hlen]
  omega

/-- A byte of the headers is taken. -/
theorem headers_edge {place : Nat} (hin : echo.tx.headerWalk.In udpEchoHeaders place)
    (htaken : echo.slice.ready txReady = true) :
    (echo.txEdge our txReady).headerWalk = echo.tx.headerWalk.taken udpEchoHeaders
      (if echo.rx.payloadLen = 1 then true else false) := by
  have hvalid : echo.tx.srcValid = true := hin.valid
  obtain ⟨sec, hsec, -⟩ := hin.header
  change udpEchoHeaders.header echo.tx.txState = some sec at hsec
  cases hstate : echo.tx.txState with
  | idle | payload =>
      rw [hstate] at hsec
      cases hsec
  | ethHdr | ipHdr | udpHdr =>
      simp only [txEdge, UdpEchoTx.headerWalk, HeaderWalk.taken, udpEchoHeaders, hstate, hvalid,
        htaken, Bool.and_self, if_true, Nat.reduceSub, BitVec.ofNat_eq_ofNat]
      split <;> rfl

theorem payloadTxCnt_begin {place : Nat} (hin : echo.tx.headerWalk.In udpEchoHeaders place)
    (htaken : echo.slice.ready txReady = true) (hend : place + 1 = 42) :
    (echo.txEdge our txReady).payloadTxCnt.toNat = 0 := by
  have hvalid : echo.tx.srcValid = true := hin.valid
  obtain ⟨hwalking, hplace⟩ := UdpEchoWalking.of_headers hin Nat.zero_lt_one
  have hwithin := hwalking.within
  rw [← hplace, UdpEchoTx.place] at hend
  rw [UdpEchoTx.Within] at hwithin
  cases hstate : echo.tx.txState with
  | idle => exact absurd hstate hwalking.busy
  | ethHdr | ipHdr | payload =>
      simp only [hstate] at hwithin hend
      omega
  | udpHdr =>
      simp only [hstate] at hend
      have hcnt : echo.tx.txCnt = 7 := BitVec.eq_of_toNat_eq (by change _ = 7; omega)
      simp only [txEdge, hstate, hvalid, htaken, hcnt, Bool.and_self, if_true]
      exact BitVec.toNat_zero

/-- The output register takes a byte that is not the last. -/
theorem taken_walking (hwalking : UdpEchoWalking echo.tx len)
    (hlen : echo.rx.payloadLen.toNat = len) (hpos : 0 < len) (hsmall : len ≤ 65507)
    (htaken : echo.slice.ready txReady = true) (hmore : echo.tx.place + 1 ≠ 42 + len) :
    UdpEchoWalking (echo.txEdge our txReady) len ∧
      (echo.txEdge our txReady).place = echo.tx.place + 1 := by
  have hvalid := hwalking.valid
  have hactive := hwalking.active
  obtain ⟨hhead, -⟩ | ⟨hstate, hplace, hwithin⟩ := hwalking.place_cases
  · have hin := hwalking.in_headers hpos hhead
    have hedge : (echo.txEdge our txReady).headerWalk = echo.tx.headerWalk.taken udpEchoHeaders
        (if echo.rx.payloadLen = 1 then true else false) := headers_edge hin htaken
    obtain hnext | ⟨hend, hnext⟩ := hin.taken (if echo.rx.payloadLen = 1 then true else false)
    · exact UdpEchoWalking.of_headers (hedge ▸ hnext) hpos
    · rw [hend]
      refine UdpEchoWalking.of_payload (hedge ▸ hnext) (payloadTxCnt_begin hin htaken hend) hpos ?_
      rw [Bool.if_true_left, Bool.or_false, decide_eq_true_iff, ← BitVec.toNat_inj, hlen,
        params.one_toNat]
      omega
  rw [hplace] at hmore
  have hcnt : (echo.tx.payloadTxCnt + 1).toNat = echo.tx.payloadTxCnt.toNat + 1 := by
    have hlt := echo.rx.payloadLen.isLt
    rw [BitVec.toNat_add, params.one_toNat, Nat.mod_eq_of_lt (by omega)]
  have hend : echo.tx.payloadTxCnt.setWidth 32 ≠ echo.rx.payloadLen.setWidth 32 - 1 := by
    intro heq
    have hover := (@payloadTxCnt_eq params echo len hlen hsmall hwithin 1 (by decide)).mp heq
    omega
  have harm : (if echo.tx.payloadTxCnt.setWidth 32 = echo.rx.payloadLen.setWidth 32 - 2 then
      true else false) = true ↔ echo.tx.payloadTxCnt.toNat + 2 = len := by
    rw [Bool.if_true_left, Bool.or_false, decide_eq_true_iff]
    exact @payloadTxCnt_eq params echo len hlen hsmall hwithin 2 (by decide)
  have hedge : echo.txEdge our txReady = { echo.tx with
      txStart := if txReady && echo.slice.valid then false else echo.tx.txStart
      srcLast :=
        if echo.tx.payloadTxCnt.setWidth 32 = echo.rx.payloadLen.setWidth 32 - 2 then true
        else false
      srcValid := true
      payloadTxCnt := echo.tx.payloadTxCnt + 1 } := by
    simp only [txEdge, hstate, htaken, hvalid, hend, Bool.and_self, if_true, if_false]
  rw [hplace, Nat.add_assoc, hedge]
  exact UdpEchoWalking.of_payload ⟨hstate, rfl, rfl, rfl, hactive⟩ hcnt (by omega) harm

/-- The output register takes the last byte. -/
theorem last_resting (hwalking : UdpEchoWalking echo.tx len)
    (hlen : echo.rx.payloadLen.toNat = len) (hpos : 0 < len) (hsmall : len ≤ 65507)
    (htaken : echo.slice.ready txReady = true) (hlast : echo.tx.place + 1 = 42 + len) :
    UdpEchoResting (echo.txEdge our txReady) := by
  have hvalid := hwalking.valid
  obtain ⟨hhead, -⟩ | ⟨hstate, hplace, hwithin⟩ := hwalking.place_cases
  · omega
  have hend : echo.tx.payloadTxCnt.setWidth 32 = echo.rx.payloadLen.setWidth 32 - 1 :=
    (@payloadTxCnt_eq params echo len hlen hsmall hwithin 1 (by decide)).mpr (by omega)
  have hnotarm : echo.tx.payloadTxCnt.setWidth 32 ≠ echo.rx.payloadLen.setWidth 32 - 2 := by
    intro heq
    have hover := (@payloadTxCnt_eq params echo len hlen hsmall hwithin 2 (by decide)).mp heq
    omega
  have hedge : echo.txEdge our txReady = { echo.tx with
      txStart := if txReady && echo.slice.valid then false else echo.tx.txStart
      srcLast := false
      srcValid := false
      payloadTxCnt := echo.tx.payloadTxCnt + 1
      txState := .idle
      replyActive := false } := by
    simp only [txEdge, hstate, htaken, hvalid, if_neg hnotarm, if_pos hend, Bool.and_self,
      if_true]
  rw [hedge]
  exact ⟨rfl, rfl, rfl, rfl⟩

end UdpEcho

end EmacZero
