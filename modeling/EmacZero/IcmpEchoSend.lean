/-
The transmit state machine of `icmp_echo`: it walks along the reply, a byte for each
that the output register takes.
-/
import EmacZero.IcmpEchoReply

namespace EmacZero

variable {params : IcmpEchoParams} {our : NetOur} {echo : IcmpEcho params}
  {request : IcmpRequest} {i : IcmpEchoIn}

/-- Nothing is being sent. -/
structure IcmpResting (tx : IcmpTx params) : Prop where
  idle : tx.txState = .idle
  valid : tx.srcValid = false
  last : tx.srcLast = false
  active : tx.replyActive = false

/-- A reply to a message of this length is being sent. -/
structure IcmpWalking (tx : IcmpTx params) (len : Nat) : Prop where
  within : tx.Within len
  valid : tx.srcValid = true
  last : tx.srcLast = true ↔ tx.place + 1 = 34 + len
  active : tx.replyActive = true

def icmpHeaders : HeaderChain IcmpTxState where
  header
    | .ethHdr => some ⟨0, 14, .ipHdr⟩
    | .ipHdr => some ⟨14, 20, .icmp⟩
    | _ => none
  body := .icmp
  total := 34
  length_lt state sec hsec := by cases state <;> cases hsec <;> decide
  next state sec hsec := by
    cases state <;> cases hsec
    · exact .inr ⟨_, rfl, by decide, rfl⟩
    · exact .inl ⟨rfl, rfl⟩
  stop := rfl

/-- The registers that walk along the headers. -/
def IcmpTx.headerWalk (tx : IcmpTx params) : HeaderWalk IcmpTxState :=
  ⟨tx.txState, tx.txCnt, tx.srcValid, tx.srcLast, tx.replyActive⟩

namespace IcmpWalking

variable {tx : IcmpTx params} {len : Nat}

theorem busy (hwalking : IcmpWalking tx len) : tx.txState ≠ .idle := by
  intro hidle
  have hwithin := hwalking.within
  rw [IcmpTx.Within, hidle] at hwithin
  exact hwithin

/-- A place in the headers, or one in the message. -/
theorem place_cases (hwalking : IcmpWalking tx len) :
    (tx.place < 34 ∧ ∃ sec, icmpHeaders.header tx.txState = some sec ∧
        tx.txCnt.toNat < sec.length ∧ tx.place = sec.first + tx.txCnt.toNat) ∨
      (tx.txState = .icmp ∧ tx.place = 34 + tx.icmpTxCnt.toNat ∧ tx.icmpTxCnt.toNat < len) := by
  have hwithin := hwalking.within
  rw [IcmpTx.Within] at hwithin
  rw [IcmpTx.place]
  cases hstate : tx.txState with
  | idle => exact absurd hstate hwalking.busy
  | ethHdr =>
      simp only [hstate] at hwithin ⊢
      exact .inl ⟨by omega, _, rfl, hwithin, (Nat.zero_add _).symm⟩
  | ipHdr =>
      simp only [hstate] at hwithin ⊢
      exact .inl ⟨by omega, _, rfl, hwithin, rfl⟩
  | icmp =>
      simp only [hstate] at hwithin ⊢
      exact .inr ⟨trivial, trivial, hwithin⟩

theorem place_lt (hwalking : IcmpWalking tx len) : tx.place < 34 + len := by
  obtain ⟨hhead, -⟩ | ⟨-, hplace, hwithin⟩ := hwalking.place_cases <;> omega

theorem in_headers (hwalking : IcmpWalking tx len) (hlen : 0 < len) (hhead : tx.place < 34) :
    tx.headerWalk.In icmpHeaders tx.place := by
  have hlast : tx.srcLast = false := by
    rw [← Bool.not_eq_true, hwalking.last]
    omega
  obtain ⟨-, hheader⟩ | ⟨-, hplace, -⟩ := hwalking.place_cases
  · exact ⟨hheader, hwalking.valid, hlast, hwalking.active⟩
  · omega

theorem of_headers {place : Nat} (hin : tx.headerWalk.In icmpHeaders place) (hlen : 0 < len) :
    IcmpWalking tx len ∧ tx.place = place := by
  obtain ⟨⟨sec, hsec, hcnt, rfl⟩, hvalid, hlast, hactive⟩ := hin
  have hat : tx.place = sec.first + tx.txCnt.toNat ∧ tx.place < 34 ∧ tx.Within len := by
    change icmpHeaders.header tx.txState = some sec at hsec
    change tx.txCnt.toNat < sec.length at hcnt
    rw [IcmpTx.place, IcmpTx.Within]
    cases hstate : tx.txState with
    | idle | icmp =>
        rw [hstate] at hsec
        cases hsec
    | ethHdr =>
        rw [hstate] at hsec
        cases hsec
        exact ⟨(Nat.zero_add _).symm, hcnt.trans (by decide), hcnt⟩
    | ipHdr =>
        rw [hstate] at hsec
        cases hsec
        exact ⟨rfl, Nat.add_lt_add_left hcnt 14, hcnt⟩
  obtain ⟨hplace, hhead, hwithin⟩ := hat
  refine ⟨⟨hwithin, hvalid, ?_, hactive⟩, hplace⟩
  rw [show tx.srcLast = false from hlast, Bool.false_eq_true, false_iff]
  omega

theorem of_icmp {n cnt : Nat} {last : Bool} (hat : tx.headerWalk.At .icmp n last)
    (hcnt : tx.icmpTxCnt.toNat = cnt) (hlt : cnt < len) (hlast : last = true ↔ cnt + 1 = len) :
    IcmpWalking tx len ∧ tx.place = 34 + cnt := by
  obtain ⟨hstate, -, hvalid, hlast', hactive⟩ := hat
  simp only [IcmpTx.headerWalk] at hstate hvalid hlast' hactive
  have hplace : tx.place = 34 + cnt := by rw [IcmpTx.place, hstate, ← hcnt]
  refine ⟨⟨?_, hvalid, ?_, hactive⟩, hplace⟩
  · rw [IcmpTx.Within, hstate]
    exact hcnt.trans_lt hlt
  · rw [hlast', hlast, hplace]
    omega

end IcmpWalking

namespace IcmpEcho

/-- A reply begins. -/
theorem begin_walking (hresting : IcmpResting echo.tx) (hready : echo.rx.pktReady = true)
    (len : Nat) :
    IcmpWalking (echo.txEdge our i) len ∧ (echo.txEdge our i).place = 0 ∧
      (echo.txEdge our i).ipIdCnt = echo.tx.ipIdCnt + 1 ∧
      (echo.txEdge our i).ipCsumAcc = ipCsumSum echo.rx.ipTotalLen (echo.tx.ipIdCnt + 1) 0x01
        our.ip echo.rx.replyDstIp := by
  have hedge : echo.txEdge our i =
      { echo.tx with
        txStart := true
        srcLast := false
        txState := .ethHdr
        txCnt := 0
        replyActive := true
        srcValid := true
        ipIdCnt := echo.tx.ipIdCnt + 1
        ipCsumAcc := ipCsumSum echo.rx.ipTotalLen (echo.tx.ipIdCnt + 1) 0x01 our.ip
          echo.rx.replyDstIp } := by
    simp only [txEdge, hresting.idle, hready, hresting.active, hresting.last, ite_self,
      Bool.not_false, Bool.and_self, if_true]
  rw [hedge]
  refine ⟨⟨Nat.zero_lt_succ 13, rfl, ?_, rfl⟩, rfl, rfl, rfl⟩
  change false = true ↔ 0 + 1 = 34 + len
  rw [Bool.false_eq_true, false_iff]
  omega

theorem rest_resting (hresting : IcmpResting echo.tx) (hready : echo.rx.pktReady = false) :
    IcmpResting (echo.txEdge our i) ∧ (echo.txEdge our i).ipIdCnt = echo.tx.ipIdCnt := by
  have hedge : echo.txEdge our i =
      { echo.tx with
        txStart := if i.txReady && echo.slice.valid then false else echo.tx.txStart
        srcLast := false
        srcValid := false } := by
    simp only [txEdge, hresting.idle, hready, hresting.last, ite_self, Bool.false_and,
      Bool.false_eq_true, if_false]
  rw [hedge]
  exact ⟨⟨hresting.idle, rfl, rfl, hresting.active⟩, rfl⟩

/-- The output register does not take the byte. -/
theorem stall_walking {len : Nat} (hwalking : IcmpWalking echo.tx len)
    (hstall : echo.slice.ready i.txReady = false) :
    IcmpWalking (echo.txEdge our i) len ∧ (echo.txEdge our i).place = echo.tx.place ∧
      (echo.txEdge our i).ipIdCnt = echo.tx.ipIdCnt ∧
      (echo.txEdge our i).ipCsumAcc = echo.tx.ipCsumAcc := by
  have hedge : echo.txEdge our i =
      { echo.tx with
        txStart := if i.txReady && echo.slice.valid then false else echo.tx.txStart
        srcValid := true } := by
    have hbusy := hwalking.busy
    rw [txEdge]
    cases hstate : echo.tx.txState with
    | idle => exact absurd hstate hbusy
    | ethHdr => simp only [hstate, hstall, Bool.false_and, Bool.false_eq_true, if_false]
    | ipHdr => simp only [hstate, hstall, Bool.false_and, Bool.false_eq_true, if_false]
    | icmp => simp only [hstate, hstall, Bool.false_and, Bool.false_eq_true, if_false]
  rw [hedge]
  exact ⟨⟨hwalking.within, rfl, hwalking.last, hwalking.active⟩, rfl, rfl, rfl⟩

/-- The message counter some bytes before the length. -/
theorem icmpTxCnt_eq {len n : Nat} (hlen : echo.rx.icmpLen.toNat = len) (hlong : 8 ≤ len)
    (hn : n ≤ 8) :
    echo.tx.icmpTxCnt = echo.rx.icmpLen - .ofNat _ n ↔ echo.tx.icmpTxCnt.toNat + n = len := by
  have hconst := params.ofNat_toNat hn
  have hle : BitVec.ofNat params.lenW n ≤ echo.rx.icmpLen := by
    rw [BitVec.le_def, hconst, hlen]
    exact hn.trans hlong
  rw [← BitVec.toNat_inj, BitVec.toNat_sub_of_le hle, hconst, hlen]
  omega

/-- What a byte that the register takes does not change. -/
theorem taken_edge (hbusy : echo.tx.txState ≠ .idle) :
    (echo.txEdge our i).ipIdCnt = echo.tx.ipIdCnt ∧
      (echo.txEdge our i).ipCsumAcc = echo.tx.ipCsumAcc := by
  rw [txEdge]
  cases hstate : echo.tx.txState with
  | idle => exact absurd hstate hbusy
  | ethHdr => simp only; split <;> [split; skip] <;> exact ⟨rfl, rfl⟩
  | ipHdr => simp only; split <;> [split; skip] <;> exact ⟨rfl, rfl⟩
  | icmp => simp only; split <;> [split; skip] <;> exact ⟨rfl, rfl⟩

/-- A byte of the headers is taken. -/
theorem headers_edge {place : Nat} (hin : echo.tx.headerWalk.In icmpHeaders place)
    (htaken : echo.slice.ready i.txReady = true) :
    (echo.txEdge our i).headerWalk = echo.tx.headerWalk.taken icmpHeaders false := by
  have hvalid : echo.tx.srcValid = true := hin.valid
  obtain ⟨sec, hsec, -⟩ := hin.header
  change icmpHeaders.header echo.tx.txState = some sec at hsec
  cases hstate : echo.tx.txState with
  | idle | icmp =>
      rw [hstate] at hsec
      cases hsec
  | ethHdr | ipHdr =>
      simp only [txEdge, IcmpTx.headerWalk, HeaderWalk.taken, icmpHeaders, hstate, hvalid, htaken,
        Bool.and_self, if_true, Nat.reduceSub, BitVec.ofNat_eq_ofNat]
      split <;> rfl

theorem icmpTxCnt_begin {place : Nat} (hin : echo.tx.headerWalk.In icmpHeaders place)
    (htaken : echo.slice.ready i.txReady = true) (hend : place + 1 = 34) :
    (echo.txEdge our i).icmpTxCnt.toNat = 0 := by
  have hvalid : echo.tx.srcValid = true := hin.valid
  obtain ⟨hwalking, hplace⟩ := IcmpWalking.of_headers hin (Nat.zero_lt_succ 7)
  have hwithin := hwalking.within
  rw [← hplace, IcmpTx.place] at hend
  rw [IcmpTx.Within] at hwithin
  cases hstate : echo.tx.txState with
  | idle => exact absurd hstate hwalking.busy
  | ethHdr | icmp =>
      simp only [hstate] at hwithin hend
      omega
  | ipHdr =>
      simp only [hstate] at hend
      have hcnt : echo.tx.txCnt = 19 := BitVec.eq_of_toNat_eq (by change _ = 19; omega)
      simp only [txEdge, hstate, hvalid, htaken, hcnt, Bool.and_self, if_true]
      exact BitVec.toNat_zero

/-- The output register takes a byte that is not the last. -/
theorem taken_walking {len : Nat} (hwalking : IcmpWalking echo.tx len)
    (hlen : echo.rx.icmpLen.toNat = len) (hlong : 8 ≤ len)
    (htaken : echo.slice.ready i.txReady = true) (hmore : echo.tx.place + 1 ≠ 34 + len) :
    IcmpWalking (echo.txEdge our i) len ∧ (echo.txEdge our i).place = echo.tx.place + 1 := by
  have hvalid := hwalking.valid
  have hactive := hwalking.active
  obtain ⟨hhead, -⟩ | ⟨hstate, hplace, hwithin⟩ := hwalking.place_cases
  · have hin := hwalking.in_headers (by omega) hhead
    have hedge : (echo.txEdge our i).headerWalk = echo.tx.headerWalk.taken icmpHeaders false :=
      headers_edge hin htaken
    obtain hnext | ⟨hend, hnext⟩ := hin.taken false
    · exact IcmpWalking.of_headers (hedge ▸ hnext) (by omega)
    · rw [hend]
      refine IcmpWalking.of_icmp (hedge ▸ hnext) (icmpTxCnt_begin hin htaken hend) (by omega) ?_
      rw [Bool.false_eq_true, false_iff]
      omega
  rw [hplace] at hmore
  have hcnt : (echo.tx.icmpTxCnt + 1).toNat = echo.tx.icmpTxCnt.toNat + 1 := by
    have hlt := echo.rx.icmpLen.isLt
    have hone : (1 : BitVec params.lenW).toNat = 1 := params.ofNat_toNat (by decide)
    rw [BitVec.toNat_add, hone, Nat.mod_eq_of_lt (by omega)]
  have hend : echo.tx.icmpTxCnt ≠ echo.rx.icmpLen - 1 := by
    intro heq
    have hover := (@icmpTxCnt_eq params echo len 1 hlen hlong (by decide)).mp heq
    omega
  have harm : (if echo.tx.icmpTxCnt = echo.rx.icmpLen - 2 then true else false) = true ↔
      echo.tx.icmpTxCnt.toNat + 2 = len := by
    rw [Bool.if_true_left, Bool.or_false, decide_eq_true_iff]
    exact icmpTxCnt_eq hlen hlong (by decide)
  have hedge : echo.txEdge our i = { echo.tx with
      txStart := if i.txReady && echo.slice.valid then false else echo.tx.txStart
      srcLast := if echo.tx.icmpTxCnt = echo.rx.icmpLen - 2 then true else false
      srcValid := true
      icmpTxCnt := echo.tx.icmpTxCnt + 1 } := by
    simp only [txEdge, hstate, htaken, hvalid, hend, Bool.and_self, if_true, if_false]
  rw [hplace, Nat.add_assoc, hedge]
  exact IcmpWalking.of_icmp ⟨hstate, rfl, rfl, rfl, hactive⟩ hcnt (by omega) harm

/-- The output register takes the last byte. -/
theorem last_resting {len : Nat} (hwalking : IcmpWalking echo.tx len)
    (hlen : echo.rx.icmpLen.toNat = len) (hlong : 8 ≤ len)
    (htaken : echo.slice.ready i.txReady = true) (hlast : echo.tx.place + 1 = 34 + len) :
    IcmpResting (echo.txEdge our i) := by
  have hvalid := hwalking.valid
  obtain ⟨hhead, -⟩ | ⟨hstate, hplace, -⟩ := hwalking.place_cases
  · omega
  have hend : echo.tx.icmpTxCnt = echo.rx.icmpLen - 1 :=
    (@icmpTxCnt_eq params echo len 1 hlen hlong (by decide)).mpr (by omega)
  have hnotarm : echo.tx.icmpTxCnt ≠ echo.rx.icmpLen - 2 := by
    intro heq
    have hover := (@icmpTxCnt_eq params echo len 2 hlen hlong (by decide)).mp heq
    omega
  have hedge : echo.txEdge our i = { echo.tx with
      txStart := if i.txReady && echo.slice.valid then false else echo.tx.txStart
      srcLast := false
      srcValid := false
      icmpTxCnt := echo.tx.icmpTxCnt + 1
      txState := .idle
      replyActive := false } := by
    simp only [txEdge, hstate, htaken, hvalid, if_neg hnotarm, if_pos hend, Bool.and_self,
      if_true]
  rw [hedge]
  exact ⟨rfl, rfl, rfl, rfl⟩

end IcmpEcho

end EmacZero
