/-
The receiver of `icmp_echo`: what of a message is in the buffer, and which messages are
accepted.
-/
import EmacZero.IcmpEcho

namespace EmacZero

variable {params : IcmpEchoParams} {rx : IcmpRx params} {bytes : List (BitVec 8)}
  {replyActive : Bool} {i : IcmpEchoIn}

namespace IcmpEchoParams

theorem maxLen_lt (params : IcmpEchoParams) : params.maxLen < 2 ^ params.lenW :=
  Nat.le_pow_clog (by decide) _

theorem lenMax_toNat (params : IcmpEchoParams) : params.lenMax.toNat = params.maxLen := by
  rw [lenMax, BitVec.toNat_ofNat, Nat.mod_eq_of_lt params.maxLen_lt]

/-- A number up to 8 is itself. -/
theorem ofNat_toNat (params : IcmpEchoParams) {n : Nat} (hn : n ≤ 8) :
    (BitVec.ofNat params.lenW n).toNat = n := by
  have hmin := params.min_le
  have hlt := params.maxLen_lt
  rw [BitVec.toNat_ofNat]
  exact Nat.mod_eq_of_lt (by omega)

end IcmpEchoParams

/-- The bytes are in the buffer, as many as fit, and the checksum is beside it. -/
structure IcmpBuffered (rx : IcmpRx params) (bytes : List (BitVec 8)) : Prop where
  buf : ∀ index < bytes.length, index < params.maxLen →
    rx.icmpBuf (.ofNat _ index) = byteAt bytes index
  high : 2 < bytes.length → rx.origCsum.extractLsb' 8 8 = byteAt bytes 2
  low : 3 < bytes.length → rx.origCsum.extractLsb' 0 8 = byteAt bytes 3

theorem IcmpBuffered.nil {rx : IcmpRx params} : IcmpBuffered rx [] where
  buf := fun _ hindex => absurd hindex (Nat.not_lt_zero _)
  high := fun hlong => absurd hlong (Nat.not_lt_zero 2)
  low := fun hlong => absurd hlong (Nat.not_lt_zero 3)

/-- The receiver has counted these bytes of a message. -/
structure IcmpCounted (rx : IcmpRx params) (bytes : List (BitVec 8)) : Prop where
  cnt : rx.rxCnt.toNat = min bytes.length params.maxLen
  ovf : rx.rxOvf = decide (params.maxLen < bytes.length)
  echoReq : 0 < bytes.length →
    rx.isEchoReq = (bytes.take 2 == ([0x08, 0x00] : List (BitVec 8)).take bytes.length)

namespace IcmpRx

theorem rxCnt_eq (hcounted : IcmpCounted rx bytes) {n : Nat} (hn : n < 8) :
    rx.rxCnt = .ofNat _ n ↔ bytes.length = n := by
  have hmin := params.min_le
  rw [← BitVec.toNat_inj, params.ofNat_toNat hn.le, hcounted.cnt]
  omega

/-- A byte of a message that is not skipped is stored while there is room. -/
theorem rxStore_eq (hcounted : IcmpCounted rx bytes) (hvalid : i.icmpRxValid = true)
    (hskip : rx.rxSkip replyActive i = false) :
    rx.rxStore replyActive i = decide (bytes.length < params.maxLen) := by
  have hfull : rx.rxCnt = params.lenMax ↔ ¬ bytes.length < params.maxLen := by
    rw [← BitVec.toNat_inj, params.lenMax_toNat, hcounted.cnt]
    omega
  rw [rxStore, hvalid, hskip, bne, Bool.eq_iff_iff]
  simp only [Bool.not_false, Bool.and_self, Bool.true_and, Bool.not_eq_true', beq_eq_false_iff_ne,
    decide_eq_true_eq]
  rw [Ne, hfull, not_not]

theorem rxOvfNow_eq (hcounted : IcmpCounted rx bytes) (hvalid : i.icmpRxValid = true)
    (hskip : rx.rxSkip replyActive i = false) :
    rx.rxOvfNow replyActive i = decide (params.maxLen < bytes.length + 1) := by
  have hfull : rx.rxCnt = params.lenMax ↔ params.maxLen ≤ bytes.length := by
    rw [← BitVec.toNat_inj, params.lenMax_toNat, hcounted.cnt]
    omega
  rw [rxOvfNow, hvalid, hskip, hcounted.ovf, Bool.eq_iff_iff]
  simp only [Bool.not_false, Bool.and_self, Bool.true_and, Bool.or_eq_true, beq_iff_eq,
    decide_eq_true_eq, hfull]
  omega

theorem origCsum_byte (hcounted : IcmpCounted rx bytes) (hvalid : i.icmpRxValid = true)
    (hskip : rx.rxSkip replyActive i = false) :
    (rx.clkEdge replyActive i).origCsum =
      if bytes.length = 2 then i.icmpRxData ++ (rx.origCsum.extractLsb' 0 8 : BitVec 8)
      else if bytes.length = 3 then
        (rx.origCsum.extractLsb' 8 8 : BitVec 8) ++ i.icmpRxData
      else rx.origCsum := by
  have hmin := params.min_le
  have hstore := rxStore_eq hcounted hvalid hskip
  have htwo : rx.rxCnt = 2 ↔ bytes.length = 2 := rxCnt_eq hcounted (by decide)
  have hthree : rx.rxCnt = 3 ↔ bytes.length = 3 := rxCnt_eq hcounted (by decide)
  simp only [clkEdge, hstore, Bool.and_eq_true, decide_eq_true_eq, beq_iff_eq, htwo, hthree]
  by_cases hsecond : bytes.length = 2
  · rw [if_pos hsecond, if_pos ⟨by omega, hsecond⟩]
  · rw [if_neg hsecond, if_neg fun hboth => hsecond hboth.2]
    by_cases hthird : bytes.length = 3
    · rw [if_pos hthird, if_pos ⟨by omega, hthird⟩]
    · rw [if_neg hthird, if_neg fun hboth => hthird hboth.2]

theorem buffered_byte (hcounted : IcmpCounted rx bytes) (hbuffered : IcmpBuffered rx bytes)
    (hvalid : i.icmpRxValid = true) (hskip : rx.rxSkip replyActive i = false) :
    IcmpBuffered (rx.clkEdge replyActive i) (bytes ++ [i.icmpRxData]) := by
  have hmin := params.min_le
  have hstore := rxStore_eq hcounted hvalid hskip
  refine ⟨?_, ?_, ?_⟩
  · intro index hindex hin
    rw [List.length_append, List.length_singleton] at hindex
    rw [byteAt_concat]
    simp only [clkEdge, hstore]
    by_cases hroom : bytes.length < params.maxLen
    · rw [if_pos (decide_eq_true hroom)]
      have hcnt : rx.rxCnt = .ofNat _ bytes.length := by
        rw [← BitVec.toNat_inj, hcounted.cnt, BitVec.toNat_ofNat, Nat.min_eq_left hroom.le]
        exact (Nat.mod_eq_of_lt (hroom.trans params.maxLen_lt)).symm
      by_cases hsame : index = bytes.length
      · rw [if_pos hsame, hsame, hcnt, Function.update_self]
      · have hother : BitVec.ofNat params.lenW index ≠ rx.rxCnt := by
          rw [hcnt, Ne, ← BitVec.toNat_inj, BitVec.toNat_ofNat, BitVec.toNat_ofNat,
            Nat.mod_eq_of_lt (hin.trans params.maxLen_lt),
            Nat.mod_eq_of_lt (hroom.trans params.maxLen_lt)]
          exact hsame
        rw [if_neg hsame, Function.update_of_ne hother]
        exact hbuffered.buf index (by omega) hin
    · rw [if_neg (by rwa [decide_eq_true_eq]), if_neg (by omega)]
      exact hbuffered.buf index (by omega) hin
  · intro hlong
    rw [List.length_append, List.length_singleton] at hlong
    rw [byteAt_concat, origCsum_byte hcounted hvalid hskip]
    by_cases hsecond : bytes.length = 2
    · rw [if_pos hsecond, if_pos hsecond.symm, BitVec.extractLsb'_append_eq_left]
    · rw [if_neg hsecond, if_neg (Ne.symm hsecond), ← hbuffered.high (by omega)]
      split
      · rw [BitVec.extractLsb'_append_eq_left]
      · rfl
  · intro hlong
    rw [List.length_append, List.length_singleton] at hlong
    rw [byteAt_concat, origCsum_byte hcounted hvalid hskip, if_neg (by omega)]
    by_cases hthird : bytes.length = 3
    · rw [if_pos hthird, if_pos hthird.symm, BitVec.extractLsb'_append_eq_right]
    · rw [if_neg hthird, if_neg (Ne.symm hthird)]
      exact hbuffered.low (by omega)

theorem echoReq_byte (hcounted : IcmpCounted rx bytes) (hvalid : i.icmpRxValid = true)
    (hskip : rx.rxSkip replyActive i = false) :
    (rx.clkEdge replyActive i).isEchoReq = ((bytes ++ [i.icmpRxData]).take 2 ==
      ([0x08, 0x00] : List (BitVec 8)).take (bytes ++ [i.icmpRxData]).length) := by
  have hmin := params.min_le
  have hstore := rxStore_eq hcounted hvalid hskip
  have hnone : rx.rxCnt = 0 ↔ bytes.length = 0 := rxCnt_eq hcounted (by decide)
  have hone : rx.rxCnt = 1 ↔ bytes.length = 1 := rxCnt_eq hcounted (by decide)
  simp only [clkEdge, hstore, decide_eq_true_eq, hnone, hone]
  rcases bytes with _ | ⟨first, _ | ⟨second, rest⟩⟩
  · rw [if_pos (by rw [List.length_nil]; omega), if_pos List.length_nil]
    exact (Bool.and_true _).symm
  · have hsingle : [first].length = 1 := rfl
    rw [hsingle, if_pos (by omega), if_neg Nat.one_ne_zero, if_pos rfl,
      hcounted.echoReq Nat.one_pos]
    change ((first == 0x08) && true && (i.icmpRxData == 0x00)) =
      ((first == 0x08) && ((i.icmpRxData == 0x00) && true))
    rw [Bool.and_true, Bool.and_true]
  · have hsame := hcounted.echoReq (Nat.succ_pos _)
    have hlong : (first :: second :: rest).length ≠ 0 ∧ (first :: second :: rest).length ≠ 1 := by
      simp
    have hall : ∀ n, ([0x08, 0x00] : List (BitVec 8)).take (n + 2) = [0x08, 0x00] := fun n =>
      List.take_of_length_le (Nat.le_add_left 2 n)
    rw [if_neg hlong.1, if_neg hlong.2, ite_self, hsame]
    exact (congrArg _ (hall rest.length)).trans
      (congrArg _ (hall (rest ++ [i.icmpRxData]).length)).symm

/-- A byte that does not end the message. -/
theorem counted_more (hcounted : IcmpCounted rx bytes) (hvalid : i.icmpRxValid = true)
    (hmore : i.icmpRxLast = false) (hskip : rx.rxSkip replyActive i = false) :
    IcmpCounted (rx.clkEdge replyActive i) (bytes ++ [i.icmpRxData]) := by
  have hmin := params.min_le
  have hstore := rxStore_eq hcounted hvalid hskip
  have hlonger : (bytes ++ [i.icmpRxData]).length = bytes.length + 1 := List.length_append
  refine ⟨?_, ?_, fun _ => ?_⟩
  · simp only [clkEdge, hmore, Bool.and_false, Bool.false_eq_true, if_false, hstore,
      decide_eq_true_eq, hlonger]
    split
    · rename_i hroom
      have hlt := params.maxLen_lt
      have hone : (1 : BitVec params.lenW).toNat = 1 := params.ofNat_toNat (by decide)
      rw [BitVec.toNat_add, hcounted.cnt, hone, Nat.mod_eq_of_lt] <;> omega
    · rw [hcounted.cnt]
      omega
  · simp only [clkEdge, hvalid, if_true, hmore, Bool.not_false, Bool.true_and, hlonger,
      rxOvfNow_eq hcounted hvalid hskip]
  · exact echoReq_byte hcounted hvalid hskip

/-- Between messages. -/
theorem counted_last (hlast : (i.icmpRxValid && i.icmpRxLast) = true) :
    IcmpCounted (rx.clkEdge replyActive i) [] := by
  obtain ⟨hvalid, hend⟩ := Bool.and_eq_true_iff.mp hlast
  refine ⟨?_, ?_, fun hpos => absurd hpos (Nat.lt_irrefl 0)⟩
  · simp only [clkEdge, hlast, if_true]
    exact (Nat.zero_min params.maxLen).symm
  · simp only [clkEdge, hvalid, hend, if_true]
    rfl

/-- What is skipped leaves the buffer and the count alone. -/
theorem buffered_skip (hstore : rx.rxStore replyActive i = false)
    (hbuffered : IcmpBuffered rx bytes) :
    IcmpBuffered (rx.clkEdge replyActive i) bytes := by
  refine ⟨?_, ?_, ?_⟩ <;>
    simp only [clkEdge, hstore, Bool.false_eq_true, if_false, Bool.false_and]
  · exact hbuffered.buf
  · exact hbuffered.high
  · exact hbuffered.low

theorem counted_skip (hstore : rx.rxStore replyActive i = false)
    (hskip : i.icmpRxValid = false ∨ i.icmpRxLast = false ∧ rx.rxSkip replyActive i = true)
    (hcounted : IcmpCounted rx bytes) : IcmpCounted (rx.clkEdge replyActive i) bytes := by
  have hend : (i.icmpRxValid && i.icmpRxLast) = false := by
    rcases hskip with hidle | ⟨hmore, -⟩
    · rw [hidle, Bool.false_and]
    · rw [hmore, Bool.and_false]
  have hovf : (rx.clkEdge replyActive i).rxOvf = rx.rxOvf := by
    rcases hskip with hidle | ⟨hmore, hskip⟩
    · simp only [clkEdge, hidle, Bool.false_eq_true, if_false]
    · simp only [clkEdge, hmore, rxOvfNow, hskip, Bool.not_true, Bool.and_false, Bool.false_and,
        Bool.or_false, Bool.not_false, Bool.true_and, ite_self]
  refine ⟨?_, hovf.trans hcounted.ovf, ?_⟩
  · simp only [clkEdge, hend, hstore, Bool.false_eq_true, if_false]
    exact hcounted.cnt
  · simp only [clkEdge, hstore, Bool.false_eq_true, if_false]
    exact hcounted.echoReq

/-- The last byte of a message is accepted if the message is an echo request that fits. -/
theorem rxAccept_eq (hcounted : IcmpCounted rx bytes) (hvalid : i.icmpRxValid = true)
    (hlast : i.icmpRxLast = true) (hskip : rx.rxSkip replyActive i = false) :
    rx.rxAccept replyActive i = true ↔ i.icmpRxErr = false ∧
      (bytes ++ [i.icmpRxData]).take 2 = [0x08, 0x00] ∧
      8 ≤ (bytes ++ [i.icmpRxData]).length ∧
      (bytes ++ [i.icmpRxData]).length ≤ params.maxLen := by
  have hmin := params.min_le
  have hlt := params.maxLen_lt
  have hlonger : (bytes ++ [i.icmpRxData]).length = bytes.length + 1 := List.length_append
  rw [rxAccept, hvalid, hlast, hskip, rxOvfNow_eq hcounted hvalid hskip, hlonger]
  simp only [Bool.true_and, Bool.not_false, Bool.and_eq_true, Bool.not_eq_true',
    decide_eq_false_iff_not, decide_eq_true_eq, Nat.not_lt]
  by_cases hroom : bytes.length + 1 ≤ params.maxLen
  · have hcount : (8 : BitVec params.lenW) ≤ rx.rxCnt + 1 ↔ 8 ≤ bytes.length + 1 := by
      have height : (8 : BitVec params.lenW).toNat = 8 := params.ofNat_toNat (by decide)
      have hone : (1 : BitVec params.lenW).toNat = 1 := params.ofNat_toNat (by decide)
      rw [BitVec.le_def, height, BitVec.toNat_add, hone, hcounted.cnt,
        Nat.min_eq_left (by omega), Nat.mod_eq_of_lt (by omega)]
    rw [hcount]
    by_cases hlong : 8 ≤ bytes.length + 1
    · have htype : rx.isEchoReq = true ↔
          (bytes ++ [i.icmpRxData]).take 2 = [0x08, 0x00] := by
        rw [hcounted.echoReq (by omega), List.take_append_of_le_length (by omega), beq_iff_eq]
        rw [List.take_of_length_le (show ([0x08, 0x00] : List (BitVec 8)).length ≤ _ by
          rw [List.length_cons, List.length_singleton]; omega)]
      rw [htype]
      tauto
    · tauto
  · tauto

end IcmpRx

end EmacZero
