/-
The reply frame of `icmp_echo`: what is in it, and that the byte multiplexer walks
along it.
-/
import EmacZero.IcmpEchoRx

namespace EmacZero

variable {params : IcmpEchoParams} {rx : IcmpRx params} {echo : IcmpEcho params}

/-- The reply to a request, with the IP identification that the counter gives it. -/
def icmpReply (our : NetOur) (id : BitVec 16) (request : IcmpRequest) : List (BitVec 8) :=
  let totalLen : BitVec 16 := 20 + .ofNat 16 request.bytes.length
  ethHeader request.srcMac our.mac ++
    ipHeader totalLen id 0x01 (ipHdrChecksum (ipCsumSum totalLen id 0x01 our.ip request.srcIp))
      our.ip request.srcIp ++
    ([0x00, 0x00] ++ wordBytes (icmpNewCsum (wordAt request.bytes 2)) ++ request.bytes.drop 4)

theorem icmpNewCsum_toNat (orig : BitVec 16) :
    (icmpNewCsum orig).toNat =
      if orig.toNat + 2048 < 65536 then orig.toNat + 2048 else orig.toNat + 2048 - 65535 := by
  have hlt := orig.isLt
  have hconst : (0x0800 : BitVec 17).toNat = 2048 := rfl
  have hraw : (orig.setWidth 17 + 0x0800 : BitVec 17).toNat = orig.toNat + 2048 := by
    rw [BitVec.toNat_add, BitVec.toNat_setWidth, hconst]
    omega
  simp only [icmpNewCsum]
  generalize (orig.setWidth 17 + 0x0800 : BitVec 17) = raw at hraw
  simp only [BitVec.toNat_add, BitVec.toNat_setWidth, BitVec.extractLsb'_toNat,
    Nat.shiftRight_eq_div_pow, Nat.pow_zero, Nat.div_one]
  split <;> omega

/-- Type 8 has become type 0, and the sum is what it was. -/
theorem icmpNewCsum_valid {orig : BitVec 16} {sum : Nat}
    (hvalid : onesFold 16 (2048 + orig.toNat + sum) = 65535) :
    onesFold 16 ((icmpNewCsum orig).toNat + sum) = 65535 := by
  have hnew := icmpNewCsum_toNat orig
  rw [← hvalid]
  apply onesFold_congr
  · rw [Nat.ModEq]
    split at hnew <;> omega
  · split at hnew <;> omega

theorem wordSum_wordBytes (word : BitVec 16) (rest : List (BitVec 8)) :
    wordSum (wordBytes word ++ rest) = word.toNat + wordSum rest :=
  congrArg (· + wordSum rest) (wordBytes_sum word)

theorem icmpChecksum_valid {bytes : List (BitVec 8)} (hlong : 4 ≤ bytes.length)
    (htype : bytes.take 2 = [0x08, 0x00]) (hvalid : onesFold 16 (wordSum bytes) = 65535) :
    onesFold 16 (wordSum ([0x00, 0x00] ++ wordBytes (icmpNewCsum (wordAt bytes 2)) ++
      bytes.drop 4)) = 65535 := by
  have hbytes : bytes = [0x08, 0x00] ++ (wordBytes (wordAt bytes 2) ++ bytes.drop 4) := by
    have hhigh : (wordAt bytes 2).extractLsb' 8 8 = byteAt bytes 2 :=
      BitVec.extractLsb'_append_eq_left
    have hlow : (wordAt bytes 2).extractLsb' 0 8 = byteAt bytes 3 :=
      BitVec.extractLsb'_append_eq_right
    rw [wordBytes, hhigh, hlow, ← htype]
    obtain ⟨first, second, third, fourth, rest, rfl⟩ : ∃ first second third fourth rest,
        bytes = first :: second :: third :: fourth :: rest := by
      rcases bytes with - | ⟨first, - | ⟨second, - | ⟨third, - | ⟨fourth, rest⟩⟩⟩⟩ <;>
        simp at hlong ⊢
    rfl
  rw [hbytes] at hvalid
  have hold : wordSum ([0x08, 0x00] ++ (wordBytes (wordAt bytes 2) ++ bytes.drop 4)) =
      2048 + (wordAt bytes 2).toNat + wordSum (bytes.drop 4) := by
    rw [Nat.add_assoc, ← wordSum_wordBytes]
    rfl
  have hnew : wordSum ([0x00, 0x00] ++ wordBytes (icmpNewCsum (wordAt bytes 2)) ++
      bytes.drop 4) = (icmpNewCsum (wordAt bytes 2)).toNat + wordSum (bytes.drop 4) := by
    rw [← wordSum_wordBytes]
    exact Nat.zero_add _
  rw [hold] at hvalid
  rw [hnew]
  exact icmpNewCsum_valid hvalid

section Answers

variable {our : NetOur} {id : BitVec 16} {request : IcmpRequest}

theorem length_icmpReply (hlong : 8 ≤ request.bytes.length) :
    (icmpReply our id request).length = 34 + request.bytes.length := by
  simp only [icmpReply, List.length_append, length_ethHeader, length_ipHeader, List.length_drop]
  change 14 + 20 + (2 + 2 + (request.bytes.length - 4)) = _
  omega

/-- The reply answers the request. -/
theorem icmpReply_answers (hlong : 8 ≤ request.bytes.length)
    (hshort : request.bytes.length ≤ 65515) (htype : request.bytes.take 2 = [0x08, 0x00]) :
    IcmpAnswers our request (icmpReply our id request) where
  length := length_icmpReply hlong
  ethernet := rfl
  version := rfl
  total := by
    have htotal : wordAt (icmpReply our id request) 16 =
        20 + BitVec.ofNat 16 request.bytes.length := word_halves _
    rw [htotal, BitVec.toNat_add, BitVec.toNat_ofNat]
    change (20 + _) % _ = _
    omega
  protocol := rfl
  source := rfl
  destination := rfl
  header := ipHeader_valid _ _ _ _ _
  type := rfl
  code := by
    have hcode : byteAt request.bytes 1 = byteAt (request.bytes.take 2) 1 := by
      simp [byteAt, List.getD_eq_getElem?_getD]
    rw [hcode, htype]
    rfl
  rest := rfl
  checksum := icmpChecksum_valid (by omega) htype

end Answers

/-- The registers hold a request that is to be answered. -/
structure IcmpLoaded (rx : IcmpRx params) (request : IcmpRequest) : Prop where
  len : rx.icmpLen.toNat = request.bytes.length
  buffered : IcmpBuffered rx request.bytes
  mac : rx.replyDstMac = request.srcMac
  ip : rx.replyDstIp = request.srcIp
  long : 8 ≤ request.bytes.length
  short : request.bytes.length ≤ params.maxLen
  type : request.bytes.take 2 = [0x08, 0x00]

/-- An accepted message is in the registers after its last byte. -/
theorem loaded_accept {replyActive : Bool} {i : IcmpEchoIn} {bytes : List (BitVec 8)}
    (hcounted : IcmpCounted rx bytes) (hbuffered : IcmpBuffered rx bytes)
    (hvalid : i.icmpRxValid = true) (hskip : rx.rxSkip replyActive i = false)
    (haccept : rx.rxAccept replyActive i = true)
    (htype : (bytes ++ [i.icmpRxData]).take 2 = [0x08, 0x00])
    (hlong : 8 ≤ (bytes ++ [i.icmpRxData]).length)
    (hshort : (bytes ++ [i.icmpRxData]).length ≤ params.maxLen) :
    IcmpLoaded (rx.clkEdge replyActive i)
      ⟨bytes ++ [i.icmpRxData], i.rxSrcMac, i.icmpRxSrcIp⟩ where
  len := by
    have hlt := params.maxLen_lt
    have hone : (1 : BitVec params.lenW).toNat = 1 := params.ofNat_toNat (by decide)
    rw [List.length_append, List.length_singleton] at hshort ⊢
    simp only [IcmpRx.clkEdge, haccept, if_true]
    rw [BitVec.toNat_add, hone, hcounted.cnt, Nat.min_eq_left (by omega),
      Nat.mod_eq_of_lt (by omega)]
  buffered := IcmpRx.buffered_byte hcounted hbuffered hvalid hskip
  mac := by simp only [IcmpRx.clkEdge, haccept, if_true]
  ip := by simp only [IcmpRx.clkEdge, haccept, if_true]
  long := hlong
  short := hshort
  type := htype

/-- A request stays while nothing is stored or accepted. -/
theorem IcmpLoaded.keep {replyActive : Bool} {i : IcmpEchoIn} {request : IcmpRequest}
    (hloaded : IcmpLoaded rx request) (hstore : rx.rxStore replyActive i = false)
    (haccept : rx.rxAccept replyActive i = false) :
    IcmpLoaded (rx.clkEdge replyActive i) request where
  len := by
    simp only [IcmpRx.clkEdge, haccept, Bool.false_eq_true, if_false]
    exact hloaded.len
  buffered := IcmpRx.buffered_skip hstore hloaded.buffered
  mac := by
    simp only [IcmpRx.clkEdge, haccept, Bool.false_eq_true, if_false]
    exact hloaded.mac
  ip := by
    simp only [IcmpRx.clkEdge, haccept, Bool.false_eq_true, if_false]
    exact hloaded.ip
  long := hloaded.long
  short := hloaded.short
  type := hloaded.type

namespace IcmpTx

/-- Where in the frame the state machine is. -/
def place (tx : IcmpTx params) : Nat :=
  match tx.txState with
  | .idle => 0
  | .ethHdr => tx.txCnt.toNat
  | .ipHdr => 14 + tx.txCnt.toNat
  | .icmp => 34 + tx.icmpTxCnt.toNat

/-- The counters are within what the state sends for a message of this length. -/
def Within (tx : IcmpTx params) (len : Nat) : Prop :=
  match tx.txState with
  | .idle => False
  | .ethHdr => tx.txCnt.toNat < 14
  | .ipHdr => tx.txCnt.toNat < 20
  | .icmp => tx.icmpTxCnt.toNat < len

end IcmpTx

namespace IcmpEcho

variable {our : NetOur} {request : IcmpRequest}

theorem ipTotalLen_eq (hloaded : IcmpLoaded echo.rx request) :
    echo.rx.ipTotalLen = 20 + .ofNat 16 request.bytes.length := by
  rw [IcmpRx.ipTotalLen, ← hloaded.len]
  congr 1
  apply BitVec.eq_of_toNat_eq
  rw [BitVec.toNat_setWidth, BitVec.toNat_ofNat]

theorem origCsum_eq (hloaded : IcmpLoaded echo.rx request) :
    echo.rx.origCsum = wordAt request.bytes 2 := by
  have hlong := hloaded.long
  rw [wordAt, ← hloaded.buffered.high (by omega), ← hloaded.buffered.low (by omega)]
  exact (word_halves _).symm

/-- The message's bytes come from the buffer, but for the first four. -/
theorem icmpByte_eq (hloaded : IcmpLoaded echo.rx request)
    (hcnt : echo.tx.icmpTxCnt.toNat < request.bytes.length) :
    (if echo.tx.icmpTxCnt = 0 ∨ echo.tx.icmpTxCnt = 1 then 0
      else if echo.tx.icmpTxCnt = 2 then echo.rx.newCsum.extractLsb' 8 8
      else if echo.tx.icmpTxCnt = 3 then echo.rx.newCsum.extractLsb' 0 8
      else echo.rx.icmpBuf echo.tx.icmpTxCnt) =
      ([0x00, 0x00] ++ wordBytes (icmpNewCsum echo.rx.origCsum) ++ request.bytes.drop 4).getD
        echo.tx.icmpTxCnt.toNat 0 := by
  have hshort := hloaded.short
  have hat : ∀ n ≤ 8, echo.tx.icmpTxCnt = .ofNat _ n ↔ echo.tx.icmpTxCnt.toNat = n := by
    intro n hn
    rw [← BitVec.toNat_inj, params.ofNat_toNat hn]
  have hnone : echo.tx.icmpTxCnt = 0 ↔ echo.tx.icmpTxCnt.toNat = 0 := hat 0 (by decide)
  have hone : echo.tx.icmpTxCnt = 1 ↔ echo.tx.icmpTxCnt.toNat = 1 := hat 1 (by decide)
  have htwo : echo.tx.icmpTxCnt = 2 ↔ echo.tx.icmpTxCnt.toNat = 2 := hat 2 (by decide)
  have hthree : echo.tx.icmpTxCnt = 3 ↔ echo.tx.icmpTxCnt.toNat = 3 := hat 3 (by decide)
  have hbuf := hloaded.buffered.buf echo.tx.icmpTxCnt.toNat hcnt (by omega)
  rw [BitVec.ofNat_toNat, BitVec.setWidth_eq] at hbuf
  rw [hbuf, IcmpRx.newCsum]
  simp only [hnone, hone, htwo, hthree]
  generalize echo.tx.icmpTxCnt.toNat = index at hcnt
  match index with
  | 0 => rfl
  | 1 => rfl
  | 2 => rfl
  | 3 => rfl
  | index + 4 =>
      have hhead : ([0x00, 0x00] ++ wordBytes (icmpNewCsum echo.rx.origCsum)).length = 4 := rfl
      rw [if_neg (by omega), if_neg (by omega), if_neg (by omega),
        List.getD_append_right _ _ _ _ (by rw [hhead]; exact Nat.le_add_left 4 index), hhead,
        Nat.add_sub_cancel, byteAt, List.getD_eq_getElem?_getD, List.getD_eq_getElem?_getD,
        List.getElem?_drop, Nat.add_comm]

/-- The multiplexer gives the frame's byte at this place. -/
theorem txDataMux_eq (hloaded : IcmpLoaded echo.rx request)
    (hacc : echo.tx.ipCsumAcc =
      ipCsumSum echo.rx.ipTotalLen echo.tx.ipIdCnt 0x01 our.ip echo.rx.replyDstIp)
    (hwithin : echo.tx.Within request.bytes.length) :
    echo.txDataMux our = (icmpReply our echo.tx.ipIdCnt request).getD echo.tx.place 0 := by
  have hlong := hloaded.long
  rw [icmpReply, ← ipTotalLen_eq hloaded, ← hloaded.mac, ← hloaded.ip, ← hacc,
    ← origCsum_eq hloaded]
  rw [IcmpTx.Within] at hwithin
  rw [txDataMux, IcmpTx.place]
  cases hstate : echo.tx.txState with
  | idle => rw [hstate] at hwithin; exact hwithin.elim
  | ethHdr =>
      simp only [hstate] at hwithin ⊢
      rw [List.getD_append, List.getD_append]
      · exact hwithin
      · rw [List.length_append, length_ethHeader]
        omega
  | ipHdr =>
      simp only [hstate] at hwithin ⊢
      rw [List.getD_append, List.getD_append_right, length_ethHeader, Nat.add_sub_cancel_left]
      · exact Nat.le_add_right _ _
      · rw [List.length_append, length_ethHeader, length_ipHeader]
        omega
  | icmp =>
      simp only [hstate] at hwithin ⊢
      have hhead : (ethHeader echo.rx.replyDstMac our.mac ++
          ipHeader echo.rx.ipTotalLen echo.tx.ipIdCnt 0x01 (ipHdrChecksum echo.tx.ipCsumAcc)
            our.ip echo.rx.replyDstIp).length = 34 := rfl
      rw [List.getD_append_right _ _ _ _ (by rw [hhead]; exact Nat.le_add_right _ _), hhead,
        Nat.add_sub_cancel_left]
      exact icmpByte_eq hloaded hwithin

end IcmpEcho

end EmacZero
