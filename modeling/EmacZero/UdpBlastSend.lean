/-
The transmit state machine of `udp_blast`: it walks along the frame that it has begun, a
byte for each that the output register takes.
-/
import EmacZero.UdpBlast

namespace EmacZero

variable {params : UdpBlastParams} {blast : UdpBlast} {i : UdpBlastIn} {frame : BlastFrame}

namespace BlastFrame

theorem length_payload (hsize : 12 ≤ frame.size.toNat) (seq : BitVec 32) :
    (frame.payload seq).length = frame.size.toNat := by
  have hramp : ((List.range (frame.size.toNat - 12)).map
      fun k => BitVec.ofNat 8 (12 + k)).length = frame.size.toNat - 12 := by
    rw [List.length_map, List.length_range]
  rw [payload, List.length_append, hramp]
  change 12 + _ = _
  omega

theorem length_bytes (hsize : 12 ≤ frame.size.toNat) (seq : BitVec 32) :
    (frame.bytes seq).length = 42 + frame.size.toNat := by
  rw [bytes, length_udpFrame, length_payload hsize]

theorem payload_iperfHdr {cnt : Nat} (hcnt : cnt < 12) (seq : BitVec 32) :
    (frame.payload seq).getD cnt 0 =
      (ipBytes seq ++ ipBytes frame.sec ++ ipBytes frame.usec).getD cnt 0 := by
  rw [payload, List.getD_append _ _ _ _ hcnt]

theorem payload_ramp {cnt : Nat} (hcnt : cnt < frame.size.toNat - 12) (seq : BitVec 32) :
    (frame.payload seq).getD (12 + cnt) 0 = .ofNat 8 (12 + cnt) := by
  have hhead : (ipBytes seq ++ ipBytes frame.sec ++ ipBytes frame.usec).length = 12 := rfl
  rw [payload, List.getD_append_right _ _ _ _ (by rw [hhead]; exact Nat.le_add_right _ _), hhead,
    Nat.add_sub_cancel_left]
  have hlength : cnt < ((List.range (frame.size.toNat - 12)).map
      fun k => BitVec.ofNat 8 (12 + k)).length := by
    rw [List.length_map, List.length_range]
    exact hcnt
  rw [List.getD_eq_getElem _ _ hlength, List.getElem_map, List.getElem_range]

end BlastFrame

namespace UdpBlastTx

/-- Where in the frame the state machine is. -/
def place (tx : UdpBlastTx) : Nat :=
  match tx.txState with
  | .idle => 0
  | .ethHdr => tx.hdrCnt.toNat
  | .ipHdr => 14 + tx.hdrCnt.toNat
  | .udpHdr => 34 + tx.hdrCnt.toNat
  | .iperfHdr => 42 + tx.hdrCnt.toNat
  | .payload => 42 + tx.bodyCnt.toNat

/-- The counters are within what the state sends. -/
def Within (tx : UdpBlastTx) : Prop :=
  match tx.txState with
  | .idle => False
  | .ethHdr => tx.hdrCnt.toNat < 14
  | .ipHdr => tx.hdrCnt.toNat < 20
  | .udpHdr => tx.hdrCnt.toNat < 8
  | .iperfHdr => tx.hdrCnt.toNat < 12
  | .payload => 12 ≤ tx.bodyCnt.toNat ∧ tx.bodyCnt.toNat < tx.payloadLat.toNat

end UdpBlastTx

/-- Nothing is being sent. -/
structure BlastResting (tx : UdpBlastTx) : Prop where
  idle : tx.txState = .idle
  valid : tx.srcValid = false
  last : tx.srcLast = false

/-- The frame is being sent. -/
structure BlastWalking (frame : BlastFrame) (tx : UdpBlastTx) : Prop where
  within : tx.Within
  valid : tx.srcValid = true
  last : tx.srcLast = true ↔ tx.place + 1 = 42 + frame.size.toNat
  size : tx.payloadLat = frame.size
  sized : 14 ≤ frame.size.toNat
  id : tx.ipIdLat = frame.id
  acc : tx.ipCsumAcc = ipCsumSum (UdpBlast.ipTotalLen frame.size) frame.id 0x11
    frame.target.our.ip frame.target.dstIp
  sec : tx.tsSecLat = frame.sec
  usec : tx.tsUsecLat = frame.usec

namespace BlastWalking

variable {tx : UdpBlastTx}

theorem busy (hwalking : BlastWalking frame tx) : tx.txState ≠ .idle := by
  intro hidle
  have hwithin := hwalking.within
  rw [UdpBlastTx.Within, hidle] at hwithin
  exact hwithin

theorem place_lt (hwalking : BlastWalking frame tx) : tx.place < 42 + frame.size.toNat := by
  have hwithin := hwalking.within
  have hsized := hwalking.sized
  have hsize := congrArg BitVec.toNat hwalking.size
  rw [UdpBlastTx.Within] at hwithin
  rw [UdpBlastTx.place]
  cases hstate : tx.txState with
  | idle => exact absurd hstate hwalking.busy
  | ethHdr => simp only [hstate] at hwithin ⊢; omega
  | ipHdr => simp only [hstate] at hwithin ⊢; omega
  | udpHdr => simp only [hstate] at hwithin ⊢; omega
  | iperfHdr => simp only [hstate] at hwithin ⊢; omega
  | payload => simp only [hstate] at hwithin ⊢; omega

end BlastWalking

namespace UdpBlast

theorem setWidth_size (hsize : 12 ≤ frame.size.toNat) (seq : BitVec 32) :
    frame.size.setWidth 16 = .ofNat 16 (frame.payload seq).length := by
  rw [BlastFrame.length_payload hsize, BitVec.ofNat_toNat]

/-- The multiplexer gives the frame's byte at this place, with the sequence number as it is. -/
theorem txDataMux_eq (hwalking : BlastWalking frame blast.tx) (htarget : i.target = frame.target) :
    blast.txDataMux i = (frame.bytes blast.cnt.seqCnt).getD blast.tx.place 0 := by
  have hsized := hwalking.sized
  have hwithin := hwalking.within
  have hsize := setWidth_size (by omega : 12 ≤ frame.size.toNat) blast.cnt.seqCnt
  rw [UdpBlastTx.Within, hwalking.size] at hwithin
  rw [txDataMux, UdpBlastTx.place, BlastFrame.bytes, hwalking.size, hwalking.acc, hwalking.id,
    hwalking.sec, hwalking.usec, htarget, ipTotalLen, udpTotalLen, hsize]
  cases hstate : blast.tx.txState with
  | idle => rw [hstate] at hwithin; exact hwithin.elim
  | ethHdr =>
      rw [hstate] at hwithin
      exact (udpFrame_ethHdr hwithin).symm
  | ipHdr =>
      rw [hstate] at hwithin
      exact (udpFrame_ipHdr hwithin).symm
  | udpHdr =>
      rw [hstate] at hwithin
      exact (udpFrame_udpHdr hwithin).symm
  | iperfHdr =>
      rw [hstate] at hwithin
      simp only at hwithin ⊢
      rw [udpFrame_payload, BlastFrame.payload_iperfHdr hwithin]
  | payload =>
      rw [hstate] at hwithin
      simp only at hwithin ⊢
      obtain ⟨hfrom, hto⟩ := hwithin
      obtain ⟨cnt, hcnt⟩ := Nat.exists_eq_add_of_le hfrom
      rw [udpFrame_payload, hcnt, BlastFrame.payload_ramp (by omega), ← hcnt, BitVec.ofNat_toNat]

/-- A frame begins. -/
theorem begin_walking (hresting : BlastResting blast.tx) (hstarts : blast.starts params i = true)
    (hsized : 14 ≤ i.payloadSize.toNat) :
    BlastWalking (blast.begins i) (blast.txEdge params i) ∧
      (blast.txEdge params i).place = 0 := by
  have hedge : blast.txEdge params i =
      { blast.tx with
        srcLast := if blast.srcReady i then false else blast.tx.srcLast
        txState := .ethHdr
        hdrCnt := 0
        payloadLat := i.payloadSize
        ipIdLat := blast.cnt.ipIdCnt
        tsSecLat := blast.cnt.tsSecCnt
        tsUsecLat := blast.cnt.tsUsecCnt
        ipCsumAcc := ipCsumSum (ipTotalLen i.payloadSize) blast.cnt.ipIdCnt 0x11
          i.target.our.ip i.target.dstIp
        txStart := true
        srcValid := true } := by
    simp only [txEdge, hresting.idle, hstarts, if_true]
  have hlast : (if blast.srcReady i then false else blast.tx.srcLast) = false := by
    rw [hresting.last, ite_self]
  rw [hedge, hlast]
  refine ⟨⟨Nat.zero_lt_succ 13, rfl, ?_, rfl, hsized, rfl, rfl, rfl, rfl⟩, rfl⟩
  change false = true ↔ 0 + 1 = 42 + i.payloadSize.toNat
  rw [Bool.false_eq_true, false_iff]
  omega

theorem rest_resting (hresting : BlastResting blast.tx)
    (hstarts : blast.starts params i = false) : BlastResting (blast.txEdge params i) := by
  have hedge : blast.txEdge params i =
      { blast.tx with
        txStart := if i.txReady && blast.slice.valid then false else blast.tx.txStart
        srcLast := if blast.srcReady i then false else blast.tx.srcLast
        srcValid := false } := by
    simp only [txEdge, hresting.idle, hstarts, Bool.false_eq_true, if_false]
  rw [hedge]
  refine ⟨hresting.idle, rfl, ?_⟩
  change (if blast.srcReady i then false else blast.tx.srcLast) = false
  rw [hresting.last, ite_self]

/-- The output register does not take the byte. -/
theorem stall_walking (hwalking : BlastWalking frame blast.tx)
    (hstall : blast.srcReady i = false) :
    BlastWalking frame (blast.txEdge params i) ∧
      (blast.txEdge params i).place = blast.tx.place := by
  have hedge : blast.txEdge params i =
      { blast.tx with
        txStart := if i.txReady && blast.slice.valid then false else blast.tx.txStart
        srcValid := true } := by
    have hbusy := hwalking.busy
    rw [txEdge]
    cases hstate : blast.tx.txState with
    | idle => exact absurd hstate hbusy
    | ethHdr => simp only [headerEdge, hstate, hstall, Bool.false_and, Bool.false_eq_true, if_false]
    | ipHdr => simp only [headerEdge, hstate, hstall, Bool.false_and, Bool.false_eq_true, if_false]
    | udpHdr => simp only [headerEdge, hstate, hstall, Bool.false_and, Bool.false_eq_true, if_false]
    | iperfHdr =>
        simp only [headerEdge, hstate, hstall, Bool.false_and, Bool.false_eq_true, if_false]
    | payload => simp only [hstate, hstall, Bool.false_and, Bool.false_eq_true, if_false]
  rw [hedge]
  exact ⟨⟨hwalking.within, rfl, hwalking.last, hwalking.size, hwalking.sized, hwalking.id,
    hwalking.acc, hwalking.sec, hwalking.usec⟩, rfl⟩

/-- Another byte of the same frame, and not its last. -/
structure BlastKeeps (tx next : UdpBlastTx) : Prop where
  valid : next.srcValid = true
  last : next.srcLast = false
  size : next.payloadLat = tx.payloadLat
  id : next.ipIdLat = tx.ipIdLat
  acc : next.ipCsumAcc = tx.ipCsumAcc
  sec : next.tsSecLat = tx.tsSecLat
  usec : next.tsUsecLat = tx.tsUsecLat

theorem BlastKeeps.walking (hwalking : BlastWalking frame blast.tx) {next : UdpBlastTx}
    (hkeeps : BlastKeeps blast.tx next) (hwithin : next.Within)
    (hmore : next.place + 1 ≠ 42 + frame.size.toNat) : BlastWalking frame next where
  within := hwithin
  valid := hkeeps.valid
  last := by
    rw [hkeeps.last, Bool.false_eq_true, false_iff]
    exact hmore
  size := hkeeps.size.trans hwalking.size
  sized := hwalking.sized
  id := hkeeps.id.trans hwalking.id
  acc := hkeeps.acc.trans hwalking.acc
  sec := hkeeps.sec.trans hwalking.sec
  usec := hkeeps.usec.trans hwalking.usec

/-- The output register takes a byte of a header of `len` bytes, which begins at `first`. -/
theorem headerEdge_walking (hwalking : BlastWalking frame blast.tx)
    (htaken : blast.srcReady i = true) {len : BitVec 6} {first : Nat} {next after : UdpBlastTx}
    (hplace : blast.tx.place = first + blast.tx.hdrCnt.toNat)
    (hcnt : blast.tx.hdrCnt.toNat < len.toNat) (hroom : first + len.toNat < 55)
    (hkeeps : ∀ hdrCnt, BlastKeeps blast.tx { next with hdrCnt })
    (hkeeps' : BlastKeeps blast.tx after)
    (hwithin : ∀ hdrCnt : BitVec 6, hdrCnt.toNat < len.toNat →
      UdpBlastTx.Within { next with hdrCnt } ∧
        UdpBlastTx.place { next with hdrCnt } = first + hdrCnt.toNat)
    (hwithin' : after.Within ∧ after.place = first + len.toNat) :
    BlastWalking frame (blast.headerEdge i next len after) ∧
      (blast.headerEdge i next len after).place = blast.tx.place + 1 := by
  have hsized := hwalking.sized
  have hlen := len.isLt
  rw [headerEdge, htaken, hwalking.valid, Bool.and_self, if_pos rfl]
  by_cases hend : blast.tx.hdrCnt = len - 1
  · have hthere : blast.tx.hdrCnt.toNat + 1 = len.toNat := by
      rw [hend, BitVec.toNat_sub]
      change (64 - 1 + len.toNat) % 64 + 1 = len.toNat
      omega
    obtain ⟨hwithin, hplace'⟩ := hwithin'
    rw [if_pos hend]
    exact ⟨hkeeps'.walking hwalking hwithin (by omega), by omega⟩
  · have hthere : blast.tx.hdrCnt.toNat + 1 ≠ len.toNat := by
      intro heq
      refine hend (BitVec.eq_of_toNat_eq ?_)
      rw [BitVec.toNat_sub]
      change _ = (64 - 1 + len.toNat) % 64
      omega
    have hnext := toNat_cnt_succ (by omega : blast.tx.hdrCnt.toNat < 63)
    obtain ⟨hwithin, hplace'⟩ := hwithin (blast.tx.hdrCnt + 1) (by omega)
    rw [if_neg hend]
    exact ⟨(hkeeps _).walking hwalking hwithin (by omega), by omega⟩

theorem toNat_size_sub {size : BitVec 14} {back : Nat} (hback : back ≤ size.toNat) :
    (size - .ofNat 14 back).toNat = size.toNat - back := by
  have hlt := size.isLt
  rw [BitVec.toNat_sub, BitVec.toNat_ofNat, Nat.mod_eq_of_lt (by omega : back < 2 ^ 14)]
  omega

theorem bodyCnt_back {cnt size : BitVec 14} {back : Nat} (hback : back ≤ size.toNat) :
    cnt = size - .ofNat 14 back ↔ cnt.toNat + back = size.toNat := by
  constructor
  · intro heq
    rw [heq, toNat_size_sub hback, Nat.sub_add_cancel hback]
  · intro heq
    refine BitVec.eq_of_toNat_eq ?_
    rw [toNat_size_sub hback, ← heq, Nat.add_sub_cancel]

/-- The last byte of the body. -/
theorem bodyCnt_end {cnt size : BitVec 14} (hsize : 1 ≤ size.toNat) :
    cnt = size - 1 ↔ cnt.toNat + 1 = size.toNat := bodyCnt_back hsize

/-- The byte before it, with which the last flag is set. -/
theorem bodyCnt_penult {cnt size : BitVec 14} (hsize : 2 ≤ size.toNat) :
    cnt = size - 2 ↔ cnt.toNat + 2 = size.toNat := bodyCnt_back hsize

/-- The output register takes a byte that is not the last. -/
theorem taken_walking (hwalking : BlastWalking frame blast.tx) (htaken : blast.srcReady i = true)
    (hmore : blast.tx.place + 1 ≠ 42 + frame.size.toNat) :
    BlastWalking frame (blast.txEdge params i) ∧
      (blast.txEdge params i).place = blast.tx.place + 1 := by
  have hwithin := hwalking.within
  have hsized := hwalking.sized
  have hsize := congrArg BitVec.toNat hwalking.size
  rw [txEdge]
  cases hstate : blast.tx.txState with
  | idle => exact absurd hstate hwalking.busy
  | ethHdr =>
      simp only [UdpBlastTx.Within, hstate] at hwithin
      have hplace : blast.tx.place = 0 + blast.tx.hdrCnt.toNat := by
        rw [UdpBlastTx.place, hstate, Nat.zero_add]
      simp only [htaken, if_true]
      exact headerEdge_walking hwalking htaken hplace hwithin (by decide)
        (fun _ => ⟨rfl, rfl, rfl, rfl, rfl, rfl, rfl⟩) ⟨rfl, rfl, rfl, rfl, rfl, rfl, rfl⟩
        (fun _ hcnt => ⟨hcnt, (Nat.zero_add _).symm⟩) ⟨Nat.zero_lt_succ 19, rfl⟩
  | ipHdr =>
      simp only [UdpBlastTx.Within, hstate] at hwithin
      have hplace : blast.tx.place = 14 + blast.tx.hdrCnt.toNat := by
        rw [UdpBlastTx.place, hstate]
      simp only [htaken, if_true]
      exact headerEdge_walking hwalking htaken hplace hwithin (by decide)
        (fun _ => ⟨rfl, rfl, rfl, rfl, rfl, rfl, rfl⟩) ⟨rfl, rfl, rfl, rfl, rfl, rfl, rfl⟩
        (fun _ hcnt => ⟨hcnt, rfl⟩) ⟨Nat.zero_lt_succ 7, rfl⟩
  | udpHdr =>
      simp only [UdpBlastTx.Within, hstate] at hwithin
      have hplace : blast.tx.place = 34 + blast.tx.hdrCnt.toNat := by
        rw [UdpBlastTx.place, hstate]
      simp only [htaken, if_true]
      exact headerEdge_walking hwalking htaken hplace hwithin (by decide)
        (fun _ => ⟨rfl, rfl, rfl, rfl, rfl, rfl, rfl⟩) ⟨rfl, rfl, rfl, rfl, rfl, rfl, rfl⟩
        (fun _ hcnt => ⟨hcnt, rfl⟩) ⟨Nat.zero_lt_succ 11, rfl⟩
  | iperfHdr =>
      simp only [UdpBlastTx.Within, hstate] at hwithin
      have hplace : blast.tx.place = 42 + blast.tx.hdrCnt.toNat := by
        rw [UdpBlastTx.place, hstate]
      have hpayload : (12 : BitVec 14).toNat < blast.tx.payloadLat.toNat := by
        rw [hsize]
        exact Nat.lt_of_lt_of_le (by decide) hsized
      simp only [htaken, if_true]
      exact headerEdge_walking hwalking htaken hplace hwithin (by decide)
        (fun _ => ⟨rfl, rfl, rfl, rfl, rfl, rfl, rfl⟩) ⟨rfl, rfl, rfl, rfl, rfl, rfl, rfl⟩
        (fun _ hcnt => ⟨hcnt, rfl⟩) ⟨⟨Nat.le_refl 12, hpayload⟩, rfl⟩
  | payload =>
      simp only [UdpBlastTx.Within, hstate] at hwithin
      obtain ⟨hfrom, hto⟩ := hwithin
      simp only [UdpBlastTx.place, hstate] at hmore ⊢
      have hsize2 : 2 ≤ blast.tx.payloadLat.toNat := by omega
      have hend : ¬ blast.tx.bodyCnt = blast.tx.payloadLat - 1 := by
        intro hend
        have hcnt := (bodyCnt_end (by omega)).mp hend
        omega
      have hnext : (blast.tx.bodyCnt + 1).toNat = blast.tx.bodyCnt.toNat + 1 := by
        have hlt := blast.tx.payloadLat.isLt
        rw [BitVec.toNat_add]
        exact Nat.mod_eq_of_lt (by omega : blast.tx.bodyCnt.toNat + 1 < 2 ^ 14)
      have hlast : (if blast.tx.bodyCnt = blast.tx.payloadLat - 2 then true else false) = true ↔
          42 + (blast.tx.bodyCnt + 1).toNat + 1 = 42 + frame.size.toNat := by
        rw [Bool.if_false_right, Bool.and_true, decide_eq_true_iff, bodyCnt_penult hsize2, hnext,
          hsize]
        omega
      have hwithin : 12 ≤ (blast.tx.bodyCnt + 1).toNat ∧
          (blast.tx.bodyCnt + 1).toNat < blast.tx.payloadLat.toNat := by omega
      simp only [htaken, hwalking.valid, Bool.and_self, if_true, if_neg hend]
      refine ⟨⟨hwithin, rfl, hlast, hwalking.size, hsized, hwalking.id, hwalking.acc,
        hwalking.sec, hwalking.usec⟩, ?_⟩
      rw [hnext, Nat.add_assoc]

/-- The output register takes the last byte. -/
theorem last_resting (hwalking : BlastWalking frame blast.tx) (htaken : blast.srcReady i = true)
    (hlast : blast.tx.place + 1 = 42 + frame.size.toNat) :
    BlastResting (blast.txEdge params i) ∧ blast.ends i = true := by
  have hwithin := hwalking.within
  have hsized := hwalking.sized
  have hsize := congrArg BitVec.toNat hwalking.size
  rw [txEdge, ends]
  cases hstate : blast.tx.txState with
  | idle => exact absurd hstate hwalking.busy
  | ethHdr =>
      simp only [UdpBlastTx.Within, UdpBlastTx.place, hstate] at hwithin hlast
      omega
  | ipHdr =>
      simp only [UdpBlastTx.Within, UdpBlastTx.place, hstate] at hwithin hlast
      omega
  | udpHdr =>
      simp only [UdpBlastTx.Within, UdpBlastTx.place, hstate] at hwithin hlast
      omega
  | iperfHdr =>
      simp only [UdpBlastTx.Within, UdpBlastTx.place, hstate] at hwithin hlast
      omega
  | payload =>
      simp only [UdpBlastTx.place, hstate] at hlast
      have hsize2 : 2 ≤ blast.tx.payloadLat.toNat := by omega
      have hend : blast.tx.bodyCnt = blast.tx.payloadLat - 1 :=
        (bodyCnt_end (by omega)).mpr (by omega)
      have hpenult : ¬ blast.tx.bodyCnt = blast.tx.payloadLat - 2 := by
        rw [bodyCnt_penult hsize2]
        omega
      simp only [htaken, hwalking.valid, Bool.and_self, if_true, if_neg hpenult, if_pos hend]
      refine ⟨⟨rfl, rfl, rfl⟩, ?_⟩
      rw [hend]
      exact beq_self_eq_true _

theorem ends_of_idle (hidle : blast.tx.txState = .idle) : blast.ends i = false := by
  rw [ends, hidle]
  rfl

/-- A frame that is not taken to its end goes on. -/
theorem not_ends (hwalking : BlastWalking frame blast.tx)
    (hmore : blast.srcReady i = false ∨ blast.tx.place + 1 ≠ 42 + frame.size.toNat) :
    blast.ends i = false := by
  rw [← Bool.not_eq_true]
  intro hends
  simp only [ends, Bool.and_eq_true, beq_iff_eq] at hends
  obtain ⟨⟨hstate, htaken, -⟩, hend⟩ := hends
  rcases hmore with hstall | hmore
  · exact absurd htaken (by rw [hstall]; exact Bool.false_ne_true)
  · refine hmore ?_
    have hsized := hwalking.sized
    have hsize := congrArg BitVec.toNat hwalking.size
    have hcnt := (bodyCnt_end (by omega)).mp hend
    rw [UdpBlastTx.place, hstate]
    simp only
    omega

end UdpBlast

end EmacZero
