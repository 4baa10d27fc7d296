/-
The sums of `csum_calc` over the IP header: they are the sums of the bytes that a
frame has had so far.
-/
import EmacZero.CsumCalcBounds

namespace EmacZero

/-! Sums as the frame grows. -/

theorem wordSum_slice_concat (frame : List (BitVec 8)) (data : BitVec 8) {start : Nat}
    (heven : start % 2 = 0) (stop : Nat) :
    wordSum (slice (frame ++ [data]) start stop) =
      wordSum (slice frame start stop) +
        if start ≤ frame.length ∧ frame.length < stop then byteWeight frame.length data
        else 0 := by
  by_cases hstart : start ≤ frame.length
  · rw [slice_concat frame data hstart]
    by_cases hstop : frame.length < stop
    · have hlength : (slice frame start stop).length = frame.length - start := by
        rw [length_slice]
        omega
      have hparity : (frame.length - start) % 2 = frame.length % 2 := by omega
      rw [if_pos hstop, if_pos ⟨hstart, hstop⟩, wordSum_concat, hlength, byteWeight,
        byteWeight, hparity]
    · rw [if_neg hstop, if_neg fun hin => hstop hin.2, Nat.add_zero]
  · rw [slice_empty (by simp; omega), slice_empty (by omega),
      if_neg fun hin => hstart hin.1, Nat.add_zero]

@[simp] theorem byteWeight_zero (offset : Nat) : byteWeight offset 0#8 = 0 := by
  simp [byteWeight]

theorem wordSum_zeroed_concat (zero : Bool) (pos : Nat) (frame : List (BitVec 8))
    (data : BitVec 8) {start : Nat} (heven : start % 2 = 0) (stop : Nat) :
    wordSum (slice (zeroed zero pos (frame ++ [data])) start stop) =
      wordSum (slice (zeroed zero pos frame) start stop) +
        if (start ≤ frame.length ∧ frame.length < stop) ∧
            (zero && (frame.length == pos || frame.length == pos + 1)) = false
          then byteWeight frame.length data else 0 := by
  rw [zeroed_concat, wordSum_slice_concat _ _ heven, length_zeroed]
  cases zero && (frame.length == pos || frame.length == pos + 1) with
  | true => simp
  | false => simp

theorem slice_of_le {frame : List (BitVec 8)} {stop : Nat} (hle : frame.length ≤ stop)
    (start : Nat) : slice frame start stop = frame.drop start := by
  rw [slice, List.take_of_length_le hle]

theorem wordSum_slice_le (frame : List (BitVec 8)) (start stop : Nat) :
    wordSum (slice frame start stop) ≤ 65535 * ((stop - start + 1) / 2) := by
  have hlength := length_slice frame start stop
  have hsum := wordSum_le (slice frame start stop)
  have hmono : ((slice frame start stop).length + 1) / 2 ≤ (stop - start + 1) / 2 := by
    omega
  exact hsum.trans (Nat.mul_le_mul_left _ hmono)

theorem l3Offset_even (frame : List (BitVec 8)) : l3Offset frame % 2 = 0 := by
  unfold l3Offset
  split <;> decide

/-- Where the addresses in the IP header start and end. -/
def addressStart (frame : List (BitVec 8)) : Nat :=
  l3Offset frame + if isIp6 frame then 8 else 12

def addressStop (frame : List (BitVec 8)) : Nat :=
  l3Offset frame + if isIp6 frame then 40 else 20

/-- The sum of the addresses. -/
def addressSum (frame : List (BitVec 8)) : Nat :=
  wordSum (slice frame (addressStart frame) (addressStop frame))

theorem addressStart_even (frame : List (BitVec 8)) : addressStart frame % 2 = 0 := by
  have heven := l3Offset_even frame
  unfold addressStart
  split <;> omega

theorem headerSum_lt (zero : Bool) (frame : List (BitVec 8)) :
    headerSum zero frame < 2 ^ 24 := by
  have hle := headerLength_le frame
  have hsum := wordSum_slice_le (zeroed zero (l3Offset frame + 10) frame) (l3Offset frame)
    (l4Offset frame)
  unfold headerSum
  have hspan : (l4Offset frame - l3Offset frame + 1) / 2 ≤ 30 := by
    unfold l4Offset
    omega
  have hmul := Nat.mul_le_mul_left 65535 hspan
  omega

theorem addressSum_le (frame : List (BitVec 8)) : addressSum frame ≤ 65535 * 16 := by
  have hsum := wordSum_slice_le frame (addressStart frame) (addressStop frame)
  have hspan : (addressStop frame - addressStart frame + 1) / 2 ≤ 16 := by
    unfold addressStart addressStop
    split <;> omega
  exact hsum.trans (Nat.mul_le_mul_left 65535 hspan)

namespace CsumCalc

variable {zero : Bool} {s : CsumCalc} {i : CsumIn} {frame : List (BitVec 8)}
  {data : BitVec 8}

theorem Feeds.weight_toNat (hfeeds : Feeds zero i frame data) :
    (weight i).toNat = byteWeight frame.length data := by
  have hdata := data.isLt
  have hparity : i.inIdx.getLsbD 0 = decide (frame.length % 2 = 1) := by
    rw [BitVec.getLsbD, hfeeds.toNat, Nat.testBit_zero]
  rw [weight, hparity, hfeeds.inData, byteWeight]
  rcases Nat.mod_two_eq_zero_or_one frame.length with heven | hodd
  · simp [heven, Nat.shiftLeft_eq]
    omega
  · simp [hodd]
    omega

/-- An accumulator that has room for its sum adds a byte to it. -/
theorem acc_add {w : Nat} {acc : BitVec w} (hfeeds : Feeds zero i frame data)
    (hwidth : 16 ≤ w)
    (hroom : acc.toNat + byteWeight frame.length data < 2 ^ w) :
    (acc + (weight i).setWidth w).toNat = acc.toNat + byteWeight frame.length data := by
  have hpow : 2 ^ 16 ≤ 2 ^ w := Nat.pow_le_pow_right (by decide) hwidth
  have hlt := (weight i).isLt
  rw [BitVec.toNat_add, BitVec.toNat_setWidth, hfeeds.weight_toNat,
    Nat.mod_eq_of_lt (show byteWeight frame.length data < 2 ^ w by omega),
    Nat.mod_eq_of_lt hroom]

theorem EtherRegs.inPh_eq (hether : s.EtherRegs frame)
    (hlong : l3Offset frame < frame.length)
    (hip : isIp4 frame = true ∨ isIp6 frame = true) (hfeeds : Feeds zero i frame data) :
    s.inPh i = decide (addressStart frame ≤ frame.length ∧
      frame.length < addressStop frame) := by
  have hr := hether.r_toNat hfeeds hlong.le
  rw [inPh, inL3_eq_true hether hlong hip, hether.fam4_eq hlong, BitVec.ule_eq_decide,
    BitVec.ule_eq_decide, BitVec.ult_eq_decide, BitVec.ult_eq_decide, hr, addressStart,
    addressStop, Bool.eq_iff_iff]
  cases hip4 : isIp4 frame with
  | true =>
      rw [isIp6_of_isIp4 hip4]
      simp
      omega
  | false =>
      rw [hip.resolve_left (by simp [hip4])]
      simp
      omega

/-- The header sums of the bytes so far. -/
structure HeaderSums (zero : Bool) (s : CsumCalc) (frame : List (BitVec 8)) : Prop where
  ipAcc : isIp4 frame = true → 20 ≤ ihlBytes frame →
    s.ipAcc.toNat = headerSum zero frame
  phAcc : s.phAcc.toNat = addressSum frame

theorem HeaderSums.first (hfresh : s.Fresh) (hether : s.EtherRegs frame)
    (hlength : frame.length = l3Offset frame)
    (hip : isIp4 (frame ++ [data]) = true ∨ isIp6 (frame ++ [data]) = true)
    (hfeeds : Feeds zero i frame data) :
    (s.clkEdge i).HeaderSums zero (frame ++ [data]) := by
  have hedge : (s.clkEdge i).toCsumSums = s.nextSums i := rfl
  obtain ⟨hfam4, hfam6⟩ := hether.opening hlength hip
  have hmin := le_l3Offset frame
  have hoff := l3Offset_concat (show 14 ≤ frame.length by omega) data
  have heven := l3Offset_even frame
  have hin : s.inL3 = true := by
    rw [hether.inL3_eq, hfam4, hfam6, Bool.or_eq_true]
    exact hip
  have hr : s.r i = 0 := by
    rw [← BitVec.toNat_inj, hether.r_toNat hfeeds hlength.ge, hlength, Nat.sub_self]
    rfl
  have hipAcc : s.ipAcc = 0 := congrArg CsumSums.ipAcc hfresh.sums
  have hphAcc : s.phAcc = 0 := congrArg CsumSums.phAcc hfresh.sums
  have hhdr : s.hdrLen = 20 := congrArg CsumHeader.hdrLen hfresh.header
  simp only [nextSums, hfeeds.not_newFrame, hfeeds.valid, Bool.false_eq_true, if_false,
    if_true, hfeeds.zeroFields] at hedge
  constructor
  · intro hip4 hihl
    have hin4 : s.inIp4h i = true := by
      rw [inIp4h, hin, hfam4, hip4, hr, hhdr]
      rfl
    have hisIpf : s.isIpf i = false := by
      rw [isIpf, hr]
      simp
    have hroom := byteWeight_le frame.length data
    have hacc : s.ipAcc.toNat = 0 := by
      rw [hipAcc]
      rfl
    rw [congrArg CsumSums.ipAcc hedge]
    dsimp only
    rw [hin4, hisIpf, Bool.and_false, if_pos (by rfl),
      acc_add hfeeds (by decide) (by rw [hacc]; omega), hacc, headerSum, hoff,
      wordSum_zeroed_concat _ _ _ _ heven, slice_empty (by simp; omega), if_pos]
    · simp [wordSum]
    · rw [l4Offset, headerLength, isIp6_of_isIp4 hip4, hoff]
      simp
      omega
  · have hinPh : s.inPh i = false := by
      rw [inPh, hin, hr]
      cases s.fam4 <;> rfl
    rw [congrArg CsumSums.phAcc hedge]
    dsimp only
    rw [hinPh, if_neg (by decide), hphAcc, addressSum, slice_empty]
    · rfl
    · rw [addressStart, hoff, List.length_append, List.length_singleton, hlength]
      split <;> omega

theorem HeaderSums.step (hsums : s.HeaderSums zero frame) (hheader : s.HeaderRegs frame)
    (hether : s.EtherRegs frame) (hlong : l3Offset frame < frame.length)
    (hip : isIp4 frame = true ∨ isIp6 frame = true) (hfeeds : Feeds zero i frame data) :
    (s.clkEdge i).HeaderSums zero (frame ++ [data]) := by
  have hedge : (s.clkEdge i).toCsumSums = s.nextSums i := rfl
  have hin := inL3_eq_true hether hlong hip
  have hr := hether.r_toNat hfeeds hlong.le
  have heven := l3Offset_even frame
  have hoff := l3Offset_grown hlong data
  simp only [nextSums, hfeeds.not_newFrame, hfeeds.valid, Bool.false_eq_true, if_false,
    if_true, hfeeds.zeroFields] at hedge
  constructor
  · intro hip4 hihl
    rw [isIp4_grown hlong] at hip4
    rw [ihlBytes_grown hlong] at hihl
    have hacc := hsums.ipAcc hip4 hihl
    have hlt := headerSum_lt zero (frame ++ [data])
    have hmax := ihlBytes_le frame
    have hstop : l4Offset frame = l3Offset frame + ihlBytes frame := by
      rw [l4Offset, headerLength, isIp6_of_isIp4 hip4]
      rfl
    have hten := hether.r_beq hfeeds hlong.le (show 10 < 2 ^ 14 by decide)
    have heleven := hether.r_beq hfeeds hlong.le (show 11 < 2 ^ 14 by decide)
    have hin4 : s.inIp4h i = decide (frame.length < l4Offset frame) := by
      rw [inIp4h, hin, hether.fam4_eq hlong, hip4, BitVec.ult_eq_decide, hr,
        BitVec.toNat_setWidth, hheader.hdrLen hip4,
        Nat.mod_eq_of_lt (show ihlBytes frame < 2 ^ 14 by omega), hstop, Bool.eq_iff_iff]
      simp
      omega
    have hisIpf : s.isIpf i = (frame.length == l3Offset frame + 10 ||
        frame.length == l3Offset frame + 10 + 1) := by
      rw [isIpf, hether.fam4_eq hlong, hip4, Bool.true_and]
      exact congrArg₂ or hten heleven
    rw [congrArg CsumSums.ipAcc hedge]
    dsimp only
    rw [hin4, hisIpf]
    rw [headerSum, hoff, l4Offset_grown hlong, wordSum_zeroed_concat _ _ _ _ heven] at hlt ⊢
    rw [headerSum] at hacc
    rw [← hacc] at hlt ⊢
    simp only [hlong.le, true_and, Bool.and_eq_true, decide_eq_true_eq,
      Bool.not_eq_true'] at hlt ⊢
    split
    · rename_i hadds
      rw [if_pos hadds] at hlt
      exact acc_add hfeeds (by decide) hlt
    · rfl
  · have hacc := hsums.phAcc
    have hle := addressSum_le (frame ++ [data])
    have hinPh := hether.inPh_eq hlong hip hfeeds
    rw [congrArg CsumSums.phAcc hedge]
    dsimp only
    have hspan : addressStart (frame ++ [data]) = addressStart frame ∧
        addressStop (frame ++ [data]) = addressStop frame := by
      rw [addressStart, addressStart, addressStop, addressStop, isIp6_grown hlong, hoff]
      exact ⟨rfl, rfl⟩
    rw [addressSum, hspan.1, hspan.2, wordSum_slice_concat _ _ (addressStart_even frame)]
      at hle ⊢
    rw [addressSum] at hacc
    rw [← hacc] at hle
    rw [hinPh, ← hacc]
    simp only [decide_eq_true_eq]
    split
    · rename_i hadds
      rw [if_pos hadds] at hle
      exact acc_add hfeeds (by decide) (by omega)
    · rfl

end CsumCalc

end EmacZero
