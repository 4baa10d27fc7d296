/-
A frame with its checksums written into it: nothing else of it changes, its layout
stays, and both checksums verify.
-/
import EmacZero.CsumCalcSums
import EmacZero.CsumCalcWhole

namespace EmacZero

/-- The frame with a big-endian word in place of the bytes there. -/
def putWord (frame : List (BitVec 8)) (pos : Nat) (word : BitVec 16) : List (BitVec 8) :=
  (frame.set pos (word.extractLsb' 8 8)).set (pos + 1) (word.extractLsb' 0 8)

/-- The checksum that goes with a sum. -/
def complement (sum : Nat) : BitVec 16 := BitVec.ofNat 16 (65535 - onesFold 16 sum)

def ipChecksum (frame : List (BitVec 8)) : BitVec 16 := complement (headerSum true frame)

/-- A UDP checksum that computes to 0 is all ones. -/
def l4Checksum (frame : List (BitVec 8)) : BitVec 16 :=
  if protocol frame = 17 ∧ complement (l4Sum true frame) = 0 then 0xFFFF
  else complement (l4Sum true frame)

/-- The frame with its IPv4 header checksum. -/
def ipInserted (frame : List (BitVec 8)) : List (BitVec 8) :=
  if isIp4 frame then putWord frame (l3Offset frame + 10) (ipChecksum frame) else frame

/-- The frame with the checksums of the datagram that it carries. -/
def inserted (frame : List (BitVec 8)) : List (BitVec 8) :=
  if datagramWhole frame then
    if l4Covered frame then putWord (ipInserted frame) (csumPos frame) (l4Checksum frame)
    else ipInserted frame
  else frame

section Bytes

variable {frame other : List (BitVec 8)} {start stop pos : Nat}

@[simp] theorem length_putWord (frame : List (BitVec 8)) (pos : Nat) (word : BitVec 16) :
    (putWord frame pos word).length = frame.length := by
  simp [putWord]

theorem byteAt_set (frame : List (BitVec 8)) (pos : Nat) (data : BitVec 8) (offset : Nat)
    (hin : pos < frame.length) :
    byteAt (frame.set pos data) offset = if offset = pos then data else byteAt frame offset := by
  unfold byteAt
  rw [List.getD_eq_getElem?_getD, List.getD_eq_getElem?_getD, List.getElem?_set]
  by_cases heq : offset = pos
  · rw [heq]
    simp [hin]
  · rw [if_neg (Ne.symm heq), if_neg heq]

theorem byteAt_putWord (word : BitVec 16) (offset : Nat) (hin : pos + 1 < frame.length) :
    byteAt (putWord frame pos word) offset =
      if offset = pos then word.extractLsb' 8 8
      else if offset = pos + 1 then word.extractLsb' 0 8
      else byteAt frame offset := by
  rw [putWord, byteAt_set _ _ _ _ (by simpa using hin), byteAt_set _ _ _ _ (by omega)]
  by_cases hlow : offset = pos + 1
  · rw [if_pos hlow, if_neg (by omega), if_pos hlow]
  · rw [if_neg hlow, if_neg hlow]

theorem wordAt_putWord (word : BitVec 16) (hin : pos + 1 < frame.length) :
    wordAt (putWord frame pos word) pos = word := by
  rw [wordAt, byteAt_putWord word pos hin, byteAt_putWord word (pos + 1) hin, if_pos rfl,
    if_neg (by omega), if_pos rfl]
  exact append_extract word

theorem getElem_slice {index : Nat} (hindex : index < (slice frame start stop).length) :
    (slice frame start stop)[index] = byteAt frame (start + index) := by
  have hlength := hindex
  rw [length_slice] at hlength
  rw [byteAt, List.getD_eq_getElem _ _ (by omega)]
  simp only [slice, List.getElem_drop, List.getElem_take]

/-- A slice depends on the bytes in it only. -/
theorem slice_congr (hlength : other.length = frame.length)
    (hsame : ∀ offset, start ≤ offset → offset < stop → byteAt other offset = byteAt frame offset) :
    slice other start stop = slice frame start stop := by
  apply List.ext_getElem
  · rw [length_slice, length_slice, hlength]
  · intro index hleft hright
    rw [getElem_slice hleft, getElem_slice hright]
    rw [length_slice] at hleft
    exact hsame _ (by omega) (by omega)

theorem slice_split {middle : Nat} (hfirst : start ≤ middle) (hsecond : middle ≤ stop) :
    slice frame start stop = slice frame start middle ++ slice frame middle stop := by
  apply List.ext_getElem
  · rw [List.length_append, length_slice, length_slice, length_slice]
    omega
  · intro index hleft hright
    rw [getElem_slice hleft, List.getElem_append]
    split
    · rw [getElem_slice]
    · rename_i hlate
      rw [getElem_slice]
      rw [length_slice] at hlate hleft
      congr 1
      rw [length_slice]
      omega

theorem wordSum_append (first second : List (BitVec 8)) (heven : first.length % 2 = 0) :
    wordSum (first ++ second) = wordSum first + wordSum second := by
  induction first using wordSum.induct with
  | case1 => simp [wordSum]
  | case2 high => simp at heven
  | case3 high low rest ih =>
      simp only [List.length_cons] at heven
      simp only [List.cons_append, wordSum, ih (by omega)]
      omega

theorem byteAt_zeroed (frame : List (BitVec 8)) (pos offset : Nat) :
    byteAt (zeroed true pos frame) offset =
      if offset = pos ∨ offset = pos + 1 then 0 else byteAt frame offset := by
  unfold byteAt zeroed
  rw [List.getD_eq_getElem?_getD, List.getD_eq_getElem?_getD, List.getElem?_mapIdx]
  cases hbyte : frame[offset]? with
  | none => simp
  | some data => simp

theorem zeroed_false (frame : List (BitVec 8)) (pos : Nat) : zeroed false pos frame = frame := by
  apply List.ext_getElem
  · rw [length_zeroed]
  · intro index hleft hright
    simp [zeroed]

theorem wordSum_word (hin : pos + 1 < frame.length) :
    wordSum (slice frame pos (pos + 2)) = (wordAt frame pos).toNat := by
  have hslice : slice frame pos (pos + 2) = [byteAt frame pos, byteAt frame (pos + 1)] := by
    apply List.ext_getElem
    · rw [length_slice, List.length_cons, List.length_singleton]
      omega
    · intro index hleft hright
      rw [getElem_slice hleft]
      match index, hright with
      | 0, _ => rfl
      | 1, _ => rfl
  rw [hslice, wordAt, BitVec.toNat_append, ← Nat.shiftLeft_add_eq_or_of_lt (BitVec.isLt _),
    Nat.shiftLeft_eq]
  simp only [wordSum]
  omega

/-- A sum over a range is the sum with a field as zero, and what the field holds. -/
theorem wordSum_field (hlength : other.length = frame.length) (hstart : start ≤ pos)
    (hstop : pos + 2 ≤ stop) (hin : pos + 1 < frame.length) (heven : (pos - start) % 2 = 0)
    (hsame : ∀ offset, start ≤ offset → offset < stop → offset ≠ pos → offset ≠ pos + 1 →
      byteAt other offset = byteAt frame offset) :
    wordSum (slice other start stop) =
      wordSum (slice (zeroed true pos frame) start stop) + (wordAt other pos).toNat := by
  have hzeroed : (zeroed true pos frame).length = frame.length := length_zeroed _ _ _
  have hfirst : slice other start pos = slice (zeroed true pos frame) start pos := by
    apply slice_congr (hlength.trans hzeroed.symm)
    intro offset hge hlt
    rw [byteAt_zeroed, if_neg (by omega)]
    exact hsame offset hge (by omega) (by omega) (by omega)
  have hlast : slice other (pos + 2) stop = slice (zeroed true pos frame) (pos + 2) stop := by
    apply slice_congr (hlength.trans hzeroed.symm)
    intro offset hge hlt
    rw [byteAt_zeroed, if_neg (by omega)]
    exact hsame offset (by omega) hlt (by omega) (by omega)
  have hzero : wordAt (zeroed true pos frame) pos = 0 := by
    rw [wordAt, byteAt_zeroed, byteAt_zeroed, if_pos (Or.inl rfl), if_pos (Or.inr rfl)]
    rfl
  have hparts (bytes : List (BitVec 8)) (hsize : bytes.length = frame.length) :
      wordSum (slice bytes start stop) = wordSum (slice bytes start pos) +
        ((wordAt bytes pos).toNat + wordSum (slice bytes (pos + 2) stop)) := by
    rw [slice_split hstart (by omega), slice_split (Nat.le_add_right pos 2) hstop,
      wordSum_append, wordSum_append, wordSum_word (by omega)]
    · rw [length_slice]
      omega
    · rw [length_slice]
      omega
  rw [hparts other hlength, hparts _ hzeroed, hfirst, hlast, hzero]
  change _ + ((wordAt other pos).toNat + _) = _ + (0 + _) + _
  omega

end Bytes

end EmacZero
