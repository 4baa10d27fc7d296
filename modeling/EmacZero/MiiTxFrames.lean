/-
What the framer of `mii_tx_saf` sends for a stored frame: the encoding of its
bytes, and where in it the framer stands in each of its states.
-/
import EmacZero.EthMacTxFrames
import EmacZero.MiiTxSaf

namespace EmacZero

/-- A frame as the wire carries it: preamble, SFD, padded frame, FCS. -/
def encoding (data : List (BitVec 8)) : List (BitVec 8) :=
  preambleBytes ++ padded data ++ fcsOf (padded data)

/-- Every byte goes out its low nibble first. -/
def nibbles (bytes : List (BitVec 8)) : List (BitVec 4) :=
  bytes.flatMap fun byte => [byte.extractLsb' 0 4, byte.extractLsb' 4 4]

def MiiTxWord.bytes (frame : List MiiTxWord) : List (BitVec 8) :=
  frame.map MiiTxWord.data

section Encoding

variable {data : List (BitVec 8)} {index : Nat}

theorem length_preambleBytes : preambleBytes.length = 8 := rfl

theorem length_encoding (data : List (BitVec 8)) :
    (encoding data).length = 8 + (padded data).length + 4 := by
  rw [encoding, List.length_append, List.length_append, length_fcsOf,
    length_preambleBytes]

theorem encoding_preamble (hindex : index < 7) :
    (encoding data)[index]? = some 0x55 := by
  have hfront : index < (List.replicate EthMacTx.preambleLen (0x55 : BitVec 8)).length :=
    hindex
  rw [encoding, preambleBytes, List.append_assoc, List.append_assoc,
    List.getElem?_append_left hfront]
  exact List.getElem?_replicate_of_lt hindex

theorem encoding_sfd : (encoding data)[7]? = some 0xD5 := by
  rw [encoding, List.append_assoc]
  rfl

theorem encoding_padded (hindex : index < (padded data).length) :
    (encoding data)[8 + index]? = (padded data)[index]? := by
  rw [encoding, List.append_assoc, List.getElem?_append_right
    (by rw [length_preambleBytes]; exact Nat.le_add_right 8 index),
    length_preambleBytes, Nat.add_sub_cancel_left,
    List.getElem?_append_left hindex]

theorem encoding_data (hindex : index < data.length) :
    (encoding data)[8 + index]? = data[index]? := by
  have hlong : index < (padded data).length := by
    rw [length_padded]
    exact hindex.trans_le (Nat.le_max_left _ _)
  rw [encoding_padded hlong, padded, List.getElem?_append_left hindex]

theorem getElem?_padded (hindex : data.length ≤ index)
    (hshort : index < MiiTxFramer.minFrame) : (padded data)[index]? = some 0 := by
  rw [padded, List.getElem?_append_right hindex]
  exact List.getElem?_replicate_of_lt (Nat.sub_lt_sub_right hindex hshort)

theorem encoding_pad (hindex : data.length ≤ index)
    (hshort : index < MiiTxFramer.minFrame) :
    (encoding data)[8 + index]? = some 0 := by
  have hlong : index < (padded data).length := by
    rw [length_padded]
    exact hshort.trans_le (Nat.le_max_right _ _)
  rw [encoding_padded hlong, getElem?_padded hindex hshort]

theorem encoding_fcs :
    (encoding data)[8 + (padded data).length + index]? =
      (fcsOf (padded data))[index]? := by
  have hfront : (preambleBytes ++ padded data).length =
      8 + (padded data).length := by
    rw [List.length_append, length_preambleBytes]
  rw [encoding, List.getElem?_append_right
    (by rw [hfront]; exact Nat.le_add_right _ _), hfront,
    Nat.add_sub_cancel_left]

theorem take_padded (data : List (BitVec 8)) :
    (padded data).take data.length = data := by
  rw [padded, List.take_left]

theorem padded_of_long (hlong : MiiTxFramer.minFrame ≤ data.length) :
    padded data = data := by
  have hnone : EthMacTx.minFrame - data.length = 0 := Nat.sub_eq_zero_of_le hlong
  rw [padded, hnone, List.replicate_zero, List.append_nil]

theorem crcOf_take_add_one {byte : BitVec 8} (hbyte : data[index]? = some byte) :
    crcOf (data.take (index + 1)) = crcStep (crcOf (data.take index)) byte := by
  rw [List.take_add_one, hbyte, Option.toList_some, crcOf_concat]

theorem fcsOf_bytes (message : List (BitVec 8)) :
    fcsOf message = [(~~~crcOf message).extractLsb' 0 8,
      (~~~crcOf message).extractLsb' 8 8, (~~~crcOf message).extractLsb' 16 8,
      (~~~crcOf message).extractLsb' 24 8] :=
  EthMacTx.lowBytes_crc _

theorem nibbles_append (first second : List (BitVec 8)) :
    nibbles (first ++ second) = nibbles first ++ nibbles second :=
  List.flatMap_append

theorem length_nibbles (bytes : List (BitVec 8)) :
    (nibbles bytes).length = 2 * bytes.length := by
  induction bytes with
  | nil => rfl
  | cons byte rest ih =>
      rw [nibbles, List.flatMap_cons, List.length_append, List.length_cons,
        ← nibbles, ih]
      simp
      omega

/-- The nibbles before a byte, and those before its high nibble. -/
theorem take_nibbles {bytes : List (BitVec 8)} {byte : BitVec 8}
    (hbyte : bytes[index]? = some byte) :
    (nibbles bytes).take (2 * index + 1) =
        (nibbles bytes).take (2 * index) ++ [byte.extractLsb' 0 4] ∧
      (nibbles bytes).take (2 * (index + 1)) =
        (nibbles bytes).take (2 * index + 1) ++ [byte.extractLsb' 4 4] := by
  obtain ⟨hlt, hget⟩ := List.getElem?_eq_some_iff.mp hbyte
  have hsplit : bytes = bytes.take index ++ byte :: bytes.drop (index + 1) := by
    rw [← hget, List.cons_getElem_drop_succ, List.take_append_drop]
  have hfront : (nibbles (bytes.take index)).length = 2 * index := by
    rw [length_nibbles, List.length_take_of_le hlt.le]
  have hnibbles : nibbles bytes = nibbles (bytes.take index) ++
      byte.extractLsb' 0 4 :: byte.extractLsb' 4 4 ::
        nibbles (bytes.drop (index + 1)) := by
    conv_lhs => rw [hsplit]
    rw [nibbles_append]
    rfl
  constructor
  · rw [hnibbles, ← hfront, List.take_length_add_append, List.take_left]
    rfl
  · rw [hnibbles, Nat.mul_add, Nat.mul_one, ← hfront,
      List.take_length_add_append, List.take_length_add_append]
    simp

end Encoding

/-- Only the last word of the frame is marked as such. -/
def Marked (frame : List MiiTxWord) : Prop :=
  ∀ index word, frame[index]? = some word →
    (word.last = true ↔ index + 1 = frame.length)

namespace MiiTxFramer

/-- The framer is at a frame of which it has consumed `taken` words. -/
inductive Sending (framer : MiiTxFramer) (frame : List MiiTxWord) (taken : Nat) :
    Prop
  | pre (hst : framer.st = .pre) (hcnt : framer.cnt.toNat < preambleLen)
      (hcur : framer.cur = 0x55) (hrdEn : framer.rdEn = false)
      (htaken : taken = 0) : Sending framer frame taken
  | sfd (hst : framer.st = .sfd) (hcur : framer.cur = 0xD5)
      (hrdEn : framer.rdEn = false) (htaken : taken = 0) :
      Sending framer frame taken
  | data (hst : framer.st = .data)
      (hword : frame[framer.dcnt.toNat]? = some ⟨framer.curLast, framer.cur⟩)
      (hcrc : framer.crc =
        crcOf ((MiiTxWord.bytes frame).take framer.dcnt.toNat))
      (hrdEn : framer.rdEn = true → framer.nib = false)
      (htaken : taken + framer.rdEn.toNat = framer.dcnt.toNat + 1) :
      Sending framer frame taken
  | pad (hst : framer.st = .pad) (hlong : frame.length ≤ framer.dcnt.toNat)
      (hshort : framer.dcnt.toNat < minFrame) (hcur : framer.cur = 0)
      (hcrc : framer.crc =
        crcOf ((padded (MiiTxWord.bytes frame)).take framer.dcnt.toNat))
      (hrdEn : framer.rdEn = false) (htaken : taken = frame.length) :
      Sending framer frame taken
  | fcs (hst : framer.st = .fcs) (hcnt : framer.cnt.toNat < 4)
      (hcur : (fcsOf (padded (MiiTxWord.bytes frame)))[framer.cnt.toNat]? =
        some framer.cur)
      (hsaved : framer.crcSaved = ~~~crcOf (padded (MiiTxWord.bytes frame)))
      (hrdEn : framer.rdEn = false) (htaken : taken = frame.length) :
      Sending framer frame taken
  | ifg (hst : framer.st = .ifg) (hcnt : framer.cnt.toNat < ifgBytes)
      (hrdEn : framer.rdEn = false) (htaken : taken = frame.length) :
      Sending framer frame taken

/-- Which byte of the encoding is on its way out. -/
def place (framer : MiiTxFramer) (frame : List MiiTxWord) : Nat :=
  match framer.st with
  | .idle => 0
  | .pre => framer.cnt.toNat
  | .sfd => 7
  | .data | .pad => 8 + framer.dcnt.toNat
  | .fcs => 8 + (padded (MiiTxWord.bytes frame)).length + framer.cnt.toNat
  | .ifg => 8 + (padded (MiiTxWord.bytes frame)).length + 4

section Sending

variable {framer : MiiTxFramer} {frame : List MiiTxWord} {taken : Nat}

theorem length_bytes (frame : List MiiTxWord) :
    (MiiTxWord.bytes frame).length = frame.length :=
  List.length_map _

/-- The byte on its way out is the one of the encoding. -/
theorem Sending.cur (hsending : Sending framer frame taken)
    (hifg : framer.st ≠ .ifg) :
    (encoding (MiiTxWord.bytes frame))[framer.place frame]? =
      some framer.cur := by
  cases hsending with
  | pre hst hcnt hcur =>
      simp only [place, hst, hcur]
      exact encoding_preamble hcnt
  | sfd hst hcur =>
      simp only [place, hst, hcur]
      exact encoding_sfd
  | data hst hword =>
      have hlt := (List.getElem?_eq_some_iff.mp hword).1
      simp only [place, hst]
      rw [encoding_data (by rwa [length_bytes]), MiiTxWord.bytes,
        List.getElem?_map, hword]
      rfl
  | pad hst hlong hshort hcur =>
      simp only [place, hst, hcur]
      exact encoding_pad (by rwa [length_bytes]) hshort
  | fcs hst hcnt hcur =>
      simp only [place, hst]
      rw [encoding_fcs, hcur]
  | ifg hst => exact absurd hst hifg

theorem Sending.not_idle (hsending : Sending framer frame taken) :
    framer.st ≠ .idle := by
  cases hsending <;> simp_all

theorem cnt_succ {cnt : BitVec 4} (hcnt : cnt.toNat < 15) :
    (cnt + 1).toNat = cnt.toNat + 1 :=
  EthMacTx.toNat_succ hcnt (by decide)

theorem dcnt_succ {dcnt : BitVec 14} (hdcnt : dcnt.toNat < 16383) :
    (dcnt + 1).toNat = dcnt.toNat + 1 :=
  EthMacTx.toNat_succ hdcnt (by decide)

variable {rdData : MiiTxWord}

theorem Sending.preEdge (hst : framer.st = .pre)
    (hcnt : framer.cnt.toNat < preambleLen) :
    Sending framer.preEdge frame 0 ∧
      framer.preEdge.place frame = framer.place frame + 1 := by
  have hsucc := cnt_succ (hcnt.trans (by decide))
  rw [MiiTxFramer.preEdge]
  split
  · rename_i hlast
    refine ⟨.sfd rfl rfl rfl rfl, ?_⟩
    simp only [place, hst, hlast]
    rfl
  · rename_i hlast
    have hnext : framer.cnt.toNat + 1 < preambleLen := by omega
    refine ⟨.pre hst (hsucc.trans_lt hnext) rfl rfl rfl, ?_⟩
    simp only [place, nibbleEdge, hst, hsucc]

theorem Sending.sfdEdge (hst : framer.st = .sfd) (hnib : framer.nib = true)
    (hword : frame[0]? = some rdData) :
    Sending (framer.sfdEdge rdData) frame 0 ∧
      (framer.sfdEdge rdData).place frame = framer.place frame + 1 := by
  refine ⟨.data rfl hword rfl (fun _ => ?_) rfl, ?_⟩
  · simp [MiiTxFramer.sfdEdge, nibbleEdge, hnib]
  · simp only [place, hst]
    rfl

/-- The byte that goes out is one more byte under the CRC. -/
theorem crc_data (hword : frame[framer.dcnt.toNat]? = some ⟨framer.curLast, framer.cur⟩)
    (hcrc : framer.crc =
      crcOf ((MiiTxWord.bytes frame).take framer.dcnt.toNat)) :
    crcStep framer.crc framer.cur =
      crcOf ((MiiTxWord.bytes frame).take (framer.dcnt.toNat + 1)) := by
  have hbyte : (MiiTxWord.bytes frame)[framer.dcnt.toNat]? = some framer.cur := by
    rw [MiiTxWord.bytes, List.getElem?_map, hword]
    rfl
  rw [crcOf_take_add_one hbyte, hcrc]

theorem Sending.dataEdge (hmarked : Marked frame) (hfits : frame.length ≤ 16383)
    (hst : framer.st = .data) (hnib : framer.nib = true)
    (hword : frame[framer.dcnt.toNat]? = some ⟨framer.curLast, framer.cur⟩)
    (hcrc : framer.crc =
      crcOf ((MiiTxWord.bytes frame).take framer.dcnt.toNat))
    (htaken : taken = framer.dcnt.toNat + 1)
    (hnext : taken < frame.length → frame[taken]? = some rdData) :
    Sending (framer.dataEdge rdData) frame taken ∧
      (framer.dataEdge rdData).place frame = framer.place frame + 1 := by
  have hlt := (List.getElem?_eq_some_iff.mp hword).1
  have hsucc := dcnt_succ (hlt.trans_le hfits)
  have hlast := hmarked _ _ hword
  have hstep := crc_data hword hcrc
  have hbytes := length_bytes frame
  simp only [MiiTxFramer.dataEdge]
  split
  · rename_i hcur
    have hend : framer.dcnt.toNat + 1 = frame.length := hlast.mp hcur
    have hall : (MiiTxWord.bytes frame).take (framer.dcnt.toNat + 1) =
        MiiTxWord.bytes frame := by
      rw [hend, ← hbytes, List.take_length]
    split
    · rename_i hshort
      refine ⟨.pad rfl ?_ ?_ rfl ?_ rfl (htaken.trans hend), ?_⟩
      · exact (hsucc.trans hend).ge
      · exact hsucc.trans_lt hshort
      · have htake := take_padded (MiiTxWord.bytes frame)
        rw [hbytes, ← hend] at htake
        change crcStep framer.crc framer.cur = _
        rw [show (framer.dcnt + 1).toNat = _ from hsucc, htake, hstep, hall]
      · simp only [place, hst, hsucc]
        rfl
    · rename_i hshort
      have hlong : minFrame ≤ (MiiTxWord.bytes frame).length := by
        rw [hbytes, ← hend]
        exact Nat.le_of_not_lt hshort
      have hpadded := padded_of_long hlong
      have hfinal : framer.crcFinal = ~~~crcOf (padded (MiiTxWord.bytes frame)) := by
        rw [crcFinal, hstep, hall, hpadded]
      refine ⟨.fcs rfl (by decide : (0 : BitVec 4).toNat < 4) ?_ hfinal rfl
        (htaken.trans hend), ?_⟩
      · rw [fcsOf_bytes, ← hfinal]
        rfl
      · simp only [place, hst, hpadded, hbytes, ← hend]
        rfl
  · rename_i hcur
    have hmore : framer.dcnt.toNat + 1 ≠ frame.length := fun hend =>
      hcur (hlast.mpr hend)
    have hlt' : taken < frame.length := by omega
    refine ⟨.data hst ?_ ?_ (fun _ => ?_) ?_, ?_⟩
    · change frame[(framer.dcnt + 1).toNat]? = some rdData
      rw [hsucc, ← htaken]
      exact hnext hlt'
    · change crcStep framer.crc framer.cur =
        crcOf ((MiiTxWord.bytes frame).take (framer.dcnt + 1).toNat)
      rw [hsucc, hstep]
    · simp [nibbleEdge, hnib]
    · change taken + 1 = (framer.dcnt + 1).toNat + 1
      rw [hsucc, htaken]
    · simp only [place, nibbleEdge, hst, hsucc]
      rfl

theorem Sending.padEdge (hst : framer.st = .pad)
    (hlong : frame.length ≤ framer.dcnt.toNat)
    (hshort : framer.dcnt.toNat < minFrame)
    (hcrc : framer.crc =
      crcOf ((padded (MiiTxWord.bytes frame)).take framer.dcnt.toNat)) :
    Sending framer.padEdge frame frame.length ∧
      framer.padEdge.place frame = framer.place frame + 1 := by
  have hsucc := dcnt_succ (hshort.trans (by decide))
  have hbytes := length_bytes frame
  have hpad := getElem?_padded (hlong.trans_eq' hbytes.symm) hshort
  have hstep := crcOf_take_add_one hpad
  rw [← hcrc] at hstep
  simp only [MiiTxFramer.padEdge]
  split
  · rename_i hlast
    have hend : framer.dcnt.toNat + 1 = minFrame := by omega
    have hlength : (padded (MiiTxWord.bytes frame)).length = minFrame := by
      rw [length_padded, hbytes]
      exact Nat.max_eq_right (hlong.trans hshort.le)
    have hfinal : framer.crcPad0 = ~~~crcOf (padded (MiiTxWord.bytes frame)) := by
      rw [crcPad0, ← hstep, hend, ← hlength, List.take_length]
    refine ⟨.fcs rfl (by decide : (0 : BitVec 4).toNat < 4) ?_ hfinal rfl rfl, ?_⟩
    · rw [fcsOf_bytes, ← hfinal]
      rfl
    · simp only [place, hst, hlength, ← hend]
      rfl
  · rename_i hlast
    refine ⟨.pad hst ?_ ?_ rfl ?_ rfl rfl, ?_⟩
    · exact (hlong.trans (Nat.le_succ _)).trans_eq hsucc.symm
    · exact hsucc.trans_lt (Nat.lt_of_not_le hlast)
    · change crcStep framer.crc 0 =
        crcOf ((padded (MiiTxWord.bytes frame)).take (framer.dcnt + 1).toNat)
      rw [hsucc, hstep]
    · simp only [place, nibbleEdge, hst, hsucc]
      rfl

theorem Sending.fcsEdge (hst : framer.st = .fcs) (hcnt : framer.cnt.toNat < 4)
    (hsaved : framer.crcSaved = ~~~crcOf (padded (MiiTxWord.bytes frame))) :
    Sending framer.fcsEdge frame frame.length ∧
      framer.fcsEdge.place frame = framer.place frame + 1 := by
  have hcases : framer.cnt = 0 ∨ framer.cnt = 1 ∨ framer.cnt = 2 ∨
      framer.cnt = 3 := by
    simp only [← BitVec.toNat_inj]
    simp
    omega
  have hbytes := fcsOf_bytes (padded (MiiTxWord.bytes frame))
  rw [← hsaved] at hbytes
  have hkept : framer.fcsEdge.crcSaved =
      ~~~crcOf (padded (MiiTxWord.bytes frame)) := by
    rw [← hsaved, MiiTxFramer.fcsEdge]
    split <;> rfl
  rcases hcases with hzero | hone | htwo | hthree
  · refine ⟨.fcs ?_ ?_ ?_ hkept ?_ rfl, ?_⟩ <;>
      simp [MiiTxFramer.fcsEdge, nibbleEdge, place, hst, hzero, hbytes]
  · refine ⟨.fcs ?_ ?_ ?_ hkept ?_ rfl, ?_⟩ <;>
      simp [MiiTxFramer.fcsEdge, nibbleEdge, place, hst, hone, hbytes]
  · refine ⟨.fcs ?_ ?_ ?_ hkept ?_ rfl, ?_⟩ <;>
      simp [MiiTxFramer.fcsEdge, nibbleEdge, place, hst, htwo, hbytes]
  · refine ⟨.ifg ?_ ?_ ?_ rfl, ?_⟩ <;>
      simp [MiiTxFramer.fcsEdge, nibbleEdge, place, hst, hthree, ifgBytes]

theorem Sending.rdEn_of_nib (hsending : Sending framer frame taken)
    (hnib : framer.nib = true) : framer.rdEn = false := by
  cases hsending with
  | data hst hword hcrc hrdEn =>
      by_contra hrd
      rw [hrdEn (by simpa using hrd)] at hnib
      exact Bool.false_ne_true hnib
  | _ => assumption

/-- A word is asked for only while the frame has one. -/
theorem Sending.taken_lt (hsending : Sending framer frame taken)
    (hrdEn : framer.rdEn = true) : taken < frame.length := by
  cases hsending with
  | data hst hword hcrc _ htaken =>
      have hlt := (List.getElem?_eq_some_iff.mp hword).1
      rw [hrdEn, Bool.toNat_true] at htaken
      omega
  | _ => simp_all

/-- In the cycle of the high nibble the framer goes on to the next byte. -/
theorem Sending.byteEdge (hmarked : Marked frame) (hfits : frame.length ≤ 16383)
    (hsending : Sending framer frame taken) (hnib : framer.nib = true)
    (hnext : taken < frame.length → frame[taken]? = some rdData)
    (hne : frame ≠ []) (hifg : framer.st ≠ .ifg) :
    Sending (framer.byteEdge rdData) frame taken ∧
      (framer.byteEdge rdData).place frame = framer.place frame + 1 := by
  have hidle := hsending.rdEn_of_nib hnib
  rw [MiiTxFramer.byteEdge]
  cases hsending with
  | pre hst hcnt hcur hrdEn htaken =>
      rw [hst, htaken]
      exact Sending.preEdge hst hcnt
  | sfd hst hcur hrdEn htaken =>
      rw [htaken] at hnext
      rw [hst, htaken]
      exact Sending.sfdEdge hst hnib (hnext (List.length_pos_iff.mpr hne))
  | data hst hword hcrc hrdEn htaken =>
      rw [hidle, Bool.toNat_false, Nat.add_zero] at htaken
      rw [hst]
      exact Sending.dataEdge hmarked hfits hst hnib hword hcrc htaken hnext
  | pad hst hlong hshort hcur hcrc hrdEn htaken =>
      rw [hst, htaken]
      exact Sending.padEdge hst hlong hshort hcrc
  | fcs hst hcnt hcur hsaved hrdEn htaken =>
      rw [hst, htaken]
      exact Sending.fcsEdge hst hcnt hsaved
  | ifg hst => exact absurd hst hifg

/-- In the cycle of the low nibble a word that was asked for is consumed. -/
theorem Sending.nibbleEdge (hsending : Sending framer frame taken) :
    Sending framer.nibbleEdge frame (taken + framer.rdEn.toNat) ∧
      framer.nibbleEdge.place frame = framer.place frame := by
  refine ⟨?_, rfl⟩
  cases hsending with
  | pre hst hcnt hcur hrdEn htaken =>
      exact .pre hst hcnt hcur rfl (by simp [hrdEn, htaken])
  | sfd hst hcur hrdEn htaken => exact .sfd hst hcur rfl (by simp [hrdEn, htaken])
  | data hst hword hcrc hrdEn htaken =>
      exact .data hst hword hcrc (fun hrd => absurd hrd Bool.false_ne_true) htaken
  | pad hst hlong hshort hcur hcrc hrdEn htaken =>
      exact .pad hst hlong hshort hcur hcrc rfl (by simp [hrdEn, htaken])
  | fcs hst hcnt hcur hsaved hrdEn htaken =>
      exact .fcs hst hcnt hcur hsaved rfl (by simp [hrdEn, htaken])
  | ifg hst hcnt hrdEn htaken =>
      exact .ifg hst hcnt rfl (by simp [hrdEn, htaken])

/-- The gap runs to its end. -/
theorem Sending.ifgEdge (hst : framer.st = .ifg)
    (hcnt : framer.cnt.toNat < ifgBytes) (hlast : framer.cnt.toNat ≠ ifgBytes - 1) :
    Sending framer.ifgEdge frame frame.length ∧
      framer.ifgEdge.cnt.toNat = framer.cnt.toNat + 1 := by
  have hsucc := cnt_succ (hcnt.trans (by decide))
  have hnext : framer.cnt.toNat + 1 < ifgBytes := by omega
  rw [MiiTxFramer.ifgEdge, if_neg hlast]
  exact ⟨.ifg hst (hsucc.trans_lt hnext) rfl rfl, hsucc⟩

variable {ctlReady datReady : Bool}

theorem edge_idle (hst : framer.st = .idle) :
    framer.edge rdData ctlReady datReady = framer.idleEdge ctlReady datReady := by
  rw [edge, if_pos hst]

theorem edge_low (hst : framer.st ≠ .idle) (hnib : framer.nib = false) :
    framer.edge rdData ctlReady datReady = framer.nibbleEdge := by
  rw [edge, if_neg hst, hnib, if_neg Bool.false_ne_true]

theorem edge_high (hst : framer.st ≠ .idle) (hnib : framer.nib = true) :
    framer.edge rdData ctlReady datReady = framer.byteEdge rdData := by
  rw [edge, if_neg hst, hnib, if_pos rfl]

theorem done_iff : framer.done = true ↔
    framer.st = .ifg ∧ framer.nib = true ∧ framer.cnt.toNat = ifgBytes - 1 := by
  simp [done, and_assoc]

/-- A frame is taken up from its first byte. -/
theorem sending_idleEdge (hst : (framer.idleEdge ctlReady datReady).st ≠ .idle)
    (hidle : framer.st = .idle) :
    Sending (framer.idleEdge ctlReady datReady) frame 0 := by
  rw [idleEdge] at hst ⊢
  split
  · exact .pre rfl (by decide : (0 : BitVec 4).toNat < preambleLen) rfl rfl rfl
  · rename_i hnone
    rw [if_neg hnone] at hst
    exact absurd hidle hst

/-- While the frame and its gap last the framer stays at it. -/
theorem Sending.edge (hmarked : Marked frame) (hfits : frame.length ≤ 16383)
    (hne : frame ≠ []) (hsending : Sending framer frame taken)
    (hnext : framer.nib = true → taken < frame.length → frame[taken]? = some rdData)
    (hdone : framer.done = false) :
    Sending (framer.edge rdData ctlReady datReady) frame
      (taken + framer.rdEn.toNat) := by
  have hst := hsending.not_idle
  cases hnib : framer.nib with
  | false =>
      rw [edge_low hst hnib]
      exact hsending.nibbleEdge.1
  | true =>
      rw [edge_high hst hnib, hsending.rdEn_of_nib hnib]
      by_cases hifg : framer.st = .ifg
      · have hlast : framer.cnt.toNat ≠ ifgBytes - 1 := fun hcnt =>
          Bool.false_ne_true (hdone.symm.trans (done_iff.mpr ⟨hifg, hnib, hcnt⟩))
        cases hsending with
        | ifg _ hcnt _ htaken =>
            rw [MiiTxFramer.byteEdge, hifg, htaken]
            exact (Sending.ifgEdge hifg hcnt hlast).1
        | _ => simp_all
      · exact (hsending.byteEdge hmarked hfits hnib (hnext hnib) hne hifg).1

/-- The end of the gap. -/
theorem Sending.edge_done (hsending : Sending framer frame taken)
    (hdone : framer.done = true) :
    (framer.edge rdData ctlReady datReady).st = .idle ∧
      (framer.edge rdData ctlReady datReady).rdEn = false ∧
      framer.rdEn = false ∧ taken = frame.length := by
  obtain ⟨hifg, hnib, hcnt⟩ := done_iff.mp hdone
  have hst := hsending.not_idle
  rw [edge_high hst hnib, MiiTxFramer.byteEdge, hifg]
  refine ⟨by simp [MiiTxFramer.ifgEdge, hcnt], ?_, hsending.rdEn_of_nib hnib, ?_⟩
  · simp only [MiiTxFramer.ifgEdge]
    split <;> rfl
  · cases hsending <;> simp_all

/-- The source is chosen when a frame is taken up, and kept. -/
theorem edge_srcCtl (hst : framer.st ≠ .idle) :
    (framer.edge rdData ctlReady datReady).srcCtl = framer.srcCtl := by
  rw [MiiTxFramer.edge, if_neg hst]
  split
  · rw [MiiTxFramer.byteEdge]
    split
    · rfl
    · rw [MiiTxFramer.preEdge]
      split <;> rfl
    · rfl
    · rw [MiiTxFramer.dataEdge]
      split
      · split <;> rfl
      · rfl
    · rw [MiiTxFramer.padEdge]
      split <;> rfl
    · rw [MiiTxFramer.fcsEdge]
      split <;> rfl
    · rw [MiiTxFramer.ifgEdge]
      split <;> rfl
  · rfl

/-- Nothing is asked for between frames. -/
theorem edge_rdEn (hst : (framer.edge rdData ctlReady datReady).st = .idle) :
    (framer.edge rdData ctlReady datReady).rdEn = false := by
  rw [MiiTxFramer.edge] at hst ⊢
  split
  · rw [idleEdge]
    split <;> rfl
  · rename_i hbusy
    rw [if_neg hbusy] at hst
    split
    · rename_i hnib
      rw [if_pos hnib] at hst
      rw [MiiTxFramer.byteEdge] at hst ⊢
      cases hstate : framer.st with
      | idle => exact absurd hstate hbusy
      | pre =>
          simp only [MiiTxFramer.preEdge]
          split <;> rfl
      | sfd =>
          rw [hstate] at hst
          cases hst
      | data =>
          rw [hstate] at hst
          simp only [MiiTxFramer.dataEdge] at hst ⊢
          split
          · split <;> rfl
          · rename_i hmore
            rw [if_neg hmore] at hst
            exact absurd (hstate.symm.trans hst) (by decide)
      | pad =>
          simp only [MiiTxFramer.padEdge]
          split <;> rfl
      | fcs =>
          simp only [MiiTxFramer.fcsEdge]
          split <;> rfl
      | ifg =>
          simp only [MiiTxFramer.ifgEdge]
          split <;> rfl
    · rfl

end Sending

end MiiTxFramer

end EmacZero
