/-
The parser of `net_rx` behind the bytes of a frame so far.
-/
import EmacZero.NetMessages

namespace EmacZero

/-! Fields that later bytes do not change. -/

namespace NetFrame

variable {frame : List (BitVec 8)}

theorem ihl_append (hlong : 15 ≤ frame.length) (rest : List (BitVec 8)) :
    ihl (frame ++ rest) = ihl frame := by
  rw [ihl, ihl, byteAt_append hlong]

theorem hdrEnd_append (hlong : 15 ≤ frame.length) (rest : List (BitVec 8)) :
    hdrEnd (frame ++ rest) = hdrEnd frame := by
  rw [hdrEnd, hdrEnd, ihl_append hlong]

theorem versionOk_append (hlong : 15 ≤ frame.length) (rest : List (BitVec 8)) :
    versionOk (frame ++ rest) = versionOk frame := by
  rw [versionOk, versionOk, ihl_append hlong, byteAt_append hlong]

theorem total_append (hlong : 18 ≤ frame.length) (rest : List (BitVec 8)) :
    total (frame ++ rest) = total frame := by
  rw [total, total, wordAt_append (by omega)]

theorem proto_append (hlong : 24 ≤ frame.length) (rest : List (BitVec 8)) :
    proto (frame ++ rest) = proto frame :=
  byteAt_append hlong rest

theorem lengthOk_append (hlong : 24 ≤ frame.length) (rest : List (BitVec 8)) :
    lengthOk (frame ++ rest) = lengthOk frame := by
  rw [lengthOk, lengthOk, ihl_append (by omega), total_append (by omega),
    proto_append hlong]

theorem headerOk_append (hlong : 15 ≤ frame.length) (hend : hdrEnd frame ≤ frame.length)
    (rest : List (BitVec 8)) : headerOk (frame ++ rest) = headerOk frame := by
  rw [headerOk, headerOk, hdrEnd_append hlong, slice_append hend]

/-- The IHL reaches past the addresses. -/
theorem le_hdrEnd (hversion : versionOk frame = true) : 34 ≤ hdrEnd frame := by
  rw [versionOk, Bool.and_eq_true, decide_eq_true_iff] at hversion
  exact Nat.add_le_add_left hversion.2 14

theorem hdrEnd_le (frame : List (BitVec 8)) : hdrEnd frame ≤ 74 := by
  have hlt := ((byteAt frame 14).extractLsb' 0 4).isLt
  rw [hdrEnd, ihl]
  omega

/-- A frame that ends in its header has no payload. -/
theorem sound_short (hshort : frame.length ≤ hdrEnd frame) : sound frame = false := by
  have hbody : body frame = [] := slice_empty hshort _
  have hpayload : payload frame = [] := by
    rw [payload, hbody]
    split <;> rfl
  rw [sound, hpayload]
  exact Bool.and_false _

end NetFrame

namespace NetBeats

open NetFrame

variable {beats : List NetRxIn}

theorem bytes_append (beats more : List NetRxIn) :
    bytes (beats ++ more) = bytes beats ++ bytes more :=
  List.map_append

theorem bytes_concat (beats : List NetRxIn) (i : NetRxIn) :
    bytes (beats ++ [i]) = bytes beats ++ [i.tdata] :=
  List.map_append

theorem length_bytes (beats : List NetRxIn) : (bytes beats).length = beats.length :=
  List.length_map _

/-- The header is over and nothing in it but its sum speaks against the frame. -/
structure Accepted (beats : List NetRxIn) : Prop where
  type : wordAt (bytes beats) 12 = 0x0800
  version : versionOk (bytes beats) = true
  whole : hdrEnd (bytes beats) ≤ (bytes beats).length
  length : lengthOk (bytes beats) = true
  dst : toUs (ourIp beats) (dstTaken beats) = true

/-- Whatever follows, the frame delivers nothing. -/
def Refused (beats : List NetRxIn) : Prop := ∀ more, delivered (beats ++ more) = none

theorem Refused.append (hrefused : Refused beats) (more : List NetRxIn) :
    Refused (beats ++ more) := by
  intro rest
  rw [List.append_assoc]
  exact hrefused (more ++ rest)

theorem delivered_of_not_sound (hsound : sound (bytes beats) = false) :
    delivered beats = none := by
  rw [delivered, hsound]
  rfl

theorem refused_type (hlong : 14 ≤ beats.length) (htype : wordAt (bytes beats) 12 ≠ 0x0800) :
    Refused beats := by
  intro more
  apply delivered_of_not_sound
  have hlength := length_bytes beats
  rw [sound, bytes_append, wordAt_append (by omega), beq_eq_false_iff_ne.mpr htype]
  rfl

theorem refused_version (hlong : 15 ≤ beats.length)
    (hversion : versionOk (bytes beats) = false) : Refused beats := by
  intro more
  apply delivered_of_not_sound
  have hlength := length_bytes beats
  rw [sound, bytes_append, versionOk_append (by omega), hversion, Bool.and_false]
  rfl

theorem ourIp_append (hlong : 15 ≤ beats.length)
    (hend : hdrEnd (bytes beats) ≤ beats.length) (more : List NetRxIn) :
    ourIp (beats ++ more) = ourIp beats := by
  have hlength := length_bytes beats
  have hpos : 0 < hdrEnd (bytes beats) := Nat.add_pos_left (by decide) _
  rw [ourIp, ourIp, bytes_append, hdrEnd_append (by omega), List.map_append,
    List.getD_append _ _ _ _ (by rw [List.length_map]; omega)]

theorem dstTaken_append (hlong : 34 ≤ beats.length)
    (hend : hdrEnd (bytes beats) ≤ beats.length) (more : List NetRxIn) :
    dstTaken (beats ++ more) = dstTaken beats := by
  have hlength := length_bytes beats
  have hpos : 0 < hdrEnd (bytes beats) := Nat.add_pos_left (by decide) _
  rw [dstTaken, dstTaken, bytes_append, hdrEnd_append (by omega), byteAt_append (by omega),
    byteAt_append (by omega), byteAt_append (by omega), byteAt_append (by omega)]

theorem refused_header (hversion : versionOk (bytes beats) = true)
    (hend : hdrEnd (bytes beats) ≤ beats.length)
    (hno : lengthOk (bytes beats) = false ∨ headerOk (bytes beats) = false ∨
      toUs (ourIp beats) (dstTaken beats) = false) : Refused beats := by
  have hlong := (le_hdrEnd hversion).trans hend
  have hlength := length_bytes beats
  intro more
  rcases hno with hno | hno | hno
  · apply delivered_of_not_sound
    rw [sound, bytes_append, lengthOk_append (by omega), hno, Bool.and_false]
    rfl
  · apply delivered_of_not_sound
    rw [sound, bytes_append, headerOk_append (by omega) (by omega), hno, Bool.and_false]
    rfl
  · rw [delivered, ourIp_append (by omega) hend, dstTaken_append hlong hend, hno,
      Bool.and_false]
    rfl

theorem Accepted.long (haccepted : Accepted beats) : 34 ≤ beats.length := by
  have hend := (le_hdrEnd haccepted.version).trans haccepted.whole
  rwa [length_bytes] at hend

theorem Accepted.append (haccepted : Accepted beats) (more : List NetRxIn) :
    Accepted (beats ++ more) := by
  have hlong := haccepted.long
  have hwhole := haccepted.whole
  have hlength := length_bytes beats
  have hbytes := bytes_append beats more
  constructor
  · rw [hbytes, wordAt_append (by omega)]
    exact haccepted.type
  · rw [hbytes, versionOk_append (by omega)]
    exact haccepted.version
  · rw [hbytes, hdrEnd_append (by omega), List.length_append]
    exact Nat.le_add_right_of_le hwhole
  · rw [hbytes, lengthOk_append (by omega)]
    exact haccepted.length
  · rw [ourIp_append (by omega) (by omega), dstTaken_append hlong (by omega)]
    exact haccepted.dst

end NetBeats

/-! What the parser holds. -/

section Parses

open NetFrame NetBeats NetMessage

/-- A header byte that has come is in its register. -/
def Taken (bytes : List (BitVec 8)) (place : Nat) (field : BitVec 8) : Prop :=
  place < bytes.length → field = byteAt bytes place

/-- The parser in an IPv4 header. -/
structure InHeader (rx : NetRx) (bytes : List (BitVec 8)) : Prop where
  state : rx.state = .ipHdr
  type : wordAt bytes 12 = 0x0800
  byteCnt : rx.byteCnt.toNat + 14 = bytes.length
  begun : 14 < bytes.length →
    versionOk bytes = true ∧ rx.ipHdrBytes.toNat = ihl bytes ∧ bytes.length < hdrEnd bytes
  hdrSum : rx.hdrSum.toNat = wordSum (bytes.drop 14)
  clear : rx.plSum = 0 ∧ rx.plOdd = false ∧ rx.holdV = false
  totHi : Taken bytes 16 (rx.ipTotLen.extractLsb' 8 8)
  totLo : Taken bytes 17 (rx.ipTotLen.extractLsb' 0 8)
  proto : Taken bytes 23 rx.ipProtocol
  dst3 : Taken bytes 30 (rx.dstIpBuf.extractLsb' 24 8)
  dst2 : Taken bytes 31 (rx.dstIpBuf.extractLsb' 16 8)
  dst1 : Taken bytes 32 (rx.dstIpBuf.extractLsb' 8 8)

/-- The last byte of a message is held, and those before it have come out. -/
structure Holds (rx : NetRx) (icmp : Bool) (message : List (BitVec 8))
    (shown : List NetRxOut) : Prop where
  holdV : rx.holdV = !message.isEmpty
  holdD : ∀ data ∈ message.getLast?, rx.holdD = data
  shown : shown = opening icmp message

/-- The parser behind the header of a frame that it takes. -/
structure InPayload (rx : NetRx) (beats : List NetRxIn) (shown : List NetRxOut) : Prop where
  accepted : Accepted beats
  state : rx.state =
    if proto (bytes beats) = 1 then .icmpData
    else if beats.length < hdrEnd (bytes beats) + 8 then .udpHdr
    else .udpData
  byteCnt : rx.state = .udpHdr → rx.byteCnt.toNat + hdrEnd (bytes beats) = beats.length
  rem : rx.rem.toNat + (body (bytes beats)).length = total (bytes beats) - ihl (bytes beats)
  plSum : rx.plSum.toNat = wordSum (body (bytes beats))
  plOdd : rx.plOdd = ((body (bytes beats)).length % 2 == 1)
  holds : Holds rx (proto (bytes beats) == 1) (payload (bytes beats)) shown

/-- The parser behind the beats of a frame so far, and what has come out of it. -/
inductive Parses (rx : NetRx) (beats : List NetRxIn) (shown : List NetRxOut) : Prop where
  | ethDst (hlength : beats.length < 6) (hstate : rx.state = .ethDst)
      (hcount : rx.byteCnt.toNat = beats.length) (hshown : shown = [])
  | ethSrc (hlength : beats.length < 12) (hstate : rx.state = .ethSrc)
      (hcount : rx.byteCnt.toNat + 6 = beats.length) (hshown : shown = [])
  | ethType (hlength : beats.length < 14) (hstate : rx.state = .ethType)
      (hcount : rx.byteCnt.toNat + 12 = beats.length)
      (htype : Taken (bytes beats) 12 (rx.ethertype.extractLsb' 8 8)) (hshown : shown = [])
  | header (hin : InHeader rx (bytes beats)) (hshown : shown = [])
  | payload (hin : InPayload rx beats shown)
  | refused (hstate : rx.state = .drop ∨ rx.state = .arpPayload) (hrefused : Refused beats)
      (hshown : shown = [])

/-- The verdict on the header is due, or has been good. -/
def Judged (rx : NetRx) (beats : List NetRxIn) : Prop :=
  if rx.inPayload then
    rx.hdrChk = true ∧ beats.length = hdrEnd (bytes beats) ∧
        rx.hdrSum.toNat = wordSum (slice (bytes beats) 14 (hdrEnd (bytes beats))) ∨
      rx.hdrChk = false ∧ headerOk (bytes beats) = true
  else rx.hdrChk = false

variable {rx : NetRx} {beats : List NetRxIn} {shown : List NetRxOut} {i : NetRxIn}
  {bytes : List (BitVec 8)}

theorem Taken.step {place : Nat} {field data : BitVec 8} (htaken : Taken bytes place field)
    {count index : BitVec 14} (hcount : count.toNat + 14 = bytes.length)
    (hplace : index.toNat + 14 = place) :
    Taken (bytes ++ [data]) place (NetRx.fieldAt count index data field) := by
  intro hlt
  rw [byteAt_concat, NetRx.fieldAt]
  by_cases hsame : count = index
  · rw [if_pos hsame, if_pos (by rw [← hplace, ← hcount, hsame])]
  · have hne : count.toNat ≠ index.toNat := fun heq => hsame (BitVec.eq_of_toNat_eq heq)
    rw [List.length_append, List.length_singleton] at hlt
    rw [if_neg hsame, if_neg (by omega)]
    exact htaken (by omega)

theorem opening_concat (icmp : Bool) (message : List (BitVec 8)) (data : BitVec 8) :
    opening icmp (message ++ [data]) =
      opening icmp message ++
        message.getLast?.toList.map fun last => ⟨icmp, last, false, false⟩ := by
  rw [opening, List.dropLast_concat, opening, ← List.map_append]
  congr 1
  cases message using List.reverseRec with
  | nil => rfl
  | append_singleton before last => simp

/-- One more byte of the message. -/
theorem Holds.byte {icmp : Bool} {message : List (BitVec 8)}
    (hholds : Holds rx icmp message shown) {next : NetRx} {data : BitVec 8}
    (hholdV : next.holdV = true) (hholdD : next.holdD = data)
    (houts : next.outs = if rx.holdV then [⟨icmp, rx.holdD, false, false⟩] else []) :
    Holds next icmp (message ++ [data]) (shown ++ next.outs) where
  holdV := by simp [hholdV]
  holdD := by
    intro last hlast
    rw [List.getLast?_concat, Option.mem_some] at hlast
    rw [hholdD, hlast]
  shown := by
    rw [opening_concat, ← hholds.shown, houts, hholds.holdV]
    cases hlast : message.getLast? with
    | none =>
        rw [List.getLast?_eq_none_iff] at hlast
        rw [hlast]
        rfl
    | some last =>
        have hne : message.isEmpty = false := by
          cases message with
          | nil => exact nomatch hlast
          | cons first rest => rfl
        rw [hne, hholds.holdD last hlast]
        rfl

end Parses

end EmacZero
