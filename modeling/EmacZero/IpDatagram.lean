/-
The IP datagram that an Ethernet frame carries: where its headers are, which
checksums it has and what they sum.
-/
import EmacZero.OnesComplement
import Mathlib.Data.List.GetD

namespace EmacZero

/-- A frame's byte at an offset, 0 past its end. -/
def byteAt (frame : List (BitVec 8)) (offset : Nat) : BitVec 8 := frame.getD offset 0

/-- The big-endian word at an offset. -/
def wordAt (frame : List (BitVec 8)) (offset : Nat) : BitVec 16 :=
  byteAt frame offset ++ byteAt frame (offset + 1)

/-- The bytes from an offset up to another. -/
def slice (frame : List (BitVec 8)) (start stop : Nat) : List (BitVec 8) :=
  (frame.take stop).drop start

/-- Bytes 12 and 13 are a VLAN TPID. -/
def vlanTagged (frame : List (BitVec 8)) : Bool :=
  (frame.drop 12).take 2 == [0x81, 0x00] || (frame.drop 12).take 2 == [0x88, 0xA8]

/-- Where the IP header starts: after the EtherType, and after one tag. -/
def l3Offset (frame : List (BitVec 8)) : Nat := if vlanTagged frame then 18 else 14

def etherType (frame : List (BitVec 8)) : List (BitVec 8) :=
  (frame.drop (l3Offset frame - 2)).take 2

/-- The IP header's first byte: version and IHL. -/
def ipVersion (frame : List (BitVec 8)) : BitVec 4 :=
  (byteAt frame (l3Offset frame)).extractLsb' 4 4

def ihlBytes (frame : List (BitVec 8)) : Nat :=
  4 * ((byteAt frame (l3Offset frame)).extractLsb' 0 4).toNat

def isIp4 (frame : List (BitVec 8)) : Bool :=
  etherType frame == [0x08, 0x00] && ipVersion frame == 4

def isIp6 (frame : List (BitVec 8)) : Bool :=
  etherType frame == [0x86, 0xDD] && ipVersion frame == 6

def totalLength (frame : List (BitVec 8)) : Nat :=
  (wordAt frame (l3Offset frame + 2)).toNat

def payloadLength (frame : List (BitVec 8)) : Nat :=
  (wordAt frame (l3Offset frame + 4)).toNat

def headerLength (frame : List (BitVec 8)) : Nat :=
  if isIp6 frame then 40 else ihlBytes frame

def datagramLength (frame : List (BitVec 8)) : Nat :=
  if isIp6 frame then 40 + payloadLength frame else totalLength frame

/-- One past the IP header. -/
def l4Offset (frame : List (BitVec 8)) : Nat := l3Offset frame + headerLength frame

/-- One past the datagram. -/
def datagramEnd (frame : List (BitVec 8)) : Nat := l3Offset frame + datagramLength frame

def l4Length (frame : List (BitVec 8)) : Nat := datagramLength frame - headerLength frame

/-- IPv6, or IPv4 with an IHL of at least 5 and a total length that covers the
header. -/
def wellFormed (frame : List (BitVec 8)) : Bool :=
  isIp6 frame ||
    (isIp4 frame && decide (20 ≤ ihlBytes frame) &&
      decide (ihlBytes frame ≤ totalLength frame))

/-- The whole datagram is there. -/
def datagramWhole (frame : List (BitVec 8)) : Bool :=
  wellFormed frame && decide (datagramEnd frame ≤ frame.length)

/-- The whole IPv4 header is there. -/
def headerWhole (frame : List (BitVec 8)) : Bool :=
  isIp4 frame && wellFormed frame && decide (l4Offset frame ≤ frame.length)

/-- IPv4 protocol, IPv6 next header. -/
def protocol (frame : List (BitVec 8)) : BitVec 8 :=
  byteAt frame (l3Offset frame + if isIp6 frame then 6 else 9)

/-- MF is set or the fragment offset is not 0. -/
def fragmented (frame : List (BitVec 8)) : Bool :=
  (byteAt frame (l3Offset frame + 6)).getLsbD 5 ||
    (byteAt frame (l3Offset frame + 6)).extractLsb' 0 5 != 0 ||
    byteAt frame (l3Offset frame + 7) != 0

/-- A loose or strict source route. -/
def sourceRoute (kind : BitVec 8) : Bool := kind == 0x83 || kind == 0x89

/-- IPv4 options, after the data that the last one still has, hold a source route
or a length below 2. -/
def optionsSkip : Nat → List (BitVec 8) → Bool
  | _, [] => false
  | left + 1, _ :: rest => optionsSkip left rest
  | 0, [kind] => sourceRoute kind
  | 0, kind :: length :: rest =>
      if kind = 0 then false
      else if kind = 1 then optionsSkip 0 (length :: rest)
      else
        sourceRoute kind || decide (length.toNat < 2) ||
          optionsSkip (length.toNat - 2) rest

def ip4Options (frame : List (BitVec 8)) : List (BitVec 8) :=
  slice frame (l3Offset frame + 20) (l4Offset frame)

def udpLength (frame : List (BitVec 8)) : Nat :=
  (wordAt frame (l4Offset frame + 4)).toNat

/-- Where in the L4 header the checksum field is. -/
def csumOffset (proto : BitVec 8) : Nat :=
  if proto = 6 then 16 else if proto = 17 then 6 else if proto = 1 then 2
  else if proto = 58 then 2 else 0

def csumPos (frame : List (BitVec 8)) : Nat :=
  l4Offset frame + csumOffset (protocol frame)

/-- TCP, UDP, ICMP over IPv4, ICMPv6 over IPv6. -/
def protocolCovered (frame : List (BitVec 8)) : Bool :=
  protocol frame == 6 || protocol frame == 17 || (protocol frame == 1 && isIp4 frame) ||
    (protocol frame == 58 && isIp6 frame)

/-- The datagram has an L4 checksum that can be computed from it alone. -/
def l4Covered (frame : List (BitVec 8)) : Bool :=
  wellFormed frame && protocolCovered frame &&
    !(isIp4 frame && (fragmented frame || optionsSkip 0 (ip4Options frame))) &&
    decide (csumOffset (protocol frame) + 2 ≤ l4Length frame) &&
    (protocol frame != 17 ||
      (decide (8 ≤ udpLength frame) && decide (udpLength frame ≤ l4Length frame)))

/-- The bytes that the L4 checksum covers: UDP's own length, else the payload. -/
def coveredLength (frame : List (BitVec 8)) : Nat :=
  if protocol frame = 17 then udpLength frame else l4Length frame

/-- A frame with a checksum field as zero, where it is to be summed so. -/
def zeroed (zero : Bool) (pos : Nat) (frame : List (BitVec 8)) : List (BitVec 8) :=
  frame.mapIdx fun index data =>
    if zero && (index == pos || index == pos + 1) then 0 else data

/-- The sum of the IPv4 header. -/
def headerSum (zero : Bool) (frame : List (BitVec 8)) : Nat :=
  wordSum (slice (zeroed zero (l3Offset frame + 10) frame) (l3Offset frame)
    (l4Offset frame))

/-- The pseudo-header: addresses, protocol and length; none for ICMP over IPv4. -/
def pseudoSum (frame : List (BitVec 8)) : Nat :=
  if isIp6 frame then
    wordSum (slice frame (l3Offset frame + 8) (l3Offset frame + 40)) +
      (protocol frame).toNat + coveredLength frame
  else if protocol frame = 1 then 0
  else
    wordSum (slice frame (l3Offset frame + 12) (l3Offset frame + 20)) +
      (protocol frame).toNat + coveredLength frame

/-- The sum that the L4 checksum is of. -/
def l4Sum (zero : Bool) (frame : List (BitVec 8)) : Nat :=
  wordSum (slice (zeroed zero (csumPos frame) frame) (l4Offset frame)
    (l4Offset frame + coveredLength frame)) + pseudoSum frame

/-- A word is its two bytes. -/
theorem append_extract (value : BitVec 16) :
    value.extractLsb' 8 8 ++ value.extractLsb' 0 8 = value := by
  apply BitVec.eq_of_getLsbD_eq
  intro bit hbit
  rw [BitVec.getLsbD_append, BitVec.getLsbD_extractLsb', BitVec.getLsbD_extractLsb']
  split
  · rename_i hlow
    rw [decide_eq_true hlow, Nat.zero_add, Bool.true_and]
  · rename_i hhigh
    rw [decide_eq_true (by omega), Nat.add_sub_cancel' (by omega), Bool.true_and]

/-! How these grow with a frame. -/

theorem byteAt_concat (frame : List (BitVec 8)) (data : BitVec 8) (offset : Nat) :
    byteAt (frame ++ [data]) offset =
      if offset = frame.length then data else byteAt frame offset := by
  unfold byteAt
  rcases Nat.lt_trichotomy offset frame.length with hlt | rfl | hgt
  · rw [List.getD_append _ _ _ _ hlt, if_neg hlt.ne]
  · simp [List.getD_eq_getElem?_getD]
  · rw [if_neg hgt.ne', List.getD_eq_default _ _ (by simp; omega),
      List.getD_eq_default _ _ hgt.le]

theorem byteAt_of_le {frame : List (BitVec 8)} {offset : Nat}
    (hle : frame.length ≤ offset) : byteAt frame offset = 0 :=
  List.getD_eq_default _ _ hle

theorem byteAt_append {frame : List (BitVec 8)} {offset : Nat}
    (hlt : offset < frame.length) (rest : List (BitVec 8)) :
    byteAt (frame ++ rest) offset = byteAt frame offset :=
  List.getD_append _ _ _ _ hlt

theorem wordAt_append {frame : List (BitVec 8)} {offset : Nat}
    (hlt : offset + 1 < frame.length) (rest : List (BitVec 8)) :
    wordAt (frame ++ rest) offset = wordAt frame offset := by
  rw [wordAt, wordAt, byteAt_append (by omega), byteAt_append hlt]

theorem slice_append {frame : List (BitVec 8)} {stop : Nat}
    (hle : stop ≤ frame.length) (rest : List (BitVec 8)) (start : Nat) :
    slice (frame ++ rest) start stop = slice frame start stop := by
  rw [slice, slice, List.take_append_of_le_length hle]

theorem slice_concat (frame : List (BitVec 8)) (data : BitVec 8) {start stop : Nat}
    (hstart : start ≤ frame.length) :
    slice (frame ++ [data]) start stop =
      if frame.length < stop then slice frame start stop ++ [data]
      else slice frame start stop := by
  unfold slice
  split
  · rename_i hlt
    rw [List.take_of_length_le (by simp; omega), List.take_of_length_le (by omega),
      List.drop_append_of_le_length hstart]
  · rw [List.take_append_of_le_length (by omega)]

theorem slice_empty {frame : List (BitVec 8)} {start : Nat}
    (hle : frame.length ≤ start) (stop : Nat) : slice frame start stop = [] := by
  rw [slice, List.drop_of_length_le]
  simp
  omega

theorem length_slice (frame : List (BitVec 8)) (start stop : Nat) :
    (slice frame start stop).length = min stop frame.length - start := by
  simp [slice]

@[simp] theorem length_zeroed (zero : Bool) (pos : Nat) (frame : List (BitVec 8)) :
    (zeroed zero pos frame).length = frame.length := by
  simp [zeroed]

theorem zeroed_concat (zero : Bool) (pos : Nat) (frame : List (BitVec 8))
    (data : BitVec 8) :
    zeroed zero pos (frame ++ [data]) =
      zeroed zero pos frame ++
        [if zero && (frame.length == pos || frame.length == pos + 1) then 0
          else data] := by
  simp [zeroed, List.mapIdx_append]

theorem zeroed_append (zero : Bool) (pos : Nat) (frame rest : List (BitVec 8)) :
    ∃ after, zeroed zero pos (frame ++ rest) = zeroed zero pos frame ++ after :=
  ⟨_, List.mapIdx_append⟩

theorem vlanTagged_short {frame : List (BitVec 8)} (hshort : frame.length ≤ 13) :
    vlanTagged frame = false := by
  have hlength : ((frame.drop 12).take 2).length ≠ 2 := by
    simp
    omega
  simp only [vlanTagged, Bool.or_eq_false_iff, beq_eq_false_iff_ne]
  constructor <;> intro heq <;> simp [heq] at hlength

theorem vlanTagged_concat {frame : List (BitVec 8)} (hlong : 14 ≤ frame.length)
    (data : BitVec 8) : vlanTagged (frame ++ [data]) = vlanTagged frame := by
  rw [vlanTagged, vlanTagged, List.drop_append_of_le_length (by omega),
    List.take_append_of_le_length (by simp; omega)]

theorem append_beq (first second other another : BitVec 8) :
    ((first ++ second : BitVec 16) == (other ++ another : BitVec 16)) =
      ([first, second] == [other, another]) := by
  rw [Bool.eq_iff_iff, beq_iff_eq, beq_iff_eq]
  constructor
  · intro heq
    have hlow := congrArg (BitVec.extractLsb' 0 8) heq
    have hhigh := congrArg (BitVec.extractLsb' 8 8) heq
    rw [BitVec.extractLsb'_append_eq_right, BitVec.extractLsb'_append_eq_right] at hlow
    rw [BitVec.extractLsb'_append_eq_left, BitVec.extractLsb'_append_eq_left] at hhigh
    rw [hlow, hhigh]
  · intro heq
    simp only [List.cons.injEq, and_true] at heq
    rw [heq.1, heq.2]

theorem vlanTagged_fourteenth {frame : List (BitVec 8)} {twelfth : BitVec 8}
    (hlength : frame.length = 13) (htwelfth : frame[12]? = some twelfth)
    (data : BitVec 8) :
    vlanTagged (frame ++ [data]) =
      ((twelfth ++ data : BitVec 16) == 0x8100 ||
        (twelfth ++ data : BitVec 16) == 0x88A8) := by
  have hdrop : frame.drop 12 = [twelfth] := by
    obtain ⟨hlt, heq⟩ := List.getElem?_eq_some_iff.mp htwelfth
    rw [List.drop_eq_getElem_cons hlt, heq, List.drop_of_length_le hlength.le]
  rw [vlanTagged, List.drop_append_of_le_length (by omega), hdrop]
  have hctag := append_beq twelfth data 0x81 0x00
  have hstag := append_beq twelfth data 0x88 0xA8
  change (([twelfth, data] == [0x81, 0x00]) || ([twelfth, data] == [0x88, 0xA8])) = _
  rw [← hctag, ← hstag]
  rfl

end EmacZero
