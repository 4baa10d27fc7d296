/-
The headers that the responders put before what they send: Ethernet, IPv4 without
options, UDP without a checksum; and how a state machine walks along them.
-/
import EmacZero.IpDatagram
import EmacZero.NetBytes
import Mathlib.Tactic.Ring

namespace EmacZero

universe u

def ethHeader (dstMac srcMac : BitVec 48) : List (BitVec 8) :=
  macBytes dstMac ++ macBytes srcMac ++ [0x08, 0x00]

/-- Don't Fragment, TTL 64. -/
def ipHeader (totalLen id : BitVec 16) (protocol : BitVec 8) (checksum : BitVec 16)
    (srcIp dstIp : BitVec 32) : List (BitVec 8) :=
  [0x45, 0x00] ++ wordBytes totalLen ++ wordBytes id ++ [0x40, 0x00, 0x40, protocol] ++
    wordBytes checksum ++ ipBytes srcIp ++ ipBytes dstIp

def udpHeader (srcPort dstPort length : BitVec 16) : List (BitVec 8) :=
  wordBytes srcPort ++ wordBytes dstPort ++ wordBytes length ++ [0x00, 0x00]

/-- The sum that goes into `ip_csum_acc`. -/
def ipCsumSum (totalLen id : BitVec 16) (protocol : BitVec 8) (srcIp dstIp : BitVec 32) :
    BitVec 32 :=
  (0x4500 : BitVec 16).setWidth 32 + totalLen.setWidth 32 + id.setWidth 32 +
    (0x4000 : BitVec 16).setWidth 32 + ((0x40 : BitVec 8) ++ protocol).setWidth 32 +
    (srcIp.extractLsb' 16 16).setWidth 32 + (srcIp.extractLsb' 0 16).setWidth 32 +
    (dstIp.extractLsb' 16 16).setWidth 32 + (dstIp.extractLsb' 0 16).setWidth 32

def ipFold1 (acc : BitVec 32) : BitVec 17 :=
  (acc.extractLsb' 0 16).setWidth 17 + (acc.extractLsb' 16 16).setWidth 17

def ipFold2 (acc : BitVec 32) : BitVec 16 :=
  (ipFold1 acc).extractLsb' 0 16 + ((ipFold1 acc).extractLsb' 16 1).setWidth 16

def ipHdrChecksum (acc : BitVec 32) : BitVec 16 := ~~~ipFold2 acc

@[simp] theorem length_ethHeader (dstMac srcMac : BitVec 48) :
    (ethHeader dstMac srcMac).length = 14 := rfl

@[simp] theorem length_ipHeader (totalLen id : BitVec 16) (protocol : BitVec 8)
    (checksum : BitVec 16) (srcIp dstIp : BitVec 32) :
    (ipHeader totalLen id protocol checksum srcIp dstIp).length = 20 := rfl

theorem ipFold1_toNat (acc : BitVec 32) : (ipFold1 acc).toNat = foldCarry 16 acc.toNat := by
  have hsum := acc.isLt
  have hlow : acc.toNat % 2 ^ 16 < 2 ^ 16 := Nat.mod_lt _ (by decide)
  have hhigh : acc.toNat / 2 ^ 16 < 2 ^ 16 := by omega
  simp only [ipFold1, BitVec.toNat_add, BitVec.toNat_setWidth, BitVec.extractLsb'_toNat,
    Nat.shiftRight_eq_div_pow, Nat.pow_zero, Nat.div_one, foldCarry]
  rw [Nat.mod_eq_of_lt hhigh, Nat.mod_eq_of_lt (hlow.trans (by decide)),
    Nat.mod_eq_of_lt (hhigh.trans (by decide)), Nat.mod_eq_of_lt]
  omega

theorem ipFold2_toNat (acc : BitVec 32) : (ipFold2 acc).toNat = onesFold 16 acc.toNat := by
  have htwice := @foldCarry_twice 16 (by decide) acc.toNat acc.isLt
  have hle := @onesFold_le 16 (by decide) acc.toNat
  have hone := ipFold1_toNat acc
  have hlt := (ipFold1 acc).isLt
  have hhigh : (ipFold1 acc).toNat / 2 ^ 16 < 2 ^ 1 := by omega
  rw [← htwice, ← hone, foldCarry] at hle ⊢
  simp only [ipFold2, BitVec.toNat_add, BitVec.toNat_setWidth, BitVec.extractLsb'_toNat,
    Nat.shiftRight_eq_div_pow, Nat.pow_zero, Nat.div_one]
  rw [Nat.mod_eq_of_lt hhigh, Nat.mod_eq_of_lt (hhigh.trans (by decide)), Nat.mod_eq_of_lt]
  omega

theorem ipHdrChecksum_toNat (acc : BitVec 32) :
    (ipHdrChecksum acc).toNat = 65535 - onesFold 16 acc.toNat := by
  rw [ipHdrChecksum, BitVec.toNat_not, ipFold2_toNat]

/-- A word's bytes sum to it. -/
theorem wordBytes_sum (word : BitVec 16) :
    256 * (word.extractLsb' 8 8).toNat + (word.extractLsb' 0 8).toNat = word.toNat := by
  have hlt := word.isLt
  simp only [BitVec.extractLsb'_toNat, Nat.shiftRight_eq_div_pow, Nat.pow_zero, Nat.div_one]
  omega

theorem ipBytes_sum (ip : BitVec 32) :
    wordSum (ipBytes ip) = (ip.extractLsb' 16 16).toNat + (ip.extractLsb' 0 16).toNat := by
  have hlt := ip.isLt
  simp only [ipBytes, wordSum, BitVec.extractLsb'_toNat, Nat.shiftRight_eq_div_pow, Nat.pow_zero,
    Nat.div_one]
  omega

theorem ipHeader_sum (totalLen id : BitVec 16) (protocol : BitVec 8) (checksum : BitVec 16)
    (srcIp dstIp : BitVec 32) :
    wordSum (ipHeader totalLen id protocol checksum srcIp dstIp) =
      (ipCsumSum totalLen id protocol srcIp dstIp).toNat + checksum.toNat := by
  have hword : ∀ word : BitVec 16, word.toNat < 65536 := fun word => word.isLt
  have htotal := hword totalLen
  have hid := hword id
  have hsrcHigh := hword (srcIp.extractLsb' 16 16)
  have hsrcLow := hword (srcIp.extractLsb' 0 16)
  have hdstHigh := hword (dstIp.extractLsb' 16 16)
  have hdstLow := hword (dstIp.extractLsb' 0 16)
  have hproto : (((0x40 : BitVec 8) ++ protocol).setWidth 32).toNat = 16384 + protocol.toNat := by
    have hlt := protocol.isLt
    rw [BitVec.toNat_setWidth, BitVec.toNat_append, ← Nat.shiftLeft_add_eq_or_of_lt hlt,
      Nat.shiftLeft_eq]
    exact Nat.mod_eq_of_lt (by change 64 * 2 ^ 8 + _ < _; omega)
  have hsum : (ipCsumSum totalLen id protocol srcIp dstIp).toNat =
      17664 + totalLen.toNat + id.toNat + 16384 + (16384 + protocol.toNat) +
        (srcIp.extractLsb' 16 16).toNat + (srcIp.extractLsb' 0 16).toNat +
        (dstIp.extractLsb' 16 16).toNat + (dstIp.extractLsb' 0 16).toNat := by
    have hlt := protocol.isLt
    have hwide : ∀ word : BitVec 16, (word.setWidth 32).toNat = word.toNat := by
      intro word
      rw [BitVec.toNat_setWidth]
      exact Nat.mod_eq_of_lt (word.isLt.trans (by decide))
    have hversion : (0x4500 : BitVec 16).toNat = 17664 := rfl
    have hfragment : (0x4000 : BitVec 16).toNat = 16384 := rfl
    simp only [ipCsumSum, BitVec.toNat_add, hproto, hwide, hversion, hfragment]
    omega
  have hbytes : wordSum (ipHeader totalLen id protocol checksum srcIp dstIp) =
      17664 + ((256 * (totalLen.extractLsb' 8 8).toNat + (totalLen.extractLsb' 0 8).toNat) +
        ((256 * (id.extractLsb' 8 8).toNat + (id.extractLsb' 0 8).toNat) +
          (16384 + (16384 + protocol.toNat +
            ((256 * (checksum.extractLsb' 8 8).toNat + (checksum.extractLsb' 0 8).toNat) +
              (wordSum (ipBytes srcIp) + wordSum (ipBytes dstIp))))))) := by
    have hversion : (0x45 : BitVec 8).toNat = 69 := rfl
    have hzero : (0x00 : BitVec 8).toNat = 0 := rfl
    have hfragment : (0x40 : BitVec 8).toNat = 64 := rfl
    simp only [ipHeader, wordBytes, ipBytes, List.cons_append, List.nil_append, wordSum,
      hversion, hzero, hfragment]
    omega
  rw [hbytes, hsum, wordBytes_sum, wordBytes_sum, wordBytes_sum, ipBytes_sum, ipBytes_sum]
  omega

/-- The header's checksum is valid. -/
theorem ipHeader_valid (totalLen id : BitVec 16) (protocol : BitVec 8)
    (srcIp dstIp : BitVec 32) :
    onesFold 16 (wordSum (ipHeader totalLen id protocol
      (ipHdrChecksum (ipCsumSum totalLen id protocol srcIp dstIp)) srcIp dstIp)) = 65535 := by
  rw [ipHeader_sum, ipHdrChecksum_toNat]
  exact @onesFold_add_complement 16 (by decide) _

theorem word_halves (word : BitVec 16) :
    (word.extractLsb' 8 8 ++ word.extractLsb' 0 8 : BitVec 16) = word := by
  apply BitVec.eq_of_toNat_eq
  have hlow := (word.extractLsb' 0 8).isLt
  rw [BitVec.toNat_append, ← Nat.shiftLeft_add_eq_or_of_lt hlow, Nat.shiftLeft_eq,
    Nat.mul_comm]
  exact wordBytes_sum word

/-! A UDP datagram in a frame. -/

/-- The frame carries the payload to this address and port: the lengths of this payload, a
valid IPv4 header, no UDP checksum. -/
structure CarriesUdp (our : NetOur) (dstMac : BitVec 48) (dstIp : BitVec 32)
    (srcPort dstPort : BitVec 16) (payload frame : List (BitVec 8)) : Prop where
  length : frame.length = 42 + payload.length
  ethernet : slice frame 0 14 = ethHeader dstMac our.mac
  version : slice frame 14 16 = [0x45, 0x00]
  total : (wordAt frame 16).toNat = 28 + payload.length
  protocol : byteAt frame 23 = 0x11
  sourceIp : slice frame 26 30 = ipBytes our.ip
  destinationIp : slice frame 30 34 = ipBytes dstIp
  header : onesFold 16 (wordSum (slice frame 14 34)) = 65535
  sourcePort : wordAt frame 34 = srcPort
  destinationPort : wordAt frame 36 = dstPort
  udpLength : (wordAt frame 38).toNat = 8 + payload.length
  noChecksum : wordAt frame 40 = 0
  payload : frame.drop 42 = payload

/-- The headers of a datagram of this payload length. -/
def udpHeaders (our : NetOur) (id : BitVec 16) (dstMac : BitVec 48) (dstIp : BitVec 32)
    (srcPort dstPort : BitVec 16) (len : Nat) : List (BitVec 8) :=
  let totalLen : BitVec 16 := 28 + .ofNat 16 len
  ethHeader dstMac our.mac ++
    ipHeader totalLen id 0x11 (ipHdrChecksum (ipCsumSum totalLen id 0x11 our.ip dstIp)) our.ip
      dstIp ++
    udpHeader srcPort dstPort (8 + .ofNat 16 len)

def udpFrame (our : NetOur) (id : BitVec 16) (dstMac : BitVec 48) (dstIp : BitVec 32)
    (srcPort dstPort : BitVec 16) (payload : List (BitVec 8)) : List (BitVec 8) :=
  udpHeaders our id dstMac dstIp srcPort dstPort payload.length ++ payload

section UdpFrame

variable {our : NetOur} {id : BitVec 16} {dstMac : BitVec 48} {dstIp : BitVec 32}
  {srcPort dstPort : BitVec 16} {payload : List (BitVec 8)}

theorem length_udpFrame :
    (udpFrame our id dstMac dstIp srcPort dstPort payload).length = 42 + payload.length :=
  List.length_append

theorem udpFrame_carries (hshort : payload.length ≤ 65507) :
    CarriesUdp our dstMac dstIp srcPort dstPort payload
      (udpFrame our id dstMac dstIp srcPort dstPort payload) where
  length := length_udpFrame
  ethernet := rfl
  version := rfl
  total := by
    have htotal : wordAt (udpFrame our id dstMac dstIp srcPort dstPort payload) 16 =
        28 + BitVec.ofNat 16 payload.length := word_halves _
    rw [htotal, BitVec.toNat_add, BitVec.toNat_ofNat]
    change (28 + _) % _ = _
    omega
  protocol := rfl
  sourceIp := rfl
  destinationIp := rfl
  header := ipHeader_valid _ _ _ _ _
  sourcePort := word_halves _
  destinationPort := word_halves _
  udpLength := by
    have hlength : wordAt (udpFrame our id dstMac dstIp srcPort dstPort payload) 38 =
        8 + BitVec.ofNat 16 payload.length := word_halves _
    rw [hlength, BitVec.toNat_add, BitVec.toNat_ofNat]
    change (8 + _) % _ = _
    omega
  noChecksum := (by decide : ((0x00 : BitVec 8) ++ (0x00 : BitVec 8) : BitVec 16) = 0)
  payload := rfl

/-! Its bytes, section by section. -/

theorem udpFrame_ethHdr {cnt : Nat} (hcnt : cnt < 14) :
    (udpFrame our id dstMac dstIp srcPort dstPort payload).getD cnt 0 =
      (ethHeader dstMac our.mac).getD cnt 0 := by
  have hheaders : cnt < (udpHeaders our id dstMac dstIp srcPort dstPort payload.length).length :=
    hcnt.trans (by decide : 14 < 42)
  rw [udpFrame, List.getD_append _ _ _ _ hheaders, udpHeaders, List.append_assoc,
    List.getD_append _ _ _ _ hcnt]

theorem udpFrame_ipHdr {cnt : Nat} (hcnt : cnt < 20) :
    (udpFrame our id dstMac dstIp srcPort dstPort payload).getD (14 + cnt) 0 =
      (ipHeader (28 + .ofNat 16 payload.length) id 0x11
        (ipHdrChecksum (ipCsumSum (28 + .ofNat 16 payload.length) id 0x11 our.ip dstIp)) our.ip
        dstIp).getD cnt 0 := by
  have hheaders : 14 + cnt <
      (udpHeaders our id dstMac dstIp srcPort dstPort payload.length).length :=
    (Nat.add_lt_add_left hcnt 14).trans (by decide : 34 < 42)
  rw [udpFrame, List.getD_append _ _ _ _ hheaders, udpHeaders, List.append_assoc,
    List.getD_append_right _ _ _ _ (by rw [length_ethHeader]; exact Nat.le_add_right _ _),
    length_ethHeader,
    Nat.add_sub_cancel_left, List.getD_append _ _ _ _ hcnt]

theorem udpFrame_udpHdr {cnt : Nat} (hcnt : cnt < 8) :
    (udpFrame our id dstMac dstIp srcPort dstPort payload).getD (34 + cnt) 0 =
      (udpHeader srcPort dstPort (8 + .ofNat 16 payload.length)).getD cnt 0 := by
  have hheaders : 34 + cnt <
      (udpHeaders our id dstMac dstIp srcPort dstPort payload.length).length :=
    Nat.add_lt_add_left hcnt 34
  have hhead : (ethHeader dstMac our.mac ++ ipHeader (28 + .ofNat 16 payload.length) id 0x11
      (ipHdrChecksum (ipCsumSum (28 + .ofNat 16 payload.length) id 0x11 our.ip dstIp)) our.ip
      dstIp).length = 34 := rfl
  rw [udpFrame, List.getD_append _ _ _ _ hheaders, udpHeaders,
    List.getD_append_right _ _ _ _ (by rw [hhead]; exact Nat.le_add_right _ _), hhead,
    Nat.add_sub_cancel_left]

theorem udpFrame_payload (cnt : Nat) :
    (udpFrame our id dstMac dstIp srcPort dstPort payload).getD (42 + cnt) 0 =
      payload.getD cnt 0 := by
  have hhead : (udpHeaders our id dstMac dstIp srcPort dstPort payload.length).length = 42 := rfl
  rw [udpFrame, List.getD_append_right _ _ _ _ (by rw [hhead]; exact Nat.le_add_right _ _), hhead,
    Nat.add_sub_cancel_left]

end UdpFrame

/-! Walking along the headers, a byte for each that the output register takes. -/

theorem toNat_cnt_succ {cnt : BitVec 6} (hcnt : cnt.toNat < 63) :
    (cnt + 1).toNat = cnt.toNat + 1 :=
  Nat.mod_eq_of_lt (Nat.succ_lt_succ hcnt)

/-- A header: where it begins in the frame, its length, and the state behind it. -/
structure HeaderSection (σ : Type u) where
  first : Nat
  length : Nat
  after : σ

/-- The headers of a state machine, one behind the other; at `total` it comes to `body`. -/
structure HeaderChain (σ : Type u) where
  header : σ → Option (HeaderSection σ)
  body : σ
  total : Nat
  length_lt : ∀ state sec, header state = some sec → sec.length < 64
  next : ∀ state sec, header state = some sec →
    sec.after = body ∧ sec.first + sec.length = total ∨
      ∃ behind, header sec.after = some behind ∧ 0 < behind.length ∧
        sec.first + sec.length = behind.first
  stop : header body = none

/-- The registers of a transmit state machine that walks along its headers. -/
structure HeaderWalk (σ : Type u) where
  state : σ
  cnt : BitVec 6
  valid : Bool
  last : Bool
  active : Bool

namespace HeaderWalk

variable {σ : Type u} {chain : HeaderChain σ} {walk : HeaderWalk σ} {place : Nat}

/-- The byte that is offered: in this state, at this place of its section. -/
structure At (walk : HeaderWalk σ) (state : σ) (cnt : Nat) (last : Bool) : Prop where
  state : walk.state = state
  cnt : walk.cnt.toNat = cnt
  valid : walk.valid = true
  last : walk.last = last
  active : walk.active = true

/-- The byte that is offered is the one at this place of the headers. -/
structure In (chain : HeaderChain σ) (walk : HeaderWalk σ) (place : Nat) : Prop where
  header : ∃ sec, chain.header walk.state = some sec ∧ walk.cnt.toNat < sec.length ∧
    place = sec.first + walk.cnt.toNat
  valid : walk.valid = true
  last : walk.last = false
  active : walk.active = true

variable [DecidableEq σ]

/-- A byte of a header is taken; `arm` says whether a single byte follows the headers. -/
def taken (chain : HeaderChain σ) (walk : HeaderWalk σ) (arm : Bool) : HeaderWalk σ :=
  match chain.header walk.state with
  | none => walk
  | some sec =>
      if walk.cnt = .ofNat 6 (sec.length - 1) then
        { walk with
          state := sec.after
          cnt := 0
          valid := true
          last := if sec.after = chain.body then arm else false }
      else { walk with cnt := walk.cnt + 1, valid := true, last := false }

/-- Behind a byte of the headers comes their next byte or the first one after them. -/
theorem In.taken (hin : walk.In chain place) (arm : Bool) :
    (walk.taken chain arm).In chain (place + 1) ∨
      place + 1 = chain.total ∧ (walk.taken chain arm).At chain.body 0 arm := by
  obtain ⟨sec, hsec, hcnt, rfl⟩ := hin.header
  have hlen := chain.length_lt _ _ hsec
  have hlast : walk.cnt = .ofNat 6 (sec.length - 1) ↔ walk.cnt.toNat + 1 = sec.length := by
    rw [← BitVec.toNat_inj, BitVec.toNat_ofNat]
    omega
  simp only [HeaderWalk.taken, hsec]
  by_cases hend : walk.cnt.toNat + 1 = sec.length
  · rw [if_pos (hlast.mpr hend)]
    rcases chain.next _ _ hsec with ⟨hafter, htotal⟩ | ⟨behind, hbehind, hpos, hfirst⟩
    · rw [if_pos hafter]
      exact .inr ⟨by omega, hafter, rfl, rfl, rfl, hin.active⟩
    · have hmore : sec.after ≠ chain.body := fun hafter => by
        rw [hafter, chain.stop] at hbehind
        cases hbehind
      rw [if_neg hmore]
      refine .inl ⟨⟨behind, hbehind, hpos, ?_⟩, rfl, rfl, hin.active⟩
      change _ = behind.first + 0
      omega
  · have hnext := toNat_cnt_succ (by omega : walk.cnt.toNat < 63)
    rw [if_neg (hlast.not.mpr hend)]
    refine .inl ⟨⟨sec, hsec, ?_, ?_⟩, rfl, rfl, hin.active⟩
    · rw [hnext]
      omega
    · rw [hnext, Nat.add_assoc]

end HeaderWalk

end EmacZero
