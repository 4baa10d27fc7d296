/-
The Linux driver's transmit checksum choice: a checksum that the stack asks for is left
to the inserter or summed in software, and what is sent is the same.
-/
import EmacZero.EmzRxCsum
import EmacZero.TxCsumRxCheck

namespace EmacZero

/-- Where the stack wants a checksum: `csum_start` and `csum_offset` of a
CHECKSUM_PARTIAL skb. -/
structure CsumRequest where
  start : Nat
  offset : Nat
deriving Repr, DecidableEq

def CsumRequest.field (request : CsumRequest) : Nat := request.start + request.offset

/-- The kernel's checksum functions.  A one's-complement sum does not depend on the byte
order, so the 16 bits stand as they go into the frame. -/
structure KernelCsum where
  csumPartial : List (BitVec 8) → BitVec 32
  copyAndCsumBits : List (BitVec 8) → BitVec 32
  csumFold : BitVec 32 → BitVec 16

/-- What the kernel says of them: a partial sum of the bytes, and the complement of its
fold. -/
structure KernelCsum.Internet (kernel : KernelCsum) : Prop where
  csumPartial : ∀ bytes, (kernel.csumPartial bytes).toNat ≡ wordSum bytes [MOD 65535]
  copyAndCsumBits : ∀ bytes, (kernel.copyAndCsumBits bytes).toNat ≡ wordSum bytes [MOD 65535]
  csumFold : ∀ sum, kernel.csumFold sum = complement sum.toNat

/-- `emz_tx_csum_by_mac`. -/
def emzTxCsumByMac (maxFrame : Nat) (buf : List (BitVec 8)) (start offset : Nat) : Bool :=
  match emzCsumParse buf with
  | none => false
  | some found =>
      if found.l4 ≠ start ∨ found.l4 + found.l4Len ≠ buf.length ∨ maxFrame < buf.length then
        false
      else if found.proto = 6 then offset == 16
      else offset == 6 && (wordAt buf (found.l4 + 4)).toNat == found.l4Len

/-- `csum_fold(csum) ?: CSUM_MANGLED_0`. -/
def csumMangled (folded : BitVec 16) : BitVec 16 := if folded = 0 then 0xFFFF else folded

/-- `emz_tx_copy`: the bounce buffer, `none` for -EINVAL. -/
def emzTxCopy (kernel : KernelCsum) (txCsumHw : Bool) (maxFrame : Nat)
    (data : List (BitVec 8)) : Option CsumRequest → Option (List (BitVec 8))
  | none => some data
  | some request =>
      if data.length ≤ request.start ∨ data.length < request.field + 2 then none
      else if txCsumHw then
        if emzTxCsumByMac maxFrame data request.start request.offset then some data
        else
          some (putWord data request.field
            (csumMangled (kernel.csumFold (kernel.csumPartial (data.drop request.start)))))
      else
        some (putWord data request.field
          (csumMangled (kernel.csumFold (kernel.copyAndCsumBits (data.drop request.start)))))

/-- The field that the stack asks for holds its pseudo-header sum. -/
def Presummed (data : List (BitVec 8)) (request : CsumRequest) : Prop :=
  (wordAt data request.field).toNat ≡ pseudoSum data [MOD 65535]

instance (data : List (BitVec 8)) (request : CsumRequest) : Decidable (Presummed data request) :=
  inferInstanceAs (Decidable (_ % _ = _ % _))

section Sums

variable {frame : List (BitVec 8)}

/-- With zero sent as all ones, equal one's-complement sums have one checksum. -/
theorem csumMangled_toNat (sum : Nat) :
    (csumMangled (complement sum)).toNat = 65535 - sum % 65535 := by
  have hvalue := complement_toNat sum
  have hfold : onesFold 16 sum = if sum = 0 then 0 else (sum - 1) % 65535 + 1 := rfl
  rw [csumMangled]
  split
  · rename_i hzero
    rw [hzero] at hvalue
    change 0 = _ at hvalue
    change 65535 = _
    split at hfold
    · omega
    · omega
  · rename_i hne
    have hpos : (complement sum).toNat ≠ 0 := fun hnone => hne (BitVec.eq_of_toNat_eq hnone)
    split at hfold
    · omega
    · omega

theorem csumMangled_congr {first second : Nat} (hmod : first ≡ second [MOD 65535]) :
    csumMangled (complement first) = csumMangled (complement second) := by
  apply BitVec.eq_of_toNat_eq
  rw [csumMangled_toNat, csumMangled_toNat, hmod]

/-- The inserter keeps a zero where the protocol has no use for it. -/
theorem l4Checksum_modEq (frame : List (BitVec 8)) :
    (l4Checksum frame).toNat ≡ (csumMangled (complement (l4Sum true frame))).toNat
      [MOD 65535] := by
  rw [l4Checksum, csumMangled]
  by_cases hzero : complement (l4Sum true frame) = 0
  · rw [hzero]
    split
    · rfl
    · rfl
  · rw [if_neg fun hboth => hzero hboth.2, if_neg hzero]

theorem l4Checksum_udp (hudp : protocol frame = 17) :
    l4Checksum frame = csumMangled (complement (l4Sum true frame)) := by
  rw [l4Checksum, csumMangled]
  simp [hudp]

end Sums

/-- A checksum that is left to the inserter: the frame's own TCP or UDP checksum, over the
rest of the frame. -/
structure ByMac (data : List (BitVec 8)) (request : CsumRequest) : Prop where
  whole : datagramWhole data = true
  covered : l4Covered data = true
  start : l4Offset data = request.start
  place : csumPos data = request.field
  stretch : l4Offset data + coveredLength data = data.length

theorem byMac_of_choice {maxFrame : Nat} {data : List (BitVec 8)} {request : CsumRequest}
    (hchoice : emzTxCsumByMac maxFrame data request.start request.offset = true) :
    ByMac data request := by
  unfold emzTxCsumByMac at hchoice
  cases hparse : emzCsumParse data with
  | none => simp [hparse] at hchoice
  | some found =>
      have hmarks := marks_of_parse hparse
      have hlength := l4Len_of_parse hparse
      simp only [hparse] at hchoice
      split at hchoice
      · cases hchoice
      · rename_i hrange
        obtain ⟨hstart, hend, -⟩ : found.l4 = request.start ∧
            found.l4 + found.l4Len = data.length ∧ data.length ≤ maxFrame := by omega
        have hl4 := hmarks.l4.trans hstart
        rw [← hmarks.l4, hlength] at hend
        split at hchoice
        · rename_i htcp
          have hproto := hmarks.proto.trans htcp
          refine ⟨hmarks.whole, hmarks.covered, hl4, ?_, ?_⟩
          · rw [csumPos, CsumRequest.field, hl4, hproto, beq_iff_eq.mp hchoice]
            rfl
          · rw [coveredLength, if_neg (by rw [hproto]; decide)]
            exact hend
        · rename_i hother
          have hproto := hmarks.proto.trans (hmarks.tcpOrUdp.resolve_left hother)
          rw [Bool.and_eq_true, beq_iff_eq, beq_iff_eq, ← hmarks.l4, hlength] at hchoice
          refine ⟨hmarks.whole, hmarks.covered, hl4, ?_, ?_⟩
          · rw [csumPos, CsumRequest.field, hl4, csumOffset_udp hproto, hchoice.1]
          · rw [coveredLength, if_pos hproto, udpLength, hchoice.2]
            exact hend

/-- What the software path sums is what the inserter sums, the field's pseudo-header sum
standing for the pseudo-header. -/
theorem ByMac.sum_modEq {data : List (BitVec 8)} {request : CsumRequest}
    (hbyMac : ByMac data request) (hpresummed : Presummed data request) :
    wordSum (data.drop request.start) ≡ l4Sum true data [MOD 65535] := by
  obtain ⟨hwhole, hcovered, hstart, hplace, hstretch⟩ := hbyMac
  have hoffset := csumOffset_of_covered hcovered
  have hlt := csumPos_lt hwhole hcovered
  have hslice : data.drop request.start = slice data (l4Offset data) data.length := by
    rw [slice, List.take_length, hstart]
  have hfield := wordSum_field rfl (show l4Offset data ≤ csumPos data from Nat.le_add_right _ _)
    (show csumPos data + 2 ≤ data.length by omega) hlt
    (show (csumPos data - l4Offset data) % 2 = 0 by unfold csumPos; omega)
    (fun _ _ _ _ _ => rfl)
  rw [hslice, hfield, l4Sum, hstretch, hplace]
  exact hpresummed.add_left _

/-- The inserter writes the software path's checksum, and no other L4 byte. -/
structure SameSent (kernel : KernelCsum) (maxFrame : Nat) (data : List (BitVec 8))
    (request : CsumRequest) (output : List (BitVec 8)) : Prop where
  length : output.length = data.length
  only : ∀ offset, offset ≠ request.field → offset ≠ request.field + 1 →
    ¬(isIp4 data = true ∧ (offset = l3Offset data + 10 ∨ offset = l3Offset data + 11)) →
    byteAt output offset = byteAt data offset
  writes : wordAt output request.field = l4Checksum data
  software : ∃ soft, emzTxCopy kernel false maxFrame data (some request) = some soft ∧
    (wordAt output request.field).toNat ≡ (wordAt soft request.field).toNat [MOD 65535] ∧
    (protocol data = 17 → wordAt output request.field = wordAt soft request.field) ∧
    (protocol data = 17 → complement (l4Sum true data) = 0 →
      wordAt output request.field = 0xFFFF)

theorem sameSent_inserted {kernel : KernelCsum} (hkernel : kernel.Internet) (maxFrame : Nat)
    {data : List (BitVec 8)} {request : CsumRequest} (hbyMac : ByMac data request)
    (hpresummed : Presummed data request) :
    SameSent kernel maxFrame data request (inserted data) := by
  have hsum := hbyMac.sum_modEq hpresummed
  obtain ⟨hwhole, hcovered, hstart, hplace, hstretch⟩ := hbyMac
  have hlt := csumPos_lt hwhole hcovered
  have hword := wordAt_l4_inserted hwhole hcovered
  rw [hplace] at hlt hword
  have hstarts : request.start ≤ request.field := Nat.le_add_right _ _
  have hsoft : emzTxCopy kernel false maxFrame data (some request) =
      some (putWord data request.field (csumMangled (complement (l4Sum true data)))) := by
    rw [emzTxCopy, if_neg (by omega), if_neg Bool.false_ne_true, hkernel.csumFold,
      csumMangled_congr ((hkernel.copyAndCsumBits _).trans hsum)]
  refine ⟨length_inserted data, ?_, hword, _, hsoft, ?_, ?_, ?_⟩
  · intro offset hfirst hsecond hheader
    apply (fieldsOnly_inserted hwhole).same
    rintro (hip | ⟨-, hl4⟩)
    · exact hheader hip
    · rw [hplace] at hl4
      omega
  · rw [hword, wordAt_putWord _ hlt]
    exact l4Checksum_modEq data
  · intro hudp
    rw [hword, wordAt_putWord _ hlt]
    exact l4Checksum_udp hudp
  · intro hudp hzero
    rw [hword, l4Checksum, if_pos ⟨hudp, hzero⟩]

/-- What becomes of a checksum that software has stored: it stays, it is a checksum field
of the frame and still verifies, or one half of it is of such a field. -/
inductive Kept (stored output : List (BitVec 8)) (field : Nat) : Prop where
  | untouched (hsame : wordAt output field = wordAt stored field)
  | header (hip4 : isIp4 stored = true) (hplace : field = l3Offset stored + 10)
      (hverifies : onesFold 16 (headerSum false output) = 65535)
  | l4 (hcovered : l4Covered stored = true) (hplace : field = csumPos stored)
      (hverifies : onesFold 16 (l4Sum false output) = 65535)
  | half (hodd : field % 2 = 1) (hshared : InField stored field ∨ InField stored (field + 1))
      (hother : ∀ offset, ¬InField stored offset → byteAt output offset = byteAt stored offset)
      (hverifies : Verifies output)

theorem kept_inserted (stored : List (BitVec 8)) (field : Nat) :
    Kept stored (inserted stored) field := by
  cases hwhole : datagramWhole stored with
  | false => exact .untouched (by rw [inserted_of_not_whole hwhole])
  | true =>
      have hfields := fieldsOnly_inserted hwhole
      have hl3 := l3Offset_even stored
      have hl4 := l4Offset_even stored
      by_cases hshared : InField stored field ∨ InField stored (field + 1)
      · rcases Nat.mod_two_eq_zero_or_one field with heven | hodd
        · have hfirst : InField stored field := by
            rcases hshared with hfirst | ⟨hip4, hplace⟩ | ⟨hcovered, hplace⟩
            · exact hfirst
            · exact Or.inl ⟨hip4, Or.inl (by omega)⟩
            · have hoffset := csumOffset_of_covered hcovered
              unfold csumPos at hplace
              exact Or.inr ⟨hcovered, Or.inl (by unfold csumPos; omega)⟩
          rcases hfirst with ⟨hip4, hplace⟩ | ⟨hcovered, hplace⟩
          · exact .header hip4 (by omega) (headerSum_inserted hwhole hip4)
          · have hoffset := csumOffset_of_covered hcovered
            refine .l4 hcovered ?_ (l4Sum_inserted hwhole hcovered)
            unfold csumPos at hplace ⊢
            omega
        · exact .half hodd hshared hfields.same (verifies_inserted hwhole)
      · rw [not_or] at hshared
        apply Kept.untouched
        rw [wordAt, wordAt, hfields.same _ hshared.1, hfields.same _ hshared.2]

theorem length_emzTxCopy {kernel : KernelCsum} {txCsumHw : Bool} {maxFrame : Nat}
    {data bytes : List (BitVec 8)} {request : Option CsumRequest}
    (hcopy : emzTxCopy kernel txCsumHw maxFrame data request = some bytes) :
    bytes.length = data.length := by
  cases request with
  | none => rw [Option.some.inj hcopy]
  | some request =>
      simp only [emzTxCopy] at hcopy
      split_ifs at hcopy
      · rw [Option.some.inj hcopy]
      · rw [← Option.some.inj hcopy, length_putWord]
      · rw [← Option.some.inj hcopy, length_putWord]

namespace TxCsumBench

variable {params : TxCsumParams}

/-- Every frame that the driver copies for the stack, and that has come out of the
inserter, has the checksum it asked for; `max_frame` is the core's MAX_FRAME. -/
theorem choice_run {kernel : KernelCsum} (hkernel : kernel.Internet)
    (mem : BitVec params.bufAddrWidth → Bool × BitVec 8) (doutR : Bool × BitVec 8)
    (metaMem : BitVec params.metaAddrWidth → TxCsumMeta) (cycles : List TxCsumIn) :
    let tx := runFrom step (start mem doutR metaMem) cycles
    ∀ (index : Nat) (frame : TxCsumFrame) (output : List (BitVec 8)),
      tx.taken[index]? = some frame → tx.sent[index]? = some output → frame.enable = true →
      ∀ (data : List (BitVec 8)) (request : CsumRequest), data.length ≤ params.maxFrame →
        emzTxCopy kernel true params.maxFrame data (some request) = some frame.bytes →
        (emzTxCsumByMac params.maxFrame data request.start request.offset = true →
          Presummed data request →
          frame.bytes = data ∧ SameSent kernel params.maxFrame data request output) ∧
        (emzTxCsumByMac params.maxFrame data request.start request.offset = false →
          frame.bytes = putWord data request.field
            (csumMangled (complement (wordSum (data.drop request.start)))) ∧
          Kept frame.bytes output request.field) := by
  intro tx index frame output hframe houtput hon data request hfits hcopy
  have hlength := length_emzTxCopy hcopy
  have hout : output = inserted frame.bytes := by
    rw [output_eq (transparent_run mem doutR metaMem cycles).shows hframe houtput,
      sentFrame, if_neg (by omega), if_pos hon]
  simp only [emzTxCopy, if_true] at hcopy
  split at hcopy
  · cases hcopy
  · constructor
    · intro hchoice hpresummed
      rw [if_pos hchoice, Option.some.injEq] at hcopy
      rw [hout, ← hcopy]
      exact ⟨rfl, sameSent_inserted hkernel params.maxFrame (byMac_of_choice hchoice)
        hpresummed⟩
    · intro hchoice
      rw [hchoice, if_neg Bool.false_ne_true, Option.some.injEq, hkernel.csumFold,
        csumMangled_congr (hkernel.csumPartial _)] at hcopy
      rw [hout]
      exact ⟨hcopy.symm, kept_inserted frame.bytes request.field⟩

/-- A kernel that sums byte by byte. -/
def plainKernel : KernelCsum where
  csumPartial bytes := BitVec.ofNat 32 (onesFold 16 (wordSum bytes))
  copyAndCsumBits bytes := BitVec.ofNat 32 (onesFold 16 (wordSum bytes))
  csumFold sum := complement sum.toNat

theorem internet_plainKernel : plainKernel.Internet := by
  have hsum (bytes : List (BitVec 8)) :
      (BitVec.ofNat 32 (onesFold 16 (wordSum bytes))).toNat ≡ wordSum bytes [MOD 65535] := by
    have hle := @onesFold_le 16 (by decide) (wordSum bytes)
    rw [BitVec.toNat_ofNat, Nat.mod_eq_of_lt (by omega)]
    exact onesFold_modEq (wordSum bytes)
  exact ⟨hsum, hsum, fun _ => rfl⟩

/-- The frame goes in with `enable` high, and the stage sends it. -/
def sendCycles (bytes : List (BitVec 8)) : List TxCsumIn :=
  (bytes.mapIdx fun index data => ⟨true, data, true, index + 1 == bytes.length, true⟩) ++
    List.replicate (bytes.length + 8) ⟨true, 0, false, false, true⟩

def sendRun (bytes : List (BitVec 8)) : TxCsumBench smallParams :=
  runFrom step (start (fun _ => (false, 0)) (false, 0) fun _ => ⟨false, 0, 0, false, 0, 0⟩)
    (sendCycles bytes)

/-- A UDP datagram as the stack hands it over: its pseudo-header sum is 0x1420. -/
def presummedDatagram : List (BitVec 8) :=
  List.replicate 6 0xFF ++ [0x02, 0, 0, 0, 0, 0x01, 0x08, 0x00] ++
    [0x45, 0, 0, 32, 0, 0, 0, 0, 64, 17, 0xBA, 0xD1, 10, 0, 0, 1, 10, 0, 0, 2] ++
    [0, 7, 0, 7, 0, 12, 0x14, 0x20, 1, 2, 3, 4]

theorem choice_run_udp :
    let tx := sendRun presummedDatagram
    emzTxCsumByMac 64 presummedDatagram 34 6 = true ∧
      SameSent plainKernel 64 presummedDatagram ⟨34, 6⟩ (tx.sent.headD []) := by
  intro tx
  have htaken : tx.taken[0]? = some ⟨true, presummedDatagram⟩ := by decide +kernel
  have hsent : tx.sent[0]? = some (tx.sent.headD []) := by decide +kernel
  have hchoice : emzTxCsumByMac 64 presummedDatagram 34 6 = true := by decide +kernel
  have hboth := choice_run internet_plainKernel _ _ _ (sendCycles presummedDatagram) 0 _ _
    htaken hsent rfl presummedDatagram ⟨34, 6⟩ (by decide) (by decide +kernel)
  exact ⟨hchoice, (hboth.1 hchoice (by decide +kernel)).2⟩

/-- The same datagram with the pseudo-header sum one byte late, across the UDP checksum
field's second byte. -/
def lateDatagram : List (BitVec 8) :=
  List.replicate 6 0xFF ++ [0x02, 0, 0, 0, 0, 0x01, 0x08, 0x00] ++
    [0x45, 0, 0, 32, 0, 0, 0, 0, 64, 17, 0xBA, 0xD1, 10, 0, 0, 1, 10, 0, 0, 2] ++
    [0, 7, 0, 7, 0, 12, 0, 0x14, 0x20, 2, 3, 4]

def lateRequest : CsumRequest := ⟨35, 6⟩

/-- What software stores for it is overwritten by half, and no longer verifies. -/
theorem half_overwritten :
    ∃ stored output, emzTxCopy plainKernel true 64 lateDatagram (some lateRequest) =
        some stored ∧
      emzTxCsumByMac 64 lateDatagram lateRequest.start lateRequest.offset = false ∧
      Presummed lateDatagram lateRequest ∧
      (sendRun stored).taken = [⟨true, stored⟩] ∧ (sendRun stored).sent = [output] ∧
      wordAt output lateRequest.field ≠ wordAt stored lateRequest.field ∧
      lateRequest.field ≠ l3Offset stored + 10 ∧ lateRequest.field ≠ csumPos stored ∧
      onesFold 16 (wordSum (stored.drop lateRequest.start) + pseudoSum stored) = 65535 ∧
      onesFold 16 (wordSum (output.drop lateRequest.start) + pseudoSum output) ≠ 65535 := by
  let stored := (emzTxCopy plainKernel true 64 lateDatagram (some lateRequest)).getD []
  refine ⟨stored, (sendRun stored).sent.headD [], ?_⟩
  decide +kernel

end TxCsumBench

end EmacZero
