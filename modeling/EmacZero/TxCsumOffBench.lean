/-
`tx_csum_off` under its monitors: the frames that have gone in, what is to become of
them, and the bytes that have come out.  The patch of a frame is what its checksums are.
-/
import EmacZero.CsumCalcReference
import EmacZero.TxCsumLayout
import EmacZero.TxCsumOff

namespace EmacZero

namespace CsumBench

variable {bench : CsumBench}

/-- What the engine says of the frame once it has been idle for three cycles. -/
structure Answers (bench : CsumBench) : Prop where
  done : bench.engine.done = datagramWhole bench.frame
  ip4 : bench.engine.ip4 = headerWhole bench.frame
  header : headerWhole bench.frame = true →
    bench.engine.ipSum.toNat = onesFold 16 (headerSum bench.zero bench.frame) ∧
      bench.engine.ipCsumPos.toNat = l3Offset bench.frame + 10
  l4Ok : bench.engine.l4Ok = (datagramWhole bench.frame && l4Covered bench.frame)
  l4 : datagramWhole bench.frame = true → l4Covered bench.frame = true →
    bench.engine.l4Sum.toNat = onesFold 16 (l4Sum bench.zero bench.frame) ∧
      bench.engine.l4CsumPos.toNat = csumPos bench.frame ∧
      bench.engine.l4Udp = (protocol bench.frame == 17)

theorem answers_of_gap (hknown : bench.clean = true ∧ bench.Flow ∧ bench.Results)
    (hgap : 3 ≤ bench.gap) : bench.Answers := by
  obtain ⟨hclean, hflow, hresults⟩ := hknown
  have hago2 : bench.ago2 = bench.frame :=
    (hflow.rest2 (by omega)).trans (hflow.rest1 (by omega))
  have hago3 : bench.ago3 = bench.frame := (hflow.rest3 hgap).trans hago2
  constructor
  · rw [hresults.done (Or.inl hclean), hago3]
  · rw [hresults.ip4, hago2]
  · intro hwhole
    rw [← hago2] at hwhole ⊢
    exact ⟨hresults.ipSum hwhole, (header_live hflow hwhole).2⟩
  · rw [hresults.l4Ok (Or.inl hclean), hago3]
  · intro hwhole hcovered
    rw [← hago3] at hwhole hcovered ⊢
    exact ⟨hresults.l4Sum hwhole hcovered, (whole_live hflow hwhole).2.2.1,
      l4Udp_live hflow hresults hwhole⟩

end CsumBench

/-- A frame as its bytes go out. -/
def TxCsumMeta.patched (q : TxCsumMeta) (frame : List (BitVec 8)) : List (BitVec 8) :=
  frame.mapIdx fun index data => q.patch (BitVec.ofNat 14 index) data

/-- A frame as it goes in, with `enable` at its first byte. -/
structure TxCsumFrame where
  enable : Bool
  bytes : List (BitVec 8)
deriving Repr, DecidableEq

/-- A frame as it is to come out. -/
def sentFrame (params : TxCsumParams) (frame : TxCsumFrame) : List (BitVec 8) :=
  if params.maxFrame < frame.bytes.length then frame.bytes.take params.maxFrame
  else if frame.enable then inserted frame.bytes
  else frame.bytes

/-- The stage, the frames that have gone in and the one that is going in, those that have
come out and the bytes of the one that is coming out. -/
structure TxCsumBench (params : TxCsumParams) where
  stage : TxCsumOff params
  taken : List TxCsumFrame
  taking : TxCsumFrame
  sent : List (List (BitVec 8))
  sending : List (BitVec 8)

section Patch

/-- Bytes of the word that goes to two places. -/
theorem patch_eq (q : TxCsumMeta) {index : Nat} (hindex : index ≤ 16383)
    (hip : q.ipPatch = true → q.ipPos.toNat < 16383)
    (hl4 : q.l4Patch = true → q.l4Pos.toNat < 16383) (data : BitVec 8) :
    q.patch (BitVec.ofNat 14 index) data =
      if q.ipPatch ∧ index = q.ipPos.toNat then q.ipCsum.extractLsb' 8 8
      else if q.ipPatch ∧ index = q.ipPos.toNat + 1 then q.ipCsum.extractLsb' 0 8
      else if q.l4Patch ∧ index = q.l4Pos.toNat then q.l4Csum.extractLsb' 8 8
      else if q.l4Patch ∧ index = q.l4Pos.toNat + 1 then q.l4Csum.extractLsb' 0 8
      else data := by
  have hplace (pos : BitVec 14) : (BitVec.ofNat 14 index == pos) = decide (index = pos.toNat) := by
    rw [Bool.eq_iff_iff, beq_iff_eq, decide_eq_true_eq, ← BitVec.toNat_inj, BitVec.toNat_ofNat,
      Nat.mod_eq_of_lt (by omega)]
  have hnext (pos : BitVec 14) (hlt : pos.toNat < 16383) : (pos + 1).toNat = pos.toNat + 1 := by
    rw [BitVec.toNat_add_of_lt]
    · rfl
    · exact Nat.add_lt_of_lt_sub hlt
  rw [TxCsumMeta.patch, hplace, hplace, hplace, hplace]
  cases hipPatch : q.ipPatch with
  | true =>
      rw [hnext _ (hip hipPatch)]
      cases hl4Patch : q.l4Patch with
      | true =>
          rw [hnext _ (hl4 hl4Patch)]
          simp
      | false => simp
  | false =>
      cases hl4Patch : q.l4Patch with
      | true =>
          rw [hnext _ (hl4 hl4Patch)]
          simp
      | false => simp

theorem complement_of_fold {sum : BitVec 16} {value : Nat}
    (hsum : sum.toNat = onesFold 16 value) : ~~~sum = complement value := by
  rw [← BitVec.toNat_inj, BitVec.toNat_not, complement_toNat, hsum]

@[simp] theorem length_patched (q : TxCsumMeta) (frame : List (BitVec 8)) :
    (q.patched frame).length = frame.length := by
  rw [TxCsumMeta.patched, List.length_mapIdx]

theorem patched_of_none {q : TxCsumMeta} (hip : q.ipPatch = false) (hl4 : q.l4Patch = false)
    (frame : List (BitVec 8)) : q.patched frame = frame := by
  apply List.ext_getElem
  · simp
  · intro index hleft hright
    simp [TxCsumMeta.patched, TxCsumMeta.patch, hip, hl4]

variable {params : TxCsumParams} {stage : TxCsumOff params} {check : CsumBench}

/-- The patch of a frame with a whole datagram: its checksums, in their places. -/
structure Right (q : TxCsumMeta) (frame : List (BitVec 8)) : Prop where
  ip : q.ipPatch = isIp4 frame
  ipPlace : q.ipPatch = true →
    q.ipPos.toNat = l3Offset frame + 10 ∧ q.ipCsum = ipChecksum frame
  l4 : q.l4Patch = l4Covered frame
  l4Place : q.l4Patch = true → q.l4Pos.toNat = csumPos frame ∧ q.l4Csum = l4Checksum frame

theorem metaIn_right (hanswers : check.Answers) (hzero : check.zero = true)
    (hengine : check.engine = stage.uCalc) (hok : stage.patchOk = true)
    (hwhole : datagramWhole check.frame = true) : Right stage.metaIn check.frame := by
  have hheader := headerWhole_of_whole hwhole
  have hip : stage.metaIn.ipPatch = isIp4 check.frame := by
    change (stage.patchOk && stage.uCalc.ip4) = _
    rw [hok, ← hengine, hanswers.ip4, hheader, Bool.true_and]
  have hl4 : stage.metaIn.l4Patch = l4Covered check.frame := by
    change (stage.patchOk && stage.uCalc.l4Ok) = _
    rw [hok, ← hengine, hanswers.l4Ok, hwhole, Bool.true_and, Bool.true_and]
  refine ⟨hip, ?_, hl4, ?_⟩
  · intro hset
    rw [hip] at hset
    obtain ⟨hsum, hpos⟩ := hanswers.header (hheader.trans hset)
    rw [hengine, hzero] at hsum
    rw [hengine] at hpos
    exact ⟨hpos, complement_of_fold hsum⟩
  · intro hset
    rw [hl4] at hset
    obtain ⟨hsum, hpos, hudp⟩ := hanswers.l4 hwhole hset
    rw [hengine, hzero] at hsum
    rw [hengine] at hpos hudp
    have hvalue : stage.l4CsumC = complement (l4Sum true check.frame) :=
      complement_of_fold hsum
    refine ⟨hpos, ?_⟩
    change stage.l4Csum = _
    rw [TxCsumOff.l4Csum, l4Checksum, hvalue, hudp]
    simp

theorem Right.patched {q : TxCsumMeta} {frame : List (BitVec 8)} (hright : Right q frame)
    (hwhole : datagramWhole frame = true) (hfits : frame.length ≤ 16383) :
    q.patched frame = inserted frame := by
  obtain ⟨hip, hipPlace, hl4, hl4Place⟩ := hright
  obtain ⟨hin, hcovered⟩ := fields_of_whole hwhole
  apply List.ext_getElem
  · simp
  · intro index hleft hright
    rw [length_patched] at hleft
    have hbyte : (inserted frame)[index] = byteAt (inserted frame) index :=
      (List.getD_eq_getElem _ _ hright).symm
    have hdata : frame[index] = byteAt frame index := (List.getD_eq_getElem _ _ hleft).symm
    rw [hbyte, byteAt_inserted hwhole, ← hdata, ← hip, ← hl4]
    simp only [TxCsumMeta.patched, List.getElem_mapIdx]
    rw [patch_eq _ (by omega)]
    · cases hipSet : q.ipPatch with
      | true =>
          rw [(hipPlace hipSet).1, (hipPlace hipSet).2]
          cases hl4Set : q.l4Patch with
          | true => rw [(hl4Place hl4Set).1, (hl4Place hl4Set).2]
          | false => simp
      | false =>
          cases hl4Set : q.l4Patch with
          | true =>
              rw [(hl4Place hl4Set).1, (hl4Place hl4Set).2]
              simp
          | false => simp
    · intro hset
      rw [(hipPlace hset).1]
      omega
    · intro hset
      rw [(hl4Place hset).1]
      have hlast := (hcovered (hl4.symm.trans hset)).1
      omega

/-- What is committed for a frame writes its checksums into it. -/
theorem patched_metaIn (hanswers : check.Answers) (hzero : check.zero = true)
    (hengine : check.engine = stage.uCalc) (hfits : check.frame.length ≤ 16383) :
    stage.metaIn.patched check.frame =
      if stage.enFrame && !stage.cut then inserted check.frame else check.frame := by
  have hok : stage.patchOk =
      ((stage.enFrame && !stage.cut) && datagramWhole check.frame) := by
    rw [TxCsumOff.patchOk, ← hengine, hanswers.done]
  have hnone (hoff : stage.patchOk = false) :
      stage.metaIn.patched check.frame = check.frame := by
    apply patched_of_none
    · change (stage.patchOk && stage.uCalc.ip4) = false
      rw [hoff, Bool.false_and]
    · change (stage.patchOk && stage.uCalc.l4Ok) = false
      rw [hoff, Bool.false_and]
  cases hon : stage.enFrame && !stage.cut with
  | false => exact hnone (by rw [hok, hon, Bool.false_and])
  | true =>
      rw [hon, Bool.true_and] at hok
      rw [if_pos rfl]
      cases hwhole : datagramWhole check.frame with
      | false =>
          rw [inserted_of_not_whole hwhole]
          exact hnone (hok.trans hwhole)
      | true =>
          exact (metaIn_right hanswers hzero hengine (hok.trans hwhole) hwhole).patched hwhole
            hfits

end Patch

namespace TxCsumBench

variable {params : TxCsumParams}

def start (mem : BitVec params.bufAddrWidth → Bool × BitVec 8) (doutR : Bool × BitVec 8)
    (metaMem : BitVec params.metaAddrWidth → TxCsumMeta) : TxCsumBench params :=
  ⟨.reset mem doutR metaMem, [], ⟨false, []⟩, [], []⟩

/-- A byte goes in. -/
def accepts (bench : TxCsumBench params) (i : TxCsumIn) : Bool :=
  i.sTvalid && bench.stage.sTready

/-- The frame that is going in, with the byte on the input. -/
def grown (bench : TxCsumBench params) (i : TxCsumIn) : TxCsumFrame where
  enable := if bench.taking.bytes.isEmpty then i.enable else bench.taking.enable
  bytes := bench.taking.bytes ++ [i.sTdata]

def step (bench : TxCsumBench params) (i : TxCsumIn) : TxCsumBench params where
  stage := bench.stage.clkEdge i
  taken := if bench.accepts i && i.sTlast then bench.taken ++ [bench.grown i] else bench.taken
  taking :=
    if bench.accepts i then if i.sTlast then ⟨false, []⟩ else bench.grown i
    else bench.taking
  sent :=
    if bench.stage.bufPop i && bench.stage.mTlast then
      bench.sent ++ [bench.sending ++ [bench.stage.mTdata]]
    else bench.sent
  sending :=
    if bench.stage.bufPop i then
      if bench.stage.mTlast then [] else bench.sending ++ [bench.stage.mTdata]
    else bench.sending

/-- The frames that are to come out: all that have gone in, and the one that is going in
if it is too long. -/
def due (bench : TxCsumBench params) : List (List (BitVec 8)) :=
  bench.taken.map (sentFrame params) ++
    if params.maxFrame ≤ bench.taking.bytes.length then
      [bench.taking.bytes.take params.maxFrame]
    else []

end TxCsumBench

end EmacZero
