/-
The transmit inserter and the receive checker agree: whatever a frame's checksum fields
held, the frame as `tx_csum_off` sends it is not a bad one to `eth_mac_rx`.
-/
import EmacZero.EthMacRxCsum
import EmacZero.EthMacTxFrames
import EmacZero.TxCsumOffRun

namespace EmacZero

/-- A whole datagram whose checksums are right. -/
structure Verifies (frame : List (BitVec 8)) : Prop where
  whole : datagramWhole frame = true
  header : isIp4 frame = true → onesFold 16 (headerSum false frame) = 65535
  l4 : l4Covered frame = true → onesFold 16 (l4Sum false frame) = 65535

section Verdicts

variable {frame : List (BitVec 8)}

theorem Verifies.ipVerdict (hverifies : Verifies frame) : ipVerdict frame = false := by
  rw [EmacZero.ipVerdict]
  cases hwhole : headerWhole frame with
  | false => rfl
  | true => simp [hverifies.header (headerWhole_iff.mp hwhole).1]

theorem Verifies.l4Verdict (hverifies : Verifies frame) : l4Verdict frame = false := by
  rw [EmacZero.l4Verdict]
  cases hcovered : l4Covered frame with
  | false => simp
  | true => simp [hverifies.l4 hcovered]

/-- The bytes behind the datagram do not matter. -/
theorem Verifies.append (hverifies : Verifies frame) (rest : List (BitVec 8)) :
    Verifies (frame ++ rest) := by
  obtain ⟨hwhole, hheader, hl4⟩ := hverifies
  refine ⟨datagramWhole_append hwhole rest, ?_, ?_⟩
  · intro hip4
    have hopen := open_of_whole hwhole
    rw [(layout_append hopen rest).2.2.1] at hip4
    rw [headerSum_append hwhole hip4]
    exact hheader hip4
  · intro hcovered
    rw [settled_append l4Covered_settled hwhole rest] at hcovered
    rw [(covered_append hwhole hcovered false rest).1]
    exact hl4 hcovered

/-- Both inserted checksums are right. -/
theorem verifies_inserted (hwhole : datagramWhole frame = true) :
    Verifies (inserted frame) := by
  have hlayout := (fieldsOnly_inserted hwhole).layout (datagramWhole_iff.mp hwhole).1
  refine ⟨?_, ?_, ?_⟩
  · rw [hlayout.whole]
    exact hwhole
  · intro hip4
    rw [hlayout.ip4] at hip4
    exact headerSum_inserted hwhole hip4
  · intro hcovered
    rw [hlayout.covered] at hcovered
    exact l4Sum_inserted hwhole hcovered

end Verdicts

/-- Where the datagram ends is known once it is whole. -/
theorem CsumBench.l3End_of_whole {check : CsumBench} (hflow : check.Flow)
    (hwhole : datagramWhole check.frame = true) :
    check.engine.l3End.toNat = datagramEnd check.frame := by
  obtain ⟨hformed, hend⟩ := datagramWhole_iff.mp hwhole
  have hopen := open_of_whole hwhole
  have hlate := protocolAt_of_whole hwhole
  have hlengths := lengthsAt_le_protocolAt check.frame
  have hfits := hflow.fits
  have hregs := (hflow.parsed (List.ne_nil_of_length_pos (by omega))).ip hopen
    (ip_of_wellFormed hformed)
  apply hregs.bounds.l3End
  simp [hregs.bounds.lenOk, show lengthsAt check.frame ≤ check.frame.length by omega,
    show datagramEnd check.frame ≤ 16383 by omega]

namespace MacRxBench

variable {params : EthMacRxParams} {bench : MacRxBench params} {check : CsumBench}

/-- A frame that verifies is not a bad one; if its datagram ends too late for the byte
counter its L4 checksum is not judged at all. -/
theorem Checks.passes (hchecks : bench.Checks check)
    (hphase : bench.rx.Phase bench.opened bench.ended) {beats frame : List RxBeat}
    {close : EthMacRxIn} (hended : bench.ended = some (beats, close))
    (hframe : payload beats = some frame) (hverifies : Verifies (checkedBytes frame)) :
    bench.rx.csumBadNow = false := by
  have hne : frame ≠ [] := by
    rintro rfl
    exact absurd hverifies.whole (by decide)
  obtain ⟨hfed, hgap, hbyteCnt⟩ := hchecks.judging hphase hended hframe hne
  rw [← hfed] at hverifies
  have hip := EthMacRx.ipBad_eq hchecks.flow hchecks.results hchecks.zero hchecks.engine hgap
    hbyteCnt
  have hl4 : bench.rx.l4Bad = false := by
    by_cases hafter : datagramEnd check.frame + 4 ≤ check.frame.length
    · have hended := ended_of_whole hverifies.whole
      rw [EthMacRx.l4Bad_eq hchecks.flow hchecks.results hchecks.zero hchecks.engine hgap
        hbyteCnt (Or.inr ⟨hended, hafter⟩)]
      exact hverifies.l4Verdict
    · have hstop := CsumBench.l3End_of_whole hchecks.flow hverifies.whole
      rw [hchecks.engine] at hstop
      rw [EthMacRx.l4Bad, EthMacRx.whole_eq hbyteCnt, hstop, decide_eq_false hafter,
        Bool.and_false]
      rfl
  rw [EthMacRx.csumBadNow, hip, hverifies.ipVerdict, hl4, Bool.or_self, Bool.and_false]

/-- Frames that verify pass. -/
def Passed (bench : MacRxBench params) : Prop :=
  ∀ envelope ∈ bench.closed, ∀ frame, payload envelope.beats = some frame →
    Verifies (checkedBytes frame) → envelope.csumBad = false

theorem Passed.step (hpassed : bench.Passed) (hchecked : bench.Checked) (pins : EthMacRxIn) :
    (bench.step pins).Passed := by
  obtain ⟨check, hchecks⟩ := hchecked.checks
  intro envelope henvelope frame hframe hverifies
  rcases List.mem_append.mp henvelope with hold | hnew
  · exact hpassed envelope hold frame hframe hverifies
  · obtain ⟨hended, -, hbad⟩ := mem_judged hnew
    rw [hbad]
    exact hchecks.passes hchecked.follows.phase hended hframe hverifies

theorem passed_run (haddr : 2 ≤ params.axisFifoAddrWidth)
    (mem : BitVec params.axisFifoAddrWidth → MacWord) (doutR : MacWord)
    (cycles : List EthMacRxIn) : (runFrom step (start mem doutR) cycles).Passed := by
  have hinv (bench : MacRxBench params) (pins : EthMacRxIn)
      (hknown : bench.Checked ∧ bench.Passed) :
      (bench.step pins).Checked ∧ (bench.step pins).Passed :=
    ⟨hknown.1.step haddr pins, hknown.2.step hknown.1 pins⟩
  have hstart : (start mem doutR).Checked ∧ (start mem doutR).Passed := by
    refine ⟨checked_run haddr mem doutR [], ?_⟩
    intro envelope henvelope
    simp [start] at henvelope
  exact (invariant_runFrom hinv hstart cycles).2

end MacRxBench

/-- What the receiver is to check of a frame that `tx_csum_off` has sent. -/
theorem verifies_received {frame : List (BitVec 8)} (hwhole : datagramWhole frame = true)
    (hfits : frame.length ≤ 16383) {beats : List RxBeat}
    (hbytes : bytes beats = padded (inserted frame) ++ fcsOf (padded (inserted frame))) :
    Verifies (checkedBytes beats) := by
  rw [checkedBytes, hbytes, padded, List.append_assoc, List.take_append,
    List.take_of_length_le (by rw [length_inserted]; exact hfits)]
  exact (verifies_inserted hwhole).append _

namespace TxCsumBench

/-- A frame with a whole datagram, enabled and not cut, whatever its checksum fields and
the bytes behind the datagram are, passes the checker of any receiver that it reaches. -/
theorem checked_ok_run {txParams : TxCsumParams} {rxParams : EthMacRxParams}
    (haddr : 2 ≤ rxParams.axisFifoAddrWidth)
    (bufMem : BitVec txParams.bufAddrWidth → Bool × BitVec 8) (bufDout : Bool × BitVec 8)
    (metaMem : BitVec txParams.metaAddrWidth → TxCsumMeta) (txCycles : List TxCsumIn)
    (mem : BitVec rxParams.axisFifoAddrWidth → MacWord) (doutR : MacWord)
    (rxCycles : List EthMacRxIn) :
    let tx := runFrom step (start bufMem bufDout metaMem) txCycles
    ∀ (index : Nat) (frame : TxCsumFrame) (output : List (BitVec 8)),
      tx.taken[index]? = some frame → tx.sent[index]? = some output →
      frame.enable = true → frame.bytes.length ≤ txParams.maxFrame →
      datagramWhole frame.bytes = true →
      ∀ envelope ∈ (runFrom MacRxBench.step (.start mem doutR) rxCycles :
          MacRxBench rxParams).closed,
        ∀ beats, payload envelope.beats = some beats →
          bytes beats = padded output ++ fcsOf (padded output) → envelope.csumBad = false := by
  intro tx index frame output hframe houtput hon hfits hwhole envelope hclosed beats hbeats
    hbytes
  have hmax := txParams.max_le
  have hout : output = inserted frame.bytes := by
    rw [output_eq (transparent_run bufMem bufDout metaMem txCycles).shows hframe houtput,
      sentFrame, if_neg (Nat.not_lt.mpr hfits), if_pos hon]
  rw [hout] at hbytes
  exact MacRxBench.passed_run haddr mem doutR rxCycles envelope hclosed beats hbeats
    (verifies_received hwhole (by omega) hbytes)

/-- A UDP datagram with nothing right in its checksum fields, and three bytes behind it. -/
def unsummedDatagram : List (BitVec 8) :=
  List.replicate 6 0xFF ++ [0x02, 0, 0, 0, 0, 0x01, 0x08, 0x00] ++
    [0x45, 0, 0, 32, 0, 0, 0, 0, 64, 17, 0xBA, 0xD1, 10, 0, 0, 1, 10, 0, 0, 2] ++
    [0, 7, 0, 7, 0, 12, 0, 0, 1, 2, 3, 4] ++ [0xA5, 0xA6, 0xA7]

def unsummedCycles : List TxCsumIn :=
  (unsummedDatagram.mapIdx fun index data => ⟨true, data, true, index + 1 == 49, true⟩) ++
    List.replicate 57 ⟨true, 0, false, false, true⟩

theorem checked_ok_run_unsummed :
    let rxParams : EthMacRxParams := ⟨false, 7, 1518, 9018, true, by decide, by decide⟩
    let tx : TxCsumBench smallParams := runFrom step
      (start (fun _ => (false, 0)) (false, 0) fun _ => ⟨false, 0, 0, false, 0, 0⟩) unsummedCycles
    let output := tx.sent.headD []
    let wire := padded output ++ fcsOf (padded output)
    let rx : MacRxBench rxParams :=
      runFrom MacRxBench.step (.start (fun _ => plainWord 0) (plainWord 0))
        ((0x55 :: 0xD5 :: wire).map (fun data => { wirePins true data with rxCsumEn := true }) ++
          [quietPins true, quietPins true])
    tx.taken = [⟨true, unsummedDatagram⟩] ∧ output ≠ unsummedDatagram ∧
      ∃ envelope ∈ rx.closed, checkOn envelope.beats = true ∧ envelope.csumBad = false := by
  intro rxParams tx output wire rx
  have hone : ∃ envelope ∈ rx.closed, checkOn envelope.beats = true ∧
      ∃ beats ∈ payload envelope.beats, bytes beats = wire := by
    decide +kernel
  obtain ⟨envelope, hclosed, hcheckOn, beats, hbeats, hbytes⟩ := hone
  have htaken : tx.taken[0]? = some ⟨true, unsummedDatagram⟩ := by decide +kernel
  have hsent : tx.sent[0]? = some output := by decide +kernel
  refine ⟨by decide +kernel, by decide +kernel, envelope, hclosed, hcheckOn, ?_⟩
  exact checked_ok_run (by decide) _ _ _ unsummedCycles _ _ _ 0 _ output htaken hsent rfl
    (by decide) (by decide +kernel) envelope hclosed beats hbeats hbytes

end TxCsumBench

end EmacZero
