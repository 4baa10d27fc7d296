/-
The residue test of the receivers against the check sequence of the transmitters,
on the step functions as `crc32`, `eth_mac_tx` and `mii_tx_saf` write them.
-/
import EmacZero.ClockedRun
import EmacZero.EthMacTxFrames
import EmacZero.EthPauseRx
import EmacZero.MacEnvelopes
import EmacZero.MiiTxFrames

namespace EmacZero

/-- The body of the eight-fold loop. -/
def crcShift (polynomial c : BitVec 32) : BitVec 32 :=
  if c.getLsbD 0 then (0#1 ++ c.extractLsb' 1 31) ^^^ polynomial
  else 0#1 ++ c.extractLsb' 1 31

/-- A byte joins the register and is divided out bit by bit. -/
def crcStepLoop (polynomial crcIn : BitVec 32) (data : BitVec 8) : BitVec 32 :=
  (crcShift polynomial)^[8] (crcIn ^^^ (0#24 ++ data))

/-- `crc_step` of `crc32`. -/
def Crc32.crcStep : BitVec 32 → BitVec 8 → BitVec 32 := crcStepLoop 0xEDB88320

/-- `crc_step_byte` of `eth_mac_tx`. -/
def EthMacTx.crcStepByte : BitVec 32 → BitVec 8 → BitVec 32 := crcStepLoop 0xEDB88320

/-- `crc_step_byte` of `mii_tx_saf`. -/
def MiiTxFramer.crcStepByte : BitVec 32 → BitVec 8 → BitVec 32 := crcStepLoop 0xEDB88320

/-- The register after a list of bytes, from all ones. -/
def crcRegister (step : BitVec 32 → BitVec 8 → BitVec 32) (bytes : List (BitVec 8)) :
    BitVec 32 :=
  bytes.foldl step 0xFFFFFFFF

/-- The four bytes of a word, the least significant one first. -/
def littleEndianBytes (word : BitVec 32) : List (BitVec 8) :=
  [word.extractLsb' 0 8, word.extractLsb' 8 8, word.extractLsb' 16 8,
    word.extractLsb' 24 8]

/-- The FCS that `eth_mac_tx` appends to a frame, S_CRC. -/
def EthMacTx.fcsAppended (frame : List (BitVec 8)) : List (BitVec 8) :=
  littleEndianBytes (~~~crcRegister EthMacTx.crcStepByte frame)

/-- The FCS that `mii_tx_saf` appends to a frame, S_FCS. -/
def MiiTxFramer.fcsAppended (frame : List (BitVec 8)) : List (BitVec 8) :=
  littleEndianBytes (~~~crcRegister MiiTxFramer.crcStepByte frame)

/-- `crc32` fed the bytes of a frame since its `crc_init`. -/
def Crc32.fed (frame : List (BitVec 8)) : Crc32 :=
  runFrom (fun crc data => crc.clkEdge data true false) .reset frame

theorem crcShift_eq (c : BitVec 32) : crcShift 0xEDB88320 c = crcBit crcPolynomial c := by
  have hshift : (0#1 ++ c.extractLsb' 1 31 : BitVec 32) = c >>> 1 := by
    apply BitVec.eq_of_getLsbD_eq
    intro index hindex
    rw [BitVec.getLsbD_append, BitVec.getLsbD_ushiftRight, BitVec.getLsbD_extractLsb']
    by_cases hlow : index < 31
    · simp [hlow]
    · have htop : index = 31 := by omega
      simp [htop]
  rw [crcShift, hshift, crcBit, crcPolynomial]

theorem crcStepLoop_eq : crcStepLoop 0xEDB88320 = crcStep := by
  funext crcIn data
  have hbody : crcShift 0xEDB88320 = crcBit crcPolynomial := funext crcShift_eq
  have hdata : (0#24 ++ data : BitVec 32) = data.setWidth 32 :=
    (BitVec.setWidth_eq_append (by decide)).symm
  rw [crcStepLoop, hbody, hdata]
  rfl

theorem crcRegister_eq (frame : List (BitVec 8)) :
    crcRegister (crcStepLoop 0xEDB88320) frame = crcOf frame := by
  rw [crcStepLoop_eq]
  rfl

theorem littleEndianBytes_eq (word : BitVec 32) :
    littleEndianBytes word = lowBytes 4 word := by
  simp only [littleEndianBytes, lowBytes, ← BitVec.setWidth_ushiftRight_eq_extractLsb,
    ← BitVec.shiftRight_add]
  rfl

theorem Crc32.fed_crcReg (frame : List (BitVec 8)) : (fed frame).crcReg = crcOf frame := by
  induction frame using List.reverseRecOn with
  | nil => rfl
  | append_singleton front data ih =>
      rw [fed, runFrom_append, crcOf_concat, ← ih]
      rfl

theorem EthMacTx.fcsAppended_eq (frame : List (BitVec 8)) :
    fcsAppended frame = fcsOf frame := by
  rw [fcsAppended, littleEndianBytes_eq, crcStepByte, crcRegister_eq, fcsOf]

theorem MiiTxFramer.fcsAppended_eq (frame : List (BitVec 8)) :
    fcsAppended frame = fcsOf frame := by
  rw [fcsAppended, littleEndianBytes_eq, crcStepByte, crcRegister_eq, fcsOf]

/-- Both transmitters end a frame in the FCS they compute. -/
theorem wireFrame_eq (data : List (BitVec 8)) :
    wireFrame data =
      errorFree (preambleBytes ++ padded data ++ EthMacTx.fcsAppended (padded data)) := by
  rw [EthMacTx.fcsAppended_eq, wireFrame]

theorem encoding_eq (data : List (BitVec 8)) :
    encoding data =
      preambleBytes ++ padded data ++ MiiTxFramer.fcsAppended (padded data) := by
  rw [MiiTxFramer.fcsAppended_eq, encoding]

/-- The register holds the residue after a list of at least four bytes exactly if
the last four are the complement of the register before them, low byte first.  The
step functions of the three modules are one, so a receiver passes exactly the frames
that end in what a transmitter appends. -/
theorem residue_exact {frame : List (BitVec 8)} (hlong : 4 ≤ frame.length) :
    let body := frame.take (frame.length - 4)
    let check := frame.drop (frame.length - 4)
    (crcRegister Crc32.crcStep frame = 0xDEBB20E3 ↔
      check = littleEndianBytes (~~~crcRegister Crc32.crcStep body)) ∧
    EthMacTx.crcStepByte = Crc32.crcStep ∧
    MiiTxFramer.crcStepByte = Crc32.crcStep ∧
    (∀ (params : EthMacRxParams) (rx : EthMacRx params),
      ({ rx with crc := Crc32.fed frame }.errFcsNow = false ↔
        check = EthMacTx.fcsAppended body) ∧
      ({ rx with crc := Crc32.fed frame }.errFcsNow = false ↔
        check = MiiTxFramer.fcsAppended body)) ∧
    (∀ rx : EthPauseRx,
      ({ rx with rxCrc := Crc32.fed frame }.rxFcsOk = true ↔
        check = EthMacTx.fcsAppended body) ∧
      ({ rx with rxCrc := Crc32.fed frame }.rxFcsOk = true ↔
        check = MiiTxFramer.fcsAppended body)) ∧
    (∀ data, wireFrame data = errorFree
        (preambleBytes ++ padded data ++ EthMacTx.fcsAppended (padded data))) ∧
    (∀ data, encoding data =
      preambleBytes ++ padded data ++ MiiTxFramer.fcsAppended (padded data)) := by
  intro body check
  have hresidue : crcOf frame = crcResidue ↔ check = fcsOf body := by
    rw [crcOf_eq_residue_iff hlong, fcsOk, beq_iff_eq]
  refine ⟨?_, rfl, rfl, ?_, ?_, wireFrame_eq, encoding_eq⟩
  · rw [Crc32.crcStep, crcRegister_eq, crcRegister_eq, littleEndianBytes_eq]
    exact hresidue
  · intro params rx
    have hpass : { rx with crc := Crc32.fed frame }.errFcsNow = false ↔
        check = fcsOf body := by
      rw [EthMacRx.errFcsNow, Crc32.crcRaw, Crc32.fed_crcReg, bne_eq_false_iff_eq,
        hresidue]
    rw [EthMacTx.fcsAppended_eq, MiiTxFramer.fcsAppended_eq]
    exact ⟨hpass, hpass⟩
  · intro rx
    have hpass : { rx with rxCrc := Crc32.fed frame }.rxFcsOk = true ↔
        check = fcsOf body := by
      rw [EthPauseRx.rxFcsOk, Crc32.crcRaw, Crc32.fed_crcReg, beq_iff_eq, hresidue]
    rw [EthMacTx.fcsAppended_eq, MiiTxFramer.fcsAppended_eq]
    exact ⟨hpass, hpass⟩

/-- On the FCS of a byte. -/
theorem residue_exact_five :
    crcRegister Crc32.crcStep ([0x61] ++ EthMacTx.fcsAppended [0x61]) = 0xDEBB20E3 := by
  refine (residue_exact (by decide)).1.mpr ?_
  decide +kernel

end EmacZero
