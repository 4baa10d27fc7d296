/-
`crc32`: the Ethernet CRC-32, one byte a clock.
-/
import EmacZero.ReflectedCrc

namespace EmacZero

def crcPolynomial : BitVec 32 := 0xEDB88320

/-- `crc_step` of `crc32`, `crc_step_byte` of `eth_mac_tx`. -/
def crcStep (crcIn : BitVec 32) (data : BitVec 8) : BitVec 32 :=
  crcByte crcPolynomial crcIn data

def crcStart : BitVec 32 := 0xFFFFFFFF

structure Crc32 where
  crcReg : BitVec 32
deriving Repr, DecidableEq

namespace Crc32

def reset : Crc32 := ⟨crcStart⟩

def crcRaw (crc : Crc32) : BitVec 32 := crc.crcReg

def clkEdge (crc : Crc32) (dataIn : BitVec 8) (dataValid crcInit : Bool) : Crc32 where
  crcReg :=
    if crcInit then crcStart
    else if dataValid then crcStep crc.crcReg dataIn
    else crc.crcReg

end Crc32

/-- The register after a message. -/
def crcOf (message : List (BitVec 8)) : BitVec 32 :=
  crcFeed crcPolynomial crcStart message

/-- The frame check sequence of a message, in the order sent. -/
def fcsOf (message : List (BitVec 8)) : List (BitVec 8) :=
  lowBytes 4 (~~~crcOf message)

def crcResidue : BitVec 32 := 0xDEBB20E3

theorem crcOf_concat (message : List (BitVec 8)) (data : BitVec 8) :
    crcOf (message ++ [data]) = crcStep (crcOf message) data :=
  crcFeed_append ..

theorem crcResidue_eq :
    crcResidue = crcBits crcPolynomial 32 (BitVec.allOnes 32) := by
  decide +kernel

@[simp] theorem length_fcsOf (message : List (BitVec 8)) :
    (fcsOf message).length = 4 :=
  length_lowBytes ..

/-- The receiver's test: the register holds the residue exactly if the last four
bytes are the frame check sequence of the others. -/
theorem crcOf_append_eq_residue_iff {message check : List (BitVec 8)}
    (hcheck : check.length = 4) :
    crcOf (message ++ check) = crcResidue ↔ check = fcsOf message := by
  have htop : crcPolynomial.getLsbD (32 - 1) = true := by decide
  have hresidue := crcFeed_residue_iff htop
    (by rw [hcheck] : 8 * check.length = 32) (crcOf message)
  rw [hcheck] at hresidue
  rw [crcResidue_eq, crcOf, crcFeed_append]
  exact hresidue

end EmacZero
