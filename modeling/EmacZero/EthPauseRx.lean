/-
`eth_pause_rx`: the recognition of PAUSE frames on the receive stream of the PHY.
-/
import EmacZero.Crc32

namespace EmacZero

/-- The receive pins in one cycle. -/
structure PausePins where
  rxD : BitVec 8
  rxDv : Bool
  rxEr : Bool
  rxCe : Bool
deriving Repr, DecidableEq

/-- The nibble on the pins. -/
def PausePins.nibble (pins : PausePins) : BitVec 4 := pins.rxD.setWidth 4

/-- The byte stage. -/
structure PauseByteStage where
  bD : BitVec 8
  bStb : Bool
  bEnd : Bool
  bEndEr : Bool
  dvD1 : Bool
  dvEr : Bool
  nibAlgn : Bool
  nibHave : Bool
  nibLow : BitVec 4
deriving Repr, DecidableEq

/-- `RX_IDLE` to `RX_PRE`. -/
inductive PauseRxState where
  | idle | dst | src | typeHi | typeLo | opHi | opLo | quantaHi | quantaLo | latch | drain
  | pre
deriving Repr, DecidableEq

structure PauseParser where
  rxState : PauseRxState
  rxIdx : BitVec 3
  rxLen : BitVec 7
  pauseTgl : Bool
  pauseQuanta : BitVec 16
deriving Repr, DecidableEq

structure EthPauseRx extends PauseByteStage, PauseParser where
  rxCrc : Crc32
deriving Repr, DecidableEq

/-- `dst_byte_match` -/
def dstByteMatch (idx : BitVec 3) (byte : BitVec 8) : Bool :=
  match idx.toNat with
  | 0 => byte == 0x01
  | 1 => byte == 0x80
  | 2 => byte == 0xC2
  | 3 => byte == 0x00
  | 4 => byte == 0x00
  | 5 => byte == 0x01
  | _ => false

namespace EthPauseRx

def reset : EthPauseRx where
  bD := 0
  bStb := false
  bEnd := false
  bEndEr := false
  dvD1 := false
  dvEr := false
  nibAlgn := false
  nibHave := false
  nibLow := 0
  rxState := .idle
  rxIdx := 0
  rxLen := 0
  pauseTgl := false
  pauseQuanta := 0
  rxCrc := .reset

section Edge

variable (rxNibble : Bool) (rx : EthPauseRx) (pins : PausePins)

/-- A nibble 5 and now a D, before the SFD has been found. -/
def sfdNow : Bool :=
  !rx.nibAlgn && rx.nibHave && rx.nibLow == 0x5 && pins.nibble == 0xD

def nextByteStage : PauseByteStage where
  bD :=
    if rxNibble then
      if pins.rxDv && rx.nibHave then pins.nibble ++ rx.nibLow else rx.bD
    else if pins.rxDv && pins.rxCe then pins.rxD else rx.bD
  bStb := if rxNibble then pins.rxDv && rx.nibHave else pins.rxDv && pins.rxCe
  bEnd := rx.dvD1 && !pins.rxDv
  bEndEr := rx.dvEr
  dvD1 := pins.rxDv
  dvEr := pins.rxDv && (rx.dvEr || pins.rxEr)
  nibAlgn := pins.rxDv && (rx.sfdNow pins || rx.nibAlgn)
  nibHave := pins.rxDv && !rx.sfdNow pins && !(rx.nibAlgn && rx.nibHave)
  nibLow := if pins.rxDv then pins.nibble else rx.nibLow

/-- `rx_sfd` -/
def rxSfd : Bool :=
  rx.bStb && (rx.rxState == .idle || rx.rxState == .pre) && rx.bD == 0xD5

/-- `rx_body` -/
def rxBody : Bool :=
  rx.bStb && rx.rxState != .idle && rx.rxState != .pre && rx.rxState != .drain

/-- `rx_fcs_ok` -/
def rxFcsOk : Bool := rx.rxCrc.crcRaw == crcResidue

/-- The registers of the parser after the byte on the strobe. -/
def parseByte : PauseParser :=
  match rx.rxState with
  | .idle | .pre =>
      { rx.toPauseParser with
        rxIdx := 0
        rxLen := 0
        rxState := if rx.bD = 0xD5 then .dst else if rx.bD = 0x55 then .pre else .drain }
  | .dst =>
      if !dstByteMatch rx.rxIdx rx.bD then { rx.toPauseParser with rxState := .drain }
      else if rx.rxIdx = 5 then { rx.toPauseParser with rxState := .src, rxIdx := 0 }
      else { rx.toPauseParser with rxIdx := rx.rxIdx + 1 }
  | .src =>
      if rx.rxIdx = 5 then { rx.toPauseParser with rxState := .typeHi, rxIdx := 0 }
      else { rx.toPauseParser with rxIdx := rx.rxIdx + 1 }
  | .typeHi =>
      { rx.toPauseParser with rxState := if rx.bD = 0x88 then .typeLo else .drain }
  | .typeLo =>
      { rx.toPauseParser with rxState := if rx.bD = 0x08 then .opHi else .drain }
  | .opHi => { rx.toPauseParser with rxState := if rx.bD = 0x00 then .opLo else .drain }
  | .opLo =>
      { rx.toPauseParser with rxState := if rx.bD = 0x01 then .quantaHi else .drain }
  | .quantaHi =>
      { rx.toPauseParser with
        pauseQuanta := rx.bD ++ rx.pauseQuanta.extractLsb' 0 8
        rxState := .quantaLo }
  | .quantaLo =>
      { rx.toPauseParser with
        pauseQuanta := rx.pauseQuanta.extractLsb' 8 8 ++ rx.bD
        rxState := .latch }
  | .latch | .drain => rx.toPauseParser

/-- A matched frame has ended and is valid. -/
def commits : Bool :=
  rx.bEnd && rx.rxState == .latch && rx.rxFcsOk && !rx.bEndEr && rx.rxLen == 64

def nextParser : PauseParser :=
  let parsed := if rx.bStb then rx.parseByte else rx.toPauseParser
  -- the count is cleared in the preamble only, where it does not count
  let counted :=
    if rx.rxBody && rx.rxLen != 64 then { parsed with rxLen := rx.rxLen + 1 } else parsed
  if rx.bEnd then
    { counted with
      pauseTgl := if rx.commits then !rx.pauseTgl else rx.pauseTgl
      rxState := .idle
      rxIdx := 0 }
  else counted

def clkEdge : EthPauseRx where
  toPauseByteStage := rx.nextByteStage rxNibble pins
  toPauseParser := rx.nextParser
  rxCrc := rx.rxCrc.clkEdge rx.bD rx.rxBody rx.rxSfd

end Edge

end EthPauseRx

end EmacZero
