/-
The receive path of `rgmii_if` at 10 and 100 Mbit/s: nibbles on `rgmii_rxc` are paired
into bytes for `gmii_cdc`.
-/
import EmacZero.GmiiCdcRx

namespace EmacZero

/-- What the input cells of `rgmii_if` give in one cycle. -/
structure RgmiiRxIn where
  rxdRising : BitVec 4
  rxdFalling : BitVec 4
  rxCtlRising : Bool
  rxCtlFalling : Bool
deriving Repr, DecidableEq

structure RgmiiIfRx where
  nibbleLo : BitVec 4
  haveLo : Bool
  erLo : Bool
  sfdSeen : Bool
  rxdLoPair : BitVec 8
  rxDvLoPair : Bool
  rxErLoPair : Bool
  rxFrameLo : Bool
deriving Repr, DecidableEq

namespace RgmiiIfRx

def reset : RgmiiIfRx := ⟨0, false, false, false, 0, false, false, false⟩

section Edge

variable (rxIs1g : Bool) (rx : RgmiiIfRx) (i : RgmiiRxIn)

def erNow : Bool := i.rxCtlRising ^^ i.rxCtlFalling

def sfdNow : Bool := !rx.sfdSeen && i.rxdRising == 0xD && rx.nibbleLo == 0x5

def byteNow : Bool := rx.haveLo || rx.sfdNow i

/-- A rising edge of `rgmii_rxc`. -/
def rxcEdge : RgmiiIfRx :=
  if rxIs1g then rx
  else
    { nibbleLo := if i.rxCtlRising then i.rxdRising else 0
      haveLo := i.rxCtlRising && !rx.byteNow i
      erLo := i.rxCtlRising && erNow i
      sfdSeen := i.rxCtlRising && (rx.sfdNow i || rx.sfdSeen)
      rxdLoPair :=
        if i.rxCtlRising && rx.byteNow i then i.rxdRising ++ rx.nibbleLo else rx.rxdLoPair
      rxDvLoPair := i.rxCtlRising && rx.byteNow i
      rxErLoPair :=
        if i.rxCtlRising then rx.byteNow i && (rx.erLo || erNow i)
        else rx.haveLo && rx.erLo
      -- a nibble left over with an error keeps the envelope open for one more cycle
      rxFrameLo := i.rxCtlRising || (rx.haveLo && rx.erLo) }

/-- `gmii_rxd`, `gmii_rx_dv`, `gmii_rx_er` and `gmii_rx_ce` -/
def gmiiRx : GmiiRxIn :=
  if rxIs1g then
    ⟨i.rxCtlRising, true, i.rxCtlRising ^^ i.rxCtlFalling, i.rxdFalling ++ i.rxdRising⟩
  else ⟨rx.rxFrameLo, rx.rxDvLoPair, rx.rxErLoPair, rx.rxdLoPair⟩

end Edge

end RgmiiIfRx

end EmacZero
