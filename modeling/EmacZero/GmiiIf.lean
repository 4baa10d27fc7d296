/-
`gmii_if`: the registers between `gmii_cdc` and the GMII pins, each behind a reset that is
released on its own clock.
-/
import EmacZero.GmiiCdcRx
import EmacZero.GmiiCdcTx

namespace EmacZero

structure GmiiIf where
  txRstNS1 : Bool
  txRstNS2 : Bool
  gmiiTxd : BitVec 8
  gmiiTxEn : Bool
  gmiiTxEr : Bool
  rxRstNS1 : Bool
  rxRstNS2 : Bool
  gmiiRxdInt : BitVec 8
  gmiiRxDvInt : Bool
  gmiiRxErInt : Bool
deriving Repr, DecidableEq

namespace GmiiIf

def reset : GmiiIf := ⟨false, false, 0, false, false, false, false, 0, false, false⟩

/-- A rising edge of `clk_125`, with the outputs of `gmii_cdc`. -/
def txEdge (gmii : GmiiIf) (i : GmiiTxIn) : GmiiIf :=
  { gmii with
    txRstNS1 := true
    txRstNS2 := gmii.txRstNS1
    gmiiTxd := if gmii.txRstNS2 then i.txd else 0
    gmiiTxEn := gmii.txRstNS2 && i.en
    gmiiTxEr := gmii.txRstNS2 && i.er }

/-- A rising edge of `gmii_rx_clk`, with the pins `gmii_rxd`, `gmii_rx_dv` and `gmii_rx_er`. -/
def rxEdge (gmii : GmiiIf) (pins : GmiiTxIn) : GmiiIf :=
  { gmii with
    rxRstNS1 := true
    rxRstNS2 := gmii.rxRstNS1
    gmiiRxdInt := if gmii.rxRstNS2 then pins.txd else 0
    gmiiRxDvInt := gmii.rxRstNS2 && pins.en
    gmiiRxErInt := gmii.rxRstNS2 && pins.er }

/-- The transmit pins. -/
def txPins (gmii : GmiiIf) : GmiiTxIn := ⟨gmii.gmiiTxd, gmii.gmiiTxEn, gmii.gmiiTxEr⟩

/-- The receive inputs of `gmii_cdc`; `gmii_rx_ce_in` is tied high. -/
def gmiiRx (gmii : GmiiIf) : GmiiRxIn :=
  ⟨gmii.gmiiRxDvInt, true, gmii.gmiiRxErInt, gmii.gmiiRxdInt⟩

end GmiiIf

end EmacZero
