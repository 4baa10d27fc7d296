/-
The transmit data path of `rgmii_if`: at 10 and 100 Mbit/s a nibble is taken once in a
period of TXC and driven for the whole of the next one.  An observer of the pins takes TXD
and TX_CTL where TXC rises and falls.
-/
import EmacZero.GmiiCdcTx
import EmacZero.PeriodicLook
import EmacZero.RgmiiIfRx
import EmacZero.RgmiiTxc

namespace EmacZero

/-- The registers of `rgmii_if` on `clk_125`; none of them is reset. -/
structure RgmiiTxData where
  spdD : BitVec 2
  txNib : BitVec 4
  txdSlow : BitVec 4
  txHi : Bool
  txEnQ : Bool
  txErQ : Bool
  txctlSlow1 : Bool
  txctlSlow2 : Bool
deriving Repr, DecidableEq

/-- Half a cycle on the pins. -/
structure RgmiiSlot where
  txc : Bool
  txd : BitVec 4
  txCtl : Bool
deriving Repr, DecidableEq

structure RgmiiIfTx where
  clock : RgmiiTxc
  data : RgmiiTxData
deriving Repr, DecidableEq

namespace RgmiiIfTx

/-- Behind reset, with whatever the data registers have come up with. -/
def powerUp (data : RgmiiTxData) : RgmiiIfTx := ⟨.reset, data⟩

section Edge

variable (speeds : RgmiiSpeeds) (rgmii : RgmiiIfTx) (gmii : GmiiTxIn)

def is1gD : Bool := speeds.support1G && (rgmii.data.spdD == 0 || rgmii.data.spdD == 3)
def is100D : Bool := speeds.support100 && rgmii.data.spdD == 1

def lastPhD : BitVec 6 := if rgmii.is100D speeds then 4 else 49
def txN : BitVec 7 := if rgmii.is100D speeds then 5 else 50

/-- What `txctl_slow1` and `txctl_slow2` take for a slot. -/
def ctlOf (slot : BitVec 7) : Bool :=
  if slot.ult (rgmii.txN speeds) then rgmii.data.txEnQ
  else rgmii.data.txEnQ ^^ rgmii.data.txErQ

/-- A nibble, TX_EN and TX_ER are taken at this edge. -/
def loads : Bool := rgmii.clock.txPh == rgmii.lastPhD speeds

def dataEdge : RgmiiTxData where
  spdD := rgmii.clock.txSpd
  txNib :=
    if rgmii.loads speeds then
      if rgmii.data.txHi then gmii.txd.extractLsb' 4 4 else gmii.txd.extractLsb' 0 4
    else rgmii.data.txNib
  txdSlow := rgmii.data.txNib
  txHi := if rgmii.loads speeds then gmii.en && !rgmii.data.txHi else rgmii.data.txHi
  txEnQ := if rgmii.loads speeds then gmii.en else rgmii.data.txEnQ
  txErQ := if rgmii.loads speeds then gmii.er else rgmii.data.txErQ
  txctlSlow1 := rgmii.ctlOf speeds rgmii.clock.txS1
  txctlSlow2 := rgmii.ctlOf speeds rgmii.clock.txS2

/-- A rising edge of `clk_125` and the one of `clk_txc` that belongs to it. -/
def edge (cfgSpeed : BitVec 2) : RgmiiIfTx :=
  ⟨rgmii.clock.clkEdge speeds cfgSpeed, rgmii.dataEdge speeds gmii⟩

/-- What the DDR cells take at an edge for the high half of the next cycle. -/
def slot1 : RgmiiSlot where
  txc := rgmii.clock.txcD1
  txd :=
    if rgmii.is1gD speeds then gmii.txd.extractLsb' 0 4
    else if speeds.supportSlow then rgmii.data.txdSlow else 0
  txCtl :=
    if rgmii.is1gD speeds then gmii.en
    else if speeds.supportSlow then rgmii.data.txctlSlow1 else false

/-- What they take for its low half. -/
def slot2 : RgmiiSlot where
  txc := rgmii.clock.txcD2
  txd :=
    if rgmii.is1gD speeds then gmii.txd.extractLsb' 4 4
    else if speeds.supportSlow then rgmii.data.txdSlow else 0
  txCtl :=
    if rgmii.is1gD speeds then gmii.en ^^ gmii.er
    else if speeds.supportSlow then rgmii.data.txctlSlow2 else false

end Edge

end RgmiiIfTx

/-- An observer of the pins: the level of TXC, what was there when TXC rose last, and the
cycles of TXC that have ended. -/
structure RgmiiLine where
  level : Bool
  rising : BitVec 4 × Bool
  cycles : List RgmiiRxIn
deriving Repr, DecidableEq

namespace RgmiiLine

def unseen : RgmiiLine := ⟨false, (0, false), []⟩

def observe (line : RgmiiLine) (slot : RgmiiSlot) : RgmiiLine :=
  if slot.txc && !line.level then ⟨true, (slot.txd, slot.txCtl), line.cycles⟩
  else if !slot.txc && line.level then
    ⟨false, line.rising,
      line.cycles ++ [⟨line.rising.1, slot.txd, line.rising.2, slot.txCtl⟩]⟩
  else line

end RgmiiLine

/-- The nibble with its error flag that a cycle of TXC carries at 10 and 100 Mbit/s. -/
def RgmiiRxIn.nibble (i : RgmiiRxIn) : Option (BitVec 4 × Bool) :=
  if i.rxCtlRising then some (i.rxdRising, i.rxCtlRising ^^ i.rxCtlFalling) else none

/-- A byte goes out its low nibble first, its error flag with both. -/
def nibbleOf (beat : BitVec 8 × Bool) (turn : Nat) : BitVec 4 × Bool :=
  (if turn = 0 then beat.1.extractLsb' 0 4 else beat.1.extractLsb' 4 4, beat.2)

/-- The cycles of TXC that carry a nibble, and the gaps between them. -/
def nibblesSeen (cycles : List RgmiiRxIn) : Spaced (BitVec 4 × Bool) :=
  (cycles.map RgmiiRxIn.nibble).foldl .observe .unseen

theorem nibblesSeen_concat (cycles : List RgmiiRxIn) (cycle : RgmiiRxIn) :
    nibblesSeen (cycles ++ [cycle]) = (nibblesSeen cycles).observe cycle.nibble := by
  rw [nibblesSeen, List.map_append, List.foldl_append]
  rfl

end EmacZero
