/-
`eth_pause`: the pause timer that received PAUSE frames load, and the generator that
sends one on request.
-/
import EmacZero.ClockedRun

namespace EmacZero

/-- The PAUSE frame with this source address and quanta, without its FCS. -/
def pauseFrame (mac : BitVec 48) (quanta : BitVec 16) : List (BitVec 8) :=
  [0x01, 0x80, 0xC2, 0x00, 0x00, 0x01,
    mac.extractLsb' 40 8, mac.extractLsb' 32 8, mac.extractLsb' 24 8, mac.extractLsb' 16 8,
    mac.extractLsb' 8 8, mac.extractLsb' 0 8,
    0x88, 0x08, 0x00, 0x01, quanta.extractLsb' 8 8, quanta.extractLsb' 0 8] ++
    List.replicate 42 0x00

/-- `TICK_DIV_1G`, `TICK_DIV_100M` and `TICK_DIV_10M`. -/
structure EthPauseParams where
  tickDiv1G : BitVec 16
  tickDiv100M : BitVec 16
  tickDiv10M : BitVec 16

/-- `TX_IDLE`, `TX_RUN` and `TX_DONE`. -/
inductive PauseTxState where
  | idle | run | done
deriving Repr, DecidableEq

/-- The inputs of the generator in one cycle. -/
structure PauseTxIn where
  ourMac : BitVec 48
  cfgPauseTxSend : Bool
  cfgPauseTxQuanta : BitVec 16
  pauseTready : Bool
  statClr : Bool
deriving Repr, DecidableEq

structure EthPauseTx where
  txIdx : BitVec 6
  txQuantaLat : BitVec 16
  txSrcLat : BitVec 48
  txState : PauseTxState
  pauseTxCnt : BitVec 32
deriving Repr, DecidableEq

namespace EthPauseTx

def reset : EthPauseTx := ⟨0, 0, 0, .idle, 0⟩

section Edge

variable (gen : EthPauseTx) (i : PauseTxIn)

/-- `pause_tdata` -/
def pauseTdata : BitVec 8 :=
  match gen.txIdx.toNat with
  | 0 => 0x01
  | 1 => 0x80
  | 2 => 0xC2
  | 3 => 0x00
  | 4 => 0x00
  | 5 => 0x01
  | 6 => gen.txSrcLat.extractLsb' 40 8
  | 7 => gen.txSrcLat.extractLsb' 32 8
  | 8 => gen.txSrcLat.extractLsb' 24 8
  | 9 => gen.txSrcLat.extractLsb' 16 8
  | 10 => gen.txSrcLat.extractLsb' 8 8
  | 11 => gen.txSrcLat.extractLsb' 0 8
  | 12 => 0x88
  | 13 => 0x08
  | 14 => 0x00
  | 15 => 0x01
  | 16 => gen.txQuantaLat.extractLsb' 8 8
  | 17 => gen.txQuantaLat.extractLsb' 0 8
  | _ => 0x00

def pauseTvalid : Bool := gen.txState == .run

def pauseTlast : Bool := gen.txState == .run && gen.txIdx == 59

def clkEdge : EthPauseTx :=
  let next :=
    match gen.txState with
    | .idle =>
        if i.cfgPauseTxSend then
          { gen with
            txQuantaLat := i.cfgPauseTxQuanta
            txSrcLat := i.ourMac
            txIdx := 0
            txState := .run }
        else gen
    | .run =>
        if i.pauseTready then
          if gen.txIdx = 59 then { gen with txState := .done }
          else { gen with txIdx := gen.txIdx + 1 }
        else gen
    | .done =>
        { gen with
          pauseTxCnt :=
            if gen.pauseTxCnt = 0xFFFFFFFF then gen.pauseTxCnt else gen.pauseTxCnt + 1
          txState := .idle }
  if i.statClr then { next with pauseTxCnt := 0 } else next

end Edge

end EthPauseTx

/-- The inputs of the timer in one cycle, the toggle as its first flop takes it. -/
structure PauseRxIn where
  cfgSpeed : BitVec 2
  cfgPauseRxEn : Bool
  rxPauseTgl : Bool
  rxPauseQuanta : BitVec 16
  statClr : Bool
deriving Repr, DecidableEq

structure EthPauseTimer where
  prxTglS1 : Bool
  prxTglS2 : Bool
  prxTglS3 : Bool
  tickCnt : BitVec 16
  pauseTick : Bool
  pauseRemaining : BitVec 16
  txPausedR : Bool
  pauseRxCnt : BitVec 32
deriving Repr, DecidableEq

namespace EthPauseTimer

def reset : EthPauseTimer := ⟨false, false, false, 0, false, 0, false, 0⟩

section Edge

variable (params : EthPauseParams) (timer : EthPauseTimer) (i : PauseRxIn)

def prxEvt : Bool := timer.prxTglS2 ^^ timer.prxTglS3

def pauseLoad : Bool := timer.prxEvt && i.cfgPauseRxEn

def tickDiv : BitVec 16 :=
  if i.cfgSpeed = 0 then params.tickDiv1G
  else if i.cfgSpeed = 1 then params.tickDiv100M
  else params.tickDiv10M

def clkEdge : EthPauseTimer where
  prxTglS1 := i.rxPauseTgl
  prxTglS2 := timer.prxTglS1
  prxTglS3 := timer.prxTglS2
  tickCnt :=
    if timer.pauseLoad i then 0
    else if (tickDiv params i - 1).ule timer.tickCnt then 0
    else timer.tickCnt + 1
  pauseTick :=
    if timer.pauseLoad i then false
    else (tickDiv params i - 1).ule timer.tickCnt
  pauseRemaining :=
    if timer.pauseLoad i then i.rxPauseQuanta
    else if timer.pauseTick && timer.pauseRemaining != 0 then timer.pauseRemaining - 1
    else timer.pauseRemaining
  txPausedR :=
    if timer.pauseLoad i then i.rxPauseQuanta != 0
    else if timer.pauseTick && timer.pauseRemaining == 1 then false
    else timer.txPausedR
  pauseRxCnt :=
    if i.statClr then 0
    else if timer.prxEvt && timer.pauseRxCnt != 0xFFFFFFFF then timer.pauseRxCnt + 1
    else timer.pauseRxCnt

end Edge

end EthPauseTimer

end EmacZero
