/-
The transmit ring of the Linux driver: `emz_start_xmit`, the DMA's completion callback and
`emz_tx_complete`, each one taken a shared access at a time.
-/
import Mathlib.Data.BitVec
import Mathlib.Logic.Function.Basic

namespace EmacZero

/-- `EMZ_TX_RING` -/
def emzTxRing : BitVec 32 := 64

/-- `EMZ_TX_WAKE` -/
def emzTxWake : BitVec 32 := 16

/-- `EMZ_TX_BUF_LEN` -/
def emzTxBufLen : Nat := 1536

/-- `emz_tx_slot`; a `status` that is set is `-EIO`. -/
structure EmzTxSlot where
  len : Nat
  status : Bool
  done : Bool
deriving Repr, DecidableEq

/-- Where `emz_start_xmit` stands: what it does next, and the locals it needs for it. -/
inductive EmzStartXmit where
  | idle
  | entered (head : BitVec 32) (len : Nat)
  | busy
  | gate (head : BitVec 32) (len : Nat)
  | copy (head : BitVec 32) (len : Nat)
  | prep (head : BitVec 32) (len : Nat)
  | setLen (head : BitVec 32) (len : Nat)
  | setStatus (head : BitVec 32) (len : Nat)
  | setDone (head : BitVec 32) (len : Nat)
  | report (head : BitVec 32) (len : Nat)
  | publish (head : BitVec 32) (len : Nat)
  | submit (head : BitVec 32)
  | failStatus (head : BitVec 32)
  | failCount (head : BitVec 32)
  | failGate (head : BitVec 32)
  | failDone (head : BitVec 32)
  | failSchedule
  | check
  | stop
  | recheck
  | start
deriving Repr, DecidableEq

/-- Where `emz_tx_dma_done` stands, with the slot of its descriptor. -/
inductive EmzTxDmaDone where
  | idle
  | status (idx : Nat) (failed : Bool)
  | count (idx : Nat)
  | gate (idx : Nat)
  | done (idx : Nat) (failed : Bool)
  | schedule
deriving Repr, DecidableEq

/-- Where `emz_tx_complete` stands, with its locals. -/
inductive EmzTxComplete where
  | idle
  | begun
  | loop (tail head : BitVec 32) (pkts bytes : Nat)
  | status (tail head : BitVec 32) (pkts bytes : Nat)
  | len (tail head : BitVec 32) (pkts bytes : Nat) (failed : Bool)
  | report (tail : BitVec 32) (pkts bytes : Nat)
  | store (tail : BitVec 32)
  | test
  | room
  | wake
deriving Repr, DecidableEq

/-- What the three share, and where each stands.  `stopped` is the queue's state,
`scheduled` what `napi_schedule` leaves, and `queue` the slots of the descriptors
submitted whose callback has not been called. -/
structure EmzTx where
  txHead : BitVec 32
  txTail : BitVec 32
  slots : Nat → EmzTxSlot
  stopped : Bool
  resetPending : Bool
  txFailed : Nat
  scheduled : Bool
  queue : List Nat
  xmit : EmzStartXmit
  dma : EmzTxDmaDone
  napi : EmzTxComplete
  sentPkts : Nat
  sentBytes : Nat
  completedPkts : Nat
  completedBytes : Nat
  txDropped : Nat
  txErrors : Nat
  txPackets : Nat
  txBytes : Nat

namespace EmzTx

/-- The ring as `emz_datapath_up` leaves it. -/
def up : EmzTx where
  txHead := 0
  txTail := 0
  slots := fun _ => ⟨0, false, false⟩
  stopped := false
  resetPending := false
  txFailed := 0
  scheduled := true
  queue := []
  xmit := .idle
  dma := .idle
  napi := .idle
  sentPkts := 0
  sentBytes := 0
  completedPkts := 0
  completedBytes := 0
  txDropped := 0
  txErrors := 0
  txPackets := 0
  txBytes := 0

section Threads

variable (tx : EmzTx)

/-- `counter % EMZ_TX_RING` -/
def slotIdx (counter : BitVec 32) : Nat := (counter % emzTxRing).toNat

/-- `emz_tx_free` -/
def txFree : BitVec 32 := emzTxRing - (tx.txHead - tx.txTail)

def setSlot (idx : Nat) (slot : EmzTxSlot) : EmzTx :=
  { tx with slots := Function.update tx.slots idx slot }

/-- `drop:` -/
def drop : EmzTx := { tx with txDropped := tx.txDropped + 1, xmit := .idle }

/-- `emz_start_xmit` is called. -/
def call (len : Nat) : EmzTx :=
  if tx.xmit = .idle then { tx with xmit := .entered tx.txHead len } else tx

/-- The next access of `emz_start_xmit`; `fails` is how the copy, the preparation of the
descriptor or its submission ends, where it is one of these. -/
def xmitStep (fails : Bool) : EmzTx :=
  match tx.xmit with
  | .idle => tx
  | .entered head len =>
      { tx with xmit := if tx.txFree = 0 then .busy else .gate head len }
  | .busy => { tx with stopped := true, xmit := .idle }
  | .gate head len =>
      if emzTxBufLen < len ∨ tx.resetPending then tx.drop
      else { tx with xmit := .copy head len }
  | .copy head len => if fails then tx.drop else { tx with xmit := .prep head len }
  | .prep head len => if fails then tx.drop else { tx with xmit := .setLen head len }
  | .setLen head len =>
      { tx.setSlot (slotIdx head) { tx.slots (slotIdx head) with len := len } with
        xmit := .setStatus head len }
  | .setStatus head len =>
      { tx.setSlot (slotIdx head) { tx.slots (slotIdx head) with status := false } with
        xmit := .setDone head len }
  | .setDone head len =>
      { tx.setSlot (slotIdx head) { tx.slots (slotIdx head) with done := false } with
        xmit := .report head len }
  | .report head len =>
      { tx with
        sentPkts := tx.sentPkts + 1
        sentBytes := tx.sentBytes + len
        xmit := .publish head len }
  | .publish head _ => { tx with txHead := head + 1, xmit := .submit head }
  | .submit head =>
      if fails then { tx with xmit := .failStatus head }
      else { tx with queue := tx.queue ++ [slotIdx head], xmit := .check }
  | .failStatus head =>
      { tx.setSlot (slotIdx head) { tx.slots (slotIdx head) with status := true } with
        xmit := .failCount head }
  | .failCount head => { tx with txFailed := tx.txFailed + 1, xmit := .failGate head }
  | .failGate head => { tx with resetPending := true, xmit := .failDone head }
  | .failDone head =>
      { tx.setSlot (slotIdx head) { tx.slots (slotIdx head) with done := true } with
        xmit := .failSchedule }
  | .failSchedule => { tx with scheduled := true, xmit := .check }
  | .check => { tx with xmit := if tx.txFree = 0 then .stop else .idle }
  | .stop => { tx with stopped := true, xmit := .recheck }
  | .recheck => { tx with xmit := if emzTxWake ≤ tx.txFree then .start else .idle }
  | .start => { tx with stopped := false, xmit := .idle }

/-- The next access of `emz_tx_dma_done`, or its call for the descriptor submitted first;
`fails` is then its result. -/
def dmaStep (fails : Bool) : EmzTx :=
  match tx.dma with
  | .idle =>
      match tx.queue with
      | [] => tx
      | idx :: rest => { tx with queue := rest, dma := .status idx fails }
  | .status idx failed =>
      { tx.setSlot idx { tx.slots idx with status := failed } with
        dma := if failed then .count idx else .done idx false }
  | .count idx => { tx with txFailed := tx.txFailed + 1, dma := .gate idx }
  | .gate idx => { tx with resetPending := true, dma := .done idx true }
  | .done idx _ =>
      { tx.setSlot idx { tx.slots idx with done := true } with dma := .schedule }
  | .schedule => { tx with scheduled := true, dma := .idle }

/-- The next access of `emz_tx_complete`, or its call. -/
def napiStep : EmzTx :=
  match tx.napi with
  | .idle => { tx with scheduled := false, napi := .begun }
  | .begun => { tx with napi := .loop tx.txTail tx.txHead 0 0 }
  | .loop tail head pkts bytes =>
      if tail ≠ head ∧ (tx.slots (slotIdx tail)).done then
        { tx with napi := .status tail head pkts bytes }
      else if pkts = 0 then { tx with napi := .idle }
      else { tx with napi := .report tail pkts bytes }
  | .status tail head pkts bytes =>
      { tx with napi := .len tail head pkts bytes (tx.slots (slotIdx tail)).status }
  | .len tail head pkts bytes failed =>
      let len := (tx.slots (slotIdx tail)).len
      { tx with
        txErrors := if failed then tx.txErrors + 1 else tx.txErrors
        txPackets := if failed then tx.txPackets else tx.txPackets + 1
        txBytes := if failed then tx.txBytes else tx.txBytes + len
        napi := .loop (tail + 1) head (pkts + 1) (bytes + len) }
  | .report tail pkts bytes =>
      { tx with
        completedPkts := tx.completedPkts + pkts
        completedBytes := tx.completedBytes + bytes
        napi := .store tail }
  | .store tail => { tx with txTail := tail, napi := .test }
  | .test => { tx with napi := if tx.stopped then .room else .idle }
  | .room => { tx with napi := if emzTxWake ≤ tx.txFree then .wake else .idle }
  | .wake => { tx with stopped := false, napi := .idle }

end Threads

/-- Who moves: the kernel calls `emz_start_xmit`, or one of the three goes on. -/
inductive Move where
  | call (len : Nat)
  | xmit (fails : Bool)
  | dma (fails : Bool)
  | napi
deriving Repr, DecidableEq

/-- The queue is stopped with room for more, and nothing is left that will wake it. -/
def Lost (tx : EmzTx) : Prop :=
  tx.stopped = true ∧ emzTxWake ≤ tx.txFree ∧ tx.xmit = .idle ∧
    tx.napi = .idle ∧ tx.scheduled = false

instance (tx : EmzTx) : Decidable tx.Lost := inferInstanceAs (Decidable (_ ∧ _))

end EmzTx

end EmacZero
