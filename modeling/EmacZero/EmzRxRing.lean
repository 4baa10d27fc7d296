/-
The receive ring of the Linux driver: `emz_rx_poll` with `emz_rx_new` and `emz_rx_submit`,
and the DMA's completion callback, each one taken a shared access at a time.
-/
import EmacZero.RingTurns
import Mathlib.Logic.Function.Basic

namespace EmacZero

/-- `EMZ_RX_RING` -/
def emzRxRing : Nat := 128

/-- `EMZ_RX_KICK` -/
def emzRxKick : Nat := 16

/-- `EMZ_RX_BUF_LEN` -/
def emzRxBufLen : Nat := 1536

/-- `ETH_HLEN` -/
def ethHlen : Nat := 14

/-- A fragment of the page pool: its page, and where in the page it is. -/
structure EmzFrag where
  page : Nat
  offset : Nat
deriving Repr, DecidableEq

/-- `emz_rx_slot`: `frag` is `page` and `offset`, `dma` the fragment that the address of
that name is in, and a `status` that is set is `-EIO`. -/
structure EmzRxSlot where
  frag : EmzFrag
  dma : EmzFrag
  len : Nat
  status : Bool
  done : Bool
deriving Repr, DecidableEq

/-- A descriptor: the slot its callback is called for, and the fragment it fills. -/
structure EmzRxDesc where
  idx : Nat
  dma : EmzFrag
deriving Repr, DecidableEq

/-- `budget`, `done` and `submitted` of a poll. -/
structure EmzRxCounts where
  budget : Nat
  done : Nat
  submitted : Nat
deriving Repr, DecidableEq

/-- Where `emz_rx_poll` stands: what it does next, and the locals it needs for it.  Its
`idx` is `rx_tail`, which nothing else writes while NAPI runs. -/
inductive EmzRxPoll where
  | idle
  | loop (counts : EmzRxCounts)
  | status (counts : EmzRxCounts)
  | failError (counts : EmzRxCounts)
  | failDone (counts : EmzRxCounts)
  | frame (counts : EmzRxCounts)
  | short (counts : EmzRxCounts)
  | alloc (counts : EmzRxCounts) (len : Nat) (frag : EmzFrag)
  | build (counts : EmzRxCounts) (len : Nat) (frag : EmzFrag)
  | recycle (counts : EmzRxCounts) (frag : EmzFrag)
  | drop (counts : EmzRxCounts)
  | receive (counts : EmzRxCounts) (len : Nat) (frag : EmzFrag)
  | progress (counts : EmzRxCounts)
  | clear (counts : EmzRxCounts)
  | gate (counts : EmzRxCounts)
  | submit (counts : EmzRxCounts)
  | request (counts : EmzRxCounts)
  | advance (counts : EmzRxCounts)
  | kick (counts : EmzRxCounts)
  | finish (counts : EmzRxCounts)
deriving Repr, DecidableEq

/-- Where `emz_rx_dma_done` stands, with the slot of its descriptor. -/
inductive EmzRxDmaDone where
  | idle
  | len (idx residue : Nat) (failed : Bool)
  | status (idx : Nat) (failed : Bool)
  | gate (idx : Nat)
  | done (idx : Nat)
deriving Repr, DecidableEq

/-- What the driver, the DMA and the page pool share, and where the poll and the callback
stand.  `queue` is the descriptors the DMA has been told to start, `waiting` those that it
has not, `memory` what is in each fragment, `out` the fragments that are not in the pool,
and `stack` those of the skbs that the network stack has not freed. -/
structure EmzRx where
  slots : Nat → EmzRxSlot
  rxTail : Nat
  resetPending : Bool
  queue : List EmzRxDesc
  waiting : List EmzRxDesc
  memory : EmzFrag → List (BitVec 8)
  out : List EmzFrag
  stack : List EmzFrag
  dma : EmzRxDmaDone
  napi : EmzRxPoll
  rxErrors : Nat
  rxLengthErrors : Nat
  rxDropped : Nat
  rxPackets : Nat
  rxBytes : Nat
  rxProgress : Nat

/-- The fragments that `emz_datapath_up` gives the slots, and the slot it comes to first. -/
structure EmzRxUp where
  frag : Nat → EmzFrag
  tail : Nat
  distinct : ((List.range emzRxRing).map frag).Nodup
  tail_lt : tail < emzRxRing

/-- What the kernel answers where the poll asks it: the fragment that
`page_pool_alloc_frag` finds, and whether `napi_build_skb`, or the preparation or the
submission of a descriptor, fails. -/
structure EmzRxAnswer where
  frag : Option EmzFrag
  fails : Bool
deriving Repr, DecidableEq

namespace EmzRx

/-- The ring as `emz_datapath_up` leaves it. -/
def up (ring : EmzRxUp) : EmzRx where
  slots := fun idx => ⟨ring.frag idx, ring.frag idx, 0, false, false⟩
  rxTail := ring.tail
  resetPending := false
  queue := (ringTurns emzRxRing ring.tail emzRxRing).map fun idx => ⟨idx, ring.frag idx⟩
  waiting := []
  memory := fun _ => []
  out := (List.range emzRxRing).map ring.frag
  stack := []
  dma := .idle
  napi := .idle
  rxErrors := 0
  rxLengthErrors := 0
  rxDropped := 0
  rxPackets := 0
  rxBytes := 0
  rxProgress := 0

section Threads

variable (rx : EmzRx)

def setSlot (idx : Nat) (slot : EmzRxSlot) : EmzRx :=
  { rx with slots := Function.update rx.slots idx slot }

/-- The slot at `rx_tail`. -/
def tailSlot : EmzRxSlot := rx.slots rx.rxTail

/-- `page_pool_alloc_frag`: it never gives out a fragment that is out. -/
def allocFrag (answer : EmzRxAnswer) : Option EmzFrag :=
  answer.frag.filter fun frag => frag ∉ rx.out

/-- `dma_async_issue_pending`, which also the DMA's interrupt handler does. -/
def issue : EmzRx := { rx with queue := rx.queue ++ rx.waiting, waiting := [] }

/-- `emz_rx_poll` is called. -/
def poll (budget : Nat) : EmzRx :=
  if rx.napi = .idle then { rx with napi := .loop ⟨budget, 0, 0⟩ } else rx

/-- The next access of `emz_rx_poll`. -/
def pollStep (answer : EmzRxAnswer) : EmzRx :=
  match rx.napi with
  | .idle => rx
  | .loop counts =>
      if counts.done < counts.budget ∧ rx.tailSlot.done = true then
        { rx with napi := .status counts }
      else { rx with napi := .finish counts }
  | .status counts =>
      { rx with napi := if rx.tailSlot.status then .failError counts else .frame counts }
  | .failError counts => { rx with rxErrors := rx.rxErrors + 1, napi := .failDone counts }
  | .failDone counts =>
      { rx.setSlot rx.rxTail { rx.tailSlot with done := false } with napi := .finish counts }
  | .frame counts =>
      if rx.tailSlot.len < ethHlen then { rx with napi := .short counts }
      else { rx with napi := .alloc counts rx.tailSlot.len rx.tailSlot.frag }
  | .short counts =>
      { rx with rxLengthErrors := rx.rxLengthErrors + 1, napi := .progress counts }
  | .alloc counts len frag =>
      match rx.allocFrag answer with
      | none => { rx with napi := .drop counts }
      | some fresh =>
          { rx.setSlot rx.rxTail { rx.tailSlot with frag := fresh, dma := fresh } with
            out := fresh :: rx.out
            napi := .build counts len frag }
  | .build counts len frag =>
      { rx with
        napi := if answer.fails then .recycle counts frag else .receive counts len frag }
  | .recycle counts frag => { rx with out := rx.out.erase frag, napi := .drop counts }
  | .drop counts => { rx with rxDropped := rx.rxDropped + 1, napi := .progress counts }
  | .receive counts len frag =>
      { rx with
        stack := frag :: rx.stack
        rxPackets := rx.rxPackets + 1
        rxBytes := rx.rxBytes + len
        napi := .progress counts }
  | .progress counts =>
      { rx with
        rxProgress := rx.rxProgress + 1
        napi := .clear { counts with done := counts.done + 1 } }
  | .clear counts =>
      { rx.setSlot rx.rxTail { rx.tailSlot with done := false } with napi := .gate counts }
  | .gate counts =>
      { rx with napi := if rx.resetPending then .request counts else .submit counts }
  | .submit counts =>
      if answer.fails then { rx with napi := .request counts }
      else
        { rx with
          waiting := rx.waiting ++ [⟨rx.rxTail, rx.tailSlot.dma⟩]
          napi := .advance counts }
  | .request counts => { rx with resetPending := true, napi := .finish counts }
  | .advance counts =>
      { rx with
        rxTail := (rx.rxTail + 1) % emzRxRing
        napi := .kick { counts with submitted := counts.submitted + 1 } }
  | .kick counts =>
      if counts.submitted % emzRxKick = 0 then { rx.issue with napi := .loop counts }
      else { rx with napi := .loop counts }
  | .finish counts =>
      if counts.submitted % emzRxKick ≠ 0 then { rx.issue with napi := .idle }
      else { rx with napi := .idle }

/-- The DMA completes the descriptor that it was given first, and the callback is called. -/
def complete (data : List (BitVec 8)) (failed : Bool) : EmzRx :=
  match rx.dma, rx.queue with
  | .idle, desc :: rest =>
      { rx with
        queue := rest
        memory := Function.update rx.memory desc.dma (data.take emzRxBufLen)
        dma := .len desc.idx (emzRxBufLen - data.length) failed }
  | _, _ => rx

/-- The next access of `emz_rx_dma_done`. -/
def dmaStep : EmzRx :=
  match rx.dma with
  | .idle => rx
  | .len idx residue failed =>
      { rx.setSlot idx { rx.slots idx with len := emzRxBufLen - min residue emzRxBufLen } with
        dma := .status idx failed }
  | .status idx failed =>
      { rx.setSlot idx { rx.slots idx with status := failed } with
        dma := if failed then .gate idx else .done idx }
  | .gate idx => { rx with resetPending := true, dma := .done idx }
  | .done idx => { rx.setSlot idx { rx.slots idx with done := true } with dma := .idle }

/-- The network stack frees an skb, and its fragment goes back to the pool. -/
def freeSkb (frag : EmzFrag) : EmzRx :=
  if frag ∈ rx.stack then
    { rx with stack := rx.stack.erase frag, out := rx.out.erase frag }
  else rx

/-- `emz_request_reset` from elsewhere in the driver. -/
def requestReset : EmzRx := { rx with resetPending := true }

end Threads

end EmzRx

end EmacZero
