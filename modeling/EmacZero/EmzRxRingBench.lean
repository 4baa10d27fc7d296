/-
Runs of the driver's receive ring: the completions of the DMA, what becomes of each one
that `emz_rx_poll` takes, and who owns the fragments.
-/
import EmacZero.ClockedRun
import EmacZero.EmzRxRing

namespace EmacZero

/-- What the DMA did with a descriptor. -/
structure EmzRxCompletion where
  data : List (BitVec 8)
  failed : Bool
deriving Repr, DecidableEq

/-- What is in the buffer. -/
def EmzRxCompletion.frame (completion : EmzRxCompletion) : List (BitVec 8) :=
  completion.data.take emzRxBufLen

/-- What the poll makes of a completion. -/
inductive EmzRxOutcome where
  | delivered | dropped | short | failed
deriving Repr, DecidableEq

/-- A completion that the poll has taken, with what it made of it. -/
structure EmzRxTaken where
  completion : EmzRxCompletion
  outcome : EmzRxOutcome
deriving Repr, DecidableEq

namespace EmzRxTaken

/-- A good frame of at least `ETH_HLEN` bytes is delivered or dropped, and nothing else
is. -/
def Suits (taken : EmzRxTaken) : Prop :=
  match taken.outcome with
  | .failed => taken.completion.failed = true
  | .short => taken.completion.failed = false ∧ taken.completion.frame.length < ethHlen
  | .delivered | .dropped =>
      taken.completion.failed = false ∧ ethHlen ≤ taken.completion.frame.length

/-- The frames delivered, in the order they were taken in. -/
def frames (taken : List EmzRxTaken) : List (List (BitVec 8)) :=
  (taken.filter fun one => one.outcome = .delivered).map fun one => one.completion.frame

def count (outcome : EmzRxOutcome) (taken : List EmzRxTaken) : Nat :=
  taken.countP fun one => one.outcome = outcome

end EmzRxTaken

namespace EmzRxPoll

/-- The slot at `rx_tail` is in the poll's hands. -/
def holds : EmzRxPoll → Bool
  | .idle | .loop _ | .advance _ | .kick _ | .finish _ => false
  | _ => true

/-- The fragment that is out of its slot and not with an skb yet. -/
def flying : EmzRxPoll → List EmzFrag
  | .build _ _ frag | .recycle _ frag | .receive _ _ frag => [frag]
  | _ => []

end EmzRxPoll

namespace EmzRx

variable (rx : EmzRx)

/-- The fragments of the ring, one for each slot. -/
def ringFrags : List EmzFrag := (List.range emzRxRing).map fun idx => (rx.slots idx).frag

/-- The descriptors that the DMA has not completed. -/
def lent : List EmzRxDesc := rx.queue ++ rx.waiting

/-- Each fragment that is out of the pool has one owner: a slot, the poll, or an skb. -/
structure Owned : Prop where
  out : rx.out.Perm (rx.ringFrags ++ (rx.napi.flying ++ rx.stack))
  distinct : rx.out.Nodup
  slot : ∀ idx, (rx.slots idx).dma = (rx.slots idx).frag
  lent : ∀ desc ∈ rx.lent, desc.dma = (rx.slots desc.idx).frag

end EmzRx

inductive EmzRxMove where
  | poll (budget : Nat)
  | napi (answer : EmzRxAnswer)
  | complete (data : List (BitVec 8)) (failed : Bool)
  | dma
  | issue
  | freeSkb (frag : EmzFrag)
  | requestReset
deriving Repr, DecidableEq

/-- The ring, the completions of the DMA, the frames delivered, how the polls returned, and
whether a slot is left that holds no frame and is not posted. -/
structure EmzRxBench where
  rx : EmzRx
  completed : List EmzRxCompletion
  delivered : List (List (BitVec 8))
  returns : List EmzRxCounts
  stuck : Bool

namespace EmzRxBench

def start (ring : EmzRxUp) : EmzRxBench := ⟨.up ring, [], [], [], false⟩

section Step

variable (bench : EmzRxBench)

def napiStep (answer : EmzRxAnswer) : EmzRxBench :=
  { bench with
    rx := bench.rx.pollStep answer
    delivered :=
      match bench.rx.napi with
      | .receive _ len frag => bench.delivered ++ [(bench.rx.memory frag).take len]
      | _ => bench.delivered
    returns :=
      match bench.rx.napi with
      | .finish counts => bench.returns ++ [counts]
      | _ => bench.returns
    stuck :=
      match bench.rx.napi with
      | .failDone _ | .request _ => true
      | _ => bench.stuck }

def completeStep (data : List (BitVec 8)) (failed : Bool) : EmzRxBench :=
  { bench with
    rx := bench.rx.complete data failed
    completed :=
      match bench.rx.dma, bench.rx.queue with
      | .idle, _ :: _ => bench.completed ++ [⟨data, failed⟩]
      | _, _ => bench.completed }

def step : EmzRxMove → EmzRxBench
  | .poll budget => { bench with rx := bench.rx.poll budget }
  | .napi answer => bench.napiStep answer
  | .complete data failed => bench.completeStep data failed
  | .dma => { bench with rx := bench.rx.dmaStep }
  | .issue => { bench with rx := bench.rx.issue }
  | .freeSkb frag => { bench with rx := bench.rx.freeSkb frag }
  | .requestReset => { bench with rx := bench.rx.requestReset }

end Step

end EmzRxBench

end EmacZero
