/-
`async_fifo`: a FIFO between two clocks.  Gray-coded pointers cross through
two-stage synchronizers; the storage is read combinationally or, with a
registered read port, through a one-word output stage.

The registers of the two clocks start at their reset values.  An edge that
comes while a domain is still in reset leaves them there, so a run is the list
of the edges that come after it.
-/
import EmacZero.ClockCrossing
import EmacZero.ClockedRun

namespace EmacZero

universe u

variable {α : Type u} {addrWidth : Nat} {ramStyle : RamStyle}

/-- `RAM_STYLE`: `"BLOCK"` selects the output stage, anything else the
combinational read. -/
inductive RamStyle where
  | distributed
  | block
deriving Repr, DecidableEq

/-- The head of the queue has its own register. -/
def RamStyle.staged : RamStyle → Bool
  | .distributed => false
  | .block => true

def bin2gray {n : Nat} (bin : BitVec n) : BitVec n := bin ^^^ (bin >>> 1)

def gray2bin (gray : BitVec (addrWidth + 1)) : BitVec (addrWidth + 1) :=
  (List.range addrWidth).foldl (fun b i => b ^^^ (gray >>> (i + 1))) gray

/-- `{~gray[ADDR_WIDTH:ADDR_WIDTH-1], gray[ADDR_WIDTH-2:0]}` -/
def fullPattern (gray : BitVec (addrWidth + 1)) : BitVec (addrWidth + 1) :=
  (~~~(gray.extractLsb' (addrWidth - 1) 2) ++
    gray.extractLsb' 0 (addrWidth - 1)).setWidth (addrWidth + 1)

structure AsyncFifo (α : Type u) (addrWidth : Nat) (ramStyle : RamStyle) where
  wrPtrBin : BitVec (addrWidth + 1)
  wrPtrGray : Launched (BitVec (addrWidth + 1))
  rdPtrBin : BitVec (addrWidth + 1)
  rdPtrGray : Launched (BitVec (addrWidth + 1))
  wrPtrGraySync1 : Launched (BitVec (addrWidth + 1))
  wrPtrGraySync2 : BitVec (addrWidth + 1)
  rdPtrGraySync1 : Launched (BitVec (addrWidth + 1))
  rdPtrGraySync2 : BitVec (addrWidth + 1)
  mem : BitVec addrWidth → α
  headQ : α
  headValid : Bool

namespace AsyncFifo

/-- The storage and its read port are not reset. -/
def reset (mem : BitVec addrWidth → α) (headQ : α) :
    AsyncFifo α addrWidth ramStyle where
  wrPtrBin := 0
  wrPtrGray := .rest 0
  rdPtrBin := 0
  rdPtrGray := .rest 0
  wrPtrGraySync1 := .rest 0
  wrPtrGraySync2 := 0
  rdPtrGraySync1 := .rest 0
  rdPtrGraySync2 := 0
  mem := mem
  headQ := headQ
  headValid := false

def wrFull (fifo : AsyncFifo α addrWidth ramStyle) : Bool :=
  fifo.wrPtrGray.now == fullPattern fifo.rdPtrGraySync2

def wrDataCount (fifo : AsyncFifo α addrWidth ramStyle) :
    BitVec (addrWidth + 1) :=
  fifo.wrPtrBin - gray2bin fifo.rdPtrGraySync2

def memEmpty (fifo : AsyncFifo α addrWidth ramStyle) : Bool :=
  fifo.rdPtrGray.now == fifo.wrPtrGraySync2

/-- The head word, and whether there is none. -/
def rdData (fifo : AsyncFifo α addrWidth ramStyle) : α :=
  match ramStyle with
  | .distributed => fifo.mem (fifo.rdPtrBin.setWidth addrWidth)
  | .block => fifo.headQ

def rdEmpty (fifo : AsyncFifo α addrWidth ramStyle) : Bool :=
  match ramStyle with
  | .distributed => fifo.memEmpty
  | .block => !fifo.headValid

def pop (fifo : AsyncFifo α addrWidth ramStyle) (rdEn : Bool) : Bool :=
  rdEn && !fifo.rdEmpty

def memRd (fifo : AsyncFifo α addrWidth ramStyle) (rdEn : Bool) : Bool :=
  match ramStyle with
  | .distributed => rdEn && !fifo.memEmpty
  | .block => !fifo.memEmpty && (!fifo.headValid || fifo.pop rdEn)

/-- A rising edge of `wr_clk`. -/
def wrEdge (fifo : AsyncFifo α addrWidth ramStyle) (wrEn : Bool) (wrData : α)
    (skew : Skew) : AsyncFifo α addrWidth ramStyle :=
  let wrAddrValid := wrEn && !fifo.wrFull
  { fifo with
    wrPtrBin := if wrAddrValid then fifo.wrPtrBin + 1 else fifo.wrPtrBin
    wrPtrGray :=
      if wrAddrValid then fifo.wrPtrGray.drive (bin2gray (fifo.wrPtrBin + 1))
      else fifo.wrPtrGray
    mem :=
      if wrAddrValid then
        Function.update fifo.mem (fifo.wrPtrBin.setWidth addrWidth) wrData
      else fifo.mem
    rdPtrGray := fifo.rdPtrGray.settle
    rdPtrGraySync1 :=
      fifo.rdPtrGraySync1.drive (fifo.rdPtrGray.sample skew.first)
    rdPtrGraySync2 := fifo.rdPtrGraySync1.sample skew.second }

/-- A rising edge of `rd_clk`. -/
def rdEdge (fifo : AsyncFifo α addrWidth ramStyle) (rdEn : Bool)
    (skew : Skew) : AsyncFifo α addrWidth ramStyle :=
  let memRd := fifo.memRd rdEn
  { fifo with
    rdPtrBin := if memRd then fifo.rdPtrBin + 1 else fifo.rdPtrBin
    rdPtrGray :=
      if memRd then fifo.rdPtrGray.drive (bin2gray (fifo.rdPtrBin + 1))
      else fifo.rdPtrGray
    headQ :=
      if ramStyle.staged && memRd then
        fifo.mem (fifo.rdPtrBin.setWidth addrWidth)
      else fifo.headQ
    headValid :=
      if ramStyle.staged && memRd then true
      else if fifo.pop rdEn then false
      else fifo.headValid
    wrPtrGray := fifo.wrPtrGray.settle
    wrPtrGraySync1 :=
      fifo.wrPtrGraySync1.drive (fifo.wrPtrGray.sample skew.first)
    wrPtrGraySync2 := fifo.wrPtrGraySync1.sample skew.second }

/-- The number of words between the two pointers, and those words, oldest
first. -/
def occupancy (fifo : AsyncFifo α addrWidth ramStyle) : Nat :=
  (fifo.wrPtrBin - fifo.rdPtrBin).toNat

def stored (fifo : AsyncFifo α addrWidth ramStyle) : List α :=
  (List.range fifo.occupancy).map fun i =>
    fifo.mem ((fifo.rdPtrBin + BitVec.ofNat (addrWidth + 1) i).setWidth addrWidth)

/-- The word that has left the memory and is not consumed yet. -/
def head (fifo : AsyncFifo α addrWidth ramStyle) : List α :=
  if ramStyle.staged && fifo.headValid then [fifo.headQ] else []

end AsyncFifo

end EmacZero
