/-
The UDP payload stream of `net_rx`: a byte a beat, with the datagram's source and ports
beside it from the first byte to the last.
-/
import Mathlib.Data.BitVec

namespace EmacZero

/-- What `net_rx` has captured of a datagram's headers. -/
structure UdpSource where
  srcMac : BitVec 48
  srcIp : BitVec 32
  srcPort : BitVec 16
  dstPort : BitVec 16
  length : BitVec 16
deriving Repr, DecidableEq

/-- The `udp_rx_*` inputs of one cycle. -/
structure UdpRxIn where
  data : BitVec 8
  valid : Bool
  last : Bool
  err : Bool
  source : UdpSource
deriving Repr, DecidableEq

/-- The datagram that is arriving, if any byte of it has come. -/
structure UdpFeed where
  source : UdpSource
  bytes : List (BitVec 8)
deriving Repr, DecidableEq

namespace UdpFeed

/-- Between two datagrams. -/
def between (feed : UdpFeed) : Bool := feed.bytes.isEmpty

/-- A cycle as `net_rx` drives it: the source does not change within a datagram. -/
def drive (feed : UdpFeed) (i : UdpRxIn) : UdpRxIn :=
  if feed.between then i else { i with source := feed.source }

/-- The payload with the byte of this cycle. -/
def arrived (feed : UdpFeed) (i : UdpRxIn) : List (BitVec 8) := feed.bytes ++ [i.data]

def next (feed : UdpFeed) (i : UdpRxIn) : UdpFeed :=
  if i.valid then ⟨(feed.drive i).source, if i.last then [] else feed.arrived i⟩ else feed

variable (feed : UdpFeed) (i : UdpRxIn)

@[simp] theorem drive_data : (feed.drive i).data = i.data := by
  rw [drive]
  split <;> rfl

@[simp] theorem drive_valid : (feed.drive i).valid = i.valid := by
  rw [drive]
  split <;> rfl

@[simp] theorem drive_last : (feed.drive i).last = i.last := by
  rw [drive]
  split <;> rfl

@[simp] theorem drive_err : (feed.drive i).err = i.err := by
  rw [drive]
  split <;> rfl

/-- Within a datagram the source is its own. -/
theorem drive_source (hwithin : feed.between = false) : (feed.drive i).source = feed.source := by
  rw [drive, hwithin]
  rfl

theorem next_idle (hidle : i.valid = false) : feed.next i = feed := by
  rw [next, hidle]
  rfl

theorem next_more (hvalid : i.valid = true) (hmore : i.last = false) :
    feed.next i = ⟨(feed.drive i).source, feed.arrived i⟩ := by
  rw [next, hvalid, hmore]
  rfl

theorem next_last (hvalid : i.valid = true) (hlast : i.last = true) :
    feed.next i = ⟨(feed.drive i).source, []⟩ := by
  rw [next, hvalid, hlast]
  rfl

end UdpFeed

end EmacZero
