/-
The messages of the frames that `net_rx` receives: what the header comment of the module
and the two payload streams are to mean.
-/
import EmacZero.IpDatagram
import EmacZero.NetRx

namespace EmacZero

/-- An ICMP or UDP message, and whether the consumer is to discard it. -/
structure NetMessage where
  icmp : Bool
  bytes : List (BitVec 8)
  err : Bool
deriving Repr, DecidableEq

/-- A byte of one of the two payload streams. -/
structure NetRxOut where
  icmp : Bool
  data : BitVec 8
  last : Bool
  err : Bool
deriving Repr, DecidableEq

namespace NetMessage

/-- The bytes before the last one. -/
def opening (icmp : Bool) (bytes : List (BitVec 8)) : List NetRxOut :=
  bytes.dropLast.map fun data => ⟨icmp, data, false, false⟩

/-- The message on its stream. -/
def stream (message : NetMessage) : List NetRxOut :=
  opening message.icmp message.bytes ++
    message.bytes.getLast?.toList.map fun data => ⟨message.icmp, data, true, message.err⟩

end NetMessage

/-! The IPv4 packet in a frame without a VLAN tag. -/

namespace NetFrame

section Fields

variable (frame : List (BitVec 8))

def ihl : Nat := 4 * ((byteAt frame 14).extractLsb' 0 4).toNat

/-- One past the IPv4 header. -/
def hdrEnd : Nat := 14 + ihl frame

def total : Nat := (wordAt frame 16).toNat

def proto : BitVec 8 := byteAt frame 23

def dstIp : BitVec 32 := wordAt frame 30 ++ wordAt frame 32

/-- The sum over the whole header is all ones. -/
def headerOk : Bool := onesFold 16 (wordSum (slice frame 14 (hdrEnd frame))) == 65535

/-- What of the packet's payload is in the frame. -/
def body : List (BitVec 8) := slice frame (hdrEnd frame) (14 + total frame)

/-- The ICMP message, or what is behind the UDP header. -/
def payload : List (BitVec 8) :=
  if proto frame = 1 then body frame else (body frame).drop 8

def icmpOk : Bool := onesFold 16 (wordSum (body frame)) == 65535

/-- The checks of the first header byte. -/
def versionOk : Bool := (byteAt frame 14).extractLsb' 4 4 == 4 && decide (20 ≤ ihl frame)

/-- Total length and protocol. -/
def lengthOk : Bool :=
  decide (ihl frame + 8 ≤ total frame) && (proto frame == 1 || proto frame == 17)

/-- All that is asked of a frame apart from its destination. -/
def sound : Bool :=
  wordAt frame 12 == 0x0800 && versionOk frame && lengthOk frame && headerOk frame &&
    !(payload frame).isEmpty

/-- The message of a frame for us. -/
def message (error : Bool) : NetMessage where
  icmp := proto frame == 1
  bytes := payload frame
  err := error || decide (frame.length < 14 + total frame) ||
    (proto frame == 1 && !icmpOk frame)

end Fields

def toUs (ourIp dst : BitVec 32) : Bool := dst == ourIp || dst == 0xFFFFFFFF

end NetFrame

/-! Frames as the beats that carry them. -/

namespace NetBeats

variable (beats : List NetRxIn)

def bytes : List (BitVec 8) := beats.map NetRxIn.tdata

/-- The MAC has flagged the frame. -/
def error : Bool := beats.any NetRxIn.terror

/-- `our_ip` when the header ends. -/
def ourIp : BitVec 32 := (beats.map NetRxIn.ourIp).getD (NetFrame.hdrEnd (bytes beats) - 1) 0

/-- The message that a frame is to deliver, if any. -/
def message : Option NetMessage :=
  if NetFrame.sound (bytes beats) &&
      NetFrame.toUs (ourIp beats) (NetFrame.dstIp (bytes beats)) then
    some (NetFrame.message (bytes beats) (error beats))
  else none

/-- The destination that the parser compares: the last header byte in place of the
address's own. -/
def dstTaken : BitVec 32 :=
  byteAt (bytes beats) 30 ++ byteAt (bytes beats) 31 ++ byteAt (bytes beats) 32 ++
    byteAt (bytes beats) (NetFrame.hdrEnd (bytes beats) - 1)

/-- What the parser delivers. -/
def delivered : Option NetMessage :=
  if NetFrame.sound (bytes beats) && NetFrame.toUs (ourIp beats) (dstTaken beats) then
    some (NetFrame.message (bytes beats) (error beats))
  else none

/-- The frame is refused anyway, or the byte that the parser compares makes no
difference. -/
def DstAgrees : Prop :=
  NetFrame.sound (bytes beats) = true →
    NetFrame.toUs (ourIp beats) (dstTaken beats) =
      NetFrame.toUs (ourIp beats) (NetFrame.dstIp (bytes beats))

end NetBeats

/-- The parser, the frame that it is in and what has come out of it, the frame that ended
with the last edge, and those before. -/
structure NetRxBench where
  rx : NetRx
  current : List NetRxIn
  shown : List NetRxOut
  ended : Option (List NetRxIn × List NetRxOut)
  done : List (List NetRxIn × List NetRxOut)

namespace NetRx

/-- What the two streams carry in a cycle. -/
def outs (rx : NetRx) : List NetRxOut :=
  (if rx.icmpValid then [⟨true, rx.icmpData, rx.icmpLast, rx.icmpErr⟩] else []) ++
    if rx.udpValid then [⟨false, rx.udpData, rx.udpLast, rx.udpErr⟩] else []

end NetRx

namespace NetRxBench

def start : NetRxBench := ⟨.reset, [], [], none, []⟩

/-- An edge.  What comes out on the edge behind a frame's last beat is that frame's. -/
def step (bench : NetRxBench) (i : NetRxIn) : NetRxBench :=
  let rx := bench.rx.clkEdge i
  let shown := if bench.ended.isSome then [] else bench.shown ++ rx.outs
  let ends := i.tvalid && i.tlast
  { rx := rx
    current := if ends then [] else if i.tvalid then bench.current ++ [i] else bench.current
    shown := if ends then [] else shown
    ended := if ends then some (bench.current ++ [i], shown) else none
    done :=
      match bench.ended with
      | some (frame, outs) => bench.done ++ [(frame, outs ++ rx.outs)]
      | none => bench.done }

end NetRxBench

end EmacZero
