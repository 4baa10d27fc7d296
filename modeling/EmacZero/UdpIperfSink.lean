/-
`udp_iperf_sink`: the datagrams that it counts, and the balance of its counters.
-/
import EmacZero.ClockedRun
import EmacZero.UdpRx

namespace EmacZero

/-- The counters of `udp_iperf_sink`. -/
structure IperfStats where
  packets : BitVec 32
  bytes : BitVec 32
  firstSeq : BitVec 32
  lastSeq : BitVec 32
  seqGaps : BitVec 32
  outOfOrder : BitVec 32
  finalPackets : BitVec 32
  lastSrcIp : BitVec 32
  lastSrcPort : BitVec 16
deriving Repr, DecidableEq

structure UdpIperfSink where
  payloadCnt : BitVec 16
  seqShift : BitVec 32
  pktSeq : BitVec 32
  pktPayloadLen : BitVec 16
  pktHasHeader : Bool
  haveSeq : Bool
  rxAccept : Bool
  stat : IperfStats
deriving Repr, DecidableEq

namespace UdpIperfSink

def reset : UdpIperfSink := ⟨0, 0, 0, 0, false, false, false, ⟨0, 0, 0, 0, 0, 0, 0, 0, 0⟩⟩

section Edge

variable (listenPort : BitVec 16) (sink : UdpIperfSink) (i : UdpRxIn)

def firstPayloadByte : Bool := sink.payloadCnt == 0

def firstAccept (source : UdpSource) : Bool :=
  listenPort == 0 || source.dstPort == listenPort

def thisAccept : Bool :=
  if sink.firstPayloadByte then firstAccept listenPort i.source else sink.rxAccept

def seqNext : BitVec 32 :=
  if sink.payloadCnt < 4 then sink.seqShift.setWidth 24 ++ i.data else sink.seqShift

def pktHasHeaderNext : Bool := sink.pktHasHeader || sink.payloadCnt == 3

def pktSeqNext : BitVec 32 := if sink.payloadCnt = 3 then sink.seqNext i else sink.pktSeq

/-- A data packet in the sequence accounting. -/
def account : IperfStats :=
  let stat := sink.stat
  let seq := sink.pktSeqNext i
  if !sink.haveSeq then { stat with firstSeq := seq, lastSeq := seq }
  else if seq = stat.lastSeq + 1 then { stat with lastSeq := seq }
  else if stat.lastSeq + 1 < seq then
    { stat with
      seqGaps := stat.seqGaps + (seq - stat.lastSeq - 1)
      lastSeq := seq }
  else { stat with outOfOrder := stat.outOfOrder + 1 }

/-- The last byte of a datagram that is counted. -/
def counted : UdpIperfSink :=
  let source := fun stat : IperfStats =>
    { stat with lastSrcIp := i.source.srcIp, lastSrcPort := i.source.srcPort }
  if (sink.pktSeqNext i).getLsbD 31 then
    { sink with
      stat := source { sink.stat with finalPackets := sink.stat.finalPackets + 1 } }
  else
    { sink with
      haveSeq := true
      stat := source { sink.account i with
        packets := sink.stat.packets + 1
        bytes := sink.stat.bytes + sink.pktPayloadLen.setWidth 32 } }

/-- The parser is made ready for the next datagram. -/
def rearm (next : UdpIperfSink) : UdpIperfSink :=
  { next with
    payloadCnt := 0
    seqShift := 0
    pktSeq := 0
    pktPayloadLen := 0
    pktHasHeader := false
    rxAccept := false }

/-- A byte. -/
def byte : UdpIperfSink :=
  let next :=
    if sink.firstPayloadByte then
      { sink with
        rxAccept := firstAccept listenPort i.source
        pktPayloadLen := if 8 ≤ i.source.length then i.source.length - 8 else 0 }
    else sink
  if !sink.thisAccept listenPort i then
    if i.last then rearm next else next
  else if i.last then
    rearm (if sink.pktHasHeaderNext && !i.err then sink.counted i else sink)
  else
    { next with
      payloadCnt := sink.payloadCnt + 1
      seqShift := if sink.payloadCnt < 4 then sink.seqNext i else sink.seqShift
      pktSeq := if sink.payloadCnt = 3 then sink.seqNext i else sink.pktSeq
      pktHasHeader := if sink.payloadCnt = 3 then true else sink.pktHasHeader }

/-- A rising edge of `clk`. -/
def clkEdge (clearStats : Bool) : UdpIperfSink :=
  if clearStats then reset else if i.valid then sink.byte listenPort i else sink

end Edge

end UdpIperfSink

/-! What is to be counted. -/

/-- Bytes as one number, the first the most significant. -/
def bigEndian (bytes : List (BitVec 8)) : Nat :=
  bytes.foldl (fun value data => 256 * value + data.toNat) 0

/-- The packet id: the first four bytes.  The parser's byte count comes round every
65536 bytes, which is more than a datagram has, and then takes the id again. -/
def iperfSeq (payload : List (BitVec 8)) : BitVec 32 :=
  .ofNat 32 (bigEndian ((payload.drop (65536 * ((payload.length - 4) / 65536))).take 4))

theorem iperfSeq_eq {payload : List (BitVec 8)} (hlength : payload.length < 65540) :
    iperfSeq payload = .ofNat 32 (bigEndian (payload.take 4)) := by
  rw [iperfSeq, Nat.div_eq_of_lt (by omega)]
  rfl

/-- One cycle of the sink. -/
structure IperfEdge where
  rx : UdpRxIn
  clearStats : Bool
deriving Repr, DecidableEq

/-- The sink, the datagram that is arriving, and the ids of the data packets counted
since the last clear. -/
structure IperfBench where
  sink : UdpIperfSink
  feed : UdpFeed
  counted : List (BitVec 32)

namespace IperfBench

def start : IperfBench := ⟨.reset, ⟨⟨0, 0, 0, 0, 0⟩, []⟩, []⟩

section Step

variable (listenPort : BitVec 16) (bench : IperfBench) (edge : IperfEdge)

/-- The last byte of a datagram for the port, without an error and with a packet id. -/
def Accepts : Prop :=
  edge.rx.valid = true ∧ edge.rx.last = true ∧ edge.rx.err = false ∧
    UdpIperfSink.firstAccept listenPort (bench.feed.drive edge.rx).source = true ∧
    4 ≤ (bench.feed.arrived edge.rx).length

instance : Decidable (bench.Accepts listenPort edge) :=
  inferInstanceAs (Decidable (_ ∧ _))

/-- The statistics are cleared between datagrams. -/
def ClearsBetween : Prop :=
  edge.clearStats = true → bench.feed.between = true ∧ edge.rx.valid = false

instance : Decidable (bench.ClearsBetween edge) := inferInstanceAs (Decidable (_ → _))

def step : IperfBench where
  sink := bench.sink.clkEdge listenPort (bench.feed.drive edge.rx) edge.clearStats
  feed := bench.feed.next edge.rx
  counted :=
    if edge.clearStats then []
    else if bench.Accepts listenPort edge then
      let seq := iperfSeq (bench.feed.arrived edge.rx)
      if seq.getLsbD 31 then bench.counted else bench.counted ++ [seq]
    else bench.counted

end Step

end IperfBench

/-! The parser within a datagram. -/

theorem bigEndian_concat (bytes : List (BitVec 8)) (data : BitVec 8) :
    bigEndian (bytes ++ [data]) = 256 * bigEndian bytes + data.toNat := by
  rw [bigEndian, List.foldl_append]
  rfl

/-- The bytes since the count was last 0. -/
def chunk (bytes : List (BitVec 8)) : List (BitVec 8) :=
  bytes.drop (65536 * (bytes.length / 65536))

theorem length_chunk (bytes : List (BitVec 8)) : (chunk bytes).length = bytes.length % 65536 := by
  rw [chunk, List.length_drop]
  omega

theorem chunk_concat {bytes : List (BitVec 8)} {data : BitVec 8}
    (hin : bytes.length % 65536 < 65535) : chunk (bytes ++ [data]) = chunk bytes ++ [data] := by
  have hsame : (bytes ++ [data]).length / 65536 = bytes.length / 65536 := by
    rw [List.length_append, List.length_singleton]
    omega
  rw [chunk, chunk, hsame, List.drop_append_of_le_length (by omega)]

theorem chunk_round {bytes : List (BitVec 8)} {data : BitVec 8}
    (hround : bytes.length % 65536 = 65535) : chunk (bytes ++ [data]) = [] := by
  apply List.eq_nil_of_length_eq_zero
  rw [length_chunk, List.length_append, List.length_singleton]
  omega

/-- The id is taken with the fourth byte of a chunk. -/
theorem iperfSeq_fourth {bytes : List (BitVec 8)} {data : BitVec 8}
    (hfourth : bytes.length % 65536 = 3) :
    iperfSeq (bytes ++ [data]) = .ofNat 32 (bigEndian (chunk bytes ++ [data])) := by
  have hlength := length_chunk bytes
  have hlonger : (bytes ++ [data]).length = bytes.length + 1 := List.length_append
  have hstart : ((bytes ++ [data]).length - 4) / 65536 = bytes.length / 65536 := by omega
  rw [iperfSeq, hstart, List.drop_append_of_le_length (by omega), ← chunk,
    List.take_of_length_le (by rw [List.length_append, hlength, hfourth]; rfl)]

/-- Any other byte leaves it. -/
theorem iperfSeq_concat {bytes : List (BitVec 8)} {data : BitVec 8} (hlong : 4 ≤ bytes.length)
    (hother : bytes.length % 65536 ≠ 3) : iperfSeq (bytes ++ [data]) = iperfSeq bytes := by
  have hlonger : (bytes ++ [data]).length = bytes.length + 1 := List.length_append
  have hstart : ((bytes ++ [data]).length - 4) / 65536 = (bytes.length - 4) / 65536 := by omega
  rw [iperfSeq, iperfSeq, hstart, List.drop_append_of_le_length (by omega),
    List.take_append_of_le_length (by rw [List.length_drop]; omega)]

/-- The parser behind bytes of a datagram for the port. -/
structure IperfTaking (sink : UdpIperfSink) (bytes : List (BitVec 8)) : Prop where
  payloadCnt : sink.payloadCnt.toNat = bytes.length % 65536
  rxAccept : sink.payloadCnt ≠ 0 → sink.rxAccept = true
  seqShift : sink.seqShift.toNat % 256 ^ ((chunk bytes).take 4).length =
    bigEndian ((chunk bytes).take 4)
  pktSeq : 4 ≤ bytes.length → sink.pktSeq = iperfSeq bytes
  hasHeader : sink.pktHasHeader = decide (4 ≤ bytes.length)

section Taking

variable {sink : UdpIperfSink} {bytes : List (BitVec 8)} {i : UdpRxIn}

theorem iperfTaking_nil (hcnt : sink.payloadCnt = 0) (hheader : sink.pktHasHeader = false) :
    IperfTaking sink [] where
  payloadCnt := by rw [hcnt]; rfl
  rxAccept := fun hne => absurd hcnt hne
  seqShift := Nat.mod_one _
  pktSeq := fun hlong => absurd hlong (by decide)
  hasHeader := hheader

theorem seqNext_toNat (hcnt : sink.payloadCnt < 4) :
    (sink.seqNext i).toNat = 256 * (sink.seqShift.toNat % 2 ^ 24) + i.data.toNat := by
  rw [UdpIperfSink.seqNext, if_pos hcnt, BitVec.toNat_append, BitVec.toNat_setWidth,
    ← Nat.shiftLeft_add_eq_or_of_lt i.data.isLt, Nat.shiftLeft_eq, Nat.mul_comm]

theorem IperfTaking.payloadCnt_eq (htaking : IperfTaking sink bytes) (count : BitVec 16) :
    sink.payloadCnt = count ↔ bytes.length % 65536 = count.toNat := by
  rw [← htaking.payloadCnt, BitVec.toNat_inj]

theorem IperfTaking.payloadCnt_lt (htaking : IperfTaking sink bytes) :
    sink.payloadCnt < 4 ↔ bytes.length % 65536 < 4 := by
  rw [BitVec.lt_def, htaking.payloadCnt]
  rfl

/-- The shift register with one of the first four bytes of a chunk. -/
theorem IperfTaking.seqNext (htaking : IperfTaking sink bytes)
    (hfew : bytes.length % 65536 < 4) :
    (sink.seqNext i).toNat % 256 ^ (bytes.length % 65536 + 1) =
      bigEndian (chunk bytes ++ [i.data]) := by
  have hlength := length_chunk bytes
  have hshift := htaking.seqShift
  have hbyte := i.data.isLt
  rw [List.take_of_length_le (by omega), hlength] at hshift
  rw [seqNext_toNat (htaking.payloadCnt_lt.mpr hfew), bigEndian_concat, ← hshift]
  generalize bytes.length % 65536 = count at hfew
  generalize sink.seqShift.toNat = shift
  have hcases : count = 0 ∨ count = 1 ∨ count = 2 ∨ count = 3 := by omega
  rcases hcases with rfl | rfl | rfl | rfl <;> omega

/-- The id once four bytes have come. -/
theorem IperfTaking.pktSeqNext (htaking : IperfTaking sink bytes) (hlong : 3 ≤ bytes.length) :
    sink.pktSeqNext i = iperfSeq (bytes ++ [i.data]) := by
  rw [UdpIperfSink.pktSeqNext]
  by_cases hfourth : bytes.length % 65536 = 3
  · have hnext := @IperfTaking.seqNext sink bytes i htaking (by omega)
    have hlt := (sink.seqNext i).isLt
    rw [hfourth, Nat.mod_eq_of_lt (show _ < 256 ^ (3 + 1) from hlt)] at hnext
    rw [if_pos ((htaking.payloadCnt_eq 3).mpr hfourth), iperfSeq_fourth hfourth, ← hnext,
      BitVec.ofNat_toNat, BitVec.setWidth_eq]
  · have hcnt : sink.payloadCnt ≠ 3 := fun heq => hfourth ((htaking.payloadCnt_eq 3).mp heq)
    rw [if_neg hcnt, iperfSeq_concat (by omega) hfourth]
    exact htaking.pktSeq (by omega)

theorem IperfTaking.hasHeaderNext (htaking : IperfTaking sink bytes) :
    sink.pktHasHeaderNext = decide (3 ≤ bytes.length) := by
  rw [UdpIperfSink.pktHasHeaderNext, htaking.hasHeader, Bool.eq_iff_iff, Bool.or_eq_true,
    decide_eq_true_iff, decide_eq_true_iff, beq_iff_eq, htaking.payloadCnt_eq]
  change _ ∨ _ = 3 ↔ _
  omega

/-- A byte of a datagram for the port is taken. -/
theorem IperfTaking.thisAccept {listenPort : BitVec 16} (htaking : IperfTaking sink bytes)
    (haccept : UdpIperfSink.firstAccept listenPort i.source = true) :
    sink.thisAccept listenPort i = true := by
  rw [UdpIperfSink.thisAccept]
  by_cases hzero : sink.payloadCnt = 0
  · rw [UdpIperfSink.firstPayloadByte, hzero]
    exact haccept
  · rw [UdpIperfSink.firstPayloadByte, beq_eq_false_iff_ne.mpr hzero]
    exact htaking.rxAccept hzero

theorem IperfTaking.seqShift_byte (htaking : IperfTaking sink bytes) :
    (if sink.payloadCnt < 4 then sink.seqNext i else sink.seqShift).toNat %
        256 ^ ((chunk (bytes ++ [i.data])).take 4).length =
      bigEndian ((chunk (bytes ++ [i.data])).take 4) := by
  have hlength := length_chunk bytes
  by_cases hfew : bytes.length % 65536 < 4
  · have hnext := @IperfTaking.seqNext sink bytes i htaking hfew
    have hlonger : (chunk bytes ++ [i.data]).length = bytes.length % 65536 + 1 := by
      rw [List.length_append, hlength]
      rfl
    rw [if_pos (htaking.payloadCnt_lt.mpr hfew), chunk_concat (by omega),
      List.take_of_length_le (by omega), hlonger]
    exact hnext
  · rw [if_neg fun hlt => hfew (htaking.payloadCnt_lt.mp hlt)]
    by_cases hround : bytes.length % 65536 = 65535
    · rw [chunk_round hround]
      exact Nat.mod_one _
    · rw [chunk_concat (by omega), List.take_append_of_le_length (by omega)]
      exact htaking.seqShift

/-- A byte of a datagram for the port that does not end it. -/
theorem IperfTaking.byte {listenPort : BitVec 16} (htaking : IperfTaking sink bytes)
    (haccept : UdpIperfSink.firstAccept listenPort i.source = true) (hmore : i.last = false) :
    IperfTaking (sink.byte listenPort i) (bytes ++ [i.data]) ∧
      (sink.byte listenPort i).stat = sink.stat ∧
      (sink.byte listenPort i).haveSeq = sink.haveSeq := by
  have hlonger : (bytes ++ [i.data]).length = bytes.length + 1 := List.length_append
  have hcnt := htaking.payloadCnt
  have hthird := htaking.payloadCnt_eq 3
  have hbase : ∀ next : UdpIperfSink, next = (if sink.firstPayloadByte then
      { sink with
        rxAccept := UdpIperfSink.firstAccept listenPort i.source
        pktPayloadLen := if 8 ≤ i.source.length then i.source.length - 8 else 0 }
      else sink) → next.rxAccept = true ∧ next.stat = sink.stat ∧ next.haveSeq = sink.haveSeq := by
    rintro next rfl
    by_cases hzero : sink.payloadCnt = 0
    · rw [UdpIperfSink.firstPayloadByte, hzero]
      exact ⟨haccept, rfl, rfl⟩
    · rw [UdpIperfSink.firstPayloadByte, beq_eq_false_iff_ne.mpr hzero]
      exact ⟨htaking.rxAccept hzero, rfl, rfl⟩
  obtain ⟨hrx, hstat, hhave⟩ := hbase _ rfl
  rw [UdpIperfSink.byte, htaking.thisAccept haccept, hmore]
  simp only [Bool.not_true, Bool.false_eq_true, if_false]
  refine ⟨⟨?_, fun _ => hrx, htaking.seqShift_byte, ?_, ?_⟩, hstat, hhave⟩
  · rw [BitVec.toNat_add, hcnt, hlonger]
    change (bytes.length % 65536 + 1) % 65536 = _
    omega
  · intro hlong
    exact htaking.pktSeqNext (by omega)
  · change (if sink.payloadCnt = 3 then true else sink.pktHasHeader) = _
    rw [hlonger]
    by_cases hfourth : sink.payloadCnt = 3
    · have hmod : bytes.length % 65536 = 3 := hthird.mp hfourth
      have hlong : 4 ≤ bytes.length + 1 := by omega
      rw [if_pos hfourth]
      exact (decide_eq_true hlong).symm
    · have hmod : bytes.length % 65536 ≠ 3 := fun heq => hfourth (hthird.mpr heq)
      have hsame : 4 ≤ bytes.length ↔ 4 ≤ bytes.length + 1 := by omega
      rw [if_neg hfourth, htaking.hasHeader]
      exact decide_eq_decide.mpr hsame

end Taking

/-! The balance of the counters. -/

/-- The counters behind the ids of the data packets counted. -/
structure IperfBalance (sink : UdpIperfSink) (counted : List (BitVec 32)) : Prop where
  small : ∀ seq ∈ counted, seq.getLsbD 31 = false
  haveSeq : sink.haveSeq = !counted.isEmpty
  packets : sink.stat.packets = .ofNat 32 counted.length
  zero : counted = [] → sink.stat.seqGaps = 0 ∧ sink.stat.outOfOrder = 0
  first : ∀ seq ∈ counted.head?, sink.stat.firstSeq = seq
  last : counted ≠ [] →
    sink.stat.lastSeq ∈ counted ∧ ∀ seq ∈ counted, seq ≤ sink.stat.lastSeq
  balance : counted ≠ [] →
    sink.stat.packets - sink.stat.outOfOrder + sink.stat.seqGaps =
      sink.stat.lastSeq - sink.stat.firstSeq + 1

theorem iperfBalance_clear {sink : UdpIperfSink} (hreset : sink = .reset) :
    IperfBalance sink [] := by
  subst hreset
  exact ⟨fun _ hmem => (nomatch hmem), rfl, rfl, fun _ => ⟨rfl, rfl⟩,
    fun _ hmem => (nomatch hmem), fun hne => absurd rfl hne, fun hne => absurd rfl hne⟩

section Counted

variable {sink : UdpIperfSink} {counted : List (BitVec 32)} {i : UdpRxIn}

theorem small_iff {seq : BitVec 32} : seq.getLsbD 31 = false ↔ seq.toNat < 2 ^ 31 := by
  rw [← BitVec.msb_eq_getLsbD_last, BitVec.msb_eq_false_iff_two_mul_lt]
  omega

/-- The first data packet. -/
theorem account_first (hfresh : sink.haveSeq = false) :
    (sink.account i).firstSeq = sink.pktSeqNext i ∧
      (sink.account i).lastSeq = sink.pktSeqNext i ∧
      (sink.account i).seqGaps = sink.stat.seqGaps ∧
      (sink.account i).outOfOrder = sink.stat.outOfOrder := by
  rw [UdpIperfSink.account, hfresh]
  exact ⟨rfl, rfl, rfl, rfl⟩

/-- A data packet past the last one, next to it or behind a gap. -/
theorem account_past (hhave : sink.haveSeq = true)
    (hpast : sink.stat.lastSeq + 1 ≤ sink.pktSeqNext i) :
    (sink.account i).firstSeq = sink.stat.firstSeq ∧
      (sink.account i).lastSeq = sink.pktSeqNext i ∧
      (sink.account i).seqGaps =
        sink.stat.seqGaps + (sink.pktSeqNext i - sink.stat.lastSeq - 1) ∧
      (sink.account i).outOfOrder = sink.stat.outOfOrder := by
  rw [UdpIperfSink.account, hhave]
  by_cases hnext : sink.pktSeqNext i = sink.stat.lastSeq + 1
  · simp only [Bool.not_true, Bool.false_eq_true, if_false, if_pos hnext]
    refine ⟨trivial, trivial, ?_, trivial⟩
    rw [hnext]
    grind
  · have hgap : sink.stat.lastSeq + 1 < sink.pktSeqNext i :=
      BitVec.lt_of_le_ne hpast (Ne.symm hnext)
    simp only [Bool.not_true, Bool.false_eq_true, if_false, if_neg hnext, if_pos hgap]
    exact ⟨trivial, trivial, trivial, trivial⟩

/-- A data packet that is late or comes again. -/
theorem account_late (hhave : sink.haveSeq = true)
    (hlate : ¬ sink.stat.lastSeq + 1 ≤ sink.pktSeqNext i) :
    (sink.account i).firstSeq = sink.stat.firstSeq ∧
      (sink.account i).lastSeq = sink.stat.lastSeq ∧
      (sink.account i).seqGaps = sink.stat.seqGaps ∧
      (sink.account i).outOfOrder = sink.stat.outOfOrder + 1 := by
  have hnext : sink.pktSeqNext i ≠ sink.stat.lastSeq + 1 :=
    fun heq => hlate (heq ▸ BitVec.le_refl _)
  have hgap : ¬ sink.stat.lastSeq + 1 < sink.pktSeqNext i :=
    fun hlt => hlate (BitVec.le_of_lt hlt)
  rw [UdpIperfSink.account, hhave]
  simp only [Bool.not_true, Bool.false_eq_true, if_false, if_neg hnext, if_neg hgap]
  exact ⟨trivial, trivial, trivial, trivial⟩

/-- The balance with one more data packet, in the cases of the accounting. -/
theorem IperfBalance.account (hbalance : IperfBalance sink counted) {seq : BitVec 32}
    (hseq : sink.pktSeqNext i = seq) (hsmall : seq.getLsbD 31 = false) :
    IperfBalance (sink.counted i) (counted ++ [seq]) := by
  have hdata : ¬ (sink.pktSeqNext i).getLsbD 31 = true := by
    rw [hseq, hsmall]
    exact Bool.false_ne_true
  have hall : ∀ other ∈ counted ++ [seq], other.getLsbD 31 = false := by
    intro other hother
    rw [List.mem_append, List.mem_singleton] at hother
    rcases hother with hother | rfl
    · exact hbalance.small other hother
    · exact hsmall
  have hlonger : (counted ++ [seq]).length = counted.length + 1 := List.length_append
  have hpackets : sink.stat.packets + 1 = .ofNat 32 (counted ++ [seq]).length := by
    rw [hbalance.packets, hlonger, BitVec.ofNat_add]
    rfl
  have hsome : true = !(counted ++ [seq]).isEmpty := by
    cases counted <;> rfl
  have hne : counted ++ [seq] ≠ [] := List.append_ne_nil_of_right_ne_nil _ (List.cons_ne_nil _ _)
  rw [UdpIperfSink.counted, if_neg hdata]
  by_cases hempty : counted = []
  · have hfresh : sink.haveSeq = false := by
      rw [hbalance.haveSeq, hempty]
      rfl
    obtain ⟨hgaps, hout⟩ := hbalance.zero hempty
    obtain ⟨hfirst, hlast, hgaps', hout'⟩ := @account_first sink i hfresh
    rw [hseq] at hfirst hlast
    refine ⟨hall, hsome, hpackets, fun heq => absurd heq hne, ?_, fun _ => ⟨?_, ?_⟩, fun _ => ?_⟩
    · rw [hempty]
      intro other hother
      rw [List.nil_append, List.head?_cons, Option.mem_some] at hother
      exact hfirst.trans hother
    · change (sink.account i).lastSeq ∈ _
      rw [hlast]
      exact List.mem_append_right _ List.mem_cons_self
    · intro other hother
      change other ≤ (sink.account i).lastSeq
      rw [hempty, List.nil_append, List.mem_singleton] at hother
      rw [hlast, hother]
      exact BitVec.le_refl _
    · change sink.stat.packets + 1 - (sink.account i).outOfOrder + (sink.account i).seqGaps =
        (sink.account i).lastSeq - (sink.account i).firstSeq + 1
      rw [hbalance.packets, hempty, hfirst, hlast, hgaps', hout', hgaps, hout]
      change (0 : BitVec 32) + 1 - 0 + 0 = _
      grind
  · have hhave : sink.haveSeq = true := by
      rw [hbalance.haveSeq]
      cases hcounted : counted with
      | nil => exact absurd hcounted hempty
      | cons first rest => rfl
    obtain ⟨hmem, hmax⟩ := hbalance.last hempty
    have hold := hbalance.balance hempty
    have hlt := small_iff.mp (hbalance.small _ hmem)
    have hnow := small_iff.mp hsmall
    have hhead : ∀ other ∈ (counted ++ [seq]).head?, sink.stat.firstSeq = other := by
      rw [List.head?_append_of_ne_nil _ hempty]
      exact hbalance.first
    have hadd : (sink.stat.lastSeq + 1).toNat = sink.stat.lastSeq.toNat + 1 := by
      change (sink.stat.lastSeq.toNat + 1) % 2 ^ 32 = _
      omega
    by_cases hpast : sink.stat.lastSeq + 1 ≤ sink.pktSeqNext i
    · obtain ⟨hfirst, hlast, hgaps, hout⟩ := @account_past sink i hhave hpast
      rw [hseq] at hlast hgaps hpast
      rw [BitVec.le_def, hadd] at hpast
      refine ⟨hall, hsome, hpackets, fun heq => absurd heq hne, ?_, fun _ => ⟨?_, ?_⟩,
        fun _ => ?_⟩
      · intro other hother
        exact hfirst.trans (hhead other hother)
      · change (sink.account i).lastSeq ∈ _
        rw [hlast]
        exact List.mem_append_right _ List.mem_cons_self
      · intro other hother
        change other ≤ (sink.account i).lastSeq
        rw [hlast, BitVec.le_def]
        rw [List.mem_append, List.mem_singleton] at hother
        rcases hother with hother | rfl
        · have hle := BitVec.le_def.mp (hmax other hother)
          omega
        · exact Nat.le_refl _
      · change sink.stat.packets + 1 - (sink.account i).outOfOrder + (sink.account i).seqGaps =
          (sink.account i).lastSeq - (sink.account i).firstSeq + 1
        rw [hfirst, hlast, hgaps, hout]
        grind
    · obtain ⟨hfirst, hlast, hgaps, hout⟩ := @account_late sink i hhave hpast
      rw [hseq, BitVec.le_def, hadd] at hpast
      refine ⟨hall, hsome, hpackets, fun heq => absurd heq hne, ?_, fun _ => ⟨?_, ?_⟩,
        fun _ => ?_⟩
      · intro other hother
        exact hfirst.trans (hhead other hother)
      · change (sink.account i).lastSeq ∈ _
        rw [hlast]
        exact List.mem_append_left _ hmem
      · intro other hother
        change other ≤ (sink.account i).lastSeq
        rw [hlast]
        rw [List.mem_append, List.mem_singleton] at hother
        rcases hother with hother | rfl
        · exact hmax other hother
        · rw [BitVec.le_def]
          omega
      · change sink.stat.packets + 1 - (sink.account i).outOfOrder + (sink.account i).seqGaps =
          (sink.account i).lastSeq - (sink.account i).firstSeq + 1
        rw [hfirst, hlast, hgaps, hout]
        grind

/-- A final packet is in no balance. -/
theorem IperfBalance.final (hbalance : IperfBalance sink counted)
    (hfinal : (sink.pktSeqNext i).getLsbD 31 = true) :
    IperfBalance (sink.counted i) counted := by
  rw [UdpIperfSink.counted, if_pos hfinal]
  exact ⟨hbalance.small, hbalance.haveSeq, hbalance.packets, hbalance.zero, hbalance.first,
    hbalance.last, hbalance.balance⟩

theorem IperfBalance.same (hbalance : IperfBalance sink counted) {next : UdpIperfSink}
    (hstat : next.stat = sink.stat) (hhave : next.haveSeq = sink.haveSeq) :
    IperfBalance next counted := by
  refine ⟨hbalance.small, ?_, ?_, ?_, ?_, ?_, ?_⟩
  · rw [hhave]
    exact hbalance.haveSeq
  · rw [hstat]
    exact hbalance.packets
  · rw [hstat]
    exact hbalance.zero
  · rw [hstat]
    exact hbalance.first
  · rw [hstat]
    exact hbalance.last
  · rw [hstat]
    exact hbalance.balance

end Counted

/-! Runs. -/

namespace IperfBench

variable {listenPort : BitVec 16} {bench : IperfBench} {edge : IperfEdge}

/-- The parser is in step with the datagram, and the counters with those counted. -/
structure Sound (listenPort : BitVec 16) (bench : IperfBench) : Prop where
  taking : IperfTaking bench.sink
    (if UdpIperfSink.firstAccept listenPort bench.feed.source then bench.feed.bytes else [])
  balance : IperfBalance bench.sink bench.counted

theorem sound_start : start.Sound listenPort := by
  refine ⟨?_, iperfBalance_clear rfl⟩
  have hnil : (if UdpIperfSink.firstAccept listenPort start.feed.source then start.feed.bytes
      else []) = [] := by
    split <;> rfl
  rw [hnil]
  exact iperfTaking_nil rfl rfl

/-- A byte of a datagram for another port. -/
theorem rejected_byte {sink : UdpIperfSink} {i : UdpRxIn}
    (htaking : IperfTaking sink [])
    (hreject : UdpIperfSink.firstAccept listenPort i.source = false) :
    (sink.byte listenPort i).payloadCnt = 0 ∧ (sink.byte listenPort i).pktHasHeader = false ∧
      (sink.byte listenPort i).stat = sink.stat ∧
      (sink.byte listenPort i).haveSeq = sink.haveSeq := by
  have hzero : sink.payloadCnt = 0 := BitVec.eq_of_toNat_eq htaking.payloadCnt
  have hheader : sink.pktHasHeader = false := htaking.hasHeader
  have hfirst : sink.firstPayloadByte = true := by
    rw [UdpIperfSink.firstPayloadByte, hzero]
    rfl
  have hthis : sink.thisAccept listenPort i = false := by
    rw [UdpIperfSink.thisAccept, hfirst]
    exact hreject
  rw [UdpIperfSink.byte, hthis, hfirst]
  cases i.last with
  | false => exact ⟨hzero, hheader, rfl, rfl⟩
  | true => exact ⟨rfl, rfl, rfl, rfl⟩

/-- The last byte of a datagram for the port. -/
theorem accepted_last {sink : UdpIperfSink} {i : UdpRxIn} {bytes : List (BitVec 8)}
    (htaking : IperfTaking sink bytes)
    (haccept : UdpIperfSink.firstAccept listenPort i.source = true) (hlast : i.last = true) :
    sink.byte listenPort i =
      UdpIperfSink.rearm (if 3 ≤ bytes.length ∧ i.err = false then sink.counted i else sink) := by
  rw [UdpIperfSink.byte, htaking.thisAccept haccept, hlast, htaking.hasHeaderNext]
  simp only [Bool.not_true, Bool.false_eq_true, if_false, if_true, Bool.and_eq_true,
    decide_eq_true_iff, Bool.not_eq_true']

theorem Sound.taking_drive (hsound : bench.Sound listenPort) (i : UdpRxIn) :
    IperfTaking bench.sink
      (if UdpIperfSink.firstAccept listenPort (bench.feed.drive i).source then bench.feed.bytes
        else []) := by
  have htaking := hsound.taking
  cases hwithin : bench.feed.between with
  | false => rwa [UdpFeed.drive_source _ _ hwithin]
  | true =>
      have hnil : bench.feed.bytes = [] := List.isEmpty_iff.mp hwithin
      rw [hnil, ite_self] at htaking ⊢
      exact htaking

/-- Which counters a byte can change. -/
theorem stat_of_not_accepts (hsound : bench.Sound listenPort)
    (hclear : edge.clearStats = false) (hno : ¬ bench.Accepts listenPort edge) :
    (bench.step listenPort edge).sink.stat = bench.sink.stat ∧
      (bench.step listenPort edge).sink.haveSeq = bench.sink.haveSeq ∧
      (bench.step listenPort edge).counted = bench.counted := by
  have htaking := hsound.taking_drive edge.rx
  have hcounted : (bench.step listenPort edge).counted = bench.counted := by
    rw [step, hclear]
    exact if_neg hno
  have hsink : (bench.step listenPort edge).sink =
      if edge.rx.valid then bench.sink.byte listenPort (bench.feed.drive edge.rx)
      else bench.sink := by
    rw [step, hclear]
    change (if (bench.feed.drive edge.rx).valid = true then _ else _) = _
    rw [UdpFeed.drive_valid]
  rw [hsink, hcounted]
  cases hvalid : edge.rx.valid with
  | false => exact ⟨rfl, rfl, rfl⟩
  | true =>
      rw [if_pos rfl]
      cases haccept : UdpIperfSink.firstAccept listenPort (bench.feed.drive edge.rx).source with
      | false =>
          rw [haccept] at htaking
          obtain ⟨-, -, hstat, hhave⟩ := rejected_byte htaking haccept
          exact ⟨hstat, hhave, rfl⟩
      | true =>
          rw [haccept, if_pos rfl] at htaking
          cases hlast : edge.rx.last with
          | false =>
              obtain ⟨-, hstat, hhave⟩ := htaking.byte haccept
                ((UdpFeed.drive_last _ _).trans hlast)
              exact ⟨hstat, hhave, rfl⟩
          | true =>
              have hskip : ¬ (3 ≤ bench.feed.bytes.length ∧
                  (bench.feed.drive edge.rx).err = false) := by
                rintro ⟨hlong, herr⟩
                rw [UdpFeed.drive_err] at herr
                refine hno ⟨hvalid, hlast, herr, haccept, ?_⟩
                rw [UdpFeed.arrived, List.length_append, List.length_singleton]
                omega
              rw [accepted_last htaking haccept ((UdpFeed.drive_last _ _).trans hlast),
                if_neg hskip]
              exact ⟨rfl, rfl, rfl⟩

theorem balance_of_accepts (hsound : bench.Sound listenPort)
    (hclear : edge.clearStats = false) (haccepts : bench.Accepts listenPort edge) :
    IperfBalance (bench.step listenPort edge).sink (bench.step listenPort edge).counted := by
  have htaking := hsound.taking_drive edge.rx
  have hcounted : (bench.step listenPort edge).counted =
      if (iperfSeq (bench.feed.arrived edge.rx)).getLsbD 31 then bench.counted
      else bench.counted ++ [iperfSeq (bench.feed.arrived edge.rx)] := by
    rw [step, hclear]
    exact if_pos haccepts
  obtain ⟨hvalid, hlast, herr, haccept, hlong⟩ := haccepts
  rw [UdpFeed.arrived, List.length_append, List.length_singleton] at hlong
  rw [haccept, if_pos rfl] at htaking
  have hsink : (bench.step listenPort edge).sink =
      UdpIperfSink.rearm (bench.sink.counted (bench.feed.drive edge.rx)) := by
    rw [step, hclear]
    change (if (bench.feed.drive edge.rx).valid = true then _ else _) = _
    rw [UdpFeed.drive_valid, if_pos hvalid,
      accepted_last htaking haccept ((UdpFeed.drive_last _ _).trans hlast),
      if_pos ⟨by omega, (UdpFeed.drive_err _ _).trans herr⟩]
  have hseq : bench.sink.pktSeqNext (bench.feed.drive edge.rx) =
      iperfSeq (bench.feed.arrived edge.rx) := by
    rw [htaking.pktSeqNext (by omega), UdpFeed.drive_data]
    rfl
  rw [hsink, hcounted]
  cases hfinal : (iperfSeq (bench.feed.arrived edge.rx)).getLsbD 31 with
  | false => exact (hsound.balance.account hseq hfinal).same rfl rfl
  | true => exact (hsound.balance.final (by rw [hseq]; exact hfinal)).same rfl rfl

theorem taking_step (hsound : bench.Sound listenPort) (hclear : edge.clearStats = false) :
    IperfTaking (bench.step listenPort edge).sink
      (if UdpIperfSink.firstAccept listenPort (bench.step listenPort edge).feed.source then
        (bench.step listenPort edge).feed.bytes else []) := by
  have htaking := hsound.taking_drive edge.rx
  have hsink : (bench.step listenPort edge).sink =
      if edge.rx.valid then bench.sink.byte listenPort (bench.feed.drive edge.rx)
      else bench.sink := by
    rw [step, hclear]
    change (if (bench.feed.drive edge.rx).valid = true then _ else _) = _
    rw [UdpFeed.drive_valid]
  have hfeed : (bench.step listenPort edge).feed = bench.feed.next edge.rx := rfl
  rw [hsink, hfeed]
  cases hvalid : edge.rx.valid with
  | false =>
      rw [UdpFeed.next_idle _ _ hvalid]
      exact hsound.taking
  | true =>
      rw [if_pos rfl]
      cases hlast : edge.rx.last with
      | false =>
          rw [UdpFeed.next_more _ _ hvalid hlast]
          cases haccept :
              UdpIperfSink.firstAccept listenPort (bench.feed.drive edge.rx).source with
          | false =>
              rw [haccept] at htaking
              obtain ⟨hcnt, hheader, -, -⟩ := rejected_byte htaking haccept
              exact iperfTaking_nil hcnt hheader
          | true =>
              rw [haccept, if_pos rfl] at htaking
              obtain ⟨hnext, -, -⟩ := htaking.byte haccept
                ((UdpFeed.drive_last _ _).trans hlast)
              rw [UdpFeed.drive_data] at hnext
              exact hnext
      | true =>
          rw [UdpFeed.next_last _ _ hvalid hlast, ite_self]
          cases haccept :
              UdpIperfSink.firstAccept listenPort (bench.feed.drive edge.rx).source with
          | false =>
              rw [haccept] at htaking
              obtain ⟨hcnt, hheader, -, -⟩ := rejected_byte htaking haccept
              exact iperfTaking_nil hcnt hheader
          | true =>
              rw [haccept, if_pos rfl] at htaking
              rw [accepted_last htaking haccept ((UdpFeed.drive_last _ _).trans hlast)]
              exact iperfTaking_nil rfl rfl

theorem Sound.step (hsound : bench.Sound listenPort) (hclears : bench.ClearsBetween edge) :
    (bench.step listenPort edge).Sound listenPort := by
  cases hclear : edge.clearStats with
  | false =>
      refine ⟨taking_step hsound hclear, ?_⟩
      by_cases haccepts : bench.Accepts listenPort edge
      · exact balance_of_accepts hsound hclear haccepts
      · obtain ⟨hstat, hhave, hcounted⟩ := stat_of_not_accepts hsound hclear haccepts
        rw [hcounted]
        exact hsound.balance.same hstat hhave
  | true =>
      obtain ⟨hbetween, hidle⟩ := hclears hclear
      have hsink : (bench.step listenPort edge).sink = .reset := by
        rw [IperfBench.step, hclear]
        rfl
      have hcounted : (bench.step listenPort edge).counted = [] := by
        rw [IperfBench.step, hclear]
        rfl
      have hfeed : (bench.step listenPort edge).feed = bench.feed :=
        UdpFeed.next_idle _ _ hidle
      refine ⟨?_, by rw [hcounted]; exact iperfBalance_clear hsink⟩
      rw [hsink, hfeed, List.isEmpty_iff.mp hbetween, ite_self]
      exact iperfTaking_nil rfl rfl

theorem sound_run {edges : List IperfEdge}
    (hclears : Along (step listenPort) ClearsBetween start edges) :
    (runFrom (step listenPort) start edges).Sound listenPort :=
  have hstep : ∀ (bench : IperfBench) (edge : IperfEdge), bench.ClearsBetween edge →
      bench.Sound listenPort → (bench.step listenPort edge).Sound listenPort :=
    fun _ _ hclear hsound => hsound.step hclear
  invariant_along hstep sound_start hclears

/-- Once a data packet has been counted since the last clear, the packets less those out
of order plus those missing span the ids from the first to the last, which is the
greatest of those counted; and nothing but an accepted datagram's last byte changes a
counter. -/
theorem balance_run (listenPort : BitVec 16) (edges : List IperfEdge)
    (hclears : Along (step listenPort) ClearsBetween start edges) :
    let bench := runFrom (step listenPort) start edges
    let stat := bench.sink.stat
    (bench.counted ≠ [] →
      stat.packets - stat.outOfOrder + stat.seqGaps = stat.lastSeq - stat.firstSeq + 1 ∧
        bench.counted.head? = some stat.firstSeq ∧
        stat.lastSeq ∈ bench.counted ∧ ∀ seq ∈ bench.counted, seq ≤ stat.lastSeq) ∧
      stat.packets = .ofNat 32 bench.counted.length ∧
      ∀ edge, edge.clearStats = false → ¬ bench.Accepts listenPort edge →
        (bench.step listenPort edge).sink.stat = stat := by
  intro bench stat
  have hsound : bench.Sound listenPort := sound_run hclears
  refine ⟨fun hne => ⟨hsound.balance.balance hne, ?_, hsound.balance.last hne⟩,
    hsound.balance.packets, fun edge hclear hno => (stat_of_not_accepts hsound hclear hno).1⟩
  cases hcounted : bench.counted with
  | nil => exact absurd hcounted hne
  | cons first rest =>
      have hfirst := hsound.balance.first first (by rw [hcounted]; rfl)
      rw [List.head?_cons]
      exact congrArg some hfirst.symm

/-- The edges of a datagram with a packet id only. -/
def idEdges (id : BitVec 8) (err : Bool) : List IperfEdge :=
  [(0, false), (0, false), (0, false), (id, true)].map fun byte =>
    ⟨⟨byte.1, true, byte.2, err && byte.2, ⟨0, 0, 5002, 5001, 12⟩⟩, false⟩

/-- Ids 5, 7, an erroneous 9 and a late 6. -/
def fourDatagrams : List IperfEdge :=
  idEdges 5 false ++ idEdges 7 false ++ idEdges 9 true ++ idEdges 6 false

theorem balance_run_four :
    let bench := runFrom (step 5001) start fourDatagrams
    bench.counted = [5, 7, 6] ∧ bench.sink.stat.lastSeq = 7 ∧
      bench.sink.stat.packets - bench.sink.stat.outOfOrder + bench.sink.stat.seqGaps =
        bench.sink.stat.lastSeq - bench.sink.stat.firstSeq + 1 := by
  have hcounted : (runFrom (step 5001) start fourDatagrams).counted = [5, 7, 6] := by
    decide +kernel
  have hne : (runFrom (step 5001) start fourDatagrams).counted ≠ [] := by
    rw [hcounted]
    exact List.cons_ne_nil _ _
  exact ⟨hcounted, by decide +kernel,
    ((balance_run 5001 fourDatagrams (by decide +kernel)).1 hne).1⟩

end IperfBench

end EmacZero
