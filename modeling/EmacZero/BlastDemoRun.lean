/-
The line-rate test over whole runs: a datagram to the trigger port, taken while no burst is in
progress, becomes the frames that it asks for.
-/
import EmacZero.BlastDemo

namespace EmacZero

namespace BlastRequest

variable {our : NetOur} {request : BlastRequest}

theorem bigEndian_lt (bytes : List (BitVec 8)) : bigEndian bytes < 256 ^ bytes.length := by
  induction bytes using List.reverseRecOn with
  | nil => exact Nat.one_pos
  | append_singleton bytes data ih =>
      have hlt := data.isLt
      rw [bigEndian_concat, List.length_append, List.length_singleton, Nat.pow_succ']
      omega

theorem field_lt (request : BlastRequest) (first stop : Nat) :
    request.field first stop < 256 ^ (stop - first) := by
  rw [field]
  split
  · rename_i hlong
    have hlt := bigEndian_lt (slice request.bytes first stop)
    rw [length_slice, Nat.min_eq_left hlong] at hlt
    exact hlt
  · exact Nat.pow_pos (by decide)

theorem count_pos (request : BlastRequest) : 0 < request.count := by
  rw [count]
  split
  · decide
  · omega

/-- The trigger's packet count is the count. -/
theorem packetCount_eq (request : BlastRequest) :
    (request.ask BlastDemo.triggerParams).packetCount.toNat = request.count := by
  have hlt := request.field_lt 3 7
  simp only [ask, count, BlastDemo.triggerParams]
  split
  · rfl
  · rw [BitVec.toNat_ofNat]
    exact Nat.mod_eq_of_lt hlt

theorem size_bounds (request : BlastRequest) : 18 ≤ request.size ∧ request.size ≤ 1472 := by
  rw [size]
  split
  · assumption
  · exact ⟨by decide, by decide⟩

theorem toNat_size (request : BlastRequest) :
    (BitVec.ofNat 14 request.size).toNat = request.size := by
  have hbounds := request.size_bounds
  rw [BitVec.toNat_ofNat]
  exact Nat.mod_eq_of_lt (by omega)

/-- What the request is latched as. -/
def latch (request : BlastRequest) : BlastLatch where
  dstMac := request.source.srcMac
  dstIp := request.source.srcIp
  dstPort := (request.target ⟨0, 0⟩).dstPort
  srcPort := request.source.dstPort
  payload := .ofNat 14 request.size
  ifgDelay := .ofNat 24 (request.field 0 3)

theorem clampPayload_ofNat {size : Nat} (hlt : size < 65536) :
    BlastDemo.clampPayload (.ofNat 16 size) =
      .ofNat 14 (if 18 ≤ size ∧ size ≤ 1472 then size else 1472) := by
  have hnat : (BitVec.ofNat 16 size).toNat = size := by
    rw [BitVec.toNat_ofNat]
    exact Nat.mod_eq_of_lt hlt
  have hrange : (decide (BitVec.ofNat 16 size ≥ 18) && decide (BitVec.ofNat 16 size ≤ 1472)) =
      true ↔ 18 ≤ size ∧ size ≤ 1472 := by
    rw [Bool.and_eq_true, decide_eq_true_iff, decide_eq_true_iff, ge_iff_le, BitVec.le_def,
      BitVec.le_def, hnat]
    rfl
  rw [BlastDemo.clampPayload]
  by_cases hin : 18 ≤ size ∧ size ≤ 1472
  · rw [if_pos (hrange.mpr hin), if_pos hin, BitVec.setWidth_ofNat_of_le (by decide)]
  · rw [if_neg fun htrue => hin (hrange.mp htrue), if_neg hin]
    rfl

theorem clampPayload_eq (request : BlastRequest) :
    BlastDemo.clampPayload (request.ask BlastDemo.triggerParams).payloadSize =
      .ofNat 14 request.size := by
  have hask : (request.ask BlastDemo.triggerParams).payloadSize =
      if request.field 9 11 = 0 then 1472 else .ofNat 16 (request.field 9 11) := rfl
  rw [hask, size]
  by_cases hnone : request.field 9 11 = 0
  · rw [if_pos hnone, hnone]
    rfl
  · rw [if_neg hnone, clampPayload_ofNat (request.field_lt 9 11)]

theorem length_wanted : (request.wanted our).length = request.count := by
  rw [wanted, List.length_map, List.length_range]

theorem length_flatMap_wanted (our : NetOur) (requests : List BlastRequest) :
    (requests.flatMap (wanted our)).length = (requests.map count).sum := by
  rw [List.length_flatMap]
  simp only [length_wanted]

theorem take_wanted {number : Nat} (hnumber : number < request.count) :
    (request.wanted our).take (number + 1) =
      (request.wanted our).take number ++ [request.frame our number] := by
  rw [wanted, ← List.map_take, ← List.map_take, List.take_range, List.take_range,
    Nat.min_eq_left hnumber, Nat.min_eq_left hnumber.le, List.range_succ, List.map_append]
  rfl

end BlastRequest

/-- `tx_start` is high from the beginning of a frame until the receiver takes a byte. -/
theorem UdpBlast.txStart_edge (params : UdpBlastParams) (blast : UdpBlast) (i : UdpBlastIn) :
    (blast.txEdge params i).txStart =
      if blast.starts params i then true
      else if i.txReady && blast.slice.valid then false else blast.tx.txStart := by
  cases hstate : blast.tx.txState with
  | idle =>
      rw [txEdge, hstate]
      cases blast.starts params i <;> rfl
  | ethHdr =>
      rw [starts_of_busy (by rw [hstate]; exact BlastTxState.noConfusion), txEdge, hstate]
      simp only [headerEdge]
      split <;> [split; skip] <;> rfl
  | ipHdr =>
      rw [starts_of_busy (by rw [hstate]; exact BlastTxState.noConfusion), txEdge, hstate]
      simp only [headerEdge]
      split <;> [split; skip] <;> rfl
  | udpHdr =>
      rw [starts_of_busy (by rw [hstate]; exact BlastTxState.noConfusion), txEdge, hstate]
      simp only [headerEdge]
      split <;> [split; skip] <;> rfl
  | iperfHdr =>
      rw [starts_of_busy (by rw [hstate]; exact BlastTxState.noConfusion), txEdge, hstate]
      simp only [headerEdge]
      split <;> [split; skip] <;> rfl
  | payload =>
      rw [starts_of_busy (by rw [hstate]; exact BlastTxState.noConfusion), txEdge, hstate]
      simp only
      split <;> [split; skip] <;> rfl

theorem BlastDemo.enable_of_pos {demo : BlastDemo} (hpos : 0 < demo.remaining.toNat) :
    demo.enable = true := by
  rw [enable, bne_iff_ne]
  intro hzero
  rw [hzero] at hpos
  exact Nat.lt_irrefl 0 hpos

/-- What a request says of a frame. -/
def BlastFrame.wanted (frame : BlastFrame) : WantedFrame := ⟨frame.target, frame.size, frame.seq⟩

namespace BlastDemoBench

variable {our : NetOur} {blastStartDelay : BitVec 32} {bench : BlastDemoBench} {i : BlastDemoIn}

/-- The generator with its frames. -/
def gen (bench : BlastDemoBench) : UdpBlastBench :=
  ⟨bench.demo.blast, bench.held, bench.started, bench.sent⟩

/-- The frames begun are those of the requests before the last one, and the first `number` of
the last one. -/
structure Begun (our : NetOur) (bench : BlastDemoBench) (before : List BlastRequest)
    (request : BlastRequest) (number : Nat) : Prop where
  requests : bench.requests = before ++ [request]
  number_le : number ≤ request.count
  started : bench.started.map BlastFrame.wanted =
    before.flatMap (BlastRequest.wanted our) ++ (request.wanted our).take number

/-- The generator is between frames. -/
structure Resting (bench : BlastDemoBench) : Prop where
  idle : bench.demo.blast.tx.txState = .idle
  txStart : bench.demo.blast.tx.txStart = false
  inFrame : bench.demo.inFrame = bench.demo.blast.cnt.pktDonePulse
  done : bench.done + bench.demo.blast.cnt.pktDonePulse.toNat = bench.started.length

/-- The generator is at the frame with this number of the request. -/
structure Sending (our : NetOur) (bench : BlastDemoBench) (request : BlastRequest)
    (number : Nat) : Prop where
  busy : bench.demo.blast.tx.txState ≠ .idle
  held : bench.held = request.target our
  latch : bench.demo.latch = request.latch
  seq : bench.demo.blast.cnt.seqCnt = .ofNat 32 number
  pulse : bench.demo.blast.cnt.pktDonePulse = false
  done : bench.done + 1 = bench.started.length
  quiet : bench.demo.trigger.start = false

/-- Where the burst of the last request is. -/
inductive Phase (our : NetOur) (bench : BlastDemoBench) : Prop
  | finished (hresting : bench.Resting) (hquiet : bench.demo.trigger.start = false)
      (hremaining : bench.demo.remaining = 0)
      (hstarted : bench.started.map BlastFrame.wanted =
        bench.requests.flatMap (BlastRequest.wanted our))
  | asked (before : List BlastRequest) (request : BlastRequest) (hresting : bench.Resting)
      (hpulse : bench.demo.blast.cnt.pktDonePulse = false)
      (hstart : bench.demo.trigger.start = true)
      (hask : bench.demo.trigger.ask = request.ask BlastDemo.triggerParams)
      (hremaining : bench.demo.remaining = 0) (hbegun : Begun our bench before request 0)
      (hbetween : bench.feed.between = true) (hgap : bench.gap = 0)
  | waiting (before : List BlastRequest) (request : BlastRequest) (number : Nat)
      (hresting : bench.Resting) (hquiet : bench.demo.trigger.start = false)
      (hnumber : number < request.count)
      (hremaining : bench.demo.remaining.toNat + number = request.count)
      (hlatch : bench.demo.latch = request.latch)
      (hbegun : Begun our bench before request number)
      (hseq : if bench.demo.blast.cnt.enableD then
        bench.demo.blast.cnt.seqCnt = .ofNat 32 number else number = 0)
  | begun (before : List BlastRequest) (request : BlastRequest) (number : Nat)
      (hsending : Sending our bench request number)
      (hremaining : bench.demo.remaining.toNat + number = request.count)
      (hbegun : Begun our bench before request (number + 1))
      (henableD : bench.demo.blast.cnt.enableD = true) (hinFrame : bench.demo.inFrame = false)
      (htxStart : bench.demo.blast.tx.txStart = true) (htxStartD : bench.demo.txStartD = false)
      (hplace : bench.demo.blast.tx.place = 0)
  | sending (before : List BlastRequest) (request : BlastRequest) (number : Nat)
      (hsending : Sending our bench request number)
      (hremaining : bench.demo.remaining.toNat + (number + 1) = request.count)
      (hbegun : Begun our bench before request (number + 1))
      (henableD : bench.demo.enable = true → bench.demo.blast.cnt.enableD = true)
      (hinFrame : bench.demo.inFrame = true)
      (htxStart : bench.demo.blast.tx.txStart = true → bench.demo.txStartD = true ∧
        bench.demo.blast.tx.place ≤ 1 ∧
          (bench.demo.blast.tx.place = 1 → bench.demo.blast.slice.valid = true))

/-- The frames that the requests ask for. -/
def total (bench : BlastDemoBench) : Nat := (bench.requests.map BlastRequest.count).sum

theorem Begun.total_eq {before : List BlastRequest} {request : BlastRequest} {number : Nat}
    (hbegun : Begun our bench before request number) :
    bench.started.length + (request.count - number) = bench.total := by
  have hlength := congrArg List.length hbegun.started
  have hnumber := hbegun.number_le
  rw [List.length_map, List.length_append, BlastRequest.length_flatMap_wanted, List.length_take,
    BlastRequest.length_wanted, Nat.min_eq_left hnumber] at hlength
  rw [total, hbegun.requests, List.map_append, List.sum_append, List.map_singleton,
    List.sum_singleton]
  omega

/-- Between bursts none is in progress but for the cycle that reports its last frame. -/
theorem bursting_finished (hresting : bench.Resting)
    (hstarted : bench.started.map BlastFrame.wanted =
      bench.requests.flatMap (BlastRequest.wanted our)) :
    bench.bursting = bench.demo.blast.cnt.pktDonePulse := by
  have hlength := congrArg List.length hstarted
  have hdone := hresting.done
  rw [List.length_map, BlastRequest.length_flatMap_wanted] at hlength
  rw [bursting, ← hlength, ← hdone]
  cases bench.demo.blast.cnt.pktDonePulse with
  | true => exact decide_eq_true (Nat.lt_succ_self _)
  | false => exact decide_eq_false (Nat.lt_irrefl _)

/-- While frames are owed a burst is in progress. -/
theorem bursting_of_lt (hlt : bench.done < bench.total) : bench.bursting = true :=
  decide_eq_true hlt

/-- The wrapper is busy while a burst is in progress, but for the cycle of the start pulse. -/
theorem Phase.busy_eq (hphase : bench.Phase our) :
    bench.demo.busy = bench.bursting ∨
      bench.feed.between = true ∧ bench.gap = 0 ∧ bench.bursting = true := by
  cases hphase with
  | finished hresting hquiet hremaining hstarted =>
      refine .inl ?_
      rw [bursting_finished hresting hstarted, BlastDemo.busy, BlastDemo.enable, hremaining,
        hresting.inFrame]
      rfl
  | asked before request hresting hpulse hstart hask hremaining hbegun hbetween hgap =>
      have hdone := hresting.done
      have htotal := hbegun.total_eq
      have hcount := request.count_pos
      rw [hpulse, Bool.toNat_false] at hdone
      exact .inr ⟨hbetween, hgap, bursting_of_lt (by omega)⟩
  | waiting before request number hresting hquiet hnumber hremaining hlatch hbegun hseq =>
      have hdone := hresting.done
      have htotal := hbegun.total_eq
      refine .inl ?_
      rw [bursting_of_lt (by omega), BlastDemo.busy, BlastDemo.enable_of_pos (by omega),
        Bool.true_or]
  | begun before request number hsending hremaining hbegun henableD hinFrame htxStart htxStartD
      hplace =>
      have hdone := hsending.done
      have htotal := hbegun.total_eq
      have hnumber := hbegun.number_le
      refine .inl ?_
      rw [bursting_of_lt (by omega), BlastDemo.busy, BlastDemo.enable_of_pos (by omega),
        Bool.true_or]
  | sending before request number hsending hremaining hbegun henableD hinFrame htxStart =>
      have hdone := hsending.done
      have htotal := hbegun.total_eq
      refine .inl ?_
      rw [bursting_of_lt (by omega), BlastDemo.busy, hinFrame, Bool.or_true]

/-- What holds in every state of a run. -/
structure Holds (our : NetOur) (bench : BlastDemoBench) : Prop where
  gen : bench.gen.Phase
  follows : UdpBlastTrigger.Follows BlastDemo.triggerParams bench.demo.trigger bench.feed
    bench.free
  free : bench.feed.between = false → bench.free = true → bench.bursting = false
  phase : bench.Phase our
  frames : (UdpBlastBench.sender (fun frame => frame.bytes frame.seq) bench.gen).Holds Eq

/-- While a burst is in progress no datagram is taken. -/
theorem Holds.refuses (hholds : bench.Holds our) (hbursting : bench.bursting = true) :
    ¬ bench.Requests i := by
  rintro ⟨-, -, -, -, -, hfree⟩
  rw [freeNow] at hfree
  cases hbetween : bench.feed.between with
  | true =>
      rw [hbetween, hbursting] at hfree
      exact absurd hfree Bool.false_ne_true
  | false =>
      rw [hbetween, if_neg Bool.false_ne_true] at hfree
      exact absurd (hbursting.symm.trans (hholds.free hbetween hfree)) Bool.true_eq_false.mp

/-- The trigger sees at the first byte whether a burst is in progress. -/
theorem Holds.freeNow_eq (hholds : bench.Holds our) (hspaced : bench.Spaced i)
    (hvalid : i.rx.valid = true) :
    UdpBlastTrigger.freeNow bench.feed bench.free bench.demo.busy = bench.freeNow := by
  rw [UdpBlastTrigger.freeNow, freeNow]
  rcases hholds.phase.busy_eq with hbusy | ⟨hbetween, hgap, -⟩
  · rw [hbusy]
  · have htwo := hspaced hvalid hbetween
    omega

/-- A datagram that is taken starts a burst. -/
theorem Holds.start_iff (hholds : bench.Holds our) (hspaced : bench.Spaced i) :
    (bench.step our blastStartDelay i).demo.trigger.start = true ↔ bench.Requests i := by
  have hstart : (bench.step our blastStartDelay i).demo.trigger.start =
      (i.rx.valid && i.rx.last && !i.rx.err &&
        ((bench.feed.drive i.rx).source.triggers BlastDemo.triggerParams &&
          UdpBlastTrigger.freeNow bench.feed bench.free bench.demo.busy)) :=
    hholds.follows.start_eq
  rw [hstart, Requests]
  cases hvalid : i.rx.valid with
  | false => simp only [Bool.false_and, Bool.false_eq_true, false_and]
  | true =>
      rw [hholds.freeNow_eq hspaced hvalid]
      simp only [UdpSource.triggers, BlastDemo.triggerParams, Bool.and_eq_true, beq_iff_eq,
        bne_iff_ne, Bool.not_eq_true', true_and, and_assoc]

theorem Holds.quiet (hholds : bench.Holds our) (hspaced : bench.Spaced i)
    (hrefuses : ¬ bench.Requests i) :
    (bench.step our blastStartDelay i).demo.trigger.start = false ∧
      (bench.step our blastStartDelay i).requests = bench.requests :=
  ⟨by rw [← Bool.not_eq_true, hholds.start_iff hspaced]; exact hrefuses, if_neg hrefuses⟩

/-! One cycle. -/

theorem txStarts_of_txStart (htxStart : bench.demo.blast.tx.txStart = false) :
    bench.demo.txStarts = false := by
  rw [BlastDemo.txStarts, htxStart]
  rfl

/-- What the last cycle's pulse leaves behind. -/
theorem Resting.settles (hresting : bench.Resting) :
    (bench.step our blastStartDelay i).demo.inFrame = false ∧
      (bench.step our blastStartDelay i).done = bench.started.length := by
  have hdone := hresting.done
  have hin : (bench.step our blastStartDelay i).demo.inFrame =
      if bench.demo.txStarts then true
      else if bench.demo.blast.cnt.pktDonePulse then false
      else bench.demo.inFrame := rfl
  have hcount : (bench.step our blastStartDelay i).done =
      if bench.demo.blast.cnt.pktDonePulse then bench.done + 1 else bench.done := rfl
  rw [hin, hcount, txStarts_of_txStart hresting.txStart, if_neg Bool.false_ne_true,
    hresting.inFrame]
  cases hpulse : bench.demo.blast.cnt.pktDonePulse with
  | true =>
      rw [hpulse] at hdone
      exact ⟨rfl, hdone⟩
  | false =>
      rw [hpulse] at hdone
      exact ⟨rfl, hdone⟩

/-- Between frames, when none begins. -/
theorem Resting.stay (hresting : bench.Resting)
    (hstarts : bench.demo.blast.starts (BlastDemo.blastParams blastStartDelay)
      (bench.demo.blastIn our i.txReady) = false)
    (hidle : (bench.step our blastStartDelay i).demo.blast.tx.txState = .idle) :
    (bench.step our blastStartDelay i).Resting ∧
      (bench.step our blastStartDelay i).demo.blast.cnt.pktDonePulse = false ∧
      (bench.step our blastStartDelay i).started = bench.started := by
  obtain ⟨hin, hdone⟩ := @Resting.settles our blastStartDelay bench i hresting
  have hpulse : (bench.step our blastStartDelay i).demo.blast.cnt.pktDonePulse = false :=
    UdpBlast.ends_of_idle hresting.idle
  have hstarted : (bench.step our blastStartDelay i).started = bench.started :=
    if_neg (by rw [hstarts]; exact Bool.false_ne_true)
  refine ⟨⟨hidle, ?_, by rw [hin, hpulse], by rw [hpulse, hstarted]; exact hdone⟩, hpulse,
    hstarted⟩
  refine (UdpBlast.txStart_edge _ _ _).trans ?_
  rw [hstarts, if_neg Bool.false_ne_true, hresting.txStart, ite_self]

/-- The wrapper's count when no request is taken over. -/
theorem remaining_quiet (hquiet : bench.demo.trigger.start = false) :
    (bench.step our blastStartDelay i).demo.latch = bench.demo.latch ∧
      (bench.step our blastStartDelay i).demo.remaining =
        if bench.demo.txStarts && bench.demo.enable then bench.demo.remaining - 1
        else bench.demo.remaining := by
  have hnone : (bench.demo.trigger.start && !bench.demo.busy) = false := by
    rw [hquiet]
    rfl
  refine ⟨if_neg (by rw [hnone]; exact Bool.false_ne_true), ?_⟩
  exact if_neg (by rw [hnone]; exact Bool.false_ne_true)

/-- Without frames to begin the generator stays between frames. -/
theorem starts_of_remaining (hremaining : bench.demo.remaining = 0) :
    bench.demo.blast.starts (BlastDemo.blastParams blastStartDelay)
      (bench.demo.blastIn our i.txReady) = false := by
  have henable : (bench.demo.blastIn our i.txReady).enable = false := by
    rw [BlastDemo.blastIn, BlastDemo.enable, hremaining]
    rfl
  rw [UdpBlast.starts, henable, Bool.and_false]

/-- No burst, or the request for one. -/
theorem finished_step (hholds : bench.Holds our) (hspaced : bench.Spaced i)
    (hturn : UdpBlastBench.Turn (BlastDemo.blastParams blastStartDelay) bench.gen
      (bench.demo.blastIn our i.txReady))
    (hresting : bench.Resting) (hquiet : bench.demo.trigger.start = false)
    (hremaining : bench.demo.remaining = 0)
    (hstarted : bench.started.map BlastFrame.wanted =
      bench.requests.flatMap (BlastRequest.wanted our)) :
    (bench.step our blastStartDelay i).Phase our := by
  have hstarts := @starts_of_remaining our blastStartDelay bench i hremaining
  have hidle := hturn.stay hresting.idle hstarts
  obtain ⟨hresting', hpulse', hsame⟩ := hresting.stay hstarts hidle
  obtain ⟨-, hremaining'⟩ := @remaining_quiet our blastStartDelay bench i hquiet
  rw [txStarts_of_txStart hresting.txStart, Bool.false_and, if_neg Bool.false_ne_true,
    hremaining] at hremaining'
  by_cases hrequests : bench.Requests i
  · have hstart := (@Holds.start_iff our blastStartDelay bench i hholds hspaced).mpr hrequests
    have hlonger : (bench.step our blastStartDelay i).requests = bench.requests ++
        [⟨bench.feed.arrived i.rx, (bench.feed.drive i.rx).source⟩] := if_pos hrequests
    have hgap : (bench.step our blastStartDelay i).gap = 0 := if_pos hrequests.1
    have hbetween : (bench.step our blastStartDelay i).feed.between = true := by
      change (bench.feed.next i.rx).between = true
      rw [bench.feed.next_last i.rx hrequests.1 hrequests.2.1]
      rfl
    refine .asked bench.requests _ hresting' hpulse' hstart (hholds.follows.ask_eq hstart)
      hremaining' ⟨hlonger, Nat.zero_le _, ?_⟩ hbetween hgap
    rw [hsame, List.take_zero, List.append_nil]
    exact hstarted
  · obtain ⟨hquiet', hrequests'⟩ :=
      @Holds.quiet our blastStartDelay bench i hholds hspaced hrequests
    refine .finished hresting' hquiet' hremaining' ?_
    rw [hsame, hrequests']
    exact hstarted

/-- The wrapper takes the request over in the cycle of the start pulse. -/
theorem asked_step (hholds : bench.Holds our) (hspaced : bench.Spaced i)
    (hturn : UdpBlastBench.Turn (BlastDemo.blastParams blastStartDelay) bench.gen
      (bench.demo.blastIn our i.txReady))
    {before : List BlastRequest} {request : BlastRequest} (hresting : bench.Resting)
    (hpulse : bench.demo.blast.cnt.pktDonePulse = false)
    (hstart : bench.demo.trigger.start = true)
    (hask : bench.demo.trigger.ask = request.ask BlastDemo.triggerParams)
    (hremaining : bench.demo.remaining = 0) (hbegun : Begun our bench before request 0)
    (hbetween : bench.feed.between = true) (hgap : bench.gap = 0) :
    (bench.step our blastStartDelay i).Phase our := by
  have hstarts := @starts_of_remaining our blastStartDelay bench i hremaining
  have hidle := hturn.stay hresting.idle hstarts
  obtain ⟨hresting', hpulse', hsame⟩ := hresting.stay hstarts hidle
  have hrefuses : ¬ bench.Requests i := by
    intro hrequests
    have htwo := hspaced hrequests.1 hbetween
    omega
  obtain ⟨hquiet', hrequests'⟩ := @Holds.quiet our blastStartDelay bench i hholds hspaced hrefuses
  have henable : bench.demo.enable = false := by
    rw [BlastDemo.enable, hremaining]
    rfl
  have htaken : (bench.demo.trigger.start && !bench.demo.busy) = true := by
    rw [hstart, BlastDemo.busy, henable, hresting.inFrame, hpulse]
    rfl
  have hlatch : (bench.step our blastStartDelay i).demo.latch = request.latch := by
    refine (if_pos htaken).trans ?_
    rw [hask, BlastRequest.clampPayload_eq]
    rfl
  have hcount : (bench.step our blastStartDelay i).demo.remaining =
      (request.ask BlastDemo.triggerParams).packetCount :=
    (if_pos htaken).trans (by rw [hask])
  have henableD : (bench.step our blastStartDelay i).demo.blast.cnt.enableD = false := henable
  refine .waiting before request 0 hresting' hquiet' request.count_pos ?_ hlatch
    ⟨hrequests'.trans hbegun.requests, Nat.zero_le _, by rw [hsame]; exact hbegun.started⟩ ?_
  · rw [hcount, request.packetCount_eq, Nat.add_zero]
  · rw [henableD, if_neg Bool.false_ne_true]

/-- The sequence counter when a burst goes on, or begins. -/
theorem seqCnt_step (henable : bench.demo.enable = true)
    (hends : bench.demo.blast.ends (bench.demo.blastIn our i.txReady) = false) {number : Nat}
    (hseq : if bench.demo.blast.cnt.enableD then
      bench.demo.blast.cnt.seqCnt = .ofNat 32 number else number = 0) :
    (if bench.demo.blast.enableRises (bench.demo.blastIn our i.txReady) then 0
      else bench.demo.blast.cnt.seqCnt) = .ofNat 32 number ∧
    (bench.step our blastStartDelay i).demo.blast.cnt.seqCnt = .ofNat 32 number ∧
    (bench.step our blastStartDelay i).demo.blast.cnt.enableD = true := by
  have hrises : bench.demo.blast.enableRises (bench.demo.blastIn our i.txReady) =
      !bench.demo.blast.cnt.enableD := by
    have henable' : (bench.demo.blastIn our i.txReady).enable = true := henable
    rw [UdpBlast.enableRises, henable', Bool.true_and]
  have hnumber : (if bench.demo.blast.enableRises (bench.demo.blastIn our i.txReady) then 0
      else bench.demo.blast.cnt.seqCnt) = .ofNat 32 number := by
    rw [hrises]
    cases henableD : bench.demo.blast.cnt.enableD with
    | true =>
        rw [henableD, if_pos rfl] at hseq
        exact hseq
    | false =>
        rw [henableD, if_neg Bool.false_ne_true] at hseq
        rw [hseq]
        rfl
  refine ⟨hnumber, ?_, henable⟩
  refine Eq.trans ?_ hnumber
  exact if_neg (by rw [hends]; exact Bool.false_ne_true)

/-- Before a frame of a burst. -/
theorem waiting_step (hholds : bench.Holds our) (hspaced : bench.Spaced i)
    (hturn : UdpBlastBench.Turn (BlastDemo.blastParams blastStartDelay) bench.gen
      (bench.demo.blastIn our i.txReady))
    {before : List BlastRequest} {request : BlastRequest} {number : Nat}
    (hresting : bench.Resting) (hquiet : bench.demo.trigger.start = false)
    (hnumber : number < request.count)
    (hremaining : bench.demo.remaining.toNat + number = request.count)
    (hlatch : bench.demo.latch = request.latch) (hbegun : Begun our bench before request number)
    (hseq : if bench.demo.blast.cnt.enableD then
      bench.demo.blast.cnt.seqCnt = .ofNat 32 number else number = 0) :
    (bench.step our blastStartDelay i).Phase our := by
  have hbursting : bench.bursting = true := by
    have hdone := hresting.done
    have htotal := hbegun.total_eq
    exact bursting_of_lt (by omega)
  obtain ⟨hquiet', hrequests'⟩ :=
    @Holds.quiet our blastStartDelay bench i hholds hspaced (hholds.refuses hbursting)
  obtain ⟨hlatch', hremaining'⟩ := @remaining_quiet our blastStartDelay bench i hquiet
  rw [txStarts_of_txStart hresting.txStart, Bool.false_and, if_neg Bool.false_ne_true]
    at hremaining'
  have henable : bench.demo.enable = true := BlastDemo.enable_of_pos (by omega)
  have hends : bench.demo.blast.ends (bench.demo.blastIn our i.txReady) = false :=
    UdpBlast.ends_of_idle hresting.idle
  obtain ⟨hbegins, hseq', henableD'⟩ :=
    @seqCnt_step our blastStartDelay bench i henable hends number hseq
  cases hstarts : bench.demo.blast.starts (BlastDemo.blastParams blastStartDelay)
      (bench.demo.blastIn our i.txReady) with
  | false =>
      obtain ⟨hresting', -, hsame⟩ := hresting.stay hstarts (hturn.stay hresting.idle hstarts)
      refine .waiting before request number hresting' hquiet' hnumber ?_ (hlatch'.trans hlatch)
        ⟨hrequests'.trans hbegun.requests, hbegun.number_le, by rw [hsame]; exact hbegun.started⟩
        ?_
      · rw [hremaining']
        exact hremaining
      · rw [henableD', if_pos rfl]
        exact hseq'
  | true =>
      obtain ⟨hin, hdone⟩ := @Resting.settles our blastStartDelay bench i hresting
      obtain ⟨hlonger, hwalking, hplace⟩ := hturn.opens hresting.idle hstarts
      have hlonger' : (bench.step our blastStartDelay i).started =
        bench.started ++ [bench.demo.blast.begins (bench.demo.blastIn our i.txReady)] := hlonger
      have htarget : (bench.demo.blastIn our i.txReady).target = request.target our := by
        rw [BlastDemo.blastIn, hlatch]
        rfl
      have hframe : (bench.demo.blast.begins (bench.demo.blastIn our i.txReady)).wanted =
          request.frame our number := by
        rw [BlastFrame.wanted, UdpBlast.begins, htarget, hbegins, BlastDemo.blastIn, hlatch]
        rfl
      refine .begun before request number ⟨hwalking.busy, htarget, hlatch'.trans hlatch, hseq',
        hends, ?_, hquiet'⟩ ?_ ⟨hrequests'.trans hbegun.requests, hnumber, ?_⟩ henableD' hin
        ((UdpBlast.txStart_edge _ _ _).trans (if_pos hstarts)) hresting.txStart hplace
      · rw [hdone, hlonger', List.length_append, List.length_singleton]
      · rw [hremaining']
        exact hremaining
      · rw [hlonger', List.map_append, List.map_singleton, hbegun.started, hframe,
          List.append_assoc, ← BlastRequest.take_wanted hnumber]

/-- Within a frame whose burst goes on, or is over but for this frame. -/
theorem Sending.stay {request : BlastRequest} {number : Nat}
    (hsending : Sending our bench request number)
    (henableD : bench.demo.enable = true → bench.demo.blast.cnt.enableD = true)
    (hquiet' : (bench.step our blastStartDelay i).demo.trigger.start = false)
    (hbusy : (bench.step our blastStartDelay i).demo.blast.tx.txState ≠ .idle)
    (hstarted : (bench.step our blastStartDelay i).started = bench.started)
    (hends : bench.demo.blast.ends (bench.demo.blastIn our i.txReady) = false) :
    Sending our (bench.step our blastStartDelay i) request number := by
  have hrises : bench.demo.blast.enableRises (bench.demo.blastIn our i.txReady) = false := by
    change (bench.demo.enable && !bench.demo.blast.cnt.enableD) = false
    cases henable : bench.demo.enable with
    | false => rfl
    | true =>
        rw [henableD henable]
        rfl
  have hseq : (bench.step our blastStartDelay i).demo.blast.cnt.seqCnt =
      bench.demo.blast.cnt.seqCnt :=
    (if_neg (by rw [hends]; exact Bool.false_ne_true)).trans
      (if_neg (by rw [hrises]; exact Bool.false_ne_true))
  have hdone : (bench.step our blastStartDelay i).done = bench.done :=
    if_neg (by rw [hsending.pulse]; exact Bool.false_ne_true)
  have hlatch := (@remaining_quiet our blastStartDelay bench i hsending.quiet).1
  have htarget : (bench.demo.blastIn our i.txReady).target = request.target our := by
    rw [BlastDemo.blastIn, hsending.latch]
    rfl
  exact ⟨hbusy, htarget, hlatch.trans hsending.latch, hseq.trans hsending.seq, hends,
    by rw [hdone, hstarted]; exact hsending.done, hquiet'⟩

/-- The receiver takes a byte of the frame at its second byte at the latest. -/
theorem fresh_step {bench : UdpBlastBench} {params : UdpBlastParams} {i : UdpBlastIn}
    {frame : BlastFrame} (hwalking : BlastWalking frame bench.blast.tx)
    (hplace' : (bench.step params i).blast.tx.place =
      if bench.blast.srcReady i then bench.blast.tx.place + 1 else bench.blast.tx.place)
    (hfresh : bench.blast.tx.place ≤ 1 ∧
      (bench.blast.tx.place = 1 → bench.blast.slice.valid = true))
    (htxStart : (i.txReady && bench.blast.slice.valid) = false) :
    (bench.step params i).blast.tx.place ≤ 1 ∧
      ((bench.step params i).blast.tx.place = 1 →
        (bench.step params i).blast.slice.valid = true) := by
  have hslice : (bench.step params i).blast.slice =
      if bench.blast.srcReady i then bench.blast.offer i else bench.blast.slice := rfl
  obtain ⟨hplace, hvalid⟩ := hfresh
  rw [hplace', hslice]
  cases hready : bench.blast.srcReady i with
  | false =>
      rw [if_neg Bool.false_ne_true, if_neg Bool.false_ne_true]
      exact ⟨hplace, hvalid⟩
  | true =>
      rw [if_pos rfl, if_pos rfl]
      refine ⟨?_, fun _ => hwalking.valid⟩
      by_contra hsecond
      have hone : bench.blast.tx.place = 1 := by omega
      rw [UdpBlast.srcReady, OutSlice.ready, hvalid hone, Bool.not_true, Bool.false_or] at hready
      rw [hready, hvalid hone] at htxStart
      exact absurd htxStart Bool.true_eq_false.mp

theorem txStart_held (hbusy : bench.demo.blast.tx.txState ≠ .idle)
    (htxStart' : (bench.step our blastStartDelay i).demo.blast.tx.txStart = true) :
    bench.demo.blast.tx.txStart = true ∧
      (i.txReady && bench.demo.blast.slice.valid) = false := by
  have hedge := (UdpBlast.txStart_edge (BlastDemo.blastParams blastStartDelay) bench.demo.blast
    (bench.demo.blastIn our i.txReady)).symm.trans htxStart'
  rw [UdpBlast.starts_of_busy hbusy, if_neg Bool.false_ne_true] at hedge
  change (if (i.txReady && bench.demo.blast.slice.valid) = true then false else _) = true at hedge
  cases htaken : i.txReady && bench.demo.blast.slice.valid with
  | true =>
      rw [htaken, if_pos rfl] at hedge
      exact absurd hedge Bool.false_ne_true
  | false =>
      rw [htaken, if_neg Bool.false_ne_true] at hedge
      exact ⟨hedge, rfl⟩

/-- The first cycle of a frame. -/
theorem begun_step (hholds : bench.Holds our) (hspaced : bench.Spaced i)
    (hturn : UdpBlastBench.Turn (BlastDemo.blastParams blastStartDelay) bench.gen
      (bench.demo.blastIn our i.txReady))
    {before : List BlastRequest} {request : BlastRequest} {number : Nat}
    (hsending : Sending our bench request number)
    (hremaining : bench.demo.remaining.toNat + number = request.count)
    (hbegun : Begun our bench before request (number + 1))
    (henableD : bench.demo.blast.cnt.enableD = true)
    (htxStart : bench.demo.blast.tx.txStart = true) (htxStartD : bench.demo.txStartD = false)
    (hplace : bench.demo.blast.tx.place = 0) :
    (bench.step our blastStartDelay i).Phase our := by
  have hnumber := hbegun.number_le
  have hbursting : bench.bursting = true := by
    have hdone := hsending.done
    have htotal := hbegun.total_eq
    exact bursting_of_lt (by omega)
  have henable : bench.demo.enable = true := BlastDemo.enable_of_pos (by omega)
  have hcounts : bench.demo.txStarts = true := by
    rw [BlastDemo.txStarts, htxStart, htxStartD]
    rfl
  obtain ⟨hquiet', hrequests'⟩ :=
    @Holds.quiet our blastStartDelay bench i hholds hspaced (hholds.refuses hbursting)
  obtain ⟨-, hremaining'⟩ := @remaining_quiet our blastStartDelay bench i hsending.quiet
  rw [hcounts, henable, Bool.and_self, if_pos rfl] at hremaining'
  obtain ⟨hsame, ⟨frame, hwalking, hnext, hplace', hends⟩ | ⟨hlong, -, -⟩⟩ :=
    hturn.goes hsending.busy
  · have hless : (bench.demo.remaining - 1).toNat = bench.demo.remaining.toNat - 1 :=
      BitVec.toNat_sub_of_le (BitVec.le_def.mpr (by change 1 ≤ _; omega))
    refine .sending before request number
      (hsending.stay (fun _ => henableD) hquiet' hnext.busy hsame hends) ?_
      ⟨hrequests'.trans hbegun.requests, hnumber, ?_⟩ (fun _ => henable) (if_pos hcounts)
      (fun htxStart' => ⟨htxStart, ?_⟩)
    · rw [hremaining']
      omega
    · exact (congrArg (List.map BlastFrame.wanted) hsame).trans hbegun.started
    · have hfirst : bench.gen.blast.tx.place = 0 := hplace
      refine fresh_step hwalking hplace' ⟨by omega, fun hone => ?_⟩
        (txStart_held hsending.busy htxStart').2
      omega
  · have hfirst : bench.gen.blast.tx.place = 0 := hplace
    omega

/-- Within a frame. -/
theorem sending_step (hholds : bench.Holds our) (hspaced : bench.Spaced i)
    (hturn : UdpBlastBench.Turn (BlastDemo.blastParams blastStartDelay) bench.gen
      (bench.demo.blastIn our i.txReady))
    {before : List BlastRequest} {request : BlastRequest} {number : Nat}
    (hsending : Sending our bench request number)
    (hremaining : bench.demo.remaining.toNat + (number + 1) = request.count)
    (hbegun : Begun our bench before request (number + 1))
    (henableD : bench.demo.enable = true → bench.demo.blast.cnt.enableD = true)
    (hinFrame : bench.demo.inFrame = true)
    (htxStart : bench.demo.blast.tx.txStart = true → bench.demo.txStartD = true ∧
      bench.demo.blast.tx.place ≤ 1 ∧
        (bench.demo.blast.tx.place = 1 → bench.demo.blast.slice.valid = true)) :
    (bench.step our blastStartDelay i).Phase our := by
  have hbursting : bench.bursting = true := by
    have hdone := hsending.done
    have htotal := hbegun.total_eq
    exact bursting_of_lt (by omega)
  have hcounts : bench.demo.txStarts = false := by
    rw [BlastDemo.txStarts]
    cases hhigh : bench.demo.blast.tx.txStart with
    | false => rfl
    | true =>
        rw [(htxStart hhigh).1]
        rfl
  obtain ⟨hquiet', hrequests'⟩ :=
    @Holds.quiet our blastStartDelay bench i hholds hspaced (hholds.refuses hbursting)
  obtain ⟨hlatch', hremaining'⟩ := @remaining_quiet our blastStartDelay bench i hsending.quiet
  rw [hcounts, Bool.false_and, if_neg Bool.false_ne_true] at hremaining'
  have hinFrame' : (bench.step our blastStartDelay i).demo.inFrame = true := by
    have hin : (bench.step our blastStartDelay i).demo.inFrame =
      if bench.demo.txStarts then true
      else if bench.demo.blast.cnt.pktDonePulse then false
      else bench.demo.inFrame := rfl
    rw [hin, hcounts, hsending.pulse, hinFrame]
    rfl
  obtain ⟨hsame, ⟨frame, hwalking, hnext, hplace', hends⟩ | ⟨hlong, hidle', hends⟩⟩ :=
    hturn.goes hsending.busy
  · refine .sending before request number (hsending.stay henableD hquiet' hnext.busy hsame hends)
      (by rw [hremaining']; exact hremaining)
      ⟨hrequests'.trans hbegun.requests, hbegun.number_le,
        (congrArg (List.map BlastFrame.wanted) hsame).trans hbegun.started⟩
      (fun henable => ?_) hinFrame' (fun htxStart' => ?_)
    · rw [BlastDemo.enable, hremaining'] at henable
      exact henable
    · obtain ⟨hhigh, hheld⟩ := txStart_held hsending.busy htxStart'
      exact ⟨hhigh, fresh_step hwalking hplace' (htxStart hhigh).2 hheld⟩
  · have hpulse' : (bench.step our blastStartDelay i).demo.blast.cnt.pktDonePulse = true := hends
    have hsame' : (bench.step our blastStartDelay i).started = bench.started := hsame
    have hdone' : (bench.step our blastStartDelay i).done = bench.done :=
      if_neg (by rw [hsending.pulse]; exact Bool.false_ne_true)
    have htxStart' : (bench.step our blastStartDelay i).demo.blast.tx.txStart = false := by
      rw [← Bool.not_eq_true]
      intro hhigh
      have hfew := (htxStart (txStart_held hsending.busy hhigh).1).2.1
      exact absurd (hlong.trans hfew) (by decide)
    have hresting : (bench.step our blastStartDelay i).Resting :=
      ⟨hidle', htxStart', by rw [hinFrame', hpulse'],
        by rw [hpulse', hdone', hsame']; exact hsending.done⟩
    by_cases hlast : number + 1 = request.count
    · refine .finished hresting hquiet' ?_ ?_
      · rw [hremaining']
        exact BitVec.eq_of_toNat_eq (by omega : bench.demo.remaining.toNat = 0)
      · rw [hsame', hrequests', hbegun.started, hbegun.requests, hlast, List.take_of_length_le,
          List.flatMap_append, List.flatMap_singleton]
        exact BlastRequest.length_wanted.le
    · have hseq' : (bench.step our blastStartDelay i).demo.blast.cnt.seqCnt =
          bench.demo.blast.cnt.seqCnt + 1 := if_pos hends
      have henable : bench.demo.enable = true := by
        have hnumber := hbegun.number_le
        exact BlastDemo.enable_of_pos (by omega)
      have henableD' : (bench.step our blastStartDelay i).demo.blast.cnt.enableD = true := henable
      refine .waiting before request (number + 1) hresting hquiet'
        (Nat.lt_of_le_of_ne hbegun.number_le hlast) (by rw [hremaining']; exact hremaining)
        (hlatch'.trans hsending.latch)
        ⟨hrequests'.trans hbegun.requests, hbegun.number_le, by rw [hsame']; exact hbegun.started⟩
        ?_
      rw [henableD', if_pos rfl, hseq', hsending.seq, BitVec.ofNat_add]
      rfl

theorem phase_step (hholds : bench.Holds our) (hspaced : bench.Spaced i)
    (hturn : UdpBlastBench.Turn (BlastDemo.blastParams blastStartDelay) bench.gen
      (bench.demo.blastIn our i.txReady)) :
    (bench.step our blastStartDelay i).Phase our := by
  cases hholds.phase with
  | finished hresting hquiet hremaining hstarted =>
      exact finished_step hholds hspaced hturn hresting hquiet hremaining hstarted
  | asked before request hresting hpulse hstart hask hremaining hbegun hbetween hgap =>
      exact asked_step hholds hspaced hturn hresting hpulse hstart hask hremaining hbegun hbetween
        hgap
  | waiting before request number hresting hquiet hnumber hremaining hlatch hbegun hseq =>
      exact waiting_step hholds hspaced hturn hresting hquiet hnumber hremaining hlatch hbegun hseq
  | begun before request number hsending hremaining hbegun henableD hinFrame htxStart htxStartD
      hplace =>
      exact begun_step hholds hspaced hturn hsending hremaining hbegun henableD htxStart htxStartD
        hplace
  | sending before request number hsending hremaining hbegun henableD hinFrame htxStart =>
      exact sending_step hholds hspaced hturn hsending hremaining hbegun henableD hinFrame htxStart

/-- The wrapper gives the generator payloads that it takes, and steady addresses. -/
theorem Phase.steady (hphase : bench.Phase our) :
    bench.gen.Steady (BlastDemo.blastParams blastStartDelay)
      (bench.demo.blastIn our i.txReady) := by
  have hnone : bench.demo.remaining = 0 → bench.demo.blast.tx.txState = .idle →
      bench.gen.Steady (BlastDemo.blastParams blastStartDelay)
        (bench.demo.blastIn our i.txReady) := by
    intro hremaining hidle
    refine ⟨fun hstarts => ?_, fun hbusy => absurd hidle hbusy⟩
    exact absurd (hstarts.symm.trans (starts_of_remaining hremaining)) Bool.true_eq_false.mp
  have hheld : ∀ {request number}, Sending our bench request number →
      bench.gen.Steady (BlastDemo.blastParams blastStartDelay)
        (bench.demo.blastIn our i.txReady) := by
    intro request number hsending
    refine ⟨fun hstarts => ?_, fun _ => ?_⟩
    · have hnot := @UdpBlast.starts_of_busy (BlastDemo.blastParams blastStartDelay) _
        (bench.demo.blastIn our i.txReady) hsending.busy
      exact absurd (hstarts.symm.trans hnot) Bool.true_eq_false.mp
    · rw [BlastDemo.blastIn, hsending.latch]
      exact hsending.held.symm
  cases hphase with
  | finished hresting hquiet hremaining hstarted => exact hnone hremaining hresting.idle
  | asked before request hresting hpulse hstart hask hremaining hbegun hbetween hgap =>
      exact hnone hremaining hresting.idle
  | waiting before request number hresting hquiet hnumber hremaining hlatch hbegun hseq =>
      refine ⟨fun _ => ?_, fun hbusy => absurd hresting.idle hbusy⟩
      have hbounds := request.size_bounds
      rw [BlastDemo.blastIn, hlatch, BlastRequest.latch, request.toNat_size]
      omega
  | begun before request number hsending hremaining hbegun henableD hinFrame htxStart htxStartD
      hplace => exact hheld hsending
  | sending before request number hsending hremaining hbegun henableD hinFrame htxStart =>
      exact hheld hsending

/-- While the datagram that began between bursts is arriving, no burst begins. -/
theorem free_step (hholds : bench.Holds our)
    (hbetween : (bench.step our blastStartDelay i).feed.between = false)
    (hfree : (bench.step our blastStartDelay i).free = true) :
    (bench.step our blastStartDelay i).bursting = false := by
  have hover : bench.bursting = false := by
    change (bench.feed.next i.rx).between = false at hbetween
    change (if i.rx.valid then bench.freeNow else bench.free) = true at hfree
    cases hvalid : i.rx.valid with
    | false =>
        rw [hvalid, if_neg Bool.false_ne_true] at hfree
        rw [UdpFeed.next_idle _ _ hvalid] at hbetween
        exact hholds.free hbetween hfree
    | true =>
        rw [hvalid, if_pos rfl, freeNow] at hfree
        cases hfirst : bench.feed.between with
        | true =>
            rw [hfirst, if_pos rfl, Bool.not_eq_true'] at hfree
            exact hfree
        | false =>
            rw [hfirst, if_neg Bool.false_ne_true] at hfree
            exact hholds.free hfirst hfree
  have hrefuses : ¬ bench.Requests i := by
    rintro ⟨hvalid, hlast, -⟩
    change (bench.feed.next i.rx).between = false at hbetween
    rw [UdpFeed.next_last _ _ hvalid hlast] at hbetween
    exact absurd hbetween Bool.true_eq_false.mp
  have hsame : (bench.step our blastStartDelay i).requests = bench.requests := if_neg hrefuses
  have hmore : bench.done ≤ (bench.step our blastStartDelay i).done := by
    change _ ≤ if bench.demo.blast.cnt.pktDonePulse then bench.done + 1 else bench.done
    split
    · exact Nat.le_succ _
    · exact Nat.le_refl _
  rw [bursting, hsame]
  rw [bursting, decide_eq_false_iff_not] at hover
  rw [decide_eq_false_iff_not]
  exact fun hlt => hover (hmore.trans_lt hlt)

theorem follows_step (hholds : bench.Holds our) (hspaced : bench.Spaced i) :
    UdpBlastTrigger.Follows BlastDemo.triggerParams (bench.step our blastStartDelay i).demo.trigger
      (bench.step our blastStartDelay i).feed (bench.step our blastStartDelay i).free := by
  have hfree : (bench.step our blastStartDelay i).free =
      if i.rx.valid then bench.freeNow else bench.free := rfl
  rw [hfree]
  cases hvalid : i.rx.valid with
  | false => exact hholds.follows.idle hvalid
  | true =>
      cases hlast : i.rx.last with
      | true => exact UdpBlastTrigger.follows_last hvalid hlast _
      | false =>
          rw [if_pos rfl, ← hholds.freeNow_eq hspaced hvalid]
          exact hholds.follows.more hvalid hlast

/-- The frame that is being sent has its number in it. -/
theorem Holds.fits (hholds : bench.Holds our) :
    bench.gen.Fits Eq (fun frame => frame.bytes frame.seq) where
  length := fun frame hsize => BlastFrame.length_bytes (by omega) _
  data := by
    intro before frame hstarted hbusy place hplace
    have hseq : ∀ {earlier request number}, Sending our bench request number →
        Begun our bench earlier request (number + 1) →
        bench.gen.blast.cnt.seqCnt = frame.seq := by
      intro earlier request number hsending hbegun
      have hlast := hbegun.started
      rw [BlastRequest.take_wanted hbegun.number_le, ← List.append_assoc] at hlast
      have hframe : bench.started.map BlastFrame.wanted =
          before.map BlastFrame.wanted ++ [frame.wanted] :=
        (congrArg (List.map BlastFrame.wanted) hstarted).trans List.map_append
      have hsame := (List.append_inj' (hframe.symm.trans hlast) rfl).2
      have hnumber := congrArg WantedFrame.seq (List.singleton_inj.mp hsame)
      exact hsending.seq.trans hnumber.symm
    have hcnt : bench.gen.blast.cnt.seqCnt = frame.seq := by
      cases hholds.phase with
      | finished hresting hquiet hremaining hstarted => exact absurd hresting.idle hbusy
      | asked before request hresting hpulse hstart hask hremaining hbegun hbetween hgap =>
          exact absurd hresting.idle hbusy
      | waiting before request number hresting hquiet hnumber hremaining hlatch hbegun hseq =>
          exact absurd hresting.idle hbusy
      | begun before request number hsending hremaining hbegun henableD hinFrame htxStart
          htxStartD hplace => exact hseq hsending hbegun
      | sending before request number hsending hremaining hbegun henableD hinFrame htxStart =>
          exact hseq hsending hbegun
    rw [hcnt, List.getD_eq_getElem _ _ hplace]

theorem holds_start (our : NetOur) : start.Holds our where
  gen := .resting ⟨rfl, rfl, rfl⟩
  follows := ⟨rfl, fun hwithin => absurd hwithin Bool.true_eq_false.mp,
    fun _ => UdpBlastTrigger.heard_nil rfl⟩
  free := fun hwithin => absurd hwithin Bool.true_eq_false.mp
  phase := .finished ⟨rfl, rfl, rfl, rfl⟩ rfl rfl rfl
  frames := ⟨fun _ => ⟨rfl, .nil⟩, fun hne => absurd rfl hne⟩

theorem holds_step (hholds : bench.Holds our) (hspaced : bench.Spaced i) :
    (bench.step our blastStartDelay i).Holds our := by
  have hsteady := @Phase.steady our blastStartDelay bench i hholds.phase
  have hturn := hholds.gen.turn hsteady
  exact ⟨hturn.phase, follows_step hholds hspaced, free_step hholds,
    phase_step hholds hspaced hturn, hholds.frames.moves (hturn.moves hholds.fits)⟩

end BlastDemoBench

end EmacZero
