/-
The line-rate test comes to the end of its bursts: each cycle with a ready receiver brings the
next frame nearer.
-/
import EmacZero.BlastDemoRun

namespace EmacZero

namespace BlastDemoBench

variable {our : NetOur} {blastStartDelay : BitVec 32} {bench : BlastDemoBench} {i : BlastDemoIn}

/-- A counter that has not run out is counted down. -/
theorem countdown_succ {width : Nat} {cnt : BitVec width} (hne : cnt ≠ 0) :
    (cnt - 1).toNat + 1 = cnt.toNat := by
  have hpos : 0 < cnt.toNat :=
    Nat.pos_of_ne_zero fun hzero => hne (BitVec.eq_of_toNat_eq hzero)
  have hone : (1 : BitVec width).toNat = 1 :=
    (BitVec.toNat_ofNat 1 width).trans (Nat.mod_eq_of_lt (Nat.lt_of_le_of_lt hpos cnt.isLt))
  rw [BitVec.toNat_sub_of_le (BitVec.le_def.mpr (by rwa [hone])), hone, Nat.sub_add_cancel hpos]

theorem countdown_le {width : Nat} (cnt : BitVec width) :
    (if cnt != 0 then cnt - 1 else cnt).toNat ≤ cnt.toNat := by
  split
  · rename_i hne
    have hless := countdown_succ (bne_iff_ne.mp hne)
    omega
  · exact Nat.le_refl _

theorem Begun.mem {before : List BlastRequest} {request : BlastRequest} {number : Nat}
    (hbegun : Begun our bench before request number) : request ∈ bench.requests := by
  rw [hbegun.requests]
  exact List.mem_append_right _ (List.mem_singleton.mpr rfl)

/-- The generator's counters between frames: the gap is one that a request has asked for, and
the start delay only counts before a frame. -/
structure Timed (blastStartDelay : BitVec 32) (bench : BlastDemoBench) : Prop where
  gap : ∀ limit, (∀ request ∈ bench.requests, request.field 0 3 ≤ limit) →
    bench.demo.blast.cnt.gapCnt.toNat ≤ limit
  delay : bench.demo.blast.cnt.startDelayCnt ≠ 0 → bench.demo.blast.tx.txState = .idle ∧
    bench.demo.blast.cnt.enableD = true ∧ bench.demo.enable = true
  bound : bench.demo.blast.cnt.startDelayCnt.toNat ≤ blastStartDelay.toNat

theorem timed_start (blastStartDelay : BitVec 32) : start.Timed blastStartDelay where
  gap := fun _ _ => Nat.zero_le _
  bound := Nat.zero_le _
  delay := fun hne => absurd rfl hne

theorem Holds.turn (hholds : bench.Holds our) :
    UdpBlastBench.Turn (BlastDemo.blastParams blastStartDelay) bench.gen
      (bench.demo.blastIn our i.txReady) :=
  hholds.gen.turn hholds.phase.steady

/-- Within a frame `enable` has been up for a cycle, if it is. -/
theorem Holds.enableD (hholds : bench.Holds our) (hbusy : bench.demo.blast.tx.txState ≠ .idle)
    (henable : bench.demo.enable = true) : bench.demo.blast.cnt.enableD = true := by
  cases hholds.phase with
  | finished hresting hquiet hremaining hstarted => exact absurd hresting.idle hbusy
  | asked before request hresting hpulse hstart hask hremaining hbegun hbetween hgap =>
      exact absurd hresting.idle hbusy
  | waiting before request number hresting hquiet hnumber hremaining hlatch hbegun hseq =>
      exact absurd hresting.idle hbusy
  | begun before request number hsending hremaining hbegun henableD hinFrame htxStart htxStartD
      hplace => exact henableD
  | sending before request number hsending hremaining hbegun henableD hinFrame htxStart =>
      exact henableD henable

/-- Within a frame the latch is that of a request. -/
theorem Holds.latch (hholds : bench.Holds our) (hbusy : bench.demo.blast.tx.txState ≠ .idle) :
    ∃ request ∈ bench.requests, bench.demo.latch = request.latch := by
  cases hholds.phase with
  | finished hresting hquiet hremaining hstarted => exact absurd hresting.idle hbusy
  | asked before request hresting hpulse hstart hask hremaining hbegun hbetween hgap =>
      exact absurd hresting.idle hbusy
  | waiting before request number hresting hquiet hnumber hremaining hlatch hbegun hseq =>
      exact absurd hresting.idle hbusy
  | begun before request number hsending hremaining hbegun henableD hinFrame htxStart htxStartD
      hplace => exact ⟨request, hbegun.mem, hsending.latch⟩
  | sending before request number hsending hremaining hbegun henableD hinFrame htxStart =>
      exact ⟨request, hbegun.mem, hsending.latch⟩

theorem gap_step (hholds : bench.Holds our) (htimed : bench.Timed blastStartDelay) {limit : Nat}
    (hlimit : ∀ request ∈ (bench.step our blastStartDelay i).requests, request.field 0 3 ≤ limit) :
    (bench.step our blastStartDelay i).demo.blast.cnt.gapCnt.toNat ≤ limit := by
  have hearlier : ∀ request ∈ bench.requests, request.field 0 3 ≤ limit := by
    refine fun request hmem => hlimit request ?_
    change request ∈ if _ then _ else _
    split
    · exact List.mem_append_left _ hmem
    · exact hmem
  have hgap := htimed.gap limit hearlier
  change (if bench.demo.blast.ends (bench.demo.blastIn our i.txReady) then
      (bench.demo.blastIn our i.txReady).interFrameDelay
    else if bench.demo.blast.tx.txState == .idle && bench.demo.blast.cnt.gapCnt != 0 then
      bench.demo.blast.cnt.gapCnt - 1
    else bench.demo.blast.cnt.gapCnt).toNat ≤ limit
  split
  · rename_i hends
    have hbusy : bench.demo.blast.tx.txState ≠ .idle := by
      intro hidle
      exact absurd ((UdpBlast.ends_of_idle hidle).symm.trans hends) Bool.false_ne_true
    obtain ⟨request, hmem, hlatch⟩ := hholds.latch hbusy
    rw [BlastDemo.blastIn, hlatch, BlastRequest.latch, BitVec.toNat_ofNat]
    exact (Nat.mod_le _ _).trans (hearlier request hmem)
  · split
    · rename_i hcounts
      rw [Bool.and_eq_true, bne_iff_ne] at hcounts
      have hless := countdown_succ hcounts.2
      omega
    · exact hgap

/-- A cycle of a burst before a frame. -/
theorem Holds.waits (hholds : bench.Holds our) (hidle : bench.demo.blast.tx.txState = .idle)
    (henable : bench.demo.enable = true)
    (hstarts : bench.demo.blast.starts (BlastDemo.blastParams blastStartDelay)
      (bench.demo.blastIn our i.txReady) = false) :
    (bench.step our blastStartDelay i).demo.blast.tx.txState = .idle ∧
      (bench.step our blastStartDelay i).demo.blast.cnt.enableD = true ∧
      (bench.step our blastStartDelay i).demo.enable = true := by
  have hnone : bench.demo.remaining ≠ 0 := bne_iff_ne.mp henable
  cases hholds.phase with
  | finished hresting hquiet hremaining hstarted => exact absurd hremaining hnone
  | asked before request hresting hpulse hstart hask hremaining hbegun hbetween hgap =>
      exact absurd hremaining hnone
  | waiting before request number hresting hquiet hnumber hremaining hlatch hbegun hseq =>
      obtain ⟨-, hremaining'⟩ := @remaining_quiet our blastStartDelay bench i hquiet
      rw [txStarts_of_txStart hresting.txStart, Bool.false_and, if_neg Bool.false_ne_true]
        at hremaining'
      refine ⟨hholds.turn.stay hidle hstarts, henable, ?_⟩
      rw [BlastDemo.enable, hremaining']
      exact henable
  | begun before request number hsending hremaining hbegun henableD hinFrame htxStart htxStartD
      hplace => exact absurd hidle hsending.busy
  | sending before request number hsending hremaining hbegun henableD hinFrame htxStart =>
      exact absurd hidle hsending.busy

theorem delay_step (hholds : bench.Holds our) (htimed : bench.Timed blastStartDelay)
    (hdelay : (bench.step our blastStartDelay i).demo.blast.cnt.startDelayCnt ≠ 0) :
    (bench.step our blastStartDelay i).demo.blast.tx.txState = .idle ∧
      (bench.step our blastStartDelay i).demo.blast.cnt.enableD = true ∧
      (bench.step our blastStartDelay i).demo.enable = true := by
  by_cases hnone : bench.demo.blast.cnt.startDelayCnt = 0
  · have hcount : (bench.step our blastStartDelay i).demo.blast.cnt.startDelayCnt =
        if !bench.demo.enable then 0
        else if !bench.demo.blast.cnt.enableD then blastStartDelay
        else bench.demo.blast.cnt.startDelayCnt := by
      refine if_neg ?_
      rw [hnone, bne_self_eq_false, Bool.and_false]
      exact Bool.false_ne_true
    rw [hcount] at hdelay
    cases henable : bench.demo.enable with
    | false =>
        rw [henable] at hdelay
        exact absurd rfl hdelay
    | true =>
        cases henableD : bench.demo.blast.cnt.enableD with
        | true =>
            rw [henable, henableD] at hdelay
            exact absurd hnone hdelay
        | false =>
            rw [henable, henableD] at hdelay
            have hidle : bench.demo.blast.tx.txState = .idle := by
              by_contra hbusy
              exact absurd (henableD.symm.trans (hholds.enableD hbusy henable))
                Bool.false_ne_true
            have hlatches : bench.demo.blast.latchesDelay (BlastDemo.blastParams blastStartDelay)
                (bench.demo.blastIn our i.txReady) = true := by
              change ((bench.demo.enable && !bench.demo.blast.cnt.enableD) &&
                blastStartDelay != 0) = true
              rw [henable, henableD]
              exact bne_iff_ne.mpr hdelay
            refine hholds.waits hidle henable ?_
            rw [UdpBlast.starts, hlatches, Bool.not_true, Bool.and_false, Bool.false_and,
              Bool.false_and]
  · obtain ⟨hidle, -, henable⟩ := htimed.delay hnone
    refine hholds.waits hidle henable ?_
    rw [UdpBlast.starts, beq_eq_false_iff_ne.mpr hnone, Bool.and_false, Bool.false_and]

theorem bound_step (htimed : bench.Timed blastStartDelay) :
    (bench.step our blastStartDelay i).demo.blast.cnt.startDelayCnt.toNat ≤
      blastStartDelay.toNat := by
  have hbound := htimed.bound
  change (if _ then bench.demo.blast.cnt.startDelayCnt - 1
    else if !bench.demo.enable then 0
    else if !bench.demo.blast.cnt.enableD then blastStartDelay
    else bench.demo.blast.cnt.startDelayCnt).toNat ≤ _
  split
  · rename_i hcounts
    have hne := bne_iff_ne.mp (Bool.and_eq_true_iff.mp hcounts).2
    have hless := countdown_succ hne
    omega
  · split
    · exact Nat.zero_le _
    · split
      · exact Nat.le_refl _
      · exact hbound

theorem timed_step (hholds : bench.Holds our) (htimed : bench.Timed blastStartDelay) :
    (bench.step our blastStartDelay i).Timed blastStartDelay :=
  ⟨fun _ hlimit => gap_step hholds htimed hlimit, delay_step hholds htimed, bound_step htimed⟩

/-! How far the first frames of a burst are. -/

/-- The frames begun are the first of those that the requests ask for. -/
theorem Phase.started_begins (hphase : bench.Phase our) :
    bench.started.map BlastFrame.wanted <+:
      bench.requests.flatMap (BlastRequest.wanted our) := by
  have hburst : ∀ {before request number}, Begun our bench before request number →
      bench.started.map BlastFrame.wanted <+:
        bench.requests.flatMap (BlastRequest.wanted our) := by
    intro before request number hbegun
    rw [hbegun.started, hbegun.requests, List.flatMap_append, List.flatMap_singleton,
      List.prefix_append_right_inj]
    exact List.take_prefix _ _
  cases hphase with
  | finished hresting hquiet hremaining hstarted =>
      rw [hstarted]
  | asked before request hresting hpulse hstart hask hremaining hbegun hbetween hgap =>
      exact hburst hbegun
  | waiting before request number hresting hquiet hnumber hremaining hlatch hbegun hseq =>
      exact hburst hbegun
  | begun before request number hsending hremaining hbegun henableD hinFrame htxStart htxStartD
      hplace => exact hburst hbegun
  | sending before request number hsending hremaining hbegun henableD hinFrame htxStart =>
      exact hburst hbegun

/-- Each frame begun has the size of a request. -/
theorem Phase.size_of_started (hphase : bench.Phase our) {frame : BlastFrame}
    (hframe : frame ∈ bench.started) :
    ∃ request ∈ bench.requests, frame.size.toNat = request.size := by
  have hmem := hphase.started_begins.subset (List.mem_map_of_mem hframe)
  obtain ⟨request, hrequest, hwanted⟩ := List.mem_flatMap.mp hmem
  obtain ⟨number, -, hnumber⟩ := List.mem_map.mp hwanted
  have hsize : BitVec.ofNat 14 request.size = frame.size := congrArg WantedFrame.size hnumber
  exact ⟨request, hrequest, by rw [← hsize, request.toNat_size]⟩

/-- The requests ask for at most this payload and this gap. -/
def Within (size gap : Nat) (requests : List BlastRequest) : Prop :=
  ∀ request ∈ requests, request.size ≤ size ∧ request.field 0 3 ≤ gap

instance (size gap : Nat) (requests : List BlastRequest) : Decidable (Within size gap requests) :=
  inferInstanceAs (Decidable (∀ request ∈ requests, _))

/-- The most cycles with a ready receiver before all frames of the requests are begun. -/
def untilBegun (blastStartDelay : BitVec 32) (size gap : Nat) (bench : BlastDemoBench) : Nat :=
  (if bench.demo.blast.tx.txState = .idle then
    bench.demo.blast.cnt.gapCnt.toNat +
      if bench.demo.trigger.start then blastStartDelay.toNat + 2
      else if bench.demo.blast.cnt.enableD then bench.demo.blast.cnt.startDelayCnt.toNat
      else blastStartDelay.toNat + 1
  else 42 + size - bench.demo.blast.tx.place + gap) +
    (bench.total - bench.started.length) * (43 + size + gap)

theorem gap_idle (hidle : bench.demo.blast.tx.txState = .idle) :
    (bench.step our blastStartDelay i).demo.blast.cnt.gapCnt =
      if bench.demo.blast.cnt.gapCnt != 0 then bench.demo.blast.cnt.gapCnt - 1
      else bench.demo.blast.cnt.gapCnt := by
  have hends : bench.demo.blast.ends (bench.demo.blastIn our i.txReady) = false :=
    UdpBlast.ends_of_idle hidle
  have hedge : (bench.step our blastStartDelay i).demo.blast.cnt.gapCnt =
      if bench.demo.blast.ends (bench.demo.blastIn our i.txReady) then
        (bench.demo.blastIn our i.txReady).interFrameDelay
      else if bench.demo.blast.tx.txState == .idle && bench.demo.blast.cnt.gapCnt != 0 then
        bench.demo.blast.cnt.gapCnt - 1
      else bench.demo.blast.cnt.gapCnt := rfl
  rw [hedge, hends, if_neg Bool.false_ne_true, hidle, beq_self_eq_true, Bool.true_and]

/-- Before the first frame of a burst the gap, then the start delay count down. -/
theorem wait_less (htimed : bench.Timed blastStartDelay)
    (hidle : bench.demo.blast.tx.txState = .idle)
    (henable : bench.demo.enable = true)
    (hstarts : bench.demo.blast.starts (BlastDemo.blastParams blastStartDelay)
      (bench.demo.blastIn our i.txReady) = false) :
    (bench.step our blastStartDelay i).demo.blast.cnt.gapCnt.toNat +
        (bench.step our blastStartDelay i).demo.blast.cnt.startDelayCnt.toNat + 1 ≤
      bench.demo.blast.cnt.gapCnt.toNat +
        if bench.demo.blast.cnt.enableD then bench.demo.blast.cnt.startDelayCnt.toNat
        else blastStartDelay.toNat + 1 := by
  have hlatches : bench.demo.blast.latchesDelay (BlastDemo.blastParams blastStartDelay)
      (bench.demo.blastIn our i.txReady) =
      (!bench.demo.blast.cnt.enableD && blastStartDelay != 0) := by
    change ((bench.demo.enable && !bench.demo.blast.cnt.enableD) && blastStartDelay != 0) = _
    rw [henable, Bool.true_and]
  have hcount : (bench.step our blastStartDelay i).demo.blast.cnt.startDelayCnt =
      if bench.demo.blast.cnt.gapCnt == 0 && !(!bench.demo.blast.cnt.enableD &&
          blastStartDelay != 0) && bench.demo.blast.cnt.startDelayCnt != 0 then
        bench.demo.blast.cnt.startDelayCnt - 1
      else if !bench.demo.blast.cnt.enableD then blastStartDelay
      else bench.demo.blast.cnt.startDelayCnt := by
    have henable' : (bench.demo.blastIn our i.txReady).enable = true := henable
    simp only [step, BlastDemo.clkEdge, UdpBlast.clkEdge, UdpBlast.cntEdge, hidle, hlatches,
      henable', beq_self_eq_true, Bool.true_and, Bool.not_true, Bool.false_eq_true, if_false]
    rfl
  rw [@gap_idle our blastStartDelay bench i hidle]
  cases henableD : bench.demo.blast.cnt.enableD with
  | true =>
      rw [henableD, Bool.not_true, Bool.false_and, Bool.not_false, Bool.and_true] at hcount
      rw [if_pos rfl]
      by_cases hgap : bench.demo.blast.cnt.gapCnt = 0
      · have hdelay : bench.demo.blast.cnt.startDelayCnt ≠ 0 := by
          intro hnone
          rw [UdpBlast.starts, hidle, hgap, hnone, hlatches, henableD] at hstarts
          exact absurd (hstarts.symm.trans henable) Bool.false_ne_true
        have hless := countdown_succ hdelay
        rw [hgap, bne_iff_ne.mpr hdelay, beq_self_eq_true, Bool.and_self, if_pos rfl] at hcount
        rw [hcount, hgap, bne_self_eq_false, if_neg Bool.false_ne_true]
        omega
      · have hless := countdown_succ hgap
        rw [beq_eq_false_iff_ne.mpr hgap, Bool.false_and, if_neg Bool.false_ne_true,
          if_neg Bool.false_ne_true] at hcount
        rw [hcount, if_pos (bne_iff_ne.mpr hgap)]
        omega
  | false =>
      have hnone : bench.demo.blast.cnt.startDelayCnt = 0 := by
        by_contra hdelay
        exact absurd (henableD.symm.trans (htimed.delay hdelay).2.1) Bool.false_ne_true
      rw [hnone, bne_self_eq_false, Bool.and_false, if_neg Bool.false_ne_true, henableD,
        Bool.not_false, if_pos rfl] at hcount
      have hgap := countdown_le bench.demo.blast.cnt.gapCnt
      rw [hcount, if_neg Bool.false_ne_true]
      omega

theorem Phase.done_le (hphase : bench.Phase our) : bench.done ≤ bench.started.length := by
  cases hphase with
  | finished hresting hquiet hremaining hstarted => exact Nat.le.intro hresting.done
  | asked before request hresting hpulse hstart hask hremaining hbegun hbetween hgap =>
      exact Nat.le.intro hresting.done
  | waiting before request number hresting hquiet hnumber hremaining hlatch hbegun hseq =>
      exact Nat.le.intro hresting.done
  | begun before request number hsending hremaining hbegun henableD hinFrame htxStart htxStartD
      hplace => exact Nat.le.intro hsending.done
  | sending before request number hsending hremaining hbegun henableD hinFrame htxStart =>
      exact Nat.le.intro hsending.done

/-- While frames are owed no request comes, and none is taken over within a frame. -/
theorem Holds.owed (hholds : bench.Holds our) (hspaced : bench.Spaced i)
    (howed : bench.started.length < bench.total) :
    (bench.step our blastStartDelay i).demo.trigger.start = false ∧
      (bench.step our blastStartDelay i).requests = bench.requests :=
  hholds.quiet hspaced (hholds.refuses (bursting_of_lt (hholds.phase.done_le.trans_lt howed)))

theorem Holds.enable (hholds : bench.Holds our) (hbusy : bench.demo.blast.tx.txState ≠ .idle)
    (howed : bench.started.length < bench.total) : bench.demo.enable = true := by
  cases hholds.phase with
  | finished hresting hquiet hremaining hstarted => exact absurd hresting.idle hbusy
  | asked before request hresting hpulse hstart hask hremaining hbegun hbetween hgap =>
      exact absurd hresting.idle hbusy
  | waiting before request number hresting hquiet hnumber hremaining hlatch hbegun hseq =>
      exact absurd hresting.idle hbusy
  | begun before request number hsending hremaining hbegun henableD hinFrame htxStart htxStartD
      hplace =>
      have hnumber := hbegun.number_le
      exact BlastDemo.enable_of_pos (by omega)
  | sending before request number hsending hremaining hbegun henableD hinFrame htxStart =>
      have htotal := hbegun.total_eq
      exact BlastDemo.enable_of_pos (by omega)

/-- The place in a frame is within what the requests ask for. -/
theorem Holds.place_lt (hholds : bench.Holds our) {size gap : Nat}
    (hwithin : Within size gap bench.requests)
    (hbusy : bench.demo.blast.tx.txState ≠ .idle) : bench.demo.blast.tx.place < 42 + size := by
  cases hholds.gen with
  | resting hresting => exact absurd hresting.idle hbusy
  | sending before frame hstarted hheld hwalking =>
      have hmem : frame ∈ bench.started := by
        rw [show bench.started = before ++ [frame] from hstarted]
        exact List.mem_append_right _ (List.mem_singleton.mpr rfl)
      obtain ⟨request, hrequest, hsize⟩ := hholds.phase.size_of_started hmem
      have hbound := (hwithin request hrequest).1
      have hplace : bench.demo.blast.tx.place < 42 + frame.size.toNat := hwalking.place_lt
      omega

/-- The frames owed when none is begun, and when one is. -/
theorem total_step (hsame : (bench.step our blastStartDelay i).requests = bench.requests) :
    (bench.step our blastStartDelay i).total = bench.total := by
  rw [total, hsame]
  rfl

/-- A cycle within a frame, when more are owed. -/
theorem untilBegun_busy (hholds : bench.Holds our) (hspaced : bench.Spaced i)
    (htimed : bench.Timed blastStartDelay) {size gap : Nat}
    (hwithin : Within size gap bench.requests)
    (howed : bench.started.length < bench.total) (hbusy : bench.demo.blast.tx.txState ≠ .idle) :
    untilBegun blastStartDelay size gap (bench.step our blastStartDelay i) + i.txReady.toNat ≤
      untilBegun blastStartDelay size gap bench := by
  obtain ⟨hquiet', hrequests'⟩ := @Holds.owed our blastStartDelay bench i hholds hspaced howed
  have hplace := hholds.place_lt hwithin hbusy
  obtain ⟨hsame, hgoes⟩ := hholds.turn.goes hbusy
  have hsame' : (bench.step our blastStartDelay i).started = bench.started := hsame
  rw [untilBegun, untilBegun, total_step hrequests', hsame', if_neg hbusy]
  rcases hgoes with ⟨frame, -, hnext, hplace', -⟩ | ⟨-, hidle', hends⟩
  · have hbusy' : (bench.step our blastStartDelay i).demo.blast.tx.txState ≠ .idle := hnext.busy
    have hplace'' : (bench.step our blastStartDelay i).demo.blast.tx.place =
        if bench.demo.blast.slice.ready i.txReady then bench.demo.blast.tx.place + 1
        else bench.demo.blast.tx.place := hplace'
    rw [if_neg hbusy', hplace'']
    cases hready : i.txReady with
    | true =>
        rw [OutSlice.ready, Bool.or_true, if_pos rfl, Bool.toNat_true]
        omega
    | false =>
        rw [Bool.toNat_false]
        split <;> omega
  · have hidle'' : (bench.step our blastStartDelay i).demo.blast.tx.txState = .idle := hidle'
    have henable := hholds.enable hbusy howed
    have henableD' : (bench.step our blastStartDelay i).demo.blast.cnt.enableD = true := henable
    have hdelay' : (bench.step our blastStartDelay i).demo.blast.cnt.startDelayCnt = 0 := by
      have hnone : bench.demo.blast.cnt.startDelayCnt = 0 := by
        by_contra hdelay
        exact hbusy (htimed.delay hdelay).1
      have hcount : (bench.step our blastStartDelay i).demo.blast.cnt.startDelayCnt =
          if !bench.demo.enable then 0
          else if !bench.demo.blast.cnt.enableD then blastStartDelay
          else bench.demo.blast.cnt.startDelayCnt := by
        refine if_neg ?_
        rw [hnone, bne_self_eq_false, Bool.and_false]
        exact Bool.false_ne_true
      rw [hcount, henable, hholds.enableD hbusy henable]
      exact hnone
    have hgap' := @gap_step our blastStartDelay bench i hholds htimed gap
      (fun request hmem => (hwithin request (by rw [← hrequests']; exact hmem)).2)
    have hone := i.txReady.toNat_le
    rw [if_pos hidle'', hquiet', henableD', hdelay', if_neg Bool.false_ne_true, if_pos rfl]
    change _ + 0 + _ + _ ≤ _
    omega

/-- A cycle before a frame of a burst. -/
theorem untilBegun_idle (hholds : bench.Holds our) (hspaced : bench.Spaced i)
    (htimed : bench.Timed blastStartDelay) {size gap : Nat}
    (howed : bench.started.length < bench.total) (hidle : bench.demo.blast.tx.txState = .idle) :
    untilBegun blastStartDelay size gap (bench.step our blastStartDelay i) + i.txReady.toNat ≤
      untilBegun blastStartDelay size gap bench := by
  obtain ⟨hquiet', hrequests'⟩ := @Holds.owed our blastStartDelay bench i hholds hspaced howed
  have hone := i.txReady.toNat_le
  rw [untilBegun, untilBegun, total_step hrequests', if_pos hidle]
  cases hstarts : bench.demo.blast.starts (BlastDemo.blastParams blastStartDelay)
      (bench.demo.blastIn our i.txReady) with
  | true =>
      obtain ⟨hlonger, hwalking, hplace⟩ := hholds.turn.opens hidle hstarts
      have hbusy : (bench.step our blastStartDelay i).demo.blast.tx.txState ≠ .idle :=
        hwalking.busy
      have hplace' : (bench.step our blastStartDelay i).demo.blast.tx.place = 0 := hplace
      have hlength := congrArg List.length hlonger
      rw [List.length_append, List.length_singleton] at hlength
      have hlength' : (bench.step our blastStartDelay i).started.length =
        bench.started.length + 1 := hlength
      obtain ⟨owed, htotal⟩ := Nat.exists_eq_add_of_lt howed
      have howed' : bench.started.length + owed + 1 - (bench.started.length + 1) = owed := by omega
      have hbefore : bench.started.length + owed + 1 - bench.started.length = owed + 1 := by omega
      rw [if_neg hbusy, hplace', hlength', htotal, howed', hbefore, Nat.succ_mul]
      omega
  | false =>
      have hidle' : (bench.step our blastStartDelay i).demo.blast.tx.txState = .idle :=
        hholds.turn.stay hidle hstarts
      have hsame : (bench.step our blastStartDelay i).started = bench.started :=
        if_neg (by rw [hstarts]; exact Bool.false_ne_true)
      rw [if_pos hidle', hquiet', if_neg Bool.false_ne_true, hsame]
      cases hholds.phase with
      | finished hresting hquiet hremaining hstarted =>
          have hlength := congrArg List.length hstarted
          rw [List.length_map, BlastRequest.length_flatMap_wanted, ← total] at hlength
          omega
      | asked before request hresting hpulse hstart hask hremaining hbegun hbetween hgap =>
          have henableD' : (bench.step our blastStartDelay i).demo.blast.cnt.enableD = false := by
            change bench.demo.enable = false
            rw [BlastDemo.enable, hremaining]
            rfl
          have hgap' := countdown_le bench.demo.blast.cnt.gapCnt
          rw [hstart, henableD', if_pos rfl, if_neg Bool.false_ne_true, gap_idle hidle]
          omega
      | waiting before request number hresting hquiet hnumber hremaining hlatch hbegun hseq =>
          have henable : bench.demo.enable = true := BlastDemo.enable_of_pos (by omega)
          have henableD' : (bench.step our blastStartDelay i).demo.blast.cnt.enableD = true :=
            henable
          have hless := @wait_less our blastStartDelay bench i htimed hidle henable hstarts
          rw [hquiet, henableD', if_pos rfl, if_neg Bool.false_ne_true]
          omega
      | begun before request number hsending hremaining hbegun henableD hinFrame htxStart htxStartD
          hplace => exact absurd hidle hsending.busy
      | sending before request number hsending hremaining hbegun henableD hinFrame htxStart =>
          exact absurd hidle hsending.busy

/-- A cycle before all frames of the requests are begun. -/
theorem untilBegun_step (hholds : bench.Holds our) (hspaced : bench.Spaced i)
    (htimed : bench.Timed blastStartDelay) {size gap : Nat}
    (hwithin : Within size gap bench.requests)
    (howed : bench.started.length < bench.total) :
    untilBegun blastStartDelay size gap (bench.step our blastStartDelay i) + i.txReady.toNat ≤
      untilBegun blastStartDelay size gap bench := by
  by_cases hidle : bench.demo.blast.tx.txState = .idle
  · exact untilBegun_idle hholds hspaced htimed howed hidle
  · exact untilBegun_busy hholds hspaced htimed hwithin howed hidle

theorem untilBegun_le (htimed : bench.Timed blastStartDelay) {size gap : Nat}
    (hwithin : Within size gap bench.requests) :
    untilBegun blastStartDelay size gap bench ≤
      blastStartDelay.toNat + 42 + size + gap + bench.total * (43 + size + gap) := by
  have hgap := htimed.gap gap fun request hmem => (hwithin request hmem).2
  have hbound := htimed.bound
  have howed := Nat.mul_le_mul_right (43 + size + gap)
    (Nat.sub_le bench.total bench.started.length)
  rw [untilBegun]
  split
  · split
    · omega
    · split <;> omega
  · omega

theorem started_le : bench.started.length ≤ (bench.step our blastStartDelay i).started.length := by
  change _ ≤ (if _ then _ else _ : List BlastFrame).length
  split
  · rw [List.length_append]
    exact Nat.le_add_right _ _
  · exact Nat.le_refl _

/-- All frames of the requests are begun when the receiver has been ready often enough. -/
theorem begun_along {events : List BlastDemoIn} {size gap frames : Nat}
    (hspaced : Along (step our blastStartDelay) Spaced bench events) (hholds : bench.Holds our)
    (htimed : bench.Timed blastStartDelay) (hwithin : Within size gap bench.requests)
    (hframes : frames = bench.total)
    (henough : blastStartDelay.toNat + 42 + size + gap + frames * (43 + size + gap) ≤
      events.countP BlastDemoIn.txReady) :
    frames ≤ (runFrom (step our blastStartDelay) bench events).started.length := by
  let waits : Nat → BlastDemoBench → Prop := fun spare bench =>
    bench.Holds our ∧ bench.Timed blastStartDelay ∧ Within size gap bench.requests ∧
      frames = bench.total ∧ bench.started.length < frames ∧
      untilBegun blastStartDelay size gap bench ≤ spare
  have hgoal : ∀ (bench : BlastDemoBench) (i : BlastDemoIn), bench.Spaced i →
      frames ≤ bench.started.length →
      frames ≤ (bench.step our blastStartDelay i).started.length :=
    fun _ _ _ hreached => hreached.trans started_le
  have hwaits : ∀ (bench : BlastDemoBench) (i : BlastDemoIn) (spare : Nat), bench.Spaced i →
      waits spare bench → frames ≤ (bench.step our blastStartDelay i).started.length ∨
        waits (spare - i.txReady.toNat) (bench.step our blastStartDelay i) := by
    rintro bench i spare hspaced ⟨hholds, htimed, hwithin, hframes, howed, hspare⟩
    by_cases hout : frames ≤ (bench.step our blastStartDelay i).started.length
    · exact .inl hout
    · have howed' : bench.started.length < bench.total := hframes ▸ howed
      have hrequests := (@Holds.owed our blastStartDelay bench i hholds hspaced howed').2
      have hless := @untilBegun_step our blastStartDelay bench i hholds hspaced htimed size gap
        hwithin howed'
      exact .inr ⟨holds_step hholds hspaced, timed_step hholds htimed,
        by rw [hrequests]; exact hwithin, hframes.trans (total_step hrequests).symm,
        Nat.lt_of_not_le hout, by omega⟩
  have hdone : ∀ bench, ¬ waits 0 bench := by
    rintro bench ⟨-, -, -, hframes, howed, hspare⟩
    have hpos : 1 ≤ bench.total - bench.started.length := by omega
    have hleast := Nat.mul_le_mul_right (43 + size + gap) hpos
    rw [untilBegun] at hspare
    omega
  have hbegin : frames ≤ bench.started.length ∨
      waits (blastStartDelay.toNat + 42 + size + gap + frames * (43 + size + gap)) bench := by
    by_cases hout : frames ≤ bench.started.length
    · exact .inl hout
    · exact .inr ⟨hholds, htimed, hwithin, hframes, Nat.lt_of_not_le hout,
        hframes ▸ untilBegun_le htimed hwithin⟩
  exact reached_along (fun bench => frames ≤ bench.started.length) waits hgoal hwaits hdone hspaced
    hbegin henough

/-! What comes out. -/

/-- The frame that is asked for, with its number in the header of the payload. -/
structure Sent (wanted : WantedFrame) (out : List (BitVec 8)) : Prop where
  carries : CarriesUdp wanted.target.our wanted.target.dstMac wanted.target.dstIp
    wanted.target.srcPort wanted.target.dstPort (out.drop 42) out
  length : out.length = 42 + wanted.size.toNat
  seq : slice out 42 46 = ipBytes wanted.seq

theorem sent_bytes {frame : BlastFrame} (hsize : 14 ≤ frame.size.toNat) :
    Sent frame.wanted (frame.bytes frame.seq) := by
  have hlength := @BlastFrame.length_payload frame (by omega) frame.seq
  have hshort : (frame.payload frame.seq).length ≤ 65507 := by
    have hlt := frame.size.isLt
    omega
  exact ⟨udpFrame_carries hshort, BlastFrame.length_bytes (by omega) _, rfl⟩

theorem Holds.sized (hholds : bench.Holds our) {frame : BlastFrame}
    (hframe : frame ∈ bench.started) : 18 ≤ frame.size.toNat ∧ frame.size.toNat ≤ 1472 := by
  obtain ⟨request, -, hsize⟩ := hholds.phase.size_of_started hframe
  rw [hsize]
  exact request.size_bounds

theorem sent_all {frames : List BlastFrame}
    (hsized : ∀ frame ∈ frames, 14 ≤ frame.size.toNat) :
    List.Forall₂ Sent (frames.map BlastFrame.wanted)
      (frames.map fun frame => frame.bytes frame.seq) := by
  rw [List.forall₂_map_left_iff, List.forall₂_map_right_iff, List.forall₂_same]
  exact fun frame hmem => sent_bytes (hsized frame hmem)

/-- What is out is the first of the frames asked for, and the beginning of the next. -/
theorem Holds.sent (hholds : bench.Holds our) :
    ∃ done owed, bench.requests.flatMap (BlastRequest.wanted our) = done ++ owed ∧
      List.Forall₂ Sent done bench.sent.whole ∧
      (bench.sent.part = [] ∨ ∃ next rest frame, owed = next :: rest ∧ Sent next frame ∧
        bench.sent.part <+: frame) := by
  obtain ⟨owed, hout, hpart⟩ := hholds.frames.out_eq
  obtain ⟨whole, more, hstarted, hwhole, hmore⟩ := List.map_eq_append_iff.mp hout
  obtain ⟨rest, hrest⟩ := hholds.phase.started_begins
  have hstarted' : bench.started = whole ++ more := hstarted
  have hsized : ∀ frame ∈ bench.started, 14 ≤ frame.size.toNat :=
    fun frame hmem => Nat.le_trans (by decide) (hholds.sized hmem).1
  have hwhole' : bench.sent.whole = whole.map fun frame => frame.bytes frame.seq := hwhole.symm
  rw [hstarted', List.map_append, List.append_assoc] at hrest
  refine ⟨whole.map BlastFrame.wanted, _, hrest.symm, ?_, ?_⟩
  · rw [hwhole']
    exact sent_all fun frame hmem => hsized frame (by
      rw [hstarted']
      exact List.mem_append_left _ hmem)
  · have hpart' : bench.sent.part <+: owed.headD [] := hpart
    rw [← hmore] at hpart'
    cases more with
    | nil => exact .inl (List.prefix_nil.mp hpart')
    | cons next later =>
        refine .inr ⟨next.wanted, _, next.bytes next.seq, rfl, sent_bytes (hsized next ?_), hpart'⟩
        rw [hstarted']
        exact List.mem_append_right _ List.mem_cons_self

theorem Holds.rest_le (hholds : bench.Holds our) :
    (UdpBlastBench.sender (fun frame => frame.bytes frame.seq) bench.gen).rest.length ≤ 1514 := by
  cases hholds.gen with
  | resting hresting =>
      rw [UdpBlastBench.rest_idle hresting.idle]
      exact Nat.zero_le _
  | sending before frame hstarted hheld hwalking =>
      have hmem : frame ∈ bench.started := by
        rw [show bench.started = before ++ [frame] from hstarted]
        exact List.mem_append_right _ (List.mem_singleton.mpr rfl)
      obtain ⟨hleast, hmost⟩ := hholds.sized hmem
      rw [UdpBlastBench.rest_busy hwalking.busy hstarted, List.length_drop,
        BlastFrame.length_bytes (by omega)]
      omega

/-- While there are two idle cycles between datagrams, what comes out is for each datagram
taken by the trigger the frames that it asks for, each whole and in order, and nothing else,
and all frames of a burst are out when the receiver has been ready often enough. -/
theorem triggeredBlast_run (our : NetOur) (blastStartDelay : BitVec 32)
    {first last : List BlastDemoIn}
    (hspaced : Along (step our blastStartDelay) Spaced start (first ++ last)) :
    let earlier := runFrom (step our blastStartDelay) start first
    let bench := runFrom (step our blastStartDelay) start (first ++ last)
    (∃ done owed, bench.requests.flatMap (BlastRequest.wanted our) = done ++ owed ∧
      List.Forall₂ Sent done bench.sent.whole ∧
      (bench.sent.part = [] ∨ ∃ next rest frame, owed = next :: rest ∧ Sent next frame ∧
        bench.sent.part <+: frame)) ∧
    ∀ size gap, Within size gap earlier.requests →
      blastStartDelay.toNat + 1557 + size + gap + earlier.total * (43 + size + gap) ≤
        last.countP BlastDemoIn.txReady →
      earlier.total ≤ bench.sent.whole.length := by
  have hstep : ∀ (bench : BlastDemoBench) (i : BlastDemoIn), bench.Spaced i →
      bench.Holds our ∧ bench.Timed blastStartDelay →
      (bench.step our blastStartDelay i).Holds our ∧
        (bench.step our blastStartDelay i).Timed blastStartDelay :=
    fun _ _ hok hinv => ⟨holds_step hinv.1 hok, timed_step hinv.1 hinv.2⟩
  have hstart := And.intro (holds_start our) (timed_start blastStartDelay)
  refine ⟨(invariant_along hstep hstart hspaced).1.sent, fun size gap hwithin henough => ?_⟩
  obtain ⟨hfirst, hlast⟩ := along_append.mp hspaced
  obtain ⟨hbefore, htimed⟩ := invariant_along hstep hstart hfirst
  have htwice : blastStartDelay.toNat + 42 + size + gap +
      (runFrom (step our blastStartDelay) start first).total * (43 + size + gap) + 1515 ≤
      last.countP BlastDemoIn.txReady := by omega
  obtain ⟨begin, rest, hsplit, hbegin, hrest⟩ := split_countP htwice
  rw [hsplit] at hlast
  obtain ⟨hlast, hout⟩ := along_append.mp hlast
  have hbegun := begun_along hlast hbefore htimed hwithin rfl hbegin
  obtain ⟨hthen, htimed⟩ := invariant_along hstep ⟨hbefore, htimed⟩ hlast
  rw [runFrom_append, hsplit, runFrom_append]
  refine FrameSender.sent_along
    (fun bench => UdpBlastBench.sender (fun frame => frame.bytes frame.seq) (gen bench))
    BlastDemoIn.txReady hstep (fun _ _ hok hinv => hinv.1.turn.moves hinv.1.fits) hout
    ⟨hthen, htimed⟩ hthen.frames (hbegun.trans_eq (List.length_map _).symm) ?_
  have hfew := hthen.rest_le
  omega

/-- A host's datagram that asks for two frames of 18 bytes. -/
def blastTrigger : List BlastDemoIn :=
  let bytes : List (BitVec 8) := [0, 0, 5, 0, 0, 0, 2, 0, 0, 0, 18]
  let host : UdpSource := ⟨0x020000000002, 0x0A000002, 40000, 9997, 19⟩
  bytes.mapIdx fun index data => ⟨⟨data, true, index == 10, false, host⟩, true⟩

theorem triggeredBlast_run_two :
    let our : NetOur := ⟨0x020000000001, 0x0A000001⟩
    let idle : BlastDemoIn := ⟨⟨0, false, false, false, ⟨0, 0, 0, 0, 0⟩⟩, true⟩
    let bench := runFrom (step our 3) start (blastTrigger ++ List.replicate 1800 idle)
    2 ≤ bench.sent.whole.length ∧
      ∃ done owed, bench.requests.flatMap (BlastRequest.wanted our) = done ++ owed ∧
        List.Forall₂ Sent done bench.sent.whole ∧
        (bench.sent.part = [] ∨ ∃ next rest frame, owed = next :: rest ∧ Sent next frame ∧
          bench.sent.part <+: frame) := by
  intro our idle
  have hspaced : Along (step our 3) Spaced start
      (blastTrigger ++ List.replicate 1800 idle) := by
    refine along_append.mpr ⟨by decide +kernel, ?_⟩
    have hidle : ∀ event ∈ List.replicate 1800 idle, event.rx.valid = false := by
      intro event hevent
      rw [List.eq_of_mem_replicate hevent]
    refine along_mono (fun _ _ hnone hvalid => ?_) (along_of_mem hidle _)
    exact absurd (hnone.symm.trans hvalid) Bool.false_ne_true
  have ⟨hsent, hout⟩ := triggeredBlast_run our 3 hspaced
  have htotal : (runFrom (step our 3) start blastTrigger).total = 2 := by decide +kernel
  have hwithin : Within 18 5 (runFrom (step our 3) start blastTrigger).requests := by
    decide +kernel
  have hready : (List.replicate 1800 idle).countP BlastDemoIn.txReady = 1800 := by
    rw [List.countP_replicate]
    rfl
  rw [htotal, hready] at hout
  exact ⟨hout 18 5 hwithin (by decide), hsent⟩

end BlastDemoBench

end EmacZero
