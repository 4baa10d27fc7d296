/-
The wire of `mii_tx_saf`: nibble by nibble the encoding of the frame that the framer
is at, behind the encodings of the frames before it.
-/
import EmacZero.MiiTxSafPending

namespace EmacZero

/-- The nibble in the first output register. -/
def MiiTxFramer.nibbleOut (framer : MiiTxFramer) : Option (BitVec 4) :=
  if framer.miiTxEnInt then some framer.miiTxdInt else none

/-- What the wire shows of a frame. -/
def wireOf (data : List (BitVec 8)) : List (BitVec 4) := nibbles (encoding data)

/-- The gap between frames, in nibbles. -/
def ifgNibbles : Nat := 2 * MiiTxFramer.ifgBytes

/-- Where the framer is idle these envelopes have ended, and the gap behind them. -/
structure Rested (images : List (List (BitVec 4))) (wire : Spaced (BitVec 4)) : Prop where
  closed : wire.closed = images
  opened : wire.opened = []
  low : wire.closed = [] ∨ ifgNibbles ≤ wire.low
  gaps : ∀ gap ∈ wire.gaps, ifgNibbles ≤ gap

/-- Behind these envelopes the frame is on the wire as far as the framer has come with it. -/
inductive Showing (framer : MiiTxFramer) (frame : List MiiTxWord)
    (images : List (List (BitVec 4))) (wire : Spaced (BitVec 4)) : Prop
  | sending (hst : framer.st ≠ .ifg) (hclosed : wire.closed = images)
      (hopened : wire.opened =
        (wireOf (MiiTxWord.bytes frame)).take (2 * framer.place frame + framer.nib.toNat))
      (hlow : wire.opened = [] → wire.closed = [] ∨ ifgNibbles ≤ wire.low)
      (hgaps : ∀ gap ∈ wire.gaps, ifgNibbles ≤ gap) : Showing framer frame images wire
  | whole (hst : framer.st = .ifg) (hcnt : framer.cnt = 0) (hnib : framer.nib = false)
      (hclosed : wire.closed = images)
      (hopened : wire.opened = wireOf (MiiTxWord.bytes frame)) (hlow : wire.low = 0)
      (hgaps : ∀ gap ∈ wire.gaps, ifgNibbles ≤ gap) : Showing framer frame images wire
  | gap (hst : framer.st = .ifg)
      (hclosed : wire.closed = images ++ [wireOf (MiiTxWord.bytes frame)])
      (hopened : wire.opened = [])
      (hlow : wire.low = 2 * framer.cnt.toNat + framer.nib.toNat)
      (hgaps : ∀ gap ∈ wire.gaps, ifgNibbles ≤ gap) : Showing framer frame images wire

section Framer

open MiiTxFramer (Sending length_bytes)

variable {framer : MiiTxFramer} {frame : List MiiTxWord} {taken : Nat} {rdData : MiiTxWord}
variable {ctlReady datReady : Bool} {images : List (List (BitVec 4))} {wire : Spaced (BitVec 4)}

theorem length_wireOf (data : List (BitVec 8)) :
    (wireOf data).length = 2 * (8 + (padded data).length + 4) := by
  rw [wireOf, length_nibbles, length_encoding]

theorem wireOf_ne (data : List (BitVec 8)) : wireOf data ≠ [] := by
  intro hnil
  have hlength := length_wireOf data
  rw [hnil, List.length_nil] at hlength
  omega

/-- What an edge puts into the first output register. -/
theorem nibbleOut_edge (hst : framer.st ≠ .idle) :
    (framer.edge rdData ctlReady datReady).nibbleOut =
        (if framer.st = .ifg then none
          else some (if framer.nib then framer.cur.extractLsb' 4 4
            else framer.cur.extractLsb' 0 4)) ∧
      (framer.edge rdData ctlReady datReady).nib = !framer.nib := by
  have hbase : framer.nibbleEdge.nibbleOut =
      (if framer.st = .ifg then none
        else some (if framer.nib then framer.cur.extractLsb' 4 4
          else framer.cur.extractLsb' 0 4)) := by
    rw [MiiTxFramer.nibbleOut, MiiTxFramer.nibbleEdge]
    cases framer.st <;> rfl
  have hkept : ∀ next : MiiTxFramer, next.miiTxEnInt = framer.nibbleEdge.miiTxEnInt →
      next.miiTxdInt = framer.nibbleEdge.miiTxdInt →
      next.nibbleOut = framer.nibbleEdge.nibbleOut := by
    intro next hen htxd
    rw [MiiTxFramer.nibbleOut, MiiTxFramer.nibbleOut, hen, htxd]
  rw [← hbase]
  cases hnib : framer.nib with
  | false =>
      rw [MiiTxFramer.edge_low hst hnib]
      refine ⟨rfl, ?_⟩
      rw [MiiTxFramer.nibbleEdge, hnib]
  | true =>
      rw [MiiTxFramer.edge_high hst hnib, MiiTxFramer.byteEdge]
      cases hstate : framer.st with
      | idle => exact absurd hstate hst
      | sfd => exact ⟨rfl, by rw [MiiTxFramer.sfdEdge, MiiTxFramer.nibbleEdge, hnib]⟩
      | pre =>
          simp only [MiiTxFramer.preEdge]
          split <;> exact ⟨hkept _ rfl rfl, by rw [MiiTxFramer.nibbleEdge, hnib]⟩
      | data =>
          simp only [MiiTxFramer.dataEdge]
          split
          · split <;> exact ⟨hkept _ rfl rfl, by rw [MiiTxFramer.nibbleEdge, hnib]⟩
          · exact ⟨hkept _ rfl rfl, by rw [MiiTxFramer.nibbleEdge, hnib]⟩
      | pad =>
          simp only [MiiTxFramer.padEdge]
          split <;> exact ⟨hkept _ rfl rfl, by rw [MiiTxFramer.nibbleEdge, hnib]⟩
      | fcs =>
          simp only [MiiTxFramer.fcsEdge]
          split <;> exact ⟨hkept _ rfl rfl, by rw [MiiTxFramer.nibbleEdge, hnib]⟩
      | ifg =>
          simp only [MiiTxFramer.ifgEdge]
          split <;> exact ⟨hkept _ rfl rfl, by rw [MiiTxFramer.nibbleEdge, hnib]⟩

/-- The gap begins behind the last byte of the FCS. -/
theorem cnt_ifg (hst : framer.st ≠ .ifg) (hnext : (framer.byteEdge rdData).st = .ifg) :
    (framer.byteEdge rdData).cnt = 0 := by
  rw [MiiTxFramer.byteEdge] at hnext ⊢
  cases hstate : framer.st with
  | ifg => exact absurd hstate hst
  | idle =>
      rw [hstate] at hnext
      exact absurd (hstate.symm.trans hnext) (by decide)
  | sfd =>
      rw [hstate] at hnext
      cases hnext
  | pre =>
      simp only [hstate, MiiTxFramer.preEdge] at hnext
      split at hnext
      · cases hnext
      · exact absurd (hstate.symm.trans hnext) (by decide)
  | data =>
      simp only [hstate, MiiTxFramer.dataEdge] at hnext
      split at hnext
      · split at hnext <;> cases hnext
      · exact absurd (hstate.symm.trans hnext) (by decide)
  | pad =>
      simp only [hstate, MiiTxFramer.padEdge] at hnext
      split at hnext
      · cases hnext
      · exact absurd (hstate.symm.trans hnext) (by decide)
  | fcs =>
      simp only [hstate, MiiTxFramer.fcsEdge] at hnext ⊢
      split at hnext
      · rw [if_pos ‹_›]
      · exact absurd (hstate.symm.trans hnext) (by decide)

/-- The byte on its way out, as the nibbles of the wire have it. -/
theorem take_wireOf (hsending : Sending framer frame taken) (hifg : framer.st ≠ .ifg) :
    (wireOf (MiiTxWord.bytes frame)).take (2 * framer.place frame + 1) =
        (wireOf (MiiTxWord.bytes frame)).take (2 * framer.place frame) ++
          [framer.cur.extractLsb' 0 4] ∧
      (wireOf (MiiTxWord.bytes frame)).take (2 * (framer.place frame + 1)) =
        (wireOf (MiiTxWord.bytes frame)).take (2 * framer.place frame + 1) ++
          [framer.cur.extractLsb' 4 4] :=
  take_nibbles (hsending.cur hifg)

/-- One more nibble leaves the gaps as they are to be. -/
theorem gaps_beat (hgaps : ∀ gap ∈ wire.gaps, ifgNibbles ≤ gap)
    (hlow : wire.opened = [] → wire.closed = [] ∨ ifgNibbles ≤ wire.low)
    (beat : Option (BitVec 4)) : ∀ gap ∈ (wire.observe beat).gaps, ifgNibbles ≤ gap := by
  by_cases hopened : wire.opened = []
  · rcases hlow hopened with hfirst | henough
    · rw [Spaced.observe_gaps_of_first hfirst]
      exact hgaps
    · exact Spaced.observe_gaps_of_low hgaps henough beat
  · rw [Spaced.observe_gaps_of_opened hopened]
    exact hgaps

/-- The low nibble goes out. -/
theorem Showing.edge_low (hsending : Sending framer frame taken)
    (hshowing : Showing framer frame images wire) (hnib : framer.nib = false) :
    Showing (framer.edge rdData ctlReady datReady) frame images
      (wire.observe (framer.edge rdData ctlReady datReady).nibbleOut) := by
  have hst := hsending.not_idle
  obtain ⟨hout, -⟩ := @nibbleOut_edge framer rdData ctlReady datReady hst
  have hedge := @MiiTxFramer.edge_low framer rdData ctlReady datReady hst hnib
  rw [hout, hedge]
  cases hshowing with
  | sending hifg hclosed hopened hlow hgaps =>
      rw [if_neg hifg, hnib, if_neg Bool.false_ne_true]
      refine .sending hifg hclosed ?_ (fun hnil => ?_) (gaps_beat hgaps hlow _)
      · rw [hnib, Bool.toNat_false, Nat.add_zero] at hopened
        have hnib' : framer.nibbleEdge.nib = true := by rw [MiiTxFramer.nibbleEdge, hnib]; rfl
        have hplace : framer.nibbleEdge.place frame = framer.place frame := rfl
        rw [hnib', hplace, Bool.toNat_true, (take_wireOf hsending hifg).1, ← hopened]
        rfl
      · exact absurd hnil (List.append_ne_nil_of_right_ne_nil _ (List.cons_ne_nil _ _))
  | whole hifg hcnt _ hclosed hopened hlow hgaps =>
      rw [if_pos hifg]
      refine .gap hifg ?_ (Envelopes.observe_none_opened _) ?_ hgaps
      · have hbusy : wire.opened ≠ [] := by
          rw [hopened]
          exact wireOf_ne _
        rw [Spaced.observe_toEnvelopes, Envelopes.observe_none_closed,
          Envelopes.all_of_busy hbusy, hclosed, hopened]
      · rw [Spaced.observe_none_low, hlow, MiiTxFramer.nibbleEdge, hcnt, hnib]
        rfl
  | gap hifg hclosed hopened hlow hgaps =>
      rw [if_pos hifg]
      refine .gap hifg ?_ (Envelopes.observe_none_opened _) ?_ hgaps
      · rw [Spaced.observe_toEnvelopes, Envelopes.observe_none_closed,
          Envelopes.all_of_idle hopened, hclosed]
      · rw [Spaced.observe_none_low, hlow, hnib, MiiTxFramer.nibbleEdge, hnib]
        rfl

/-- The high nibble goes out, or the gap goes on. -/
theorem Showing.edge_high (hmarked : Marked frame) (hfits : frame.length ≤ 16383)
    (hne : frame ≠ []) (hsending : Sending framer frame taken)
    (hshowing : Showing framer frame images wire) (hnib : framer.nib = true)
    (hnext : taken < frame.length → frame[taken]? = some rdData)
    (hdone : framer.done = false) :
    Showing (framer.edge rdData ctlReady datReady) frame images
      (wire.observe (framer.edge rdData ctlReady datReady).nibbleOut) := by
  have hst := hsending.not_idle
  obtain ⟨hout, hlow'⟩ := @nibbleOut_edge framer rdData ctlReady datReady hst
  have hedge := @MiiTxFramer.edge_high framer rdData ctlReady datReady hst hnib
  rw [hnib, Bool.not_true, hedge] at hlow'
  rw [hout, hedge]
  cases hshowing with
  | sending hifg hclosed hopened hlow hgaps =>
      obtain ⟨hsending', hplace⟩ := hsending.byteEdge hmarked hfits hnib hnext hne hifg
      have hnibbles : (wire.observe (some (framer.cur.extractLsb' 4 4))).opened =
          (wireOf (MiiTxWord.bytes frame)).take
            (2 * (framer.byteEdge rdData).place frame) := by
        rw [hnib, Bool.toNat_true] at hopened
        rw [hplace, (take_wireOf hsending hifg).2, ← hopened]
        rfl
      rw [if_neg hifg, hnib, if_pos rfl]
      by_cases hend : (framer.byteEdge rdData).st = .ifg
      · refine .whole hend (cnt_ifg hifg hend) hlow' hclosed ?_ rfl (gaps_beat hgaps hlow _)
        rw [hnibbles, List.take_of_length_le]
        rw [length_wireOf, MiiTxFramer.place, hend]
      · refine .sending hend hclosed ?_ (fun hnil => ?_) (gaps_beat hgaps hlow _)
        · rw [hnibbles, hlow', Bool.toNat_false, Nat.add_zero]
        · exact absurd hnil (List.append_ne_nil_of_right_ne_nil _ (List.cons_ne_nil _ _))
  | whole _ _ hfirst => exact absurd (hfirst.symm.trans hnib) Bool.false_ne_true
  | gap hifg hclosed hopened hlow hgaps =>
      have hcnt : framer.cnt.toNat < MiiTxFramer.ifgBytes := by
        cases hsending <;> simp_all
      have hmore : framer.cnt.toNat ≠ MiiTxFramer.ifgBytes - 1 := fun hlast =>
        Bool.false_ne_true (hdone.symm.trans (MiiTxFramer.done_iff.mpr ⟨hifg, hnib, hlast⟩))
      obtain ⟨-, hsucc⟩ := @Sending.ifgEdge framer frame hifg hcnt hmore
      rw [if_pos hifg]
      rw [MiiTxFramer.byteEdge, hifg] at hlow' ⊢
      refine .gap ?_ ?_ (Envelopes.observe_none_opened _) ?_ hgaps
      · rw [MiiTxFramer.ifgEdge, if_neg hmore]
        exact hifg
      · rw [Spaced.observe_toEnvelopes, Envelopes.observe_none_closed,
          Envelopes.all_of_idle hopened, hclosed]
      · rw [Spaced.observe_none_low, hlow, hnib, hlow', hsucc, Bool.toNat_true,
          Bool.toNat_false]
        omega

/-- The gap is over. -/
theorem Showing.edge_done (hsending : Sending framer frame taken)
    (hshowing : Showing framer frame images wire) (hdone : framer.done = true) :
    Rested (images ++ [wireOf (MiiTxWord.bytes frame)])
      (wire.observe (framer.edge rdData ctlReady datReady).nibbleOut) := by
  obtain ⟨hifg, hnib, hlast⟩ := MiiTxFramer.done_iff.mp hdone
  obtain ⟨hout, -⟩ := @nibbleOut_edge framer rdData ctlReady datReady hsending.not_idle
  rw [hout, if_pos hifg]
  cases hshowing with
  | sending hnot => exact absurd hifg hnot
  | whole _ _ hfirst => exact absurd (hfirst.symm.trans hnib) Bool.false_ne_true
  | gap _ hclosed hopened hlow hgaps =>
      refine ⟨?_, Envelopes.observe_none_opened _, .inr ?_, hgaps⟩
      · rw [Spaced.observe_toEnvelopes, Envelopes.observe_none_closed,
          Envelopes.all_of_idle hopened, hclosed]
      · rw [Spaced.observe_none_low, hlow, hlast, hnib]
        decide

/-- Nothing goes out while the framer is idle. -/
theorem nibbleOut_idle (hst : framer.st = .idle) :
    (framer.edge rdData ctlReady datReady).nibbleOut = none := by
  rw [MiiTxFramer.edge_idle hst, MiiTxFramer.idleEdge, MiiTxFramer.nibbleOut]
  split <;> rfl

theorem Rested.rest (hrested : Rested images wire) : Rested images (wire.observe none) := by
  have hclosed : (wire.observe none).closed = wire.closed := by
    rw [Spaced.observe_toEnvelopes, Envelopes.observe_none_closed,
      Envelopes.all_of_idle hrested.opened]
  refine ⟨hclosed.trans hrested.closed, Envelopes.observe_none_opened _, ?_, hrested.gaps⟩
  rw [hclosed, Spaced.observe_none_low]
  exact hrested.low.imp_right fun hle => hle.trans (Nat.le_succ _)

/-- A frame is taken up. -/
theorem Rested.edge_start (hrested : Rested images wire) (hst : framer.st = .idle)
    (hstart : (framer.edge rdData ctlReady datReady).st ≠ .idle) :
    Showing (framer.edge rdData ctlReady datReady) frame images
      (wire.observe (framer.edge rdData ctlReady datReady).nibbleOut) := by
  have hrest := hrested.rest
  rw [nibbleOut_idle hst]
  rw [MiiTxFramer.edge_idle hst, MiiTxFramer.idleEdge] at hstart ⊢
  split
  · refine .sending ?_ hrest.closed ?_ (fun _ => hrest.low) hrest.gaps
    · intro hifg
      cases hifg
    · rw [hrest.opened]
      rfl
  · rename_i hnone
    rw [if_neg hnone] at hstart
    exact absurd hst hstart

/-- The place of the framer depends on the bytes of the frame only. -/
theorem Showing.of_bytes {other : List MiiTxWord}
    (hshowing : Showing framer frame images wire)
    (hbytes : MiiTxWord.bytes frame = MiiTxWord.bytes other) :
    Showing framer other images wire := by
  have hplace : framer.place frame = framer.place other := by
    rw [MiiTxFramer.place, MiiTxFramer.place, hbytes]
  cases hshowing with
  | sending hst hclosed hopened hlow hgaps =>
      rw [hplace, hbytes] at hopened
      exact .sending hst hclosed hopened hlow hgaps
  | whole hst hcnt hnib hclosed hopened hlow hgaps =>
      rw [hbytes] at hopened
      exact .whole hst hcnt hnib hclosed hopened hlow hgaps
  | gap hst hclosed hopened hlow hgaps =>
      rw [hbytes] at hclosed
      exact .gap hst hclosed hopened hlow hgaps

/-- What the framer is at, with the word it will take next. -/
theorem Serves.sends {addrWidth retired : Nat}
    {fifo : PacketFifo MiiTxWord addrWidth .distributed}
    {queue : PacketQueue MiiTxWord (2 ^ addrWidth) RamStyle.distributed.staged}
    (hfollows : fifo.Follows queue retired) (hserves : Serves framer queue retired true)
    (hmarked : ∀ frame ∈ queue.frames, Marked frame)
    (hfits : ∀ frame ∈ queue.frames, frame.length ≤ 16383) (hst : framer.st ≠ .idle) :
    ∃ frame taken, queue.frames[retired]? = some frame ∧ Sending framer frame taken ∧
      Marked frame ∧ frame.length ≤ 16383 ∧ frame ≠ [] ∧
      (taken < frame.length → frame[taken]? = some fifo.rdData) := by
  cases hserves with
  | waiting _ hother => exact absurd (hother.resolve_left hst).symm Bool.false_ne_true
  | @sending frame taken _ hready hframe hsending hread =>
      have hmem := List.mem_of_getElem? hframe
      refine ⟨frame, taken, hframe, hsending, hmarked frame hmem, hfits frame hmem,
        queue.frames_ne frame hmem, fun htaken => ?_⟩
      exact hfollows.rdData_eq hread
        (PacketFifo.not_drained_of_visible hready hread hframe htaken) hframe htaken

end Framer

namespace MiiTxBench

variable {maxFrame addrWidth : Nat} {bench : MiiTxBench addrWidth}

/-- The wire with what is in the output registers. -/
def ahead (bench : MiiTxBench addrWidth) : Spaced (BitVec 4) :=
  (bench.wire.observe bench.tx.miiOut).observe bench.tx.nibbleOut

/-- The envelopes of the frames taken up in this order. -/
def images (maxFrame : Nat) (bench : MiiTxBench addrWidth) (order : List Bool) :
    List (List (BitVec 4)) :=
  (merge order (bench.dat.cut maxFrame).whole bench.ctl.whole).map wireOf

/-- The frame that the framer is at. -/
def current (maxFrame : Nat) (bench : MiiTxBench addrWidth) : Option (List (BitVec 8)) :=
  if bench.tx.srcCtl then bench.ctl.whole[bench.ctlDone]?
  else (bench.dat.cut maxFrame).whole[bench.datDone]?

/-- The wire, told from the order in which frames have been taken up. -/
inductive Wired (maxFrame : Nat) (bench : MiiTxBench addrWidth) : Prop
  | resting (hst : bench.tx.st = .idle) (hdat : bench.started.count false = bench.datDone)
      (hctl : bench.started.count true = bench.ctlDone)
      (hrested : Rested (bench.images maxFrame bench.started) bench.ahead) :
      Wired maxFrame bench
  | busy {order : List Bool} {frame : List MiiTxWord} (hst : bench.tx.st ≠ .idle)
      (hstarted : bench.started = order ++ [bench.tx.srcCtl])
      (hdat : order.count false = bench.datDone) (hctl : order.count true = bench.ctlDone)
      (hframe : bench.current maxFrame = some (MiiTxWord.bytes frame))
      (hshowing : Showing bench.tx.toMiiTxFramer frame (bench.images maxFrame order)
        bench.ahead) : Wired maxFrame bench

section Steps

variable {dat : PacketQueue MiiTxWord (2 ^ addrWidth) RamStyle.distributed.staged}
variable {ctl : PacketQueue MiiTxWord (2 ^ 6) RamStyle.distributed.staged}

theorem ahead_miiEdge (caught : MiiTxCatch) :
    (bench.miiEdge caught).ahead =
      bench.ahead.observe (bench.miiEdge caught).tx.nibbleOut := rfl

theorem images_concat {order : List Bool} {chosen : Bool} {data : List (BitVec 8)}
    (hdata : (if chosen then bench.ctl.whole[order.count true]?
      else (bench.dat.cut maxFrame).whole[order.count false]?) = some data) :
    bench.images maxFrame (order ++ [chosen]) =
      bench.images maxFrame order ++ [wireOf data] := by
  rw [images, images, merge_concat, hdata, List.map_append]
  rfl

/-- The frame that the framer is at, out of the buffer it was taken from. -/
theorem Holds.sends (hsized : Sized maxFrame addrWidth)
    (hholds : Holds maxFrame bench dat ctl) (hst : bench.tx.st ≠ .idle) :
    ∃ frame taken, bench.current maxFrame = some (MiiTxWord.bytes frame) ∧
      bench.tx.toMiiTxFramer.Sending frame taken ∧ Marked frame ∧ frame.length ≤ 16383 ∧
      frame ≠ [] ∧ (taken < frame.length → frame[taken]? = some bench.tx.rdData) := by
  rw [current, MiiTxSaf.rdData]
  cases hsrc : bench.tx.srcCtl with
  | true =>
      have hserves := hholds.ctlServes
      rw [hsrc] at hserves
      obtain ⟨frame, taken, hframe, hrest⟩ := hserves.sends hholds.ctlBuffer.follows
        hholds.ctlBuffer.marked
        (fun frame hframe => (hholds.ctlFits frame hframe).trans (by decide)) hst
      refine ⟨frame, taken, ?_, hrest⟩
      rw [if_pos rfl, ← hholds.ctlBuffer.whole, List.getElem?_map, hframe]
      rfl
  | false =>
      have hserves := hholds.datServes
      rw [hsrc] at hserves
      obtain ⟨frame, taken, hframe, hrest⟩ := hserves.sends hholds.datBuffer.follows
        hholds.datBuffer.marked (hholds.datFits hsized) hst
      refine ⟨frame, taken, ?_, hrest⟩
      rw [if_neg Bool.false_ne_true, ← hholds.datBuffer.whole, List.getElem?_map, hframe]
      rfl

/-- The frame of the source that is chosen while the framer is idle. -/
theorem Holds.picked (hsized : Sized maxFrame addrWidth)
    (hholds : Holds maxFrame bench dat ctl) (hst : bench.tx.st = .idle)
    (caught : MiiTxCatch) (hstart : (bench.tx.miiTxEdge caught).st ≠ .idle) :
    ∃ frame, (if (bench.tx.miiTxEdge caught).srcCtl then bench.ctl.whole[bench.ctlDone]?
      else (bench.dat.cut maxFrame).whole[bench.datDone]?) = some (MiiTxWord.bytes frame) := by
  obtain ⟨hctl, hdat⟩ := hholds.pick hsized hst caught hstart
  cases hsrc : (bench.tx.miiTxEdge caught).srcCtl with
  | true =>
      have hlt := (hctl hsrc).trans_le ctl.seen3_le_frames
      refine ⟨ctl.frames[bench.ctlDone], ?_⟩
      rw [if_pos rfl, ← hholds.ctlBuffer.whole, List.getElem?_map,
        List.getElem?_eq_getElem hlt]
      rfl
  | false =>
      have hlt := (hdat hsrc).trans_le dat.seen3_le_frames
      refine ⟨dat.frames[bench.datDone], ?_⟩
      rw [if_neg Bool.false_ne_true, ← hholds.datBuffer.whole, List.getElem?_map,
        List.getElem?_eq_getElem hlt]
      rfl

theorem Wired.miiEdge (hsized : Sized maxFrame addrWidth)
    (hholds : Holds maxFrame bench dat ctl) (hwired : Wired maxFrame bench)
    (caught : MiiTxCatch) : Wired maxFrame (bench.miiEdge caught) := by
  have hnext : (bench.miiEdge caught).tx.toMiiTxFramer =
      bench.tx.edge bench.tx.rdData bench.tx.ctlReady bench.tx.datReady := rfl
  cases hwired with
  | resting hst hdat hctl hrested =>
      have hdone : bench.tx.done = false := by
        rw [MiiTxFramer.done, hst]
        rfl
      have hdatDone : (bench.miiEdge caught).datDone = bench.datDone := by
        change bench.datDone + (bench.tx.done && _).toNat = _
        rw [hdone]
        rfl
      have hctlDone : (bench.miiEdge caught).ctlDone = bench.ctlDone := by
        change bench.ctlDone + (bench.tx.done && _).toNat = _
        rw [hdone]
        rfl
      by_cases hidle : (bench.miiEdge caught).tx.st = .idle
      · have hstarted : (bench.miiEdge caught).started = bench.started :=
          if_neg fun hboth => hboth.2 hidle
        have hout : (bench.miiEdge caught).tx.nibbleOut = none := nibbleOut_idle hst
        refine .resting hidle ?_ ?_ ?_
        · rw [hstarted, hdatDone, hdat]
        · rw [hstarted, hctlDone, hctl]
        · rw [hstarted, ahead_miiEdge, hout]
          exact hrested.rest
      · have hstarted : (bench.miiEdge caught).started =
            bench.started ++ [(bench.miiEdge caught).tx.srcCtl] := if_pos ⟨hst, hidle⟩
        obtain ⟨frame, hframe⟩ := hholds.picked hsized hst caught hidle
        have hshowing : Showing (bench.miiEdge caught).tx.toMiiTxFramer frame
            (bench.images maxFrame bench.started) (bench.miiEdge caught).ahead :=
          hrested.edge_start hst hidle
        refine .busy hidle hstarted (hdat.trans hdatDone.symm) (hctl.trans hctlDone.symm)
          ?_ hshowing
        rw [current, hdatDone, hctlDone]
        exact hframe
  | @busy order shown hst hstarted hdat hctl hcurrent hshowing =>
      obtain ⟨frame, taken, hframe, hsending, hmarked, hfits, hne, hword⟩ :=
        hholds.sends hsized hst
      replace hshowing := hshowing.of_bytes (Option.some.inj (hcurrent.symm.trans hframe))
      have hsame : (bench.miiEdge caught).started = bench.started :=
        if_neg fun hboth => hst hboth.1
      have hsrc : (bench.miiEdge caught).tx.srcCtl = bench.tx.srcCtl :=
        MiiTxFramer.edge_srcCtl hst
      cases hdone : bench.tx.done with
      | true =>
          have hidle : (bench.miiEdge caught).tx.st = .idle := (hsending.edge_done hdone).1
          have hdata : (if bench.tx.srcCtl then bench.ctl.whole[order.count true]?
              else (bench.dat.cut maxFrame).whole[order.count false]?) =
              some (MiiTxWord.bytes frame) := by
            rw [hdat, hctl]
            exact hframe
          refine .resting hidle ?_ ?_ ?_
          · change _ = bench.datDone + (bench.tx.done && !bench.tx.srcCtl).toNat
            rw [hsame, hstarted, List.count_append, hdat, hdone]
            cases bench.tx.srcCtl <;> rfl
          · change _ = bench.ctlDone + (bench.tx.done && bench.tx.srcCtl).toNat
            rw [hsame, hstarted, List.count_append, hctl, hdone]
            cases bench.tx.srcCtl <;> rfl
          · change Rested (bench.images maxFrame _) _
            rw [hsame, hstarted, images_concat hdata]
            exact hshowing.edge_done hsending hdone
      | false =>
          have hbusy : (bench.miiEdge caught).tx.st ≠ .idle :=
            (hsending.edge hmarked hfits hne (fun _ => hword) hdone).not_idle
          have hdatDone : (bench.miiEdge caught).datDone = bench.datDone := by
            change bench.datDone + (bench.tx.done && _).toNat = _
            rw [hdone]
            rfl
          have hctlDone : (bench.miiEdge caught).ctlDone = bench.ctlDone := by
            change bench.ctlDone + (bench.tx.done && _).toNat = _
            rw [hdone]
            rfl
          have hnextShowing : Showing (bench.miiEdge caught).tx.toMiiTxFramer frame
              (bench.images maxFrame order) (bench.miiEdge caught).ahead := by
            cases hnib : bench.tx.nib with
            | false => exact hshowing.edge_low hsending hnib
            | true => exact hshowing.edge_high hmarked hfits hne hsending hnib hword hdone
          refine .busy hbusy ?_ (hdat.trans hdatDone.symm) (hctl.trans hctlDone.symm) ?_
            hnextShowing
          · rw [hsame, hsrc]
            exact hstarted
          · rw [current, hdatDone, hctlDone, hsrc]
            exact hframe

/-- What is handed over later leaves the frames that have been taken up as they are. -/
theorem images_add {order : List Bool} {other : MiiTxBench addrWidth}
    (hdat : (bench.dat.cut maxFrame).whole <+: (other.dat.cut maxFrame).whole)
    (hctl : bench.ctl.whole <+: other.ctl.whole)
    (hdatLe : order.count false ≤ (bench.dat.cut maxFrame).whole.length)
    (hctlLe : order.count true ≤ bench.ctl.whole.length) :
    other.images maxFrame order = bench.images maxFrame order := by
  obtain ⟨more, hmore⟩ := hdat
  obtain ⟨later, hlater⟩ := hctl
  rw [images, images, ← hmore, ← hlater, merge_append hdatLe hctlLe]

theorem whole_add {α : Type} (log : FrameLog α) (word : α) (last : Bool) :
    log.whole <+: (log.add word last).whole := by
  rw [FrameLog.add]
  split
  · exact List.prefix_append _ _
  · exact List.prefix_rfl

theorem Holds.done_le (hholds : Holds maxFrame bench dat ctl) :
    bench.datDone ≤ (bench.dat.cut maxFrame).whole.length ∧
      bench.ctlDone ≤ bench.ctl.whole.length := by
  obtain ⟨_, hdatRead⟩ := hholds.datServes.readTo
  obtain ⟨_, hctlRead⟩ := hholds.ctlServes.readTo
  have hdatLe := hdatRead.retired_le.trans dat.seen3_le_frames
  have hctlLe := hctlRead.retired_le.trans ctl.seen3_le_frames
  rw [← hholds.datBuffer.whole, ← hholds.ctlBuffer.whole, List.length_map, List.length_map]
  exact ⟨hdatLe, hctlLe⟩

theorem Wired.clkEdge (hsized : Sized maxFrame addrWidth)
    (hholds : Holds maxFrame bench dat ctl) (hwired : Wired maxFrame bench) (i : MiiTxIn)
    (datSkew ctlSkew : Skew) :
    Wired maxFrame (bench.clkEdge maxFrame i datSkew ctlSkew) := by
  obtain ⟨hdatLe, hctlLe⟩ := hholds.done_le
  have hdatMore : (bench.dat.cut maxFrame).whole <+:
      ((bench.clkEdge maxFrame i datSkew ctlSkew).dat.cut maxFrame).whole := by
    change _ <+: (FrameLog.cut maxFrame (if _ then _ else _)).whole
    rw [hholds.cutting.cut_next hsized.pos hsized.counted i]
    split
    · exact whole_add _ _ _
    · exact List.prefix_rfl
  have hctlMore : bench.ctl.whole <+:
      (bench.clkEdge maxFrame i datSkew ctlSkew).ctl.whole := by
    change _ <+: (if _ then _ else _ : FrameLog _).whole
    split
    · exact whole_add _ _ _
    · exact List.prefix_rfl
  cases hwired with
  | resting hst hdat hctl hrested =>
      refine .resting hst hdat hctl ?_
      have himages := images_add hdatMore hctlMore (hdat.trans_le hdatLe) (hctl.trans_le hctlLe)
      rw [← himages] at hrested
      exact hrested
  | @busy order frame hst hstarted hdat hctl hcurrent hshowing =>
      have himages := images_add hdatMore hctlMore (hdat.trans_le hdatLe) (hctl.trans_le hctlLe)
      rw [← himages] at hshowing
      refine .busy hst hstarted hdat hctl ?_ hshowing
      obtain ⟨more, hmore⟩ := hdatMore
      obtain ⟨later, hlater⟩ := hctlMore
      rw [current] at hcurrent ⊢
      split at hcurrent
      · have hlt := (List.getElem?_eq_some_iff.mp hcurrent).1
        rw [if_pos ‹_›, ← hlater]
        exact (List.getElem?_append_left hlt).trans hcurrent
      · have hlt := (List.getElem?_eq_some_iff.mp hcurrent).1
        rw [if_neg ‹_›, ← hmore]
        exact (List.getElem?_append_left hlt).trans hcurrent

end Steps

end MiiTxBench

end EmacZero
