/-
The transmit half of `gmii_cdc` with `rgmii_if` behind it at 10 and 100 Mbit/s: the pacing of
the one fits the periods of TXC that the other sends, in whatever phase a frame starts.
-/
import EmacZero.GmiiCdcTxPriority
import EmacZero.RgmiiTxRun

namespace EmacZero

/-- `gmii_cdc` and the pins of `rgmii_if`. -/
structure GmiiRgmiiTx (ramStyle : RamStyle) where
  cdc : GmiiTxBench ramStyle
  pins : RgmiiTxBench

namespace GmiiRgmiiTx

variable {ramStyle : RamStyle}

def start (datMem : BitVec 14 → GmiiTxWord) (ctlMem : BitVec 7 → GmiiTxWord)
    (headQ : GmiiTxWord) (data : RgmiiTxData) : GmiiRgmiiTx ramStyle :=
  ⟨.start datMem ctlMem headQ, .start data⟩

/-- A rising edge of `sys_clk`, or of `media_clk` and the clocks of `rgmii_if` with it. -/
def step (maxFrame : Nat) (speeds : RgmiiSpeeds) (both : GmiiRgmiiTx ramStyle) :
    GmiiTxEdge → GmiiRgmiiTx ramStyle
  | .sys dat ctl datSkew ctlSkew =>
      { both with cdc := both.cdc.sysEdge maxFrame dat ctl datSkew ctlSkew }
  | .media caught =>
      ⟨both.cdc.mediaEdge caught,
        both.pins.edge speeds both.cdc.tx.mediaPins caught.cfgSpeed⟩

end GmiiRgmiiTx

theorem heldThrough_of_shows {β : Type} {cycles : Nat} {wire : Spaced β}
    {frames : List (List β)} (hshows : wire.Shows (frames.map (heldFor cycles))) :
    HeldThrough cycles wire := by
  obtain ⟨rest, hrest, -⟩ := hshows
  intro image himage
  have hmem : image ∈ frames.map (heldFor cycles) := by
    rw [hrest]
    exact List.mem_append_left _ himage
  obtain ⟨beats, -, hbeats⟩ := List.mem_map.mp hmem
  exact ⟨beats, hbeats.symm⟩

namespace GmiiTxBench

variable {ramStyle : RamStyle} {speeds : RgmiiSpeeds} {speed : BitVec 2}
variable {bench : GmiiTxBench ramStyle} {pins : RgmiiTxBench}

/-- The pins follow the wire, and the gap before each frame has gone by. -/
structure OnPins (speeds : RgmiiSpeeds) (speed : BitVec 2) (bench : GmiiTxBench ramStyle)
    (pins : RgmiiTxBench) : Prop where
  wire : pins.wire = bench.wire
  drives : pins.Drives speeds speed
  due : bench.tx.gmiiTxEnOut = true → bench.wire.opened = [] →
    gapCycles speed ≤ bench.wire.low

theorem onPins_start (speeds : RgmiiSpeeds) (speed : BitVec 2) (datMem : BitVec 14 → GmiiTxWord)
    (ctlMem : BitVec 7 → GmiiTxWord) (headQ : GmiiTxWord) (data : RgmiiTxData) :
    (start datMem ctlMem headQ : GmiiTxBench ramStyle).OnPins speeds speed (.start data) :=
  ⟨rfl, RgmiiTxBench.drives_start speeds speed data, fun hen => absurd hen Bool.false_ne_true⟩

theorem OnPins.mediaEdge (hslow : SlowSpeed speeds speed)
    {dat : PacketQueue GmiiTxWord (2 ^ 14) ramStyle.staged}
    {ctl : PacketQueue GmiiTxWord (2 ^ 7) RamStyle.distributed.staged}
    (hpins : bench.OnPins speeds speed pins) (hholds : Holds speed bench dat ctl)
    (hwired : Wired speed bench dat ctl) {caught : GmiiTxCatch}
    (hspeed : caught.cfgSpeed = speed) :
    (bench.mediaEdge caught).OnPins speeds speed
      (pins.edge speeds bench.tx.mediaPins caught.cfgSpeed) := by
  obtain ⟨hwire, hdrives, hdue⟩ := hpins
  have hshows := (hwired.mediaEdge hholds caught).shows
  have hpaced : pins.Paced speed bench.tx.mediaPins := by
    refine ⟨fun hen hopened => ?_, ?_⟩
    · rw [hwire] at hopened ⊢
      exact hdue hen hopened
    · rw [hwire]
      exact heldThrough_of_shows hshows.1
  refine ⟨?_, ?_, fun hen hopened => hwired.low_of_beat hholds hen hopened⟩
  · rw [RgmiiTxBench.edge, hwire]
    rfl
  · rw [hspeed]
    exact RgmiiTxBench.drives_edge hslow hdrives hpaced

end GmiiTxBench

namespace GmiiRgmiiTx

variable {ramStyle : RamStyle} {maxFrame : Nat} {speeds : RgmiiSpeeds} {speed : BitVec 2}

/-- The nibbles of the frames that have been started, low nibble first. -/
def images (both : GmiiRgmiiTx ramStyle) : List (List (BitVec 4 × Bool)) :=
  (merge both.cdc.started both.cdc.dat.stored.whole both.cdc.ctl.stored.whole).map
    (inParts 2 nibbleOf)

/-- What holds of every run at a constant speed. -/
structure Fits (speeds : RgmiiSpeeds) (speed : BitVec 2) (both : GmiiRgmiiTx ramStyle) :
    Prop where
  orderly : both.cdc.Orderly speed
  onPins : both.cdc.OnPins speeds speed both.pins

theorem fits_step (hslow : SlowSpeed speeds speed) (both : GmiiRgmiiTx ramStyle)
    (edge : GmiiTxEdge) (hok : both.cdc.Steady speed edge) (hfits : both.Fits speeds speed) :
    (both.step maxFrame speeds edge).Fits speeds speed := by
  obtain ⟨horderly, hpins⟩ := hfits
  have hnext : (both.cdc.step maxFrame edge).Orderly speed :=
    GmiiTxBench.orderly_step both.cdc edge hok horderly
  cases edge with
  | sys datIn ctlIn datSkew ctlSkew => exact ⟨hnext, hpins.wire, hpins.drives, hpins.due⟩
  | media caught =>
      obtain ⟨dat, ctl, hholds, hwired⟩ := horderly.wired
      exact ⟨hnext, hpins.mediaEdge hslow hholds hwired hok⟩

/-- Over every run at a constant 10 or 100 Mbit/s, whatever the data registers come up with and
whenever frames start: the cycles of TXC that carry an enable are the frames that `gmii_cdc`
has started, each byte as its low and its high nibble with its error flag on both, nothing
else, with at least 24 cycles between the frames, and each nibble at both edges of TXC; two
byte times behind a frame all of it has been on the pins. -/
theorem rgmiiTx_run (hslow : SlowSpeed speeds speed) (datMem : BitVec 14 → GmiiTxWord)
    (ctlMem : BitVec 7 → GmiiTxWord) (headQ : GmiiTxWord) (data : RgmiiTxData)
    (edges : List GmiiTxEdge)
    (hok : Along (step maxFrame speeds) (fun both edge => both.cdc.Steady speed edge)
      (start datMem ctlMem headQ data : GmiiRgmiiTx ramStyle) edges) :
    let both : GmiiRgmiiTx ramStyle :=
      runFrom (step maxFrame speeds) (start datMem ctlMem headQ data) edges
    both.pins.nibbles.Shows both.images ∧
      (∀ gap ∈ both.pins.nibbles.gaps, 24 ≤ gap) ∧
      (∀ cycle ∈ both.pins.line.cycles, cycle.rxdFalling = cycle.rxdRising) ∧
      (2 * byteCycles speed ≤ both.cdc.wire.low →
        both.pins.nibbles.closed.length = both.cdc.wire.closed.length) := by
  intro both
  have hfits : both.Fits speeds speed :=
    invariant_along (fits_step hslow)
      ⟨GmiiTxBench.orderly_start speed datMem ctlMem headQ,
        GmiiTxBench.onPins_start speeds speed datMem ctlMem headQ data⟩ hok
  obtain ⟨dat, ctl, hholds, hwired⟩ := hfits.orderly.wired
  obtain ⟨hwire, hdrives, -⟩ := hfits.onPins
  obtain ⟨hshows, hgaps, hall⟩ := hdrives.shows hslow (by rw [hwire]; exact hwired.shows.1)
  rw [hwire] at hall
  exact ⟨hshows, hgaps, hdrives.same_edges, hall⟩

/-- Every data register comes up high. -/
def allHigh : RgmiiTxData := ⟨3, 15, 15, true, true, true, true, true⟩

theorem slow_all_100 : SlowSpeed .all 1 := ⟨by decide, by decide⟩

/-- The first cycle of TXC shows the data registers; behind it come the two frames. -/
theorem rgmiiTx_run_overtaken :
    let start : GmiiRgmiiTx .distributed := start (fun _ => ⟨false, false, 0⟩)
      (fun _ => ⟨false, false, 0⟩) ⟨false, false, 0⟩ allHigh
    let early := runFrom (step 1536 .all) start GmiiTxBench.putBack
    let both := runFrom (step 1536 .all) start GmiiTxBench.overtaken
    (early.pins.line.cycles.head?.map RgmiiRxIn.nibble = some (some (15, true)) ∧
        early.pins.nibbles.closed = [[(5, false), (5, false), (8, false), (8, false)]] ∧
        both.pins.nibbles.closed = [[(5, false), (5, false), (8, false), (8, false)],
          [(5, false), (5, false), (5, false), (13, false), (1, true), (1, true)]]) ∧
      both.pins.nibbles.Shows both.images ∧
      (∀ gap ∈ both.pins.nibbles.gaps, 24 ≤ gap) ∧
      ∀ cycle ∈ both.pins.line.cycles, cycle.rxdFalling = cycle.rxdRising := by
  have hok : Along (step 1536 .all) (fun both edge => both.cdc.Steady 1 edge)
      (start (fun _ => ⟨false, false, 0⟩) (fun _ => ⟨false, false, 0⟩) ⟨false, false, 0⟩
        allHigh : GmiiRgmiiTx .distributed) GmiiTxBench.overtaken := by decide +kernel
  obtain ⟨hshows, hgaps, hsame, -⟩ := rgmiiTx_run slow_all_100 _ _ _ _ _ hok
  exact ⟨by decide +kernel, hshows, hgaps, hsame⟩

end GmiiRgmiiTx

end EmacZero
