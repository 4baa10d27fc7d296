/-
The words that `mii_if` puts into its FIFO, against the envelopes of nibbles at its pins,
as long as the FIFO has room.
-/
import EmacZero.MiiIfRxBench
import EmacZero.NibbleBytes

namespace EmacZero

universe u

/-- `mii_if` with the frames that have gone into its FIFO. -/
structure MiiNibbles (Q : Type u) where
  rx : MiiIfRx Q
  frames : RxFrames

/-- The frames that the receivers are to make of some envelopes. -/
def framesOfNibbles (seen : Envelopes MiiRxIn) : RxFrames :=
  ⟨seen.closed.map fun envelope => (nibbleBytes envelope).commit,
    (nibbleBytes seen.opened).bytes⟩

/-- One cycle on the pins. -/
def nibbleOn (pins : MiiRxIn) : Option MiiRxIn := if pins.dv then some pins else none

theorem framesOfNibbles_none {seen : Envelopes MiiRxIn} (hbusy : seen.opened ≠ []) {word : RxWord}
    (heof : word.eof = true) (herr : word.err = (nibbleBytes seen.opened).commit.2) :
    (framesOfNibbles seen).add word = framesOfNibbles (seen.observe none) := by
  rw [RxFrames.add_eof _ heof, framesOfNibbles, framesOfNibbles, Envelopes.observe_none_closed,
    Envelopes.observe_none_opened, Envelopes.all_of_busy hbusy, List.map_append, herr]
  rfl

theorem framesOfNibbles_idle {seen : Envelopes MiiRxIn} (hidle : seen.opened = []) :
    framesOfNibbles (seen.observe none) = framesOfNibbles seen := by
  rw [framesOfNibbles, framesOfNibbles, Envelopes.observe_none_closed,
    Envelopes.observe_none_opened, Envelopes.all_of_idle hidle, hidle]

/-- The frames do not run ahead of the envelopes that have ended. -/
theorem past_prefix_observe (seen : Envelopes MiiRxIn) (nibble : Option MiiRxIn) :
    (framesOfNibbles seen).past <+: (framesOfNibbles (seen.observe nibble)).past := by
  cases nibble with
  | none =>
      rw [framesOfNibbles, framesOfNibbles, Envelopes.observe_none_closed]
      exact seen.closed_prefix_all.map _
  | some nibble => exact List.prefix_rfl

namespace MiiNibbles

variable {Q : Type u} {ports : FifoPorts RxWord Q} {bench : MiiNibbles Q}
variable {prior : Envelopes MiiRxIn}

def start (fifo : Q) (mem : BitVec 12 → RxByte) (dout : RxByte) : MiiNibbles Q :=
  ⟨.reset fifo mem dout, .none⟩

def rxEdge (ports : FifoPorts RxWord Q) (bench : MiiNibbles Q) (pins : MiiRxIn) (skew : Skew) :
    MiiNibbles Q where
  rx := bench.rx.miiRxEdge ports pins skew
  frames :=
    if bench.rx.rxWrAccept ports then bench.frames.add bench.rx.rxWrData else bench.frames

def clkEdge (ports : FifoPorts RxWord Q) (bench : MiiNibbles Q) (skew : Skew) (late : Bool) :
    MiiNibbles Q :=
  { bench with rx := bench.rx.clkEdge ports skew late }

/-- The nibble in the input registers. -/
def registered (rx : MiiIfRx Q) : Option MiiRxIn :=
  nibbleOn ⟨rx.miiRxDvIob, rx.miiRxErIob, rx.miiRxdIob⟩

/-- The frames with the word on its way into the FIFO. -/
def written (bench : MiiNibbles Q) : RxFrames :=
  if bench.rx.rxWrEn then bench.frames.add bench.rx.rxWrData else bench.frames

/-- The pairing has taken these envelopes, up to the nibble in the input registers. -/
structure Holds (bench : MiiNibbles Q) (prior : Envelopes MiiRxIn) : Prop where
  half : bench.rx.rxNibSel = (nibbleBytes prior.opened).half
  low : bench.rx.rxNibLow = (nibbleBytes prior.opened).low
  erLow : bench.rx.rxErLow = (nibbleBytes prior.opened).erLow
  sfdSeen : bench.rx.rxSfdSeen = (nibbleBytes prior.opened).sfdSeen
  dvD1 : bench.rx.rxDvD1 = !prior.opened.isEmpty
  full : bench.rx.rxFifoFullSeen = false
  written : bench.written = framesOfNibbles prior

theorem holds_start (fifo : Q) (mem : BitVec 12 → RxByte) (dout : RxByte) :
    (start fifo mem dout).Holds .unseen :=
  ⟨rfl, rfl, rfl, rfl, rfl, rfl, rfl⟩

/-- With room in the FIFO every word goes in. -/
theorem frames_rxEdge (hroom : ports.wrFull bench.rx.rxFifo = false) (pins : MiiRxIn)
    (skew : Skew) : (bench.rxEdge ports pins skew).frames = bench.written := by
  simp [rxEdge, written, MiiIfRx.rxWrAccept, hroom]

/-- The nibble in the input registers may be the SFD. -/
theorem Holds.sfdSeen_rxEdge (hholds : bench.Holds prior) (pins : MiiRxIn) (skew : Skew) :
    (bench.rxEdge ports pins skew).rx.rxSfdSeen =
      (nibbleBytes (prior.observe (registered bench.rx)).opened).sfdSeen := by
  have hseen : (bench.rxEdge ports pins skew).rx.rxSfdSeen =
      (bench.rx.miiRxDvIob && (bench.rx.rxSfdNow || bench.rx.rxSfdSeen)) := rfl
  rw [hseen, registered, nibbleOn]
  cases hdv : bench.rx.miiRxDvIob with
  | true =>
      rw [if_pos rfl, Envelopes.observe_some_opened, nibbleBytes_concat, MiiIfRx.rxSfdNow,
        hholds.sfdSeen, hholds.low]
      rfl
  | false =>
      rw [if_neg Bool.false_ne_true, Envelopes.observe_none_opened]
      rfl

/-- The nibble in the input registers is paired, or the end of the envelope seen. -/
theorem Holds.rxEdge (hholds : bench.Holds prior)
    (hroom : ports.wrFull bench.rx.rxFifo = false) (pins : MiiRxIn) (skew : Skew) :
    (bench.rxEdge ports pins skew).Holds (prior.observe (registered bench.rx)) := by
  have hframes := (frames_rxEdge hroom pins skew).trans hholds.written
  have hnextSfd := @Holds.sfdSeen_rxEdge _ ports _ _ hholds pins skew
  have hfull : bench.rx.rxFullWrite ports = false := by
    simp [MiiIfRx.rxFullWrite, hroom]
  obtain ⟨hhalf, hlow, herLow, hsfdSeen, hdvD1, hfullSeen, -⟩ := hholds
  cases hdv : bench.rx.miiRxDvIob with
  | true =>
      have hpins : registered bench.rx =
          some ⟨true, bench.rx.miiRxErIob, bench.rx.miiRxdIob⟩ := by
        rw [registered, hdv]
        rfl
      have hsfd : bench.rx.rxSfdNow = (nibbleBytes prior.opened).sfd
          ⟨true, bench.rx.miiRxErIob, bench.rx.miiRxdIob⟩ := by
        rw [MiiIfRx.rxSfdNow, hsfdSeen, hlow, NibbleBytes.sfd]
      have hwhole : bench.rx.rxByteNow = (nibbleBytes prior.opened).whole
          ⟨true, bench.rx.miiRxErIob, bench.rx.miiRxdIob⟩ := by
        rw [MiiIfRx.rxByteNow, hsfd, hhalf, NibbleBytes.whole]
      rw [hpins] at hnextSfd ⊢
      constructor
      · rw [Envelopes.observe_some_opened, nibbleBytes_concat]
        simp [MiiNibbles.rxEdge, MiiIfRx.miiRxEdge, hdv, hwhole, NibbleBytes.add]
      · rw [Envelopes.observe_some_opened, nibbleBytes_concat]
        simp [MiiNibbles.rxEdge, MiiIfRx.miiRxEdge, hdv, NibbleBytes.add]
      · rw [Envelopes.observe_some_opened, nibbleBytes_concat]
        simp [MiiNibbles.rxEdge, MiiIfRx.miiRxEdge, hdv, NibbleBytes.add]
      · exact hnextSfd
      · simp [MiiNibbles.rxEdge, MiiIfRx.miiRxEdge, hdv]
      · simp [MiiNibbles.rxEdge, MiiIfRx.miiRxEdge, hdv, hfull, hfullSeen]
      · rw [MiiNibbles.written, hframes, framesOfNibbles, framesOfNibbles,
          Envelopes.observe_some_opened, nibbleBytes_concat]
        cases hbyte : bench.rx.rxByteNow <;> rw [hbyte, eq_comm] at hwhole
        · simp [MiiNibbles.rxEdge, MiiIfRx.miiRxEdge, hdv, hbyte, NibbleBytes.add, hwhole]
        · simp [MiiNibbles.rxEdge, MiiIfRx.miiRxEdge, hdv, hbyte, NibbleBytes.add, hwhole,
            RxFrames.add, herLow, hlow, hfull, hfullSeen]
  | false =>
      have hpins : registered bench.rx = none := by
        rw [registered, hdv]
        rfl
      rw [hpins] at hnextSfd ⊢
      have hnone : nibbleBytes (prior.observe none).opened = .start := by
        rw [Envelopes.observe_none_opened]
        rfl
      constructor
      · rw [hnone]
        simp [MiiNibbles.rxEdge, MiiIfRx.miiRxEdge, hdv, NibbleBytes.start]
      · rw [hnone]
        simp [MiiNibbles.rxEdge, MiiIfRx.miiRxEdge, hdv, NibbleBytes.start]
      · rw [hnone]
        simp [MiiNibbles.rxEdge, MiiIfRx.miiRxEdge, hdv, NibbleBytes.start]
      · exact hnextSfd
      · simp [MiiNibbles.rxEdge, MiiIfRx.miiRxEdge, hdv]
      · simp [MiiNibbles.rxEdge, MiiIfRx.miiRxEdge, hfull, hfullSeen]
      · rw [MiiNibbles.written, hframes]
        cases hd1 : bench.rx.rxDvD1 with
        | true =>
            have hbusy : prior.opened ≠ [] := by
              simpa [hd1] using hdvD1
            rw [← @framesOfNibbles_none _ hbusy (bench.rxEdge ports pins skew).rx.rxWrData]
            · simp [MiiNibbles.rxEdge, MiiIfRx.miiRxEdge, hdv, hd1]
            · simp [MiiNibbles.rxEdge, MiiIfRx.miiRxEdge, hdv, hd1]
            · simp [MiiNibbles.rxEdge, MiiIfRx.miiRxEdge, hdv, hd1, hfull, hfullSeen,
                NibbleBytes.commit, hhalf, herLow]
        | false =>
            have hidle : prior.opened = [] := by
              simpa [hd1] using hdvD1
            rw [framesOfNibbles_idle hidle]
            simp [MiiNibbles.rxEdge, MiiIfRx.miiRxEdge, hdv, hd1]

theorem Holds.clkEdge (hholds : bench.Holds prior) (skew : Skew) (late : Bool) :
    (bench.clkEdge ports skew late).Holds prior := by
  obtain ⟨hhalf, hlow, herLow, hsfdSeen, hdvD1, hfullSeen, hwritten⟩ := hholds
  exact ⟨hhalf, hlow, herLow, hsfdSeen, hdvD1, hfullSeen, hwritten⟩

end MiiNibbles

end EmacZero
