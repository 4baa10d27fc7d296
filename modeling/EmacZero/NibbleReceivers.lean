/-
The three receivers of nibbles on the same envelopes: `mii_if`, `rgmii_if` with
`gmii_cdc` behind it, and `eth_pause_rx` in its nibble mode.
-/
import EmacZero.ClockedRun
import EmacZero.PauseNibbles
import EmacZero.RgmiiNibbles

namespace EmacZero

universe u

/-- An edge of the receive clock, with the nibble that comes with it, or of `clk`. -/
inductive NibbleEdge where
  | rx (pins : MiiRxIn) (miiSkew cdcSkew : Skew)
  | clk (miiSkew cdcSkew : Skew) (miiLate cdcLate : Bool)

/-- The receivers, the envelopes so far, and for how many cycles `RX_DV` has been low. -/
structure NibbleReceivers (Q : Type u) (addrWidth : Nat) (ramStyle : RamStyle) where
  mii : MiiNibbles Q
  rgmii : RgmiiNibbles addrWidth ramStyle
  pause : PauseNibbles
  received : Envelopes MiiRxIn
  low : Nat

/-- `eth_mac_rx` finds the same frame and the same error in the bytes of an envelope. -/
theorem macVerdict_eq_payload {commit : List RxByte × Bool} {envelope : RxEnvelope}
    (hbeats : envelope.beats.map (fun beat => (beat.data, beat.pins.gmiiRxEr)) = replay commit)
    (hclose : envelope.close.gmiiRxEr = false) :
    macVerdict commit =
      (payload envelope.beats).map fun frame => (bytes frame, envelope.alignErr) := by
  have hpayload (beats : List RxBeat) :
      frameOf (bytes beats) = (payload beats).map bytes := by
    induction beats with
    | nil => rfl
    | cons beat rest ih =>
        rw [bytes, List.map_cons, frameOf, payload]
        split
        · exact ih
        · split
          · rfl
          · rfl
  have herr : (replay commit).any Prod.snd = envelope.alignErr := by
    rw [← hbeats, List.any_map, RxEnvelope.alignErr, hclose, Bool.or_false]
    rfl
  have hbytes : (replay commit).map Prod.fst = bytes envelope.beats := by
    rw [← hbeats, List.map_map]
    rfl
  rw [macVerdict, hbytes, hpayload, herr, Option.map_map]
  rfl

namespace NibbleReceivers

variable {Q : Type u} {ports : FifoPorts RxWord Q}
variable {addrWidth : Nat} {ramStyle : RamStyle}
variable {recv : NibbleReceivers Q addrWidth ramStyle}

def start (fifo : Q) (miiMem : BitVec 12 → RxByte) (dout : RxByte)
    (cdcMem : BitVec addrWidth → RxWord) (headQ : RxWord) :
    NibbleReceivers Q addrWidth ramStyle :=
  ⟨.start fifo miiMem dout, .start cdcMem headQ, .start, .unseen, 0⟩

/-- `eth_pause_rx` is on the input registers of `mii_if`. -/
def step (ports : FifoPorts RxWord Q) (recv : NibbleReceivers Q addrWidth ramStyle) :
    NibbleEdge → NibbleReceivers Q addrWidth ramStyle
  | .rx pins miiSkew cdcSkew =>
      { mii := recv.mii.rxEdge ports pins miiSkew
        rgmii := recv.rgmii.rxEdge pins cdcSkew
        pause := recv.pause.rxEdge
          ⟨recv.mii.rx.miiRxDvIob, recv.mii.rx.miiRxErIob, recv.mii.rx.miiRxdIob⟩
        received := recv.received.observe (nibbleOn pins)
        low := if pins.dv then 0 else recv.low + 1 }
  | .clk miiSkew cdcSkew miiLate cdcLate =>
      { recv with
        mii := recv.mii.clkEdge ports miiSkew miiLate
        rgmii := recv.rgmii.sysEdge cdcSkew cdcLate }

/-- Both FIFOs have room for a word. -/
def Roomy (ports : FifoPorts RxWord Q) (recv : NibbleReceivers Q addrWidth ramStyle) :
    NibbleEdge → Prop
  | .rx _ _ _ => ports.wrFull recv.mii.rx.rxFifo = false ∧ RgmiiNibbles.Roomy recv.rgmii.cdc
  | .clk _ _ _ _ => True

/-- An envelope begins two cycles or more behind the one before, or one if that has not
left a nibble with an error over. -/
def Spaced (recv : NibbleReceivers Q addrWidth ramStyle) : NibbleEdge → Prop
  | .rx pins _ _ => pins.dv = true → recv.received.opened = [] → recv.low < 2 →
      ∀ envelope ∈ recv.received.closed.getLast?, ¬LeftError envelope
  | .clk _ _ _ _ => True

def RoomySpaced (ports : FifoPorts RxWord Q) (recv : NibbleReceivers Q addrWidth ramStyle)
    (edge : NibbleEdge) : Prop :=
  recv.Roomy ports edge ∧ recv.Spaced edge

instance (edge : NibbleEdge) : Decidable (recv.Roomy ports edge) :=
  match edge with
  | .rx _ _ _ => inferInstanceAs (Decidable (_ ∧ _))
  | .clk _ _ _ _ => isTrue trivial

instance (edge : NibbleEdge) : Decidable (recv.Spaced edge) :=
  match edge with
  | .rx _ _ _ => inferInstanceAs (Decidable (_ → _ → _ → _))
  | .clk _ _ _ _ => isTrue trivial

instance (edge : NibbleEdge) : Decidable (recv.RoomySpaced ports edge) :=
  inferInstanceAs (Decidable (_ ∧ _))

/-- What the envelopes that have ended carry. -/
def carried (recv : NibbleReceivers Q addrWidth ramStyle) :
    List (Option (List (BitVec 8) × Bool)) :=
  recv.received.closed.map nibbleVerdict

/-- The receivers make of every envelope what it carries, in order, and have done so four
cycles behind its end; they find the SFD at the same nibble. -/
structure Agree (ports : FifoPorts RxWord Q) (recv : NibbleReceivers Q addrWidth ramStyle) :
    Prop where
  mii : recv.mii.frames.past.map macVerdict <+: recv.carried
  rgmii : recv.rgmii.frames.past.map macVerdict <+: recv.carried
  pause : recv.pause.verdicts <+: recv.carried
  settled : 4 ≤ recv.low → recv.mii.frames.past.map macVerdict = recv.carried ∧
    recv.rgmii.frames.past.map macVerdict = recv.carried ∧ recv.pause.verdicts = recv.carried
  sfdRgmii : recv.rgmii.rgmii.sfdSeen = true ↔
    [0x5, 0xD] <:+: recv.received.opened.map MiiRxIn.rxd
  sfdMii : ∀ pins miiSkew cdcSkew,
    (recv.step ports (.rx pins miiSkew cdcSkew)).mii.rx.rxSfdSeen = recv.rgmii.rgmii.sfdSeen
  sfdPause : recv.pause.bench.rx.nibAlgn = recv.mii.rx.rxSfdSeen

/-- The stages that have run empty after so many cycles without `RX_DV`. -/
structure Settles (recv : NibbleReceivers Q addrWidth ramStyle) : Prop where
  one : 1 ≤ recv.low → recv.mii.rx.miiRxDvIob = false ∧ recv.received.opened = [] ∧
    recv.rgmii.rgmii.haveLo = false
  two : 2 ≤ recv.low → recv.mii.rx.rxDvD1 = false ∧ recv.rgmii.rgmii.rxFrameLo = false ∧
    recv.pause.bench.opened = []
  three : 3 ≤ recv.low → recv.mii.rx.rxWrEn = false ∧ recv.rgmii.cdc.rxDvD1 = false ∧
    recv.pause.bench.ended = none
  four : 4 ≤ recv.low → recv.rgmii.cdc.rxWrEn = false

/-- The receivers have taken the envelopes up to the nibble in the input registers. -/
structure Holds (recv : NibbleReceivers Q addrWidth ramStyle) (prior : Envelopes MiiRxIn) :
    Prop where
  received : recv.received = prior.observe (MiiNibbles.registered recv.mii.rx)
  mii : recv.mii.Holds prior
  pause : recv.pause.Holds prior
  rgmii : recv.rgmii.Holds recv.received
  settles : recv.Settles

theorem holds_start (fifo : Q) (miiMem : BitVec 12 → RxByte) (dout : RxByte)
    (cdcMem : BitVec addrWidth → RxWord) (headQ : RxWord) :
    (start fifo miiMem dout cdcMem headQ : NibbleReceivers Q addrWidth ramStyle).Holds
      .unseen where
  received := rfl
  mii := MiiNibbles.holds_start fifo miiMem dout
  pause := PauseNibbles.holds_start
  rgmii := RgmiiNibbles.holds_start cdcMem headQ
  settles := ⟨fun _ => ⟨rfl, rfl, rfl⟩, fun _ => ⟨rfl, rfl, rfl⟩, fun _ => ⟨rfl, rfl, rfl⟩,
    fun _ => rfl⟩

theorem Settles.rx (hsettles : recv.Settles) (pins : MiiRxIn) (miiSkew cdcSkew : Skew) :
    (recv.step ports (.rx pins miiSkew cdcSkew)).Settles := by
  cases hdv : pins.dv with
  | true =>
      have hlow : (recv.step ports (.rx pins miiSkew cdcSkew)).low = 0 := by
        simp [step, hdv]
      constructor <;> intro hlong <;> rw [hlow] at hlong <;> cases hlong
  | false =>
      have hlow : (recv.step ports (.rx pins miiSkew cdcSkew)).low = recv.low + 1 := by
        simp [step, hdv]
      have hctl : (rgmiiPins pins).rxCtlRising = false := hdv
      constructor <;> intro hlong <;> rw [hlow] at hlong
      · refine ⟨?_, ?_, ?_⟩
        · simp [step, MiiNibbles.rxEdge, MiiIfRx.miiRxEdge, hdv]
        · simp [step, nibbleOn, hdv]
        · simp [step, RgmiiNibbles.rxEdge, RgmiiIfRx.rxcEdge, hctl]
      · obtain ⟨hiob, -, hhave⟩ := hsettles.one (by omega)
        refine ⟨?_, ?_, ?_⟩
        · simp [step, MiiNibbles.rxEdge, MiiIfRx.miiRxEdge, hiob]
        · simp [step, RgmiiNibbles.rxEdge, RgmiiIfRx.rxcEdge, hctl, hhave]
        · simp [step, PauseNibbles.rxEdge, PauseRxBench.step, pausePins, hiob]
      · obtain ⟨hiob, -, -⟩ := hsettles.one (by omega)
        obtain ⟨hdvD1, hframe, hopened⟩ := hsettles.two (by omega)
        refine ⟨?_, ?_, ?_⟩
        · simp [step, MiiNibbles.rxEdge, MiiIfRx.miiRxEdge, hiob, hdvD1]
        · simp [step, RgmiiNibbles.rxEdge, GmiiCdcRx.mediaEdge, RgmiiIfRx.gmiiRx, hframe]
        · simp [step, PauseNibbles.rxEdge, PauseRxBench.step, hopened]
      · obtain ⟨-, hframe, -⟩ := hsettles.two (by omega)
        obtain ⟨-, hdvD1, -⟩ := hsettles.three (by omega)
        simp [step, RgmiiNibbles.rxEdge, GmiiCdcRx.mediaEdge, RgmiiIfRx.gmiiRx, hframe, hdvD1]

/-- An envelope does not begin while `rgmii_if` still holds the one before open. -/
theorem Spaced.closed {pins : MiiRxIn} {miiSkew cdcSkew : Skew}
    (hspaced : recv.Spaced (.rx pins miiSkew cdcSkew)) (hsettles : recv.Settles)
    (hdv : pins.dv = true) (before : Envelopes MiiRxIn)
    (hseen : recv.received = before.observe none) (hbusy : before.opened ≠ [])
    (hleft : LeftError before.opened) : recv.rgmii.rgmii.rxFrameLo = false := by
  by_cases hlow : recv.low < 2
  · have hlast : recv.received.closed.getLast? = some before.opened := by
      rw [hseen, Envelopes.observe_none_closed, Envelopes.all_of_busy hbusy,
        List.getLast?_concat]
    have hopened : recv.received.opened = [] := by
      rw [hseen, Envelopes.observe_none_opened]
    exact absurd hleft (hspaced hdv hopened hlow before.opened hlast)
  · exact (hsettles.two (by omega)).2.1

theorem Holds.rx {prior : Envelopes MiiRxIn} (hholds : recv.Holds prior) {pins : MiiRxIn}
    {miiSkew cdcSkew : Skew} (hroomy : recv.Roomy ports (.rx pins miiSkew cdcSkew))
    (hspaced : recv.Spaced (.rx pins miiSkew cdcSkew)) :
    (recv.step ports (.rx pins miiSkew cdcSkew)).Holds
      (prior.observe (MiiNibbles.registered recv.mii.rx)) where
  received := by
    have hpins : MiiNibbles.registered (recv.step ports (.rx pins miiSkew cdcSkew)).mii.rx =
        nibbleOn pins := rfl
    rw [hpins, ← hholds.received]
    rfl
  mii := hholds.mii.rxEdge hroomy.1 pins miiSkew
  pause := hholds.pause.rxEdge _
  rgmii := hholds.rgmii.rxEdge pins cdcSkew hroomy.2 (hspaced.closed hholds.settles)
  settles := hholds.settles.rx pins miiSkew cdcSkew

theorem Holds.clk {prior : Envelopes MiiRxIn} (hholds : recv.Holds prior)
    (miiSkew cdcSkew : Skew) (miiLate cdcLate : Bool) :
    (recv.step ports (.clk miiSkew cdcSkew miiLate cdcLate)).Holds prior where
  received := hholds.received
  mii := hholds.mii.clkEdge miiSkew miiLate
  pause := hholds.pause
  rgmii := hholds.rgmii.sysEdge cdcSkew cdcLate
  settles := ⟨hholds.settles.one, hholds.settles.two, hholds.settles.three,
    hholds.settles.four⟩

theorem map_macVerdict_framesOfNibbles (seen : Envelopes MiiRxIn) :
    (framesOfNibbles seen).past.map macVerdict = seen.closed.map nibbleVerdict := by
  rw [framesOfNibbles, List.map_map]
  exact List.map_congr_left fun envelope _ => NibbleBytes.macVerdict_commit envelope

theorem past_prefix_written (frames : RxFrames) (wrEn : Bool) (word : RxWord) :
    frames.past <+: (if wrEn then frames.add word else frames).past := by
  cases wrEn
  · exact List.prefix_rfl
  · exact frames.past_add word

theorem Holds.past_prefix_of_mii {prior : Envelopes MiiRxIn} (hholds : recv.Holds prior) :
    recv.mii.frames.past <+: (framesOfNibbles recv.received).past := by
  have hwritten := past_prefix_written recv.mii.frames recv.mii.rx.rxWrEn recv.mii.rx.rxWrData
  rw [← MiiNibbles.written, hholds.mii.written] at hwritten
  rw [hholds.received]
  exact hwritten.trans (past_prefix_observe prior _)

theorem past_prefix_of_rgmii {seen : Envelopes MiiRxIn} (hholds : recv.rgmii.Holds seen) :
    recv.rgmii.frames.past <+: (framesOfNibbles seen).past := by
  have hframes := past_prefix_written recv.rgmii.frames recv.rgmii.cdc.rxWrEn
    recv.rgmii.cdc.rxWrData
  rw [← RgmiiNibbles.written] at hframes
  cases hholds.given with
  | idle hopened hframe hdvD1 hnoce hwritten => rwa [hwritten] at hframes
  | opened hopened hframe hnoce hstray hgiven =>
      rw [← hgiven]
      exact hframes.trans (past_prefix_written _ _ _)
  | left before hseen hbusy hleft hframe hstrobe her hnoce hwritten =>
      rw [hwritten] at hframes
      rw [hseen]
      exact hframes.trans (past_prefix_observe before none)
  | ended before hseen hbusy hframe hdvD1 hnoce hwritten =>
      rw [hwritten] at hframes
      rw [hseen]
      exact hframes.trans (past_prefix_observe before none)

theorem Holds.verdicts_prefix_carried {prior : Envelopes MiiRxIn} (hholds : recv.Holds prior) :
    recv.pause.verdicts <+: recv.carried := by
  have hprior : prior.closed.map nibbleVerdict <+: recv.carried := by
    have hpast := past_prefix_observe prior (MiiNibbles.registered recv.mii.rx)
    rw [← hholds.received] at hpast
    have hmap := hpast.map macVerdict
    rwa [map_macVerdict_framesOfNibbles, map_macVerdict_framesOfNibbles] at hmap
  cases hended : recv.pause.bench.ended with
  | none =>
      rw [(hholds.pause.during hended).1]
      exact hprior
  | some ended =>
      obtain ⟨front, envelope, hclosed, -, hverdicts, -⟩ := hholds.pause.after ended hended
      rw [hclosed, List.map_append, ← hverdicts] at hprior
      exact (List.prefix_append _ _).trans hprior

theorem Holds.agrees_settled {prior : Envelopes MiiRxIn} (hholds : recv.Holds prior)
    (hlow : 4 ≤ recv.low) : recv.mii.frames.past.map macVerdict = recv.carried ∧
      recv.rgmii.frames.past.map macVerdict = recv.carried ∧
      recv.pause.verdicts = recv.carried := by
  obtain ⟨hiob, hopened, -⟩ := hholds.settles.one (by omega)
  obtain ⟨hdvD1, hframe, -⟩ := hholds.settles.two (by omega)
  obtain ⟨hwrEn, hcdcDvD1, hended⟩ := hholds.settles.three (by omega)
  have hcdcWrEn := hholds.settles.four hlow
  have hidle : prior.opened = [] := by
    have hempty := hholds.mii.dvD1
    simpa [hdvD1] using hempty
  have hregistered : MiiNibbles.registered recv.mii.rx = none := by
    rw [MiiNibbles.registered, hiob]
    rfl
  have hsame : framesOfNibbles recv.received = framesOfNibbles prior := by
    rw [hholds.received, hregistered, framesOfNibbles_idle hidle]
  have hcarried : recv.carried = prior.closed.map nibbleVerdict := by
    rw [carried, ← map_macVerdict_framesOfNibbles, hsame, map_macVerdict_framesOfNibbles]
  refine ⟨?_, ?_, ?_⟩
  · have hwritten := hholds.mii.written
    rw [MiiNibbles.written, hwrEn, if_neg Bool.false_ne_true] at hwritten
    rw [hwritten, map_macVerdict_framesOfNibbles, hcarried]
  · have hwritten : recv.rgmii.written = framesOfNibbles recv.received := by
      cases hholds.rgmii.given with
      | idle _ _ _ _ hwritten => exact hwritten
      | opened hbusy => exact absurd hopened hbusy
      | left _ _ _ _ hstill => simp [hframe] at hstill
      | ended _ _ _ _ hstill => simp [hcdcDvD1] at hstill
    rw [RgmiiNibbles.written, hcdcWrEn, if_neg Bool.false_ne_true] at hwritten
    rw [hwritten, map_macVerdict_framesOfNibbles, carried]
  · rw [(hholds.pause.during hended).1, hcarried]

/-- `eth_pause_rx` finds the SFD where `mii_if` does. -/
theorem nibAlgn_eq {pause : PauseNibbles} {mii : MiiNibbles Q} {prior : Envelopes MiiRxIn}
    (hpause : pause.Holds prior) (hmii : mii.Holds prior) :
    pause.bench.rx.nibAlgn = mii.rx.rxSfdSeen := by
  rw [hpause.follows.algn, PauseRxBench.pairs, hpause.opened, map_nibble_pausePins,
    (algn_eq_sfdSeen prior.opened).1, hmii.sfdSeen]

theorem Holds.agree {prior : Envelopes MiiRxIn} (hholds : recv.Holds prior) :
    recv.Agree ports where
  mii := by
    have hmap := hholds.past_prefix_of_mii.map macVerdict
    rwa [map_macVerdict_framesOfNibbles] at hmap
  rgmii := by
    have hmap := (past_prefix_of_rgmii hholds.rgmii).map macVerdict
    rwa [map_macVerdict_framesOfNibbles] at hmap
  pause := hholds.verdicts_prefix_carried
  settled := hholds.agrees_settled
  sfdRgmii := by
    rw [hholds.rgmii.sfdSeen]
    exact NibbleBytes.sfdSeen_iff _
  sfdMii pins miiSkew cdcSkew := by
    rw [hholds.rgmii.sfdSeen, hholds.received]
    exact hholds.mii.sfdSeen_rxEdge pins miiSkew
  sfdPause := nibAlgn_eq hholds.pause hholds.mii

/-- Given room in the FIFOs, and two cycles without `RX_DV` behind a nibble with an error
that is left over, the receivers agree in every state of every run. -/
theorem agree_run (ports : FifoPorts RxWord Q) (fifo : Q) (miiMem : BitVec 12 → RxByte)
    (dout : RxByte) (cdcMem : BitVec addrWidth → RxWord) (headQ : RxWord)
    (edges : List NibbleEdge)
    (hok : Along (step ports) (RoomySpaced ports)
      (start fifo miiMem dout cdcMem headQ : NibbleReceivers Q addrWidth ramStyle) edges) :
    (runFrom (step ports) (start fifo miiMem dout cdcMem headQ :
      NibbleReceivers Q addrWidth ramStyle) edges).Agree ports := by
  have hstep (recv : NibbleReceivers Q addrWidth ramStyle) (edge : NibbleEdge)
      (hedge : recv.RoomySpaced ports edge) (hinv : ∃ prior, recv.Holds prior) :
      ∃ prior, (recv.step ports edge).Holds prior := by
    obtain ⟨prior, hholds⟩ := hinv
    cases edge with
    | rx pins miiSkew cdcSkew => exact ⟨_, hholds.rx hedge.1 hedge.2⟩
    | clk miiSkew cdcSkew miiLate cdcLate =>
        exact ⟨prior, hholds.clk miiSkew cdcSkew miiLate cdcLate⟩
  obtain ⟨prior, hholds⟩ := invariant_along hstep
    ⟨.unseen, holds_start fifo miiMem dout cdcMem headQ⟩ hok
  exact hholds.agree

def nibbleCycles (pins : List MiiRxIn) : List NibbleEdge :=
  pins.map fun nibble => .rx nibble ⟨false, false⟩ ⟨false, false⟩

def noNibble : MiiRxIn := ⟨false, false, 0⟩

/-- A nibble with an error, so many cycles without `RX_DV`, and a frame of one byte. -/
def gapRun (low : Nat) : List NibbleEdge :=
  nibbleCycles ([⟨true, true, 0x5⟩] ++ List.replicate low noNibble ++
    [⟨true, false, 0x5⟩, ⟨true, false, 0xD⟩, ⟨true, false, 0xA⟩, ⟨true, false, 0xB⟩] ++
    List.replicate 4 noNibble)

abbrev portablePorts : FifoPorts RxWord (AsyncFifo RxWord 11 .distributed) :=
  AsyncFifo.ports 11 .distributed

abbrev portableStart : NibbleReceivers (AsyncFifo RxWord 11 .distributed) 14 .block :=
  start (.reset (fun _ => ⟨false, false, 0⟩) ⟨false, false, 0⟩) (fun _ => (0, false)) (0, false)
    (fun _ => ⟨false, false, 0⟩) ⟨false, false, 0⟩

def gapReceivers (low : Nat) : NibbleReceivers (AsyncFifo RxWord 11 .distributed) 14 .block :=
  runFrom (step portablePorts) portableStart (gapRun low)

theorem agree_run_gap : (gapReceivers 2).Agree portablePorts ∧
    (gapReceivers 2).carried = [none, some ([0xBA], false)] :=
  ⟨agree_run portablePorts _ _ _ _ _ (gapRun 2) (by decide +kernel), by decide +kernel⟩

/-- Behind one cycle without `RX_DV`, `gmii_cdc` takes both envelopes for one, and marks the
frame with the error of the nibble before it. -/
theorem joined_envelopes :
    Along (step portablePorts) (Roomy portablePorts) portableStart (gapRun 1) ∧
      (gapReceivers 1).carried = [none, some ([0xBA], false)] ∧
      (gapReceivers 1).rgmii.frames.past.map macVerdict = [some ([0xBA], true)] ∧
      ¬(gapReceivers 1).Agree portablePorts := by
  have hcarried : (gapReceivers 1).carried = [none, some ([0xBA], false)] := by
    decide +kernel
  have hrgmii : (gapReceivers 1).rgmii.frames.past.map macVerdict =
      [some ([0xBA], true)] := by
    decide +kernel
  have hlow : 4 ≤ (gapReceivers 1).low := by decide +kernel
  refine ⟨by decide +kernel, hcarried, hrgmii, ?_⟩
  intro hagree
  have hsettled := (hagree.settled hlow).2.1
  rw [hrgmii, hcarried] at hsettled
  cases hsettled

end NibbleReceivers

end EmacZero
