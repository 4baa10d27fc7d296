/-
The words that `gmii_cdc` puts into its FIFO behind `rgmii_if` at 10 and 100 Mbit/s,
against the envelopes of nibbles at the pins, as long as the FIFO has room.
-/
import EmacZero.MiiNibbles
import EmacZero.RgmiiIfRx

namespace EmacZero

/-- `rgmii_if` and `gmii_cdc` with the frames that have gone into the FIFO. -/
structure RgmiiNibbles (addrWidth : Nat) (ramStyle : RamStyle) where
  rgmii : RgmiiIfRx
  cdc : GmiiCdcRx addrWidth ramStyle
  frames : RxFrames

/-- `RX_CTL` has `RX_DV` on the rising edge and `RX_DV` xor `RX_ER` on the falling one; the
data of a nibble are the same on both. -/
def rgmiiPins (pins : MiiRxIn) : RgmiiRxIn :=
  ⟨pins.rxd, pins.rxd, pins.dv, pins.dv ^^ pins.er⟩

/-- The envelope left a nibble with an error over. -/
def LeftError (envelope : List MiiRxIn) : Prop := (nibbleBytes envelope).commit.2 = true

instance (envelope : List MiiRxIn) : Decidable (LeftError envelope) :=
  inferInstanceAs (Decidable (_ = true))

namespace RgmiiNibbles

variable {addrWidth : Nat} {ramStyle : RamStyle} {bench : RgmiiNibbles addrWidth ramStyle}
variable {seen : Envelopes MiiRxIn}

def start (mem : BitVec addrWidth → RxWord) (headQ : RxWord) :
    RgmiiNibbles addrWidth ramStyle :=
  ⟨.reset, .reset mem headQ, .none⟩

def rxEdge (bench : RgmiiNibbles addrWidth ramStyle) (pins : MiiRxIn) (skew : Skew) :
    RgmiiNibbles addrWidth ramStyle where
  rgmii := bench.rgmii.rxcEdge false (rgmiiPins pins)
  cdc := bench.cdc.mediaEdge (bench.rgmii.gmiiRx false (rgmiiPins pins)) skew
  frames := if bench.cdc.rxWrAccept then bench.frames.add bench.cdc.rxFifoDin else bench.frames

def sysEdge (bench : RgmiiNibbles addrWidth ramStyle) (skew : Skew) (late : Bool) :
    RgmiiNibbles addrWidth ramStyle :=
  { bench with cdc := bench.cdc.sysEdge skew late }

/-- The frames with the word on its way into the FIFO. -/
def written (bench : RgmiiNibbles addrWidth ramStyle) : RxFrames :=
  if bench.cdc.rxWrEn then bench.frames.add bench.cdc.rxWrData else bench.frames

/-- What `gmii_cdc` has been given of the envelopes. -/
inductive Given (bench : RgmiiNibbles addrWidth ramStyle) (seen : Envelopes MiiRxIn) : Prop where
  | idle (hopened : seen.opened = []) (hframe : bench.rgmii.rxFrameLo = false)
      (hdvD1 : bench.cdc.rxDvD1 = false) (hnoce : bench.cdc.rxErNoce = false)
      (hwritten : bench.written = framesOfNibbles seen)
  | opened (hopened : seen.opened ≠ []) (hframe : bench.rgmii.rxFrameLo = true)
      (hnoce : bench.cdc.rxErNoce = false)
      (hstray : bench.rgmii.rxDvLoPair = false → bench.rgmii.rxErLoPair = false)
      (hgiven : (if bench.rgmii.rxDvLoPair then
          bench.written.add ⟨false, bench.rgmii.rxErLoPair, bench.rgmii.rxdLoPair⟩
        else bench.written) = framesOfNibbles seen)
  | left (before : Envelopes MiiRxIn) (hseen : seen = before.observe none)
      (hbusy : before.opened ≠ []) (hleft : LeftError before.opened)
      (hframe : bench.rgmii.rxFrameLo = true) (hstrobe : bench.rgmii.rxDvLoPair = false)
      (her : bench.rgmii.rxErLoPair = true) (hnoce : bench.cdc.rxErNoce = false)
      (hwritten : bench.written = framesOfNibbles before)
  | ended (before : Envelopes MiiRxIn) (hseen : seen = before.observe none)
      (hbusy : before.opened ≠ []) (hframe : bench.rgmii.rxFrameLo = false)
      (hdvD1 : bench.cdc.rxDvD1 = true)
      (hnoce : bench.cdc.rxErNoce = (nibbleBytes before.opened).commit.2)
      (hwritten : bench.written = framesOfNibbles before)

/-- The pairing has taken these envelopes, and `gmii_cdc` their words. -/
structure Holds (bench : RgmiiNibbles addrWidth ramStyle) (seen : Envelopes MiiRxIn) :
    Prop where
  haveLo : bench.rgmii.haveLo = (nibbleBytes seen.opened).half
  nibbleLo : bench.rgmii.nibbleLo = (nibbleBytes seen.opened).low
  erLo : bench.rgmii.erLo = (nibbleBytes seen.opened).erLow
  sfdSeen : bench.rgmii.sfdSeen = (nibbleBytes seen.opened).sfdSeen
  drop : bench.cdc.rxDrop = false
  given : Given bench seen

/-- Room for the word on its way into the FIFO. -/
def Roomy (cdc : GmiiCdcRx addrWidth ramStyle) : Prop :=
  cdc.rxFifo.wrFull = false ∧ cdc.rxDataRoom = true

instance (cdc : GmiiCdcRx addrWidth ramStyle) : Decidable (Roomy cdc) :=
  inferInstanceAs (Decidable (_ ∧ _))

theorem holds_start (mem : BitVec addrWidth → RxWord) (headQ : RxWord) :
    (start mem headQ : RgmiiNibbles addrWidth ramStyle).Holds .unseen :=
  ⟨rfl, rfl, rfl, rfl, rfl, .idle rfl rfl rfl rfl rfl⟩

/-- With room in the FIFO every word goes in, and none is refused. -/
theorem frames_rxEdge (hdrop : bench.cdc.rxDrop = false) (hroom : Roomy bench.cdc)
    (pins : MiiRxIn) (skew : Skew) :
    (bench.rxEdge pins skew).frames = bench.written ∧
      (bench.rxEdge pins skew).cdc.rxDrop = false := by
  obtain ⟨hfull, hdata⟩ := hroom
  have haccept : bench.cdc.rxWrAccept = bench.cdc.rxWrEn := by
    simp [GmiiCdcRx.rxWrAccept, hfull, hdata, hdrop]
  have hrefuse : bench.cdc.rxDataRefuse = false := by
    rw [GmiiCdcRx.rxDataRefuse, haccept]
    cases bench.cdc.rxWrEn <;> simp
  constructor
  · rw [rxEdge, written, haccept]
    cases heof : bench.cdc.rxWrData.eof <;>
      simp [GmiiCdcRx.rxFifoDin, GmiiCdcRx.rxWrIsEof, heof, hdrop, hrefuse, RxFrames.add]
  · simp [rxEdge, GmiiCdcRx.mediaEdge, hrefuse, hdrop]

section Edge

variable (pins : MiiRxIn) (skew : Skew)

/-- The word that `gmii_cdc` registers in a cycle in which it sees the envelope. -/
theorem written_rxEdge_frame (hframe : bench.rgmii.rxFrameLo = true)
    (hframes : (bench.rxEdge pins skew).frames = bench.written) :
    (bench.rxEdge pins skew).written =
      if bench.rgmii.rxDvLoPair then
        bench.written.add ⟨false, bench.rgmii.rxErLoPair, bench.rgmii.rxdLoPair⟩
      else bench.written := by
  rw [written, hframes]
  cases hstrobe : bench.rgmii.rxDvLoPair <;>
    simp [rxEdge, GmiiCdcRx.mediaEdge, RgmiiIfRx.gmiiRx, hframe, hstrobe]

/-- The pairing of one more nibble. -/
theorem Holds.sfdNow_eq (hholds : bench.Holds seen) :
    bench.rgmii.sfdNow (rgmiiPins pins) = (nibbleBytes seen.opened).sfd pins := by
  rw [RgmiiIfRx.sfdNow, hholds.sfdSeen, hholds.nibbleLo, NibbleBytes.sfd]
  rfl

theorem Holds.byteNow_eq (hholds : bench.Holds seen) :
    bench.rgmii.byteNow (rgmiiPins pins) = (nibbleBytes seen.opened).whole pins := by
  rw [RgmiiIfRx.byteNow, hholds.sfdNow_eq, hholds.haveLo, NibbleBytes.whole]

theorem erNow_rgmiiPins : RgmiiIfRx.erNow (rgmiiPins pins) = pins.er := by
  rw [RgmiiIfRx.erNow, rgmiiPins]
  cases pins.dv <;> cases pins.er <;> rfl

/-- A nibble that completes a byte makes the word of it, any other none. -/
theorem Holds.given_nibble (hholds : bench.Holds seen) (hdv : pins.dv = true)
    (hnoce : (bench.rxEdge pins skew).cdc.rxErNoce = false)
    (hwritten : (bench.rxEdge pins skew).written = framesOfNibbles seen) :
    Given (bench.rxEdge pins skew) (seen.observe (some pins)) := by
  have hwhole := hholds.byteNow_eq pins
  have her := erNow_rgmiiPins pins
  have hctl : (rgmiiPins pins).rxCtlRising = true := hdv
  have hrxd : (rgmiiPins pins).rxdRising = pins.rxd := rfl
  apply Given.opened
  · simp
  · simp [rxEdge, RgmiiIfRx.rxcEdge, hctl]
  · exact hnoce
  · intro hstrobe
    simp only [rxEdge, RgmiiIfRx.rxcEdge, hctl, Bool.false_eq_true, if_false,
      Bool.true_and] at hstrobe
    simp [rxEdge, RgmiiIfRx.rxcEdge, hctl, hstrobe]
  · rw [hwritten, framesOfNibbles, framesOfNibbles, Envelopes.observe_some_opened,
      nibbleBytes_concat]
    cases hbyte : bench.rgmii.byteNow (rgmiiPins pins) <;> rw [hbyte, eq_comm] at hwhole
    · simp [rxEdge, RgmiiIfRx.rxcEdge, hctl, hbyte, NibbleBytes.add, hwhole]
    · simp [rxEdge, RgmiiIfRx.rxcEdge, hctl, hbyte, NibbleBytes.add, hwhole, RxFrames.add,
        her, hrxd, hholds.erLo, hholds.nibbleLo]

/-- With nothing on the pins, and all envelopes ended. -/
theorem given_quiet (hopened : seen.opened = []) (hdv : pins.dv = false)
    (hhave : bench.rgmii.haveLo = false)
    (hdvD1 : (bench.rxEdge pins skew).cdc.rxDvD1 = false)
    (hnoce : (bench.rxEdge pins skew).cdc.rxErNoce = false)
    (hwritten : (bench.rxEdge pins skew).written = framesOfNibbles seen) :
    Given (bench.rxEdge pins skew) (seen.observe none) := by
  have hctl : (rgmiiPins pins).rxCtlRising = false := hdv
  apply Given.idle (Envelopes.observe_none_opened seen) _ hdvD1 hnoce
  · rw [hwritten, framesOfNibbles_idle hopened]
  · simp [rxEdge, RgmiiIfRx.rxcEdge, hctl, hhave]

theorem Holds.rxEdge_given (hholds : bench.Holds seen)
    (hframes : (bench.rxEdge pins skew).frames = bench.written)
    (hspaced : pins.dv = true → ∀ before : Envelopes MiiRxIn, seen = before.observe none →
      before.opened ≠ [] → LeftError before.opened → bench.rgmii.rxFrameLo = false) :
    Given (bench.rxEdge pins skew) (seen.observe (nibbleOn pins)) := by
  have hopened_have (hopened : seen.opened = []) : bench.rgmii.haveLo = false := by
    rw [hholds.haveLo, hopened]
    rfl
  cases hholds.given with
  | idle hopened hframe hdvD1 hnoce hwritten =>
      have hnext : (bench.rxEdge pins skew).written = framesOfNibbles seen := by
        rw [← hwritten, written, hframes]
        simp [rxEdge, GmiiCdcRx.mediaEdge, RgmiiIfRx.gmiiRx, hframe, hdvD1]
      have hnoce' : (bench.rxEdge pins skew).cdc.rxErNoce = false := by
        simp [rxEdge, GmiiCdcRx.mediaEdge, RgmiiIfRx.gmiiRx, hframe, hnoce]
      cases hdv : pins.dv with
      | true =>
          rw [nibbleOn, if_pos hdv]
          exact hholds.given_nibble pins skew hdv hnoce' hnext
      | false =>
          rw [nibbleOn, hdv]
          apply given_quiet pins skew hopened hdv (hopened_have hopened) _ hnoce' hnext
          simp [rxEdge, GmiiCdcRx.mediaEdge, RgmiiIfRx.gmiiRx, hframe]
  | opened hopened hframe hnoce hstray hgiven =>
      have hnext : (bench.rxEdge pins skew).written = framesOfNibbles seen :=
        (written_rxEdge_frame pins skew hframe hframes).trans hgiven
      have hnoce' : (bench.rxEdge pins skew).cdc.rxErNoce = false := by
        cases hstrobe : bench.rgmii.rxDvLoPair with
        | true =>
            simp [rxEdge, GmiiCdcRx.mediaEdge, RgmiiIfRx.gmiiRx, hframe, hnoce, hstrobe]
        | false =>
            simp [rxEdge, GmiiCdcRx.mediaEdge, RgmiiIfRx.gmiiRx, hframe, hnoce, hstray hstrobe]
      cases hdv : pins.dv with
      | true =>
          rw [nibbleOn, if_pos hdv]
          exact hholds.given_nibble pins skew hdv hnoce' hnext
      | false =>
          have hctl : (rgmiiPins pins).rxCtlRising = false := hdv
          have hflag : (bench.rgmii.haveLo && bench.rgmii.erLo) =
              (nibbleBytes seen.opened).commit.2 := by
            rw [hholds.haveLo, hholds.erLo, NibbleBytes.commit]
          rw [nibbleOn, hdv]
          cases hleft : (nibbleBytes seen.opened).commit.2 <;> rw [hleft] at hflag
          · -- the envelope ends with its last byte
            apply Given.ended seen rfl hopened _ _ _ hnext
            · simp [rxEdge, RgmiiIfRx.rxcEdge, hctl, hflag]
            · simp [rxEdge, GmiiCdcRx.mediaEdge, RgmiiIfRx.gmiiRx, hframe]
            · rw [hnoce', hleft]
          · -- the error of the nibble left over is still to come
            apply Given.left seen rfl hopened hleft _ _ _ hnoce' hnext
            · simp [rxEdge, RgmiiIfRx.rxcEdge, hctl, hflag]
            · simp [rxEdge, RgmiiIfRx.rxcEdge, hctl]
            · simp [rxEdge, RgmiiIfRx.rxcEdge, hctl, hflag]
  | left before hseen hbusy hleft hframe hstrobe her hnoce hwritten =>
      have hopened : seen.opened = [] := by rw [hseen, Envelopes.observe_none_opened]
      cases hdv : pins.dv with
      | true =>
          have hclosed := hspaced hdv before hseen hbusy hleft
          rw [hframe] at hclosed
          cases hclosed
      | false =>
          have hctl : (rgmiiPins pins).rxCtlRising = false := hdv
          have hsame : seen.observe none = before.observe none := by
            rw [Envelopes.observe, hopened]
            exact hseen
          rw [nibbleOn, hdv]
          apply Given.ended before hsame hbusy
          · simp [rxEdge, RgmiiIfRx.rxcEdge, hctl, hopened_have hopened]
          · simp [rxEdge, GmiiCdcRx.mediaEdge, RgmiiIfRx.gmiiRx, hframe]
          · rw [show (nibbleBytes before.opened).commit.2 = true from hleft]
            simp [rxEdge, GmiiCdcRx.mediaEdge, RgmiiIfRx.gmiiRx, hframe, hstrobe, her]
          · rw [written_rxEdge_frame pins skew hframe hframes, hstrobe, ← hwritten]
            rfl
  | ended before hseen hbusy hframe hdvD1 hnoce hwritten =>
      have hopened : seen.opened = [] := by rw [hseen, Envelopes.observe_none_opened]
      have hnext : (bench.rxEdge pins skew).written = framesOfNibbles seen := by
        rw [hseen, ← @framesOfNibbles_none _ hbusy ⟨true, bench.cdc.rxErNoce, 0⟩ rfl hnoce,
          ← hwritten, written, hframes]
        simp [rxEdge, GmiiCdcRx.mediaEdge, RgmiiIfRx.gmiiRx, hframe, hdvD1]
      have hnoce' : (bench.rxEdge pins skew).cdc.rxErNoce = false := by
        simp [rxEdge, GmiiCdcRx.mediaEdge, RgmiiIfRx.gmiiRx, hframe, hdvD1]
      cases hdv : pins.dv with
      | true =>
          rw [nibbleOn, if_pos hdv]
          exact hholds.given_nibble pins skew hdv hnoce' hnext
      | false =>
          rw [nibbleOn, hdv]
          apply given_quiet pins skew hopened hdv (hopened_have hopened) _ hnoce' hnext
          simp [rxEdge, GmiiCdcRx.mediaEdge, RgmiiIfRx.gmiiRx, hframe]

theorem Holds.rxEdge (hholds : bench.Holds seen) (hroom : Roomy bench.cdc)
    (hspaced : pins.dv = true → ∀ before : Envelopes MiiRxIn, seen = before.observe none →
      before.opened ≠ [] → LeftError before.opened → bench.rgmii.rxFrameLo = false) :
    (bench.rxEdge pins skew).Holds (seen.observe (nibbleOn pins)) := by
  obtain ⟨hframes, hdrop⟩ := frames_rxEdge hholds.drop hroom pins skew
  have hgiven := hholds.rxEdge_given pins skew hframes hspaced
  have hwhole := hholds.byteNow_eq pins
  have hsfd := hholds.sfdNow_eq pins
  have her := erNow_rgmiiPins pins
  have hctl : (rgmiiPins pins).rxCtlRising = pins.dv := rfl
  cases hdv : pins.dv with
  | true =>
      rw [nibbleOn, if_pos hdv] at hgiven ⊢
      refine ⟨?_, ?_, ?_, ?_, hdrop, hgiven⟩ <;>
        rw [Envelopes.observe_some_opened, nibbleBytes_concat]
      · simp [RgmiiNibbles.rxEdge, RgmiiIfRx.rxcEdge, hctl, hdv, hwhole, NibbleBytes.add]
      · simp [RgmiiNibbles.rxEdge, RgmiiIfRx.rxcEdge, hctl, hdv, NibbleBytes.add]
        rfl
      · simp [RgmiiNibbles.rxEdge, RgmiiIfRx.rxcEdge, hctl, hdv, her, NibbleBytes.add]
      · simp [RgmiiNibbles.rxEdge, RgmiiIfRx.rxcEdge, hctl, hdv, hsfd, hholds.sfdSeen,
          NibbleBytes.add]
  | false =>
      rw [nibbleOn, hdv] at hgiven ⊢
      have hnone : nibbleBytes (seen.observe none).opened = .start := by
        rw [Envelopes.observe_none_opened]
        rfl
      refine ⟨?_, ?_, ?_, ?_, hdrop, hgiven⟩ <;>
        rw [if_neg Bool.false_ne_true, hnone]
      all_goals
        simp [RgmiiNibbles.rxEdge, RgmiiIfRx.rxcEdge, hctl, hdv, NibbleBytes.start]

end Edge

theorem Holds.sysEdge (hholds : bench.Holds seen) (skew : Skew) (late : Bool) :
    (bench.sysEdge skew late).Holds seen := by
  obtain ⟨hhave, hlow, herLo, hsfdSeen, hdrop, hgiven⟩ := hholds
  refine ⟨hhave, hlow, herLo, hsfdSeen, hdrop, ?_⟩
  cases hgiven with
  | idle hopened hframe hdvD1 hnoce hwritten =>
      exact .idle hopened hframe hdvD1 hnoce hwritten
  | opened hopened hframe hnoce hstray hgiven =>
      exact .opened hopened hframe hnoce hstray hgiven
  | left before hseen hbusy hleft hframe hstrobe her hnoce hwritten =>
      exact .left before hseen hbusy hleft hframe hstrobe her hnoce hwritten
  | ended before hseen hbusy hframe hdvD1 hnoce hwritten =>
      exact .ended before hseen hbusy hframe hdvD1 hnoce hwritten

end RgmiiNibbles

end EmacZero
