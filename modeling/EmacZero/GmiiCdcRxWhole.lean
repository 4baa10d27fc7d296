/-
The receive path of `gmii_cdc` while it has room: every received envelope comes out, byte
for byte, and the last one too once the input has stopped.
-/
import EmacZero.GmiiCdcRxDelivery

namespace EmacZero

variable {addrWidth : Nat} {ramStyle : RamStyle}

/-- The image of an envelope that nothing was lost of. -/
def wholeImage (frame : List GmiiRxIn) : List RxByte :=
  flagLast (bytesOf frame) (strayError frame)

namespace RxBench

/-- The word at the write stage is not refused. -/
def HasRoom (bench : RxBench addrWidth ramStyle) : RxEdge → Prop
  | .media _ _ => bench.rx.rxWrEn = true → bench.rx.rxWrAccept = true
  | .sys _ _ => True

instance (bench : RxBench addrWidth ramStyle) (edge : RxEdge) : Decidable (bench.HasRoom edge) :=
  match edge with
  | .media _ _ => inferInstanceAs (Decidable (_ → _))
  | .sys _ _ => isTrue trivial

variable {bench : RxBench addrWidth ramStyle}
variable {packet : PacketQueue RxWord (2 ^ addrWidth) ramStyle.staged}
variable {ledger : RxLedger} {counted retired : Nat} {part : List RxByte}

/-- Nothing has been lost: the frames in the FIFO are those that have passed. -/
structure Whole (bench : RxBench addrWidth ramStyle)
    (packet : PacketQueue RxWord (2 ^ addrWidth) ramStyle.staged) (ledger : RxLedger) :
    Prop where
  drop : bench.rx.rxDrop = false
  frames : packet.frames =
    ledger.passed.map fun frame => frameWords (bytesOf frame, strayError frame)

/-- What had been received before the edge has passed behind it. -/
theorem passed_eq {rx : GmiiCdcRx addrWidth ramStyle} {received : Envelopes GmiiRxIn}
    {next : RxLedger} {gmii : GmiiRxIn} {skew : Skew}
    (hdv : rx.rxDvD1 = !received.opened.isEmpty)
    (hstaged : (rx.mediaEdge gmii skew).Staged
      (received.observe (if gmii.dv then some gmii else none)) next) :
    next.passed = received.closed := by
  cases hin : gmii.dv with
  | true =>
      cases hce : gmii.ce <;>
        simp only [GmiiCdcRx.Staged, GmiiCdcRx.mediaEdge, hin, hce, if_true,
          Envelopes.observe_some_closed] at hstaged <;> exact hstaged.1.symm
  | false =>
      by_cases hidle : received.opened = []
      · have hd1 : rx.rxDvD1 = false := by simp [hdv, hidle]
        simp only [GmiiCdcRx.Staged, GmiiCdcRx.mediaEdge, hin, hd1, Bool.false_eq_true, if_false,
          Envelopes.observe_none_closed, Envelopes.all_of_idle hidle] at hstaged
        exact hstaged.1.symm
      · have hd1 : rx.rxDvD1 = true := by simp [hdv, hidle]
        simp only [GmiiCdcRx.Staged, GmiiCdcRx.mediaEdge, hin, hd1, Bool.false_eq_true, if_false,
          if_true, Envelopes.observe_none_closed, Envelopes.all_of_busy hidle] at hstaged
        obtain ⟨-, frame, hclosed, -⟩ := hstaged
        exact (List.append_inj_left' hclosed rfl).symm

theorem Whole.media (hwhole : bench.Whole packet ledger)
    (htracks : bench.Tracks packet ledger counted retired part) (haddr : 2 ≤ addrWidth)
    {next : RxLedger} {gmii : GmiiRxIn} {skew : Skew}
    (hpassed : next.passed = bench.received.closed) (hroom : bench.HasRoom (.media gmii skew)) :
    (bench.step (.media gmii skew)).Whole
      (packet.wrEdge bench.rx.rxWrAccept bench.rx.rxFifoDin bench.rx.rxWrIsEof skew) next := by
  have haccepts := htracks.write.accepts_eq (Nat.le_of_succ_le haddr)
  have hstaged := htracks.write.staged
  cases hen : bench.rx.rxWrEn with
  | false =>
      have haccept : bench.rx.rxWrAccept = false := by simp [GmiiCdcRx.rxWrAccept, hen]
      simp only [GmiiCdcRx.Staged, hen] at hstaged
      refine ⟨?_, ?_⟩
      · simp [step, GmiiCdcRx.mediaEdge, GmiiCdcRx.rxDataRefuse, hen, hwhole.drop]
      · rw [PacketQueue.wrEdge_frames, haccepts, haccept, hpassed, hstaged.1]
        exact hwhole.frames
  | true =>
      have haccept := hroom hen
      cases heof : bench.rx.rxWrData.eof with
      | false =>
          simp only [GmiiCdcRx.Staged, hen, heof] at hstaged
          refine ⟨?_, ?_⟩
          · simp [step, GmiiCdcRx.mediaEdge, GmiiCdcRx.rxDataRefuse, GmiiCdcRx.rxWrIsEof, hen, heof,
              haccept, hwhole.drop]
          · rw [PacketQueue.wrEdge_frames, haccepts, GmiiCdcRx.rxWrIsEof, heof, hpassed, hstaged.1]
            simpa using hwhole.frames
      | true =>
          simp only [GmiiCdcRx.Staged, hen, heof] at hstaged
          obtain ⟨-, frame, hclosed, hbytes, herr⟩ := hstaged
          refine ⟨?_, ?_⟩
          · simp [step, GmiiCdcRx.mediaEdge, GmiiCdcRx.rxWrIsEof, hen, heof]
          · have hkept : ledger.kept = ledger.cur := by
              simpa [hwhole.drop] using htracks.write.store.drop
            have hword : bench.rx.rxFifoDin = ⟨true, strayError frame, 0⟩ := by
              simp [GmiiCdcRx.rxFifoDin, GmiiCdcRx.rxWrIsEof, GmiiCdcRx.rxDataRefuse, heof, herr,
                hwhole.drop]
            rw [PacketQueue.wrEdge_frames, haccepts, haccept, GmiiCdcRx.rxWrIsEof, heof, hpassed,
              hclosed, hword, htracks.write.store.opened, hkept, ← hbytes, hwhole.frames]
            simp [frameWords]

/-- Tracked, and nothing lost. -/
def Lossless (bench : RxBench addrWidth ramStyle) : Prop :=
  ∃ packet ledger counted retired part,
    bench.Tracks packet ledger counted retired part ∧ bench.Whole packet ledger

theorem lossless_start (haddr : 2 ≤ addrWidth) (mem : BitVec addrWidth → RxWord)
    (headQ : RxWord) : Lossless (start mem headQ : RxBench addrWidth ramStyle) :=
  ⟨.empty, .empty, 0, 0, [],
    ⟨GmiiCdcRx.writeSide_reset mem headQ haddr, GmiiCdcRx.announced_reset mem headQ,
      GmiiCdcRx.replaying_reset mem headQ, fun _ => rfl⟩, rfl, rfl⟩

theorem lossless_step (haddr : 2 ≤ addrWidth) (bench : RxBench addrWidth ramStyle)
    (edge : RxEdge) (hok : bench.TogglePaced edge ∧ bench.HasRoom edge)
    (hlossless : bench.Lossless) : (bench.step edge).Lossless := by
  obtain ⟨packet, ledger, counted, retired, part, htracks, hwhole⟩ := hlossless
  cases edge with
  | media gmii skew =>
      obtain ⟨next, hnext⟩ := htracks.media haddr gmii skew hok.1
      have hpassed := passed_eq htracks.write.dv hnext.write.staged
      exact ⟨_, next, _, _, _, hnext, hwhole.media htracks haddr hpassed hok.2⟩
  | sys skew late =>
      obtain ⟨part', hnext⟩ := htracks.sys haddr skew late
      refine ⟨_, _, _, _, part', hnext, hwhole.drop, ?_⟩
      rw [PacketQueue.rdEdge_frames]
      exact hwhole.frames

theorem frameWords_injective : Function.Injective frameWords := by
  rintro ⟨data, err⟩ ⟨other, flag⟩ hsame
  obtain ⟨hdata, hlast⟩ := List.append_inj' hsame rfl
  have hdataWord : Function.Injective dataWord := by
    rintro ⟨byte, er⟩ ⟨byte', er'⟩ hword
    cases hword
    rfl
  have hsame : data = other := List.map_injective_iff.mpr hdataWord hdata
  have hflag : err = flag := congrArg RxWord.err (List.singleton_inj.mp hlast)
  rw [hsame, hflag]

/-- The committed frames are the envelopes that have passed. -/
theorem Whole.commits (hwhole : bench.Whole packet ledger)
    (htracks : bench.Tracks packet ledger counted retired part) :
    ledger.commits.map replay = ledger.passed.map wholeImage := by
  have hframes := htracks.write.store.frames
  rw [hwhole.frames] at hframes
  have hcommits : ledger.passed.map (fun frame => (bytesOf frame, strayError frame)) =
      ledger.commits := by
    refine List.map_injective_iff.mpr frameWords_injective ?_
    rw [List.map_map]
    exact hframes
  rw [← hcommits, List.map_map]
  rfl

/-- What has come out whole is what has been received. -/
theorem Whole.closed_prefix (hwhole : bench.Whole packet ledger)
    (htracks : bench.Tracks packet ledger counted retired part) :
    bench.delivered.closed <+: shown (bench.received.closed.map wholeImage) := by
  obtain ⟨behind, hclosed⟩ := htracks.write.staged.closed_eq
  have hreplayed : shown ((ledger.commits.take retired).map replay) <+:
      shown (bench.received.closed.map wholeImage) := by
    rw [hclosed, List.map_append, ← hwhole.commits htracks]
    exact ((((List.take_prefix _ _).map _).trans (List.prefix_append _ _)).filter _)
  cases htracks.read.held with
  | between hvalid hall =>
      rw [← hall] at hreplayed
      exact bench.delivered.closed_prefix_all.trans hreplayed
  | within front hvalid hdelivered hopened => exact hdelivered ▸ hreplayed

/-- At rest all of it has. -/
theorem Whole.all_of_drained (hwhole : bench.Whole packet ledger)
    (htracks : bench.Tracks packet ledger counted retired part) (hstopped : bench.Stopped)
    (hdrained : bench.Drained) :
    bench.delivered.all = shown (bench.received.closed.map wholeImage) := by
  have hpopped := htracks.popped_of_drained hdrained
  have hwords : packet.frames.flatten.length ≤ packet.queue.words.length := by
    simp [packet.words_eq]
  obtain ⟨hidle, hretired, -⟩ := htracks.at_rest (by omega)
  have hpassed : bench.received.closed = ledger.passed := by
    have hstaged := htracks.write.staged
    simp only [GmiiCdcRx.Staged, hstopped.2] at hstaged
    exact hstaged.1
  have hall : ledger.commits.take retired = ledger.commits := by
    rw [hretired, htracks.write.store.frames, List.length_map, List.take_length]
  have hheld := htracks.read.held
  rw [htracks.read.idle hidle, hall, hwhole.commits htracks, ← hpassed] at hheld
  generalize hnone : ([] : List RxByte) = part' at hheld
  cases hheld with
  | between hvalid hshown => exact hshown
  | within front => simp at hnone

end RxBench

end EmacZero
