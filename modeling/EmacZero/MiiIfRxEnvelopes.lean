/-
The `mii_if` receive path keeps frames apart as long as no data word is
accepted behind the words of a frame whose EOF word has been refused, and no
frame is longer than the frame memory.  The write side keeps book of what has
been accepted of each envelope; the reader replays what is in the FIFO.
-/
import EmacZero.MiiIfRxPhases

namespace EmacZero

universe u

/-- The pairing of the nibbles of an envelope into bytes. -/
structure NibblePairs where
  half : Bool
  low : BitVec 4
  sfdSeen : Bool
  bytes : List (BitVec 8)

namespace NibblePairs

def start : NibblePairs := ⟨false, 0, false, []⟩

/-- Nibbles pair in twos, low nibble first; the first D behind a 5 completes
the SFD, wherever it comes. -/
def add (pairs : NibblePairs) (nibble : MiiRxIn) : NibblePairs :=
  let sfd := !pairs.sfdSeen && nibble.rxd == 0xD && pairs.low == 0x5
  let whole := pairs.half || sfd
  { half := !whole
    low := nibble.rxd
    sfdSeen := sfd || pairs.sfdSeen
    bytes :=
      if whole then pairs.bytes ++ [nibble.rxd ++ pairs.low] else pairs.bytes }

theorem bytes_add_of_whole {pairs : NibblePairs} {nibble : MiiRxIn}
    (hwhole : (pairs.add nibble).half = false) :
    (pairs.add nibble).bytes = pairs.bytes ++ [nibble.rxd ++ pairs.low] := by
  simp only [add, Bool.not_eq_false'] at hwhole ⊢
  rw [if_pos hwhole]

theorem bytes_add_of_half {pairs : NibblePairs} {nibble : MiiRxIn}
    (hhalf : (pairs.add nibble).half = true) :
    (pairs.add nibble).bytes = pairs.bytes := by
  simp only [add, Bool.not_eq_true'] at hhalf ⊢
  exact if_neg (Bool.eq_false_iff.mp hhalf)

end NibblePairs

def pairsOf (envelope : List MiiRxIn) : NibblePairs :=
  envelope.foldl .add .start

/-- The bytes of an `RX_DV` envelope. -/
def envelopeBytes (envelope : List MiiRxIn) : List (BitVec 8) :=
  (pairsOf envelope).bytes

theorem pairsOf_concat (envelope : List MiiRxIn) (nibble : MiiRxIn) :
    pairsOf (envelope ++ [nibble]) = (pairsOf envelope).add nibble := by
  rw [pairsOf, List.foldl_concat]
  rfl

/-- Only the SFD can make a byte of a single new nibble. -/
theorem length_envelopeBytes_le (envelope : List MiiRxIn) :
    2 * (envelopeBytes envelope).length + (pairsOf envelope).half.toNat ≤
      envelope.length + (pairsOf envelope).sfdSeen.toNat := by
  induction envelope using List.reverseRecOn with
  | nil => exact le_rfl
  | append_singleton envelope nibble ih =>
      rw [envelopeBytes] at ih ⊢
      rw [pairsOf_concat, List.length_append, List.length_singleton]
      generalize pairsOf envelope = pairs at ih
      simp only [NibblePairs.add]
      generalize (nibble.rxd == 0xD) = isD
      generalize (pairs.low == 0x5) = is5
      cases hhalf : pairs.half <;> cases hseen : pairs.sfdSeen <;>
        cases isD <;> cases is5 <;> simp [hhalf, hseen] at ih ⊢ <;> omega

/-- What may come out of an envelope: nothing, or bytes of this envelope in
order, and if any of its bytes is missing one of them carries `rx_er`. -/
def Relays (envelope : List MiiRxIn) (image : List RxByte) : Prop :=
  image = [] ∨ ((image.map Prod.fst).Sublist (envelopeBytes envelope) ∧
    (image.map Prod.fst = envelopeBytes envelope ∨
      ∃ byte ∈ image, byte.2 = true))

theorem relays_missing (envelopes : List (List MiiRxIn)) :
    List.Forall₂ Relays envelopes (List.replicate envelopes.length []) := by
  induction envelopes with
  | nil => exact .nil
  | cons envelope rest ih => exact .cons (Or.inl rfl) ih

/-- The frame that has been kept of an envelope makes an image of it, if a
missing byte shows in the flag of its EOF word. -/
theorem relays_flagLast {envelope : List MiiRxIn} {part : List RxByte}
    {err : Bool}
    (hkept : (part.map Prod.fst).Sublist (envelopeBytes envelope))
    (hmarked : part.map Prod.fst = envelopeBytes envelope ∨ err = true) :
    Relays envelope (flagLast part err) := by
  by_cases hnil : part = []
  · exact Or.inl (by rw [hnil, flagLast_nil])
  · refine Or.inr ⟨by rwa [map_fst_flagLast], ?_⟩
    rw [map_fst_flagLast]
    refine hmarked.imp_right fun herr => ?_
    rw [herr]
    exact exists_flagged hnil

/-- What is in the FIFO, against the envelopes whose EOF words have been
offered to it and the bytes of the next one that have been.  `marked` says that
the EOF word of this envelope is going to carry the error flag. -/
structure Booked (accepted : List RxWord) (orphaned : Bool)
    (tried : List (List MiiRxIn)) (offered : List (BitVec 8))
    (marked : Bool) : Prop where
  images : ∃ images, List.Forall₂ Relays tried images ∧
    shown images = (framesOf accepted).replays ++
      if orphaned then [flagLast (framesOf accepted).part true] else []
  orphan : orphaned = true → (framesOf accepted).part ≠ [] ∧ marked = true
  kept : orphaned = false →
    ((framesOf accepted).part.map Prod.fst).Sublist offered ∧
      ((framesOf accepted).part.map Prod.fst = offered ∨ marked = true)

section Booked

variable {accepted : List RxWord} {orphaned marked : Bool}
variable {tried : List (List MiiRxIn)} {offered : List (BitVec 8)}

theorem booked_nil : Booked [] false [] [] false where
  images := ⟨[], .nil, rfl⟩
  orphan := by simp
  kept := fun _ => ⟨List.Sublist.refl _, Or.inl rfl⟩

theorem Booked.mark (hbooked : Booked accepted orphaned tried offered marked)
    (more : Bool) (hmore : marked = true → more = true) :
    Booked accepted orphaned tried offered more where
  images := hbooked.images
  orphan := fun horphaned => (hbooked.orphan horphaned).imp_right hmore
  kept := fun hnot => (hbooked.kept hnot).imp_right (Or.imp_right hmore)

theorem Booked.byte_accepted
    (hbooked : Booked accepted false tried offered marked) {word : RxWord}
    (hbyte : word.eof = false) :
    Booked (accepted ++ [word]) false tried (offered ++ [word.data]) marked := by
  obtain ⟨hsublist, hmarked⟩ := hbooked.kept rfl
  have hframes : framesOf (accepted ++ [word]) =
      ⟨(framesOf accepted).past,
        (framesOf accepted).part ++ [(word.data, word.err)]⟩ := by
    rw [framesOf_concat, RxFrames.add_byte _ hbyte]
  constructor
  · obtain ⟨images, hrelays, hshown⟩ := hbooked.images
    refine ⟨images, hrelays, ?_⟩
    rw [hframes]
    exact hshown
  · simp
  · intro _
    rw [hframes, List.map_append]
    refine ⟨hsublist.append (List.Sublist.refl _), ?_⟩
    exact hmarked.imp_left fun hsame => by rw [hsame]; rfl

theorem Booked.byte_refused
    (hbooked : Booked accepted orphaned tried offered marked)
    (byte : BitVec 8) :
    Booked accepted orphaned tried (offered ++ [byte]) true where
  images := hbooked.images
  orphan := fun horphaned => ⟨(hbooked.orphan horphaned).1, rfl⟩
  kept := fun hnot =>
    ⟨(hbooked.kept hnot).1.trans (List.sublist_append_left _ _), Or.inr rfl⟩

/-- The EOF word closes the frame of its own envelope, or the one of the
envelope whose EOF word was refused. -/
theorem Booked.eof_accepted {envelope : List MiiRxIn}
    (hbooked : Booked accepted orphaned tried (envelopeBytes envelope) marked)
    {word : RxWord} (heof : word.eof = true) (herr : word.err = marked) :
    Booked (accepted ++ [word]) false (tried ++ [envelope]) [] false := by
  have hpart : (framesOf (accepted ++ [word])).part = [] := by
    rw [framesOf_concat, RxFrames.add_eof _ heof]
  refine ⟨?_, by simp, fun _ => ?_⟩
  · obtain ⟨images, hrelays, hshown⟩ := hbooked.images
    rw [framesOf_concat, RxFrames.replays_add_eof _ heof, herr]
    cases horphaned : orphaned with
    | false =>
        obtain ⟨hkept, hmarked⟩ := hbooked.kept horphaned
        have himage := relays_flagLast hkept hmarked
        refine ⟨images ++ [flagLast (framesOf accepted).part marked],
          List.rel_append hrelays (.cons himage .nil), ?_⟩
        rw [shown_append, hshown, horphaned]
        simp
    | true =>
        -- the frame of the envelope before takes this EOF word
        obtain ⟨hne, hmarked⟩ := hbooked.orphan horphaned
        refine ⟨images ++ [[]], List.rel_append hrelays
          (.cons (Or.inl rfl) .nil), ?_⟩
        rw [shown_append, hshown, horphaned, hmarked,
          shown_singleton (flagLast_ne_nil hne true)]
        simp
  · rw [hpart]
    exact ⟨List.Sublist.refl _, Or.inl rfl⟩

theorem Booked.eof_refused {envelope : List MiiRxIn}
    (hbooked : Booked accepted orphaned tried (envelopeBytes envelope) marked)
    {still : Bool}
    (hstill : still = true ↔ (framesOf accepted).part ≠ []) :
    Booked accepted still (tried ++ [envelope]) [] true := by
  refine ⟨?_, fun horphaned => ⟨hstill.mp horphaned, rfl⟩, fun hnot => ?_⟩
  · obtain ⟨images, hrelays, hshown⟩ := hbooked.images
    cases horphaned : orphaned with
    | true =>
        obtain ⟨hne, -⟩ := hbooked.orphan horphaned
        refine ⟨images ++ [[]], List.rel_append hrelays
          (.cons (Or.inl rfl) .nil), ?_⟩
        rw [shown_append, hshown, horphaned, hstill.mpr hne]
        simp
    | false =>
        obtain ⟨hkept, -⟩ := hbooked.kept horphaned
        have himage := relays_flagLast hkept (Or.inr rfl)
        refine ⟨images ++ [flagLast (framesOf accepted).part true],
          List.rel_append hrelays (.cons himage .nil), ?_⟩
        rw [shown_append, hshown, horphaned]
        by_cases hne : (framesOf accepted).part = []
        · have hnone : still = false := by
            simpa [hne] using hstill
          simp [hne, hnone]
        · rw [hstill.mpr hne, shown_singleton (flagLast_ne_nil hne true)]
          simp
  · have hnil : (framesOf accepted).part = [] := by
      by_contra hne
      simp [hstill.mpr hne] at hnot
    rw [hnil]
    exact ⟨List.Sublist.refl _, Or.inl rfl⟩

end Booked

namespace MiiRxBench

variable {Q : Type u} {ports : FifoPorts RxWord Q} {depth lag : Nat}
variable {bench : MiiRxBench Q} {prior : Envelopes MiiRxIn}

/-- No data word is accepted behind the words of a frame whose EOF word has
been refused. -/
def KeepsBoundary (ports : FifoPorts RxWord Q) (bench : MiiRxBench Q) :
    MiiRxEdge → Prop
  | .mii _ _ => bench.rx.rxWrAccept ports = true →
      bench.rx.rxWrData.eof = false → bench.orphaned = false
  | .clk _ _ => True

instance (bench : MiiRxBench Q) (edge : MiiRxEdge) :
    Decidable (bench.KeepsBoundary ports edge) :=
  match edge with
  | .mii _ _ => inferInstanceAs (Decidable (_ → _ → _))
  | .clk _ _ => isTrue trivial

/-- The pins in the input registers. -/
def inputPins (rx : MiiIfRx Q) : Option MiiRxIn :=
  if rx.miiRxDvIob then some ⟨true, rx.miiRxErIob, rx.miiRxdIob⟩ else none

/-- The pairing has seen the envelopes up to the pins in the input
registers. -/
structure Pairs (rx : MiiIfRx Q) (received prior : Envelopes MiiRxIn) :
    Prop where
  received : received = prior.observe (inputPins rx)
  half : rx.rxNibSel = (pairsOf prior.opened).half
  low : rx.rxNibLow = (pairsOf prior.opened).low
  sfdSeen : rx.rxSfdSeen = (pairsOf prior.opened).sfdSeen
  d1 : rx.rxDvD1 = !prior.opened.isEmpty

/-- The word on its way into the FIFO, if there is one, is the last byte of
the envelope so far, or the EOF word of the envelope before. -/
inductive Staged (rx : MiiIfRx Q) (prior : Envelopes MiiRxIn) :
    List (List MiiRxIn) → List (BitVec 8) → Prop
  | nothing (hwrEn : rx.rxWrEn = false) :
      Staged rx prior prior.closed (envelopeBytes prior.opened)
  | byte {offered : List (BitVec 8)} (hwrEn : rx.rxWrEn = true)
      (hbyte : rx.rxWrData.eof = false)
      (hbytes : envelopeBytes prior.opened = offered ++ [rx.rxWrData.data]) :
      Staged rx prior prior.closed offered
  | eof {tried : List (List MiiRxIn)} {envelope : List MiiRxIn}
      (hwrEn : rx.rxWrEn = true) (heof : rx.rxWrData.eof = true)
      (hopened : prior.opened = [])
      (hclosed : prior.closed = tried ++ [envelope]) :
      Staged rx prior tried (envelopeBytes envelope)

/-- A word of the frame has been refused, as its EOF word is going to tell. -/
def marked (rx : MiiIfRx Q) : Bool :=
  if rx.rxWrEn && rx.rxWrData.eof then rx.rxWrData.err else rx.rxFifoFullSeen

/-- The write side and its books. -/
structure Books (bench : MiiRxBench Q) : Prop where
  booked : ∃ prior, Pairs bench.rx bench.received prior ∧
    ∃ tried offered, Staged bench.rx prior tried offered ∧
      Booked bench.accepted bench.orphaned tried offered (marked bench.rx)

theorem frameOpen_iff (bench : MiiRxBench Q) :
    bench.frameOpen = true ↔ (framesOf bench.accepted).part ≠ [] := by
  rw [Ne, part_framesOf_eq_nil_iff, frameOpen]
  cases bench.accepted.getLast? <;> simp

/-- The word that is on its way is accepted or refused. -/
theorem booked_offer {tried : List (List MiiRxIn)} {offered : List (BitVec 8)}
    (hstaged : Staged bench.rx prior tried offered)
    (hbooked : Booked bench.accepted bench.orphaned tried offered
      (marked bench.rx)) (pins : MiiRxIn) (skew : Skew)
    (hkeeps : bench.KeepsBoundary ports (.mii pins skew)) :
    Booked (bench.step ports (.mii pins skew)).accepted
      (bench.step ports (.mii pins skew)).orphaned prior.closed
      (envelopeBytes prior.opened)
      (bench.rx.rxFullWrite ports || bench.rx.rxFifoFullSeen) := by
  cases hstaged with
  | nothing hwrEn =>
      simp only [marked, hwrEn, Bool.false_and, Bool.false_eq_true,
        if_false] at hbooked
      have hmark := hbooked.mark
        (bench.rx.rxFullWrite ports || bench.rx.rxFifoFullSeen)
        (fun hseen => by simp [hseen])
      simpa [step, MiiIfRx.rxWrAccept, hwrEn] using hmark
  | byte hwrEn hbyte hbytes =>
      simp only [marked, hwrEn, hbyte, Bool.and_false, Bool.false_eq_true,
        if_false] at hbooked
      rw [hbytes]
      cases hfull : ports.wrFull bench.rx.rxFifo with
      | false =>
          have haccept : bench.rx.rxWrAccept ports = true := by
            simp [MiiIfRx.rxWrAccept, hwrEn, hfull]
          have hwhole := hkeeps haccept hbyte
          rw [hwhole] at hbooked
          have hmark := (hbooked.byte_accepted hbyte).mark
            (bench.rx.rxFullWrite ports || bench.rx.rxFifoFullSeen)
            (fun hseen => by simp [hseen])
          simpa [step, haccept, hbyte, hwhole] using hmark
      | true =>
          have hrefused : bench.rx.rxWrAccept ports = false := by
            simp [MiiIfRx.rxWrAccept, hfull]
          have hmark := hbooked.byte_refused bench.rx.rxWrData.data
          simpa [step, hrefused, hbyte, MiiIfRx.rxFullWrite, hwrEn, hfull]
            using hmark
  | eof hwrEn heof hopened hclosed =>
      simp only [marked, hwrEn, heof, Bool.and_self, if_true] at hbooked
      have hnone : envelopeBytes prior.opened = [] := by rw [hopened]; rfl
      rw [hclosed, hnone]
      cases hfull : ports.wrFull bench.rx.rxFifo with
      | false =>
          have haccept : bench.rx.rxWrAccept ports = true := by
            simp [MiiIfRx.rxWrAccept, hwrEn, hfull]
          have hmark := (hbooked.eof_accepted heof rfl).mark
            (bench.rx.rxFullWrite ports || bench.rx.rxFifoFullSeen) (by simp)
          simpa [step, haccept, hwrEn, heof] using hmark
      | true =>
          have hrefused : bench.rx.rxWrAccept ports = false := by
            simp [MiiIfRx.rxWrAccept, hfull]
          have hmark := hbooked.eof_refused bench.frameOpen_iff
          simpa [step, hrefused, hwrEn, heof, MiiIfRx.rxFullWrite, hfull]
            using hmark

/-- The nibble in the input registers completes a byte. -/
theorem Pairs.rxByteNow_eq {received : Envelopes MiiRxIn}
    (hpairs : Pairs bench.rx received prior) (er : Bool) :
    bench.rx.rxByteNow =
      !((pairsOf prior.opened).add ⟨true, er, bench.rx.miiRxdIob⟩).half := by
  simp [MiiIfRx.rxByteNow, MiiIfRx.rxSfdNow, NibblePairs.add, hpairs.half,
    hpairs.low, hpairs.sfdSeen]

theorem Pairs.mii (hpairs : Pairs bench.rx bench.received prior)
    (pins : MiiRxIn) (skew : Skew) :
    Pairs (bench.step ports (.mii pins skew)).rx
      (bench.step ports (.mii pins skew)).received
      (prior.observe (inputPins bench.rx)) := by
  have hpins : (if pins.dv then some pins else none) =
      inputPins (bench.step ports (.mii pins skew)).rx := by
    cases pins with
    | mk dv er rxd => cases dv <;> rfl
  have hreceived : (bench.step ports (.mii pins skew)).received =
      (prior.observe (inputPins bench.rx)).observe
        (inputPins (bench.step ports (.mii pins skew)).rx) := by
    rw [← hpairs.received, ← hpins]
    rfl
  cases hdv : bench.rx.miiRxDvIob with
  | true =>
      have hsome : inputPins bench.rx =
          some ⟨true, bench.rx.miiRxErIob, bench.rx.miiRxdIob⟩ := if_pos hdv
      have hwhole := hpairs.rxByteNow_eq bench.rx.miiRxErIob
      rw [hsome] at hreceived ⊢
      refine ⟨hreceived, ?_, ?_, ?_, ?_⟩
      · rw [Envelopes.observe_some_opened, pairsOf_concat]
        simp [step, MiiIfRx.miiRxEdge, hdv, hwhole]
      · rw [Envelopes.observe_some_opened, pairsOf_concat]
        simp [step, MiiIfRx.miiRxEdge, hdv, NibblePairs.add]
      · rw [Envelopes.observe_some_opened, pairsOf_concat]
        simp [step, MiiIfRx.miiRxEdge, MiiIfRx.rxSfdNow, hdv, NibblePairs.add,
          hpairs.low, hpairs.sfdSeen]
      · simp [step, MiiIfRx.miiRxEdge, hdv]
  | false =>
      have hnone : inputPins bench.rx = none := if_neg (by simp [hdv])
      rw [hnone] at hreceived ⊢
      refine ⟨hreceived, ?_, ?_, ?_, ?_⟩ <;>
        simp [step, MiiIfRx.miiRxEdge, hdv, pairsOf, NibblePairs.start]

/-- The nibble in the input registers, or the end of the envelope, makes the
next word. -/
theorem Pairs.stage (hpairs : Pairs bench.rx bench.received prior)
    {accepted : List RxWord} {orphaned : Bool} (pins : MiiRxIn) (skew : Skew)
    (hbooked : Booked accepted orphaned prior.closed
      (envelopeBytes prior.opened)
      (bench.rx.rxFullWrite ports || bench.rx.rxFifoFullSeen)) :
    ∃ tried offered,
      Staged (bench.step ports (.mii pins skew)).rx
        (prior.observe (inputPins bench.rx)) tried offered ∧
      Booked accepted orphaned tried offered
        (marked (bench.step ports (.mii pins skew)).rx) := by
  have hwhole := hpairs.rxByteNow_eq bench.rx.miiRxErIob
  cases hdv : bench.rx.miiRxDvIob with
  | true =>
      have hsome : inputPins bench.rx =
          some ⟨true, bench.rx.miiRxErIob, bench.rx.miiRxdIob⟩ := if_pos hdv
      have hpast : envelopeBytes (prior.observe (inputPins bench.rx)).opened =
          ((pairsOf prior.opened).add
            ⟨true, bench.rx.miiRxErIob, bench.rx.miiRxdIob⟩).bytes := by
        rw [hsome, Envelopes.observe_some_opened, envelopeBytes, pairsOf_concat]
      have hclosed : (prior.observe (inputPins bench.rx)).closed =
          prior.closed := by
        rw [hsome, Envelopes.observe_some_closed]
      have hmarked : marked (bench.step ports (.mii pins skew)).rx =
          (bench.rx.rxFullWrite ports || bench.rx.rxFifoFullSeen) := by
        cases hbyte : bench.rx.rxByteNow <;>
          simp [marked, step, MiiIfRx.miiRxEdge, hdv, hbyte]
      cases hbyte : bench.rx.rxByteNow with
      | true =>
          rw [hbyte, eq_comm, Bool.not_eq_true'] at hwhole
          refine ⟨_, envelopeBytes prior.opened, .byte ?_ ?_ ?_, ?_⟩
          · simp [step, MiiIfRx.miiRxEdge, hdv, hbyte]
          · simp [step, MiiIfRx.miiRxEdge, hdv, hbyte]
          · rw [hpast, NibblePairs.bytes_add_of_whole hwhole, ← hpairs.low]
            simp [step, MiiIfRx.miiRxEdge, hdv, hbyte, envelopeBytes]
          · rw [hclosed, hmarked]
            exact hbooked
      | false =>
          rw [hbyte, eq_comm, Bool.not_eq_false'] at hwhole
          refine ⟨_, _, .nothing ?_, ?_⟩
          · simp [step, MiiIfRx.miiRxEdge, hdv, hbyte]
          · rw [hclosed, hmarked, hpast, NibblePairs.bytes_add_of_half hwhole]
            exact hbooked
  | false =>
      have hnone : inputPins bench.rx = none := if_neg (by simp [hdv])
      rw [hnone]
      cases hd1 : bench.rx.rxDvD1 with
      | true =>
          have hopened : prior.opened ≠ [] := by
            have hsome := hpairs.d1
            simpa [hd1] using hsome
          refine ⟨prior.closed, envelopeBytes prior.opened,
            .eof ?_ ?_ ?_ ?_, ?_⟩
          · simp [step, MiiIfRx.miiRxEdge, hdv, hd1]
          · simp [step, MiiIfRx.miiRxEdge, hdv, hd1]
          · exact Envelopes.observe_none_opened prior
          · rw [Envelopes.observe_none_closed, Envelopes.all_of_busy hopened]
          · refine hbooked.mark _ fun hmore => ?_
            rw [Bool.or_comm] at hmore
            simp [marked, step, MiiIfRx.miiRxEdge, hdv, hd1, hmore]
      | false =>
          have hopened : prior.opened = [] := by
            have hnot := hpairs.d1
            simpa [hd1] using hnot
          refine ⟨_, _, .nothing ?_, ?_⟩
          · simp [step, MiiIfRx.miiRxEdge, hdv, hd1]
          · rw [Envelopes.observe_none_closed, Envelopes.observe_none_opened,
              Envelopes.all_of_idle hopened]
            rw [hopened] at hbooked
            refine hbooked.mark _ fun hmore => ?_
            simpa [marked, step, MiiIfRx.miiRxEdge, hdv, hd1] using hmore

theorem books_start (fifo : Q) (mem : BitVec 12 → RxByte) (dout : RxByte) :
    (start fifo mem dout).Books :=
  ⟨.unseen, ⟨rfl, rfl, rfl, rfl, rfl⟩, [], [], .nothing rfl, booked_nil⟩

theorem Books.step (bench : MiiRxBench Q) (edge : MiiRxEdge)
    (hkeeps : bench.KeepsBoundary ports edge) (hbooks : bench.Books) :
    (bench.step ports edge).Books := by
  obtain ⟨prior, hpairs, tried, offered, hstaged, hbooked⟩ := hbooks.booked
  cases edge with
  | mii pins skew =>
      have hoffer := booked_offer hstaged hbooked pins skew hkeeps
      exact ⟨_, hpairs.mii pins skew, hpairs.stage pins skew hoffer⟩
  | clk skew late =>
      refine ⟨prior, ⟨hpairs.received, hpairs.half, hpairs.low,
        hpairs.sfdSeen, hpairs.d1⟩, tried, offered, ?_, hbooked⟩
      cases hstaged with
      | nothing hwrEn => exact .nothing hwrEn
      | byte hwrEn hbyte hbytes => exact .byte hwrEn hbyte hbytes
      | eof hwrEn heof hopened hclosed => exact .eof hwrEn heof hopened hclosed

/-- The envelopes whose EOF words have been offered are the first ones
received. -/
theorem Staged.tried_prefix {tried : List (List MiiRxIn)}
    {offered : List (BitVec 8)} (hstaged : Staged bench.rx prior tried offered)
    (pins : Option MiiRxIn) : tried <+: (prior.observe pins).closed := by
  have hall : prior.closed <+: (prior.observe pins).closed := by
    cases pins with
    | none =>
        rw [Envelopes.observe_none_closed]
        exact prior.closed_prefix_all
    | some nibble => exact List.prefix_rfl
  cases hstaged with
  | nothing hwrEn => exact hall
  | byte hwrEn hbyte hbytes => exact hall
  | eof hwrEn heof hopened hclosed =>
      exact (hclosed ▸ List.prefix_append _ _).trans hall

/-- The envelopes on the outputs are those of the frames that have been taken. -/
theorem Replaying.shows {frames : RxFrames}
    (hreplaying : Replaying bench.rx bench.delivered frames) :
    bench.delivered.Shows frames.replays := by
  cases hreplaying with
  | idle hstate hall => exact hall ▸ bench.delivered.shows_all
  | load hstate hloading =>
      refine ⟨[], by simpa using hloading.closed.symm, ?_⟩
      rw [hloading.opened]
      exact List.nil_prefix
  | prime hstate hloaded hclosed hopened =>
      rw [RxFrames.replays_concat hloaded.ne, ← hclosed]
      refine ⟨_, rfl, ?_⟩
      rw [hopened]
      exact List.nil_prefix
  | wait hstate hloaded hclosed hopened hindex hdout =>
      rw [RxFrames.replays_concat hloaded.ne, ← hclosed]
      refine ⟨_, rfl, ?_⟩
      rw [hopened]
      exact List.nil_prefix
  | @send past data err index hstate hloaded hclosed hopened hindex hdata =>
      rw [RxFrames.replays_concat hloaded.ne, ← hclosed]
      refine ⟨_, rfl, ?_⟩
      have hbegun : bench.delivered.opened ++ [bench.rx.rxMemRdData] <+:
          data := by
        rw [hopened, ← Option.toList_some bench.rx.rxMemRdData, ← hdata,
          ← List.take_add_one]
        exact List.take_prefix _ _
      exact prefix_flagLast hbegun err

/-- The frames that have been taken are the first of the frames in the FIFO. -/
theorem replays_take (words : List RxWord) (count : Nat) :
    (framesOf (words.take count)).replays <+: (framesOf words).replays := by
  have hpast := past_framesOf_append (words.take count) (words.drop count)
  rw [List.take_append_drop] at hpast
  exact (hpast.map replay).filter _

/-- Frames are kept apart, and fit into the frame memory. -/
def KeepsApart (ports : FifoPorts RxWord Q) (bench : MiiRxBench Q)
    (edge : MiiRxEdge) : Prop :=
  bench.KeepsBoundary ports edge ∧ bench.FitsMemory ports edge

instance (bench : MiiRxBench Q) (edge : MiiRxEdge) :
    Decidable (bench.KeepsApart ports edge) :=
  inferInstanceAs (Decidable (_ ∧ _))

theorem keepsApart_step {laws : BoundedFifo ports depth lag}
    (bench : MiiRxBench Q) (edge : MiiRxEdge)
    (hapart : bench.KeepsApart ports edge)
    (hinv : Reads laws bench ∧ bench.Books) :
    Reads laws (bench.step ports edge) ∧ (bench.step ports edge).Books :=
  ⟨hinv.1.step bench edge hapart.2, hinv.2.step bench edge hapart.1⟩

/-- As long as no data word is accepted behind the words of a frame whose EOF
word has been refused, and no byte is loaded beyond the frame memory, the
envelopes that come out are images of the envelopes that came in, in order. -/
theorem relays_run (laws : BoundedFifo ports depth lag) {fifo : Q}
    (hfifo : laws.Views fifo .empty) (mem : BitVec 12 → RxByte)
    (dout : RxByte) (edges : List MiiRxEdge)
    (hapart : Along (step ports) (KeepsApart ports) (start fifo mem dout)
      edges) :
    let bench := runFrom (step ports) (start fifo mem dout) edges
    Envelopes.Delivers Relays bench.received.closed bench.delivered := by
  intro bench
  obtain ⟨hreads, hbooks⟩ : Reads laws bench ∧ bench.Books :=
    invariant_along keepsApart_step
      ⟨reads_start laws hfifo mem dout, books_start fifo mem dout⟩ hapart
  obtain ⟨prior, hpairs, tried, offered, hstaged, hbooked⟩ := hbooks.booked
  obtain ⟨images, hrelays, hshown⟩ := hbooked.images
  obtain ⟨behind, hclosed⟩ := hstaged.tried_prefix (inputPins bench.rx)
  obtain ⟨later, hlater⟩ := replays_take bench.accepted bench.taken
  rw [← hlater, List.append_assoc] at hshown
  obtain ⟨rest, hrest, hopened⟩ := hreads.replaying.shows.append
    (later ++ if bench.orphaned then
      [flagLast (framesOf bench.accepted).part true] else [])
  refine ⟨images ++ List.replicate behind.length [], rest, ?_, ?_, hopened⟩
  · rw [hpairs.received, ← hclosed]
    exact List.rel_append hrelays (relays_missing behind)
  · rw [shown_append, shown_replicate_nil, List.append_nil, hshown, hrest]

/-- The nibbles of some bytes, low nibbles first. -/
def nibblesOf (bytes : List (BitVec 8)) : List MiiRxEdge :=
  bytes.flatMap fun byte =>
    [.mii ⟨true, false, BitVec.setWidth 4 byte⟩ ⟨false, false⟩,
      .mii ⟨true, false, BitVec.setWidth 4 (byte >>> 4)⟩ ⟨false, false⟩]

/-- Two envelopes on a FIFO of eight words.  The second one fills it while the
first one waits for `clk`, and goes on when there is room again. -/
def overflowRun : List MiiRxEdge :=
  nibblesOf [1, 2, 3] ++ [quiet, quiet, quiet] ++
    nibblesOf [0x11, 0x12, 0x13, 0x14, 0x15, 0x16] ++ clks 12 ++
    nibblesOf [0x17, 0x18] ++ [quiet, quiet, quiet] ++ clks 32

theorem relays_run_overflow :
    let bench := runFrom (step (AsyncFifo.ports 3 .distributed))
      (start (.reset (fun _ => ⟨false, false, 0⟩) ⟨false, false, 0⟩)
        (fun _ => (0, false)) (0, false)) overflowRun
    bench.received.closed.map envelopeBytes =
        [[1, 2, 3], [0x11, 0x12, 0x13, 0x14, 0x15, 0x16, 0x17, 0x18]] ∧
      bench.delivered.closed =
        [[(1, false), (2, false), (3, false)],
          [(0x11, false), (0x12, false), (0x13, false), (0x14, false),
            (0x17, true), (0x18, true)]] ∧
      Envelopes.Delivers Relays bench.received.closed bench.delivered :=
  ⟨by decide +kernel, by decide +kernel,
    relays_run (AsyncFifo.bounded (by decide))
      (AsyncFifo.views_reset (by decide) _ _) _ _ overflowRun
      (by decide +kernel)⟩

/-- No envelope has as many bytes as the one that came out. -/
theorem joinRun_not_relays {bytes : Nat} (hfill : bytes + 3 = 2 ^ 11) :
    ¬ Envelopes.Delivers Relays (portable (joinRun bytes)).received.closed
      (portable (joinRun bytes)).delivered := by
  rintro ⟨images, rest, hrelays, hshown, -⟩
  have hjoined := joinRun_delivered hfill
  generalize hbig : List.replicate (bytes + 1) ((0, false) : RxByte) ++
    [(0, true)] = joined at hjoined
  have hlength : joined.length = bytes + 2 := by simp [← hbig]
  have himage : joined ∈ images := by
    have hmem : joined ∈ shown images := by
      rw [hshown]
      exact List.mem_append_left _ hjoined
    exact List.mem_of_mem_filter hmem
  obtain ⟨envelope, henvelope, hrelay⟩ : ∃ envelope ∈
      (portable (joinRun bytes)).received.closed, Relays envelope joined := by
    obtain ⟨index, hindex, heq⟩ := List.getElem_of_mem himage
    have hsent := hrelays.length_eq ▸ hindex
    exact ⟨_, List.getElem_mem hsent, heq ▸ hrelays.get hsent hindex⟩
  have hshort := (joinRun_paused hfill).closed envelope henvelope
  have hmost := length_envelopeBytes_le envelope
  have hseen := (pairsOf envelope).sfdSeen.toNat_le
  rcases hrelay with rfl | ⟨hsublist, -⟩
  · simp at hlength
  · have hbytes := hsublist.length_le
    rw [List.length_map, hlength] at hbytes
    omega

/-- An envelope of 2046 bytes whose EOF word is refused, behind one of one byte
that is retired meanwhile: its bytes come out in one envelope with the byte of
the next one. -/
theorem refused_eof_joins_frames :
    List.replicate 2046 (0, false) ++ [(0, true)] ∈
        (portable (joinRun 2045)).delivered.closed ∧
      ¬ Envelopes.Delivers Relays
        (portable (joinRun 2045)).received.closed
        (portable (joinRun 2045)).delivered :=
  ⟨joinRun_delivered rfl, joinRun_not_relays rfl⟩

end MiiRxBench

end EmacZero
