/-
What `eth_pause_rx` in its nibble mode makes of the envelopes at its pins: the bytes
behind the SFD it has found, and whether the envelope had an error.
-/
import EmacZero.EthPauseRxRun
import EmacZero.MiiNibbles

namespace EmacZero

/-- `eth_pause_rx` with the bytes since its `rx_sfd`, and what it has made of the envelopes
that have ended. -/
structure PauseNibbles where
  bench : PauseRxBench
  body : Option (List (BitVec 8))
  verdicts : List (Option (List (BitVec 8) × Bool))

/-- The nibble goes to `rx_d` with four zeros before it. -/
def pausePins (pins : MiiRxIn) : PausePins := ⟨(0 : BitVec 4) ++ pins.rxd, pins.dv, pins.er, true⟩

theorem nibble_pausePins (pins : MiiRxIn) : (pausePins pins).nibble = pins.rxd := by
  change ((0 : BitVec 4) ++ pins.rxd).setWidth 4 = pins.rxd
  exact BitVec.setWidth_append_eq_right

theorem map_nibble_pausePins (envelope : List MiiRxIn) :
    (envelope.map pausePins).map PausePins.nibble = envelope.map MiiRxIn.rxd := by
  rw [List.map_map]
  exact List.map_congr_left fun pins _ => nibble_pausePins pins

theorem any_pausePins (envelope : List MiiRxIn) :
    (envelope.map pausePins).any PausePins.rxEr = envelope.any MiiRxIn.er := by
  rw [List.any_map]
  rfl

/-- Both pairings find the SFD at the same nibble. -/
theorem algn_eq_sfdSeen (envelope : List MiiRxIn) :
    ((envelope.map MiiRxIn.rxd).foldl OverlapPairs.add .start).algn =
        (nibbleBytes envelope).sfdSeen ∧
      ((envelope.map MiiRxIn.rxd).foldl OverlapPairs.add .start).low =
        (nibbleBytes envelope).low ∧
      ((nibbleBytes envelope).sfdSeen = false →
        ((envelope.map MiiRxIn.rxd).foldl OverlapPairs.add .start).half = false →
        (nibbleBytes envelope).low = 0) := by
  induction envelope using List.reverseRecOn with
  | nil => exact ⟨rfl, rfl, fun _ _ => rfl⟩
  | append_singleton envelope nibble ih =>
      obtain ⟨halgn, hlow, hhalf⟩ := ih
      rw [List.map_append, List.foldl_append, nibbleBytes_concat]
      generalize (envelope.map MiiRxIn.rxd).foldl OverlapPairs.add .start = overlap at *
      generalize nibbleBytes envelope = pairs at *
      have hsfd : overlap.sfd nibble.rxd = pairs.sfd nibble := by
        rw [OverlapPairs.sfd, NibbleBytes.sfd, halgn, hlow]
        cases hseen : pairs.sfdSeen with
        | true => rfl
        | false =>
            cases hhave : overlap.half with
            | true => simp [Bool.and_comm]
            | false => simp [hhalf hseen hhave]
      refine ⟨?_, rfl, ?_⟩
      · change (overlap.sfd nibble.rxd || overlap.algn) = (pairs.sfd nibble || pairs.sfdSeen)
        rw [hsfd, halgn]
      · intro hseen hhave
        simp only [NibbleBytes.add, Bool.or_eq_false_iff] at hseen
        simp [OverlapPairs.add, hsfd, hseen.1, halgn, hseen.2] at hhave

namespace PauseNibbles

variable {rec : PauseNibbles} {prior : Envelopes MiiRxIn}

def start : PauseNibbles := ⟨.start, none, []⟩

def rxEdge (rec : PauseNibbles) (pins : MiiRxIn) : PauseNibbles where
  bench := rec.bench.step true (pausePins pins)
  body :=
    if rec.bench.rx.bEnd then none
    else if rec.bench.rx.rxSfd then some []
    else if rec.bench.rx.bStb then rec.body.map (· ++ [rec.bench.rx.bD])
    else rec.body
  verdicts :=
    if rec.bench.rx.bEnd then
      rec.verdicts ++ [rec.body.map fun body => (body, rec.bench.rx.bEndEr)]
    else rec.verdicts

/-- The bytes behind the `rx_sfd` of the parser are those behind the SFD. -/
theorem body_rxEdge {bytes : List (BitVec 8)} (hparsed : Parsed rec.bench.rx bytes)
    (hbody : rec.body = frameOf bytes) (hend : rec.bench.rx.bEnd = false) (pins : MiiRxIn) :
    (rec.rxEdge pins).body = frameOf (bytes ++ PauseRxBench.strobed rec.bench.rx) := by
  rw [rxEdge]
  dsimp only
  rw [hend, if_neg Bool.false_ne_true, PauseRxBench.strobed, hbody]
  cases hstb : rec.bench.rx.bStb with
  | false => simp [EthPauseRx.rxSfd, hstb]
  | true =>
      rw [if_pos rfl, if_pos rfl]
      have hstart (hpre : ∀ byte ∈ bytes, byte = 0x55)
          (hat : rec.bench.rx.rxState = .idle ∨ rec.bench.rx.rxState = .pre) :
          (if rec.bench.rx.rxSfd then some [] else
            (frameOf bytes).map (· ++ [rec.bench.rx.bD])) =
            frameOf (bytes ++ [rec.bench.rx.bD]) := by
        rw [frameOf_preamble hpre, frameOf_of_preamble hpre, frameOf]
        by_cases hsfd : rec.bench.rx.bD = 0xD5
        · rcases hat with hat | hat <;> simp [EthPauseRx.rxSfd, hstb, hat, hsfd]
        · have hnot : (rec.bench.rx.bD == 0xD5) = false := beq_eq_false_iff_ne.mpr hsfd
          simp only [EthPauseRx.rxSfd, hnot, Bool.and_false, Bool.false_eq_true, if_false,
            if_neg hsfd, Option.map_none]
          split <;> rfl
      cases hparsed with
      | idle hnil hat => exact hstart (by simp [hnil]) (Or.inl hat)
      | preamble hne hpre hat => exact hstart hpre (Or.inr hat)
      | frame body hframe hon =>
          rw [(hon.takes hstb).2.1, if_neg Bool.false_ne_true, hframe,
            frameOf_append_some hframe]
          rfl
      | drain hbad hfails hat =>
          have hsfd : rec.bench.rx.rxSfd = false := by simp [EthPauseRx.rxSfd, hat]
          rw [hsfd, if_neg Bool.false_ne_true]
          cases hframe : frameOf bytes with
          | none => rw [frameOf_append_none hframe hbad, Option.map_none]
          | some body => rw [frameOf_append_some hframe, Option.map_some]

/-- The receiver has taken these envelopes. -/
structure Holds (rec : PauseNibbles) (prior : Envelopes MiiRxIn) : Prop where
  follows : rec.bench.Follows true
  opened : rec.bench.opened = prior.opened.map pausePins
  during : rec.bench.ended = none → rec.verdicts = prior.closed.map nibbleVerdict ∧
    ∃ bytes, strobes true rec.bench.opened = bytes ++ PauseRxBench.strobed rec.bench.rx ∧
      Parsed rec.bench.rx bytes ∧ rec.body = frameOf bytes
  after : ∀ ended, rec.bench.ended = some ended → ∃ front envelope,
    prior.closed = front ++ [envelope] ∧ ended = envelope.map pausePins ∧
      rec.verdicts = front.map nibbleVerdict ∧ rec.body = frameOf (strobes true ended)

theorem holds_start : start.Holds .unseen where
  follows := PauseRxBench.follows_start
  opened := rfl
  during _ := ⟨rfl, [], rfl, Parsed.idle rfl rfl, rfl⟩
  after ended hsome := by cases hsome

/-- What the receiver makes of an envelope is what it carries. -/
theorem verdict_eq (envelope : List MiiRxIn) :
    (frameOf (strobes true (envelope.map pausePins))).map
        (fun body => (body, (envelope.map pausePins).any PausePins.rxEr)) =
      nibbleVerdict envelope := by
  rw [frameOf_strobes, pauseBody, if_pos rfl, map_nibble_pausePins, any_pausePins,
    nibbleVerdict]

/-- Bytes, verdicts and parser behind the next cycle, but for its nibble. -/
theorem Holds.before (hholds : rec.Holds prior) (pins : MiiRxIn) :
    (rec.rxEdge pins).verdicts = prior.closed.map nibbleVerdict ∧
      (rec.rxEdge pins).body = frameOf (strobes true rec.bench.opened) := by
  cases hended : rec.bench.ended with
  | none =>
      have hend : rec.bench.rx.bEnd = false := by
        rw [hholds.follows.bEnd, hended]
        rfl
      obtain ⟨hverdicts, bytes, hbytes, hparsed, hbody⟩ := hholds.during hended
      refine ⟨?_, (body_rxEdge hparsed hbody hend pins).trans (by rw [hbytes])⟩
      rw [← hverdicts]
      simp [rxEdge, hend]
  | some ended =>
      have hend : rec.bench.rx.bEnd = true := by
        rw [hholds.follows.bEnd, hended]
        rfl
      obtain ⟨hopened, -, hendEr, -⟩ := hholds.follows.after ended hended
      obtain ⟨front, envelope, hclosed, hsame, hverdicts, hbody⟩ := hholds.after ended hended
      constructor
      · rw [hclosed, List.map_append, ← hverdicts, List.map_singleton, ← verdict_eq, ← hsame,
          ← hbody, ← hendEr]
        simp [rxEdge, hend]
      · rw [hopened]
        simp [rxEdge, hend]
        rfl

theorem Holds.rxEdge (hholds : rec.Holds prior) (pins : MiiRxIn) :
    (rec.rxEdge pins).Holds (prior.observe (nibbleOn pins)) := by
  obtain ⟨hverdicts, hbody⟩ := hholds.before pins
  have hfollows := hholds.follows.step (pausePins pins)
  have hparsed := PauseRxBench.parsed_before hholds.follows (pausePins pins)
  have hpins : (pausePins pins).rxDv = pins.dv := rfl
  cases hdv : pins.dv with
  | true =>
      have hopened : (rec.rxEdge pins).bench.opened =
          (prior.observe (nibbleOn pins)).opened.map pausePins := by
        rw [nibbleOn, if_pos hdv, Envelopes.observe_some_opened, List.map_append,
          ← hholds.opened]
        simp [PauseNibbles.rxEdge, PauseRxBench.step, hpins, hdv]
      refine ⟨hfollows, hopened, fun _ => ⟨?_, ?_⟩, ?_⟩
      · rw [hverdicts, nibbleOn, if_pos hdv, Envelopes.observe_some_closed]
      · refine ⟨strobes true rec.bench.opened, ?_, hparsed, hbody⟩
        have hstrobes := PauseRxBench.strobes_step hholds.follows (hpins.trans hdv)
        refine Eq.trans ?_ hstrobes
        simp [PauseNibbles.rxEdge, PauseRxBench.step, hpins, hdv]
      · intro ended hsome
        simp [PauseNibbles.rxEdge, PauseRxBench.step, hpins, hdv] at hsome
  | false =>
      have hended : (rec.rxEdge pins).bench.ended =
          if rec.bench.opened.isEmpty then none else some rec.bench.opened := by
        simp [PauseNibbles.rxEdge, PauseRxBench.step, hpins, hdv]
      rw [nibbleOn, hdv, if_neg Bool.false_ne_true]
      refine ⟨hfollows, ?_, ?_, ?_⟩
      · rw [Envelopes.observe_none_opened]
        simp [PauseNibbles.rxEdge, PauseRxBench.step, hpins, hdv]
      · intro hnone
        have hidle : prior.opened = [] := by
          rw [hended, hholds.opened] at hnone
          by_contra hbusy
          simp [hbusy] at hnone
        have hempty : strobes true rec.bench.opened = [] := by
          rw [hholds.opened, hidle]
          rfl
        rw [hempty] at hparsed hbody
        refine ⟨?_, [], ?_, hparsed, hbody⟩
        · rw [hverdicts, Envelopes.observe_none_closed, Envelopes.all_of_idle hidle]
        · simp [PauseNibbles.rxEdge, PauseRxBench.step, PauseRxBench.strobed, EthPauseRx.clkEdge,
            EthPauseRx.nextByteStage, hpins, hdv]
          rfl
      · intro ended hsome
        have hbusy : prior.opened ≠ [] := by
          intro hidle
          rw [hended, hholds.opened, hidle] at hsome
          cases hsome
        have hlast : ended = prior.opened.map pausePins := by
          rw [hended, hholds.opened] at hsome
          split at hsome
          · cases hsome
          · exact (Option.some.inj hsome).symm
        refine ⟨prior.closed, prior.opened, ?_, hlast, hverdicts, ?_⟩
        · rw [Envelopes.observe_none_closed, Envelopes.all_of_busy hbusy]
        · rw [hbody, hlast, hholds.opened]

end PauseNibbles

end EmacZero
