/-
`eth_pause_rx` over a run: `pause_tgl` flips for every valid PAUSE frame, and only then.
-/
import EmacZero.ClockedRun
import EmacZero.EthPause
import EmacZero.EthPauseRxFrames

namespace EmacZero

/-- The receiver, the cycles of the envelope under way, and the envelope that ended in
the last cycle. -/
structure PauseRxBench where
  rx : EthPauseRx
  opened : List PausePins
  ended : Option (List PausePins)
deriving Repr, DecidableEq

/-- The envelope is a valid PAUSE frame, with these bytes behind its SFD. -/
structure ValidPause (rxNibble : Bool) (envelope : List PausePins)
    (body : List (BitVec 8)) : Prop where
  found : pauseBody rxNibble envelope = some body
  pause : IsPause body
  clean : ∀ pins ∈ envelope, pins.rxEr = false

/-- What the generator sends is a PAUSE frame, with the time it was asked for. -/
theorem isPause_pauseFrame (mac : BitVec 48) (quanta : BitVec 16) :
    IsPause (pauseFrame mac quanta ++ fcsOf (pauseFrame mac quanta)) ∧
      pauseTime (pauseFrame mac quanta ++ fcsOf (pauseFrame mac quanta)) = quanta := by
  have hlength : (pauseFrame mac quanta).length = 60 := rfl
  refine ⟨⟨?_, ?_, ?_⟩, ?_⟩
  · rw [List.length_append, length_fcsOf, hlength]
  · intro index byte hbyte field hfield
    have hearly : index < 16 := by
      by_contra hlate
      rw [pauseHeader_late (by omega)] at hfield
      cases hfield
    interval_cases index <;> cases hfield <;> cases hbyte <;> rfl
  · rw [fcsOk, List.length_append, length_fcsOf, Nat.add_sub_cancel, List.drop_left,
      List.take_left, beq_self_eq_true]
  · exact append_extract quanta

namespace PauseRxBench

def start : PauseRxBench := ⟨.reset, [], none⟩

def step (rxNibble : Bool) (bench : PauseRxBench) (pins : PausePins) : PauseRxBench where
  rx := bench.rx.clkEdge rxNibble pins
  opened := if pins.rxDv then bench.opened ++ [pins] else []
  ended := if pins.rxDv || bench.opened.isEmpty then none else some bench.opened

/-- The toggle flips in the cycle after the end of a valid PAUSE frame and in no other,
and the quanta are those of the frame then. -/
structure Recognises (rxNibble : Bool) (bench : PauseRxBench) : Prop where
  flips : ∀ pins, (bench.step rxNibble pins).rx.pauseTgl ≠ bench.rx.pauseTgl ↔
    ∃ envelope ∈ bench.ended, ∃ body, ValidPause rxNibble envelope body
  quanta : ∀ pins, ∀ envelope ∈ bench.ended, ∀ body, ValidPause rxNibble envelope body →
    (bench.step rxNibble pins).rx.pauseQuanta = pauseTime body

/-- The pairing of the envelope under way. -/
def pairs (bench : PauseRxBench) : OverlapPairs :=
  (bench.opened.map PausePins.nibble).foldl OverlapPairs.add .start

/-- The byte on the strobe. -/
def strobed (rx : EthPauseRx) : List (BitVec 8) := if rx.bStb then [rx.bD] else []

/-- What the registers know of the envelopes. -/
structure Follows (rxNibble : Bool) (bench : PauseRxBench) : Prop where
  bEnd : bench.rx.bEnd = bench.ended.isSome
  dvD1 : bench.rx.dvD1 = !bench.opened.isEmpty
  dvEr : bench.rx.dvEr = bench.opened.any PausePins.rxEr
  algn : bench.rx.nibAlgn = bench.pairs.algn
  half : bench.rx.nibHave = bench.pairs.half
  low : bench.rx.nibHave = true → bench.rx.nibLow = bench.pairs.low
  during : bench.ended = none → ∃ bytes,
    strobes rxNibble bench.opened = bytes ++ strobed bench.rx ∧ Parsed bench.rx bytes
  after : ∀ envelope, bench.ended = some envelope → bench.opened = [] ∧
    bench.rx.bStb = false ∧ bench.rx.bEndEr = envelope.any PausePins.rxEr ∧
    Parsed bench.rx (strobes rxNibble envelope)

variable {rxNibble : Bool} {bench : PauseRxBench}

theorem sfdNow_eq (hfollows : bench.Follows rxNibble) (pins : PausePins) :
    bench.rx.sfdNow pins = bench.pairs.sfd pins.nibble := by
  rw [EthPauseRx.sfdNow, OverlapPairs.sfd, hfollows.algn, hfollows.half]
  cases hhalf : bench.pairs.half with
  | false => simp
  | true => rw [hfollows.low (hfollows.half.trans hhalf)]

theorem pairs_step (bench : PauseRxBench) {pins : PausePins} (hdv : pins.rxDv = true) :
    (bench.step rxNibble pins).pairs = bench.pairs.add pins.nibble := by
  rw [pairs, step, if_pos hdv, List.map_append, List.foldl_append]
  rfl

/-- The byte stage strobes the bytes of the envelope. -/
theorem strobes_step (hfollows : bench.Follows rxNibble) {pins : PausePins}
    (hdv : pins.rxDv = true) :
    strobes rxNibble (bench.opened ++ [pins]) =
      strobes rxNibble bench.opened ++ strobed (bench.step rxNibble pins).rx := by
  cases rxNibble with
  | false =>
      rw [strobes, strobes, if_neg Bool.false_ne_true, if_neg Bool.false_ne_true,
        List.filter_append, List.map_append]
      cases hce : pins.rxCe <;>
        simp [strobed, step, EthPauseRx.clkEdge, EthPauseRx.nextByteStage, hdv, hce]
  | true =>
      rw [strobes, strobes, if_pos rfl, if_pos rfl, List.map_append, List.foldl_append]
      have hhalf := hfollows.half
      have hlow := hfollows.low
      change (bench.pairs.add pins.nibble).bytes = bench.pairs.bytes ++ _
      cases hhave : bench.rx.nibHave with
      | false =>
          rw [hhave] at hhalf
          simp [OverlapPairs.add, ← hhalf, strobed, step, EthPauseRx.clkEdge,
            EthPauseRx.nextByteStage, hdv, hhave]
      | true =>
          rw [hhave] at hhalf
          simp [OverlapPairs.add, ← hhalf, strobed, step, EthPauseRx.clkEdge,
            EthPauseRx.nextByteStage, hdv, hhave, hlow hhave]

/-- Behind the byte on the strobe the parser has taken the whole envelope so far. -/
theorem parsed_step (hfollows : bench.Follows rxNibble) (hnone : bench.ended = none)
    (pins : PausePins) :
    Parsed (bench.step rxNibble pins).rx (strobes rxNibble bench.opened) := by
  obtain ⟨bytes, hbytes, hparsed⟩ := hfollows.during hnone
  have hend : bench.rx.bEnd = false := by rw [hfollows.bEnd, hnone]; rfl
  rw [hbytes, strobed]
  split
  · rename_i hstb
    exact hparsed.byte hstb hend
  · rename_i hstb
    rw [List.append_nil]
    exact hparsed.quiet (Bool.eq_false_iff.mpr hstb) hend

/-- What the parser has taken when the next cycle begins. -/
theorem parsed_before (hfollows : bench.Follows rxNibble) (pins : PausePins) :
    Parsed (bench.step rxNibble pins).rx (strobes rxNibble bench.opened) := by
  cases hended : bench.ended with
  | none => exact parsed_step hfollows hended pins
  | some envelope =>
      have hopened := (hfollows.after envelope hended).1
      have hnil : strobes rxNibble [] = [] := by cases rxNibble <;> rfl
      rw [hopened, hnil]
      exact parsed_end (by rw [hfollows.bEnd, hended]; rfl)

theorem Follows.step (hfollows : bench.Follows rxNibble) (pins : PausePins) :
    (bench.step rxNibble pins).Follows rxNibble := by
  have hbefore := parsed_before hfollows pins
  cases hdv : pins.rxDv with
  | true =>
      have hopened : (bench.step rxNibble pins).opened = bench.opened ++ [pins] := if_pos hdv
      have hended : (bench.step rxNibble pins).ended = none := by
        simp [PauseRxBench.step, hdv]
      have hpairs := @pairs_step rxNibble bench pins hdv
      constructor
      · rw [hended]
        simp [PauseRxBench.step, EthPauseRx.clkEdge, EthPauseRx.nextByteStage, hdv]
      · rw [hopened]
        simp [PauseRxBench.step, EthPauseRx.clkEdge, EthPauseRx.nextByteStage, hdv]
      · rw [hopened, List.any_append, ← hfollows.dvEr]
        simp [PauseRxBench.step, EthPauseRx.clkEdge, EthPauseRx.nextByteStage, hdv]
      · rw [hpairs, OverlapPairs.add, ← sfdNow_eq hfollows pins, ← hfollows.algn]
        simp [PauseRxBench.step, EthPauseRx.clkEdge, EthPauseRx.nextByteStage, hdv]
      · rw [hpairs, OverlapPairs.add, ← sfdNow_eq hfollows pins, ← hfollows.algn,
          ← hfollows.half]
        simp [PauseRxBench.step, EthPauseRx.clkEdge, EthPauseRx.nextByteStage, hdv]
      · intro _
        rw [hpairs]
        simp [PauseRxBench.step, EthPauseRx.clkEdge, EthPauseRx.nextByteStage, hdv,
          OverlapPairs.add]
      · intro _
        rw [hopened]
        exact ⟨_, strobes_step hfollows hdv, hbefore⟩
      · intro envelope hsome
        rw [hended] at hsome
        cases hsome
  | false =>
      have hopened : (bench.step rxNibble pins).opened = [] := by
        simp [PauseRxBench.step, hdv]
      have hpairs : (bench.step rxNibble pins).pairs = .start := by
        rw [pairs, hopened]
        rfl
      have hstb : (bench.step rxNibble pins).rx.bStb = false := by
        cases rxNibble <;>
          simp [PauseRxBench.step, EthPauseRx.clkEdge, EthPauseRx.nextByteStage, hdv]
      have hended : (bench.step rxNibble pins).ended =
          if bench.opened.isEmpty then none else some bench.opened := by
        simp [PauseRxBench.step, hdv]
      constructor
      · have hend : (bench.step rxNibble pins).rx.bEnd = bench.rx.dvD1 := by
          simp [PauseRxBench.step, EthPauseRx.clkEdge, EthPauseRx.nextByteStage, hdv]
        rw [hend, hended, hfollows.dvD1]
        cases bench.opened.isEmpty <;> rfl
      · rw [hopened]
        simp [PauseRxBench.step, EthPauseRx.clkEdge, EthPauseRx.nextByteStage, hdv]
      · rw [hopened]
        simp [PauseRxBench.step, EthPauseRx.clkEdge, EthPauseRx.nextByteStage, hdv]
      · rw [hpairs]
        simp [PauseRxBench.step, EthPauseRx.clkEdge, EthPauseRx.nextByteStage, hdv,
          OverlapPairs.start]
      · rw [hpairs]
        simp [PauseRxBench.step, EthPauseRx.clkEdge, EthPauseRx.nextByteStage, hdv,
          OverlapPairs.start]
      · intro hhave
        simp [PauseRxBench.step, EthPauseRx.clkEdge, EthPauseRx.nextByteStage, hdv] at hhave
      · intro hnone
        rw [hended] at hnone
        have hempty : bench.opened = [] := by
          cases hopen : bench.opened with
          | nil => rfl
          | cons first rest =>
              rw [hopen] at hnone
              cases hnone
        rw [hempty] at hbefore
        refine ⟨_, ?_, hbefore⟩
        rw [hopened, strobed, hstb]
        simp
      · intro envelope hsome
        rw [hended] at hsome
        have henvelope : bench.opened = envelope := by
          split at hsome
          · cases hsome
          · exact Option.some.inj hsome
        rw [henvelope] at hbefore
        refine ⟨hopened, hstb, ?_, hbefore⟩
        rw [← henvelope, ← hfollows.dvEr]
        rfl

theorem follows_start : start.Follows rxNibble where
  bEnd := rfl
  dvD1 := rfl
  dvEr := rfl
  algn := rfl
  half := rfl
  low hhave := by cases hhave
  during _ := ⟨[], by cases rxNibble <;> rfl, Parsed.idle rfl rfl⟩
  after envelope hsome := by cases hsome

theorem pauseTgl_clkEdge (rx : EthPauseRx) (pins : PausePins) :
    (rx.clkEdge rxNibble pins).pauseTgl = (rx.commits ^^ rx.pauseTgl) := by
  have hbyte : rx.parseByte.pauseTgl = rx.pauseTgl := by
    unfold EthPauseRx.parseByte
    split <;> first | rfl | (split <;> first | rfl | (split <;> rfl))
  cases hend : rx.bEnd with
  | true =>
      simp only [EthPauseRx.clkEdge, EthPauseRx.nextParser, hend, if_true]
      cases rx.commits <;> simp
  | false =>
      have hcommits : rx.commits = false := by simp [EthPauseRx.commits, hend]
      rw [hcommits, Bool.false_xor]
      simp only [EthPauseRx.clkEdge, EthPauseRx.nextParser, hend, Bool.false_eq_true, if_false]
      cases hstb : rx.bStb <;> simp only [if_true, Bool.false_eq_true, if_false] <;>
        split <;> first | rfl | exact hbyte

/-- The receiver commits exactly the valid PAUSE frames. -/
theorem commits_iff (hfollows : bench.Follows rxNibble) :
    bench.rx.commits = true ↔
      ∃ envelope ∈ bench.ended, ∃ body, ValidPause rxNibble envelope body := by
  cases hended : bench.ended with
  | none =>
      have hend : bench.rx.bEnd = false := by rw [hfollows.bEnd, hended]; rfl
      simp [EthPauseRx.commits, hend]
  | some envelope =>
      obtain ⟨-, hstb, hendEr, hparsed⟩ := hfollows.after envelope hended
      have hend : bench.rx.bEnd = true := by rw [hfollows.bEnd, hended]; rfl
      constructor
      · intro hcommits
        simp only [EthPauseRx.commits, Bool.and_eq_true, beq_iff_eq, Bool.not_eq_true'] at hcommits
        obtain ⟨⟨⟨⟨-, hlatch⟩, hfcs⟩, her⟩, hlen⟩ := hcommits
        obtain ⟨body, hbody, hon⟩ := hparsed.of_latch hlatch
        have hlong : 64 ≤ body.length := by
          have hcount := hon.rxLen
          rw [hlen, show (64 : BitVec 7).toNat = 64 from rfl] at hcount
          omega
        refine ⟨envelope, rfl, body, (frameOf_strobes _ _).symm.trans hbody,
          ⟨hlong, hon.header, ?_⟩, ?_⟩
        · rw [← crcOf_eq_residue_iff (by omega), ← hon.rxCrc]
          exact beq_iff_eq.mp hfcs
        · rw [hendEr, List.any_eq_false] at her
          exact fun pins hpins => Bool.eq_false_iff.mpr (her pins hpins)
      · rintro ⟨other, hother, body, hvalid⟩
        obtain rfl := Option.some.inj hother
        have hon := hparsed.onFrame ((frameOf_strobes _ _).trans hvalid.found)
          hvalid.pause.header
        have hlong := hvalid.pause.long
        have hplace := hon.place
        rw [parserPlace_late (by omega)] at hplace
        have hfcs : bench.rx.rxCrc.crcReg = crcResidue := by
          rw [hon.rxCrc, crcOf_eq_residue_iff (by omega)]
          exact hvalid.pause.fcs
        have hlen : bench.rx.rxLen = 64 := by
          apply BitVec.eq_of_toNat_eq
          rw [hon.rxLen]
          exact Nat.min_eq_right hlong
        have her : bench.rx.bEndEr = false := by
          rw [hendEr, List.any_eq_false]
          exact fun pins hpins => Bool.eq_false_iff.mp (hvalid.clean pins hpins)
        simp [EthPauseRx.commits, EthPauseRx.rxFcsOk, Crc32.crcRaw, hend, hfcs, hlen, her,
          (Prod.mk.inj hplace).1]

/-- A valid PAUSE frame flips the toggle when it ends, and nothing else does. -/
theorem Follows.recognises (hfollows : bench.Follows rxNibble) :
    bench.Recognises rxNibble where
  flips pins := by
    rw [← commits_iff hfollows]
    change (bench.rx.clkEdge rxNibble pins).pauseTgl ≠ _ ↔ _
    rw [pauseTgl_clkEdge]
    cases bench.rx.commits <;> cases bench.rx.pauseTgl <;> decide
  quanta pins envelope hended body hvalid := by
    obtain ⟨-, hstb, -, hparsed⟩ := hfollows.after envelope hended
    have hon := hparsed.onFrame ((frameOf_strobes _ _).trans hvalid.found) hvalid.pause.header
    have hlong := hvalid.pause.long
    have hkept : (bench.step rxNibble pins).rx.pauseQuanta = bench.rx.pauseQuanta := by
      change (bench.rx.nextParser).pauseQuanta = _
      simp only [EthPauseRx.nextParser, hstb, EthPauseRx.rxBody, Bool.false_and,
        Bool.false_eq_true, if_false]
      split <;> rfl
    have hhi := hon.quantaHi _ (List.getElem?_eq_getElem (by omega))
    have hlo := hon.quantaLo _ (List.getElem?_eq_getElem (by omega))
    rw [hkept, pauseTime, List.getD_eq_getElem _ _ (by omega),
      List.getD_eq_getElem _ _ (by omega), ← hhi, ← hlo]
    exact (append_extract _).symm

/-- In every state of every run the receiver recognises exactly the valid PAUSE frames. -/
theorem recognises_run (rxNibble : Bool) (cycles : List PausePins) :
    (runFrom (step rxNibble) start cycles).Recognises rxNibble :=
  (invariant_runFrom (fun _ pins hfollows => hfollows.step pins) follows_start
    cycles).recognises

end PauseRxBench

end EmacZero
