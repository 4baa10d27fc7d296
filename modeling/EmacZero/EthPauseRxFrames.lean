/-
The parser of `eth_pause_rx` against the PAUSE frames it is to recognise.
-/
import Mathlib.Tactic.IntervalCases
import EmacZero.EthPauseRxBytes
import EmacZero.MacEnvelopes

namespace EmacZero

/-- Destination, EtherType and opcode of a PAUSE frame, by their places. -/
def pauseHeader : Nat → Option (BitVec 8)
  | 0 => some 0x01
  | 1 => some 0x80
  | 2 => some 0xC2
  | 3 => some 0x00
  | 4 => some 0x00
  | 5 => some 0x01
  | 12 => some 0x88
  | 13 => some 0x08
  | 14 => some 0x00
  | 15 => some 0x01
  | _ => none

/-- The bytes so far are those of a PAUSE frame. -/
def Matches (body : List (BitVec 8)) : Prop :=
  ∀ index byte, body[index]? = some byte → ∀ field ∈ pauseHeader index, byte = field

/-- A PAUSE frame that is valid by itself. -/
structure IsPause (body : List (BitVec 8)) : Prop where
  long : 64 ≤ body.length
  header : Matches body
  fcs : fcsOk body = true

/-- `pause_time` -/
def pauseTime (body : List (BitVec 8)) : BitVec 16 := body.getD 16 0 ++ body.getD 17 0

/-- State and index of the parser behind this many bytes of a frame that matches. -/
def parserPlace (count : Nat) : PauseRxState × BitVec 3 :=
  if count < 6 then (.dst, BitVec.ofNat 3 count)
  else if count < 12 then (.src, BitVec.ofNat 3 (count - 6))
  else
    match count with
    | 12 => (.typeHi, 0)
    | 13 => (.typeLo, 0)
    | 14 => (.opHi, 0)
    | 15 => (.opLo, 0)
    | 16 => (.quantaHi, 0)
    | 17 => (.quantaLo, 0)
    | _ => (.latch, 0)

theorem matches_nil : Matches [] := by
  intro index byte hbyte
  simp at hbyte

theorem matches_concat {body : List (BitVec 8)} {byte : BitVec 8} :
    Matches (body ++ [byte]) ↔
      Matches body ∧ ∀ field ∈ pauseHeader body.length, byte = field := by
  constructor
  · intro hmatches
    constructor
    · intro index other hother
      apply hmatches index other
      rw [List.getElem?_append_left (List.getElem?_eq_some_iff.mp hother).1]
      exact hother
    · exact hmatches body.length byte List.getElem?_concat_length
  · rintro ⟨hbody, hbyte⟩ index other hother
    rcases Nat.lt_trichotomy index body.length with hlt | heq | hgt
    · rw [List.getElem?_append_left hlt] at hother
      exact hbody index other hother
    · rw [heq, List.getElem?_concat_length, Option.some.injEq] at hother
      rw [heq, ← hother]
      exact hbyte
    · rw [List.getElem?_eq_none (by simp; omega)] at hother
      cases hother

/-- What the parser knows of a frame that matches so far. -/
structure OnFrame (rx : EthPauseRx) (body : List (BitVec 8)) : Prop where
  header : Matches body
  place : (rx.rxState, rx.rxIdx) = parserPlace body.length
  rxLen : rx.rxLen.toNat = min body.length 64
  rxCrc : rx.rxCrc.crcReg = crcOf body
  quantaHi : ∀ byte, body[16]? = some byte → rx.pauseQuanta.extractLsb' 8 8 = byte
  quantaLo : ∀ byte, body[17]? = some byte → rx.pauseQuanta.extractLsb' 0 8 = byte

/-- The parser behind the bytes of an envelope so far. -/
inductive Parsed (rx : EthPauseRx) (bytes : List (BitVec 8)) : Prop where
  | idle (hnil : bytes = []) (hstate : rx.rxState = .idle)
  | preamble (hne : bytes ≠ []) (hpre : ∀ byte ∈ bytes, byte = 0x55)
      (hstate : rx.rxState = .pre)
  | frame (body : List (BitVec 8)) (hbody : frameOf bytes = some body)
      (hon : OnFrame rx body)
  | drain (hbad : ∃ byte ∈ bytes, byte ≠ 0x55)
      (hfails : ∀ body, frameOf bytes = some body → ¬Matches body)
      (hstate : rx.rxState = .drain)

variable {rx : EthPauseRx} {body bytes : List (BitVec 8)}

theorem parserPlace_late {count : Nat} (hlate : 18 ≤ count) :
    parserPlace count = (.latch, 0) := by
  obtain ⟨later, rfl⟩ := Nat.exists_eq_add_of_le' hlate
  rw [parserPlace, if_neg (by omega), if_neg (by omega)]
  all_goals omega

theorem pauseHeader_late {count : Nat} (hlate : 16 ≤ count) : pauseHeader count = none := by
  obtain ⟨later, rfl⟩ := Nat.exists_eq_add_of_le' hlate
  rfl

/-- The state behind one more byte of a frame. -/
theorem parseByte_place {count : Nat} (hplace : (rx.rxState, rx.rxIdx) = parserPlace count) :
    ((∀ field ∈ pauseHeader count, rx.bD = field) ∧
        (rx.parseByte.rxState, rx.parseByte.rxIdx) = parserPlace (count + 1)) ∨
      ((∃ field ∈ pauseHeader count, rx.bD ≠ field) ∧ rx.parseByte.rxState = .drain) := by
  by_cases hlate : 18 ≤ count
  · rw [parserPlace_late hlate] at hplace
    obtain ⟨hstate, hidx⟩ := Prod.mk.inj hplace
    rw [parserPlace_late (by omega), pauseHeader_late (by omega)]
    left
    simp [EthPauseRx.parseByte, hstate, hidx]
  · interval_cases count
    all_goals
      obtain ⟨hstate, hidx⟩ := Prod.mk.inj hplace
      simp [EthPauseRx.parseByte, hstate, hidx, dstByteMatch, pauseHeader, parserPlace]
    -- the places with a field are left
    all_goals first | exact Decidable.em _ | (split <;> simp_all)

/-- The two bytes of the time are taken from their places, and no other. -/
theorem parseByte_pauseQuanta {count : Nat}
    (hplace : (rx.rxState, rx.rxIdx) = parserPlace count) :
    rx.parseByte.pauseQuanta =
      if count = 16 then rx.bD ++ rx.pauseQuanta.extractLsb' 0 8
      else if count = 17 then rx.pauseQuanta.extractLsb' 8 8 ++ rx.bD
      else rx.pauseQuanta := by
  by_cases hlate : 18 ≤ count
  · rw [parserPlace_late hlate] at hplace
    obtain ⟨hstate, hidx⟩ := Prod.mk.inj hplace
    rw [if_neg (by omega), if_neg (by omega), EthPauseRx.parseByte, hstate]
  · interval_cases count
    all_goals
      obtain ⟨hstate, hidx⟩ := Prod.mk.inj hplace
      simp [EthPauseRx.parseByte, hstate, hidx, dstByteMatch]
    all_goals split <;> rfl

theorem parserPlace_body (count : Nat) :
    (parserPlace count).1 ≠ .idle ∧ (parserPlace count).1 ≠ .pre ∧
      (parserPlace count).1 ≠ .drain := by
  by_cases hlate : 18 ≤ count
  · rw [parserPlace_late hlate]
    decide
  · interval_cases count <;> decide

theorem extract_high (high low : BitVec 8) : (high ++ low).extractLsb' 8 8 = high := by
  apply BitVec.eq_of_getLsbD_eq
  intro bit hbit
  rw [BitVec.getLsbD_extractLsb', BitVec.getLsbD_append, decide_eq_true hbit, if_neg (by omega),
    Nat.add_sub_cancel_left, Bool.true_and]

theorem extract_low (high low : BitVec 8) : (high ++ low).extractLsb' 0 8 = low := by
  apply BitVec.eq_of_getLsbD_eq
  intro bit hbit
  rw [BitVec.getLsbD_extractLsb', BitVec.getLsbD_append, decide_eq_true hbit, if_pos (by omega),
    Nat.zero_add, Bool.true_and]

/-- A frame that matches has kept the parser on it. -/
theorem Parsed.onFrame (hparsed : Parsed rx bytes) (hbody : frameOf bytes = some body)
    (hmatches : Matches body) : OnFrame rx body := by
  cases hparsed with
  | idle hnil hstate =>
      rw [hnil] at hbody
      cases hbody
  | preamble hne hpre hstate =>
      rw [frameOf_of_preamble hpre] at hbody
      cases hbody
  | frame other hother hon =>
      rw [hbody, Option.some.injEq] at hother
      rwa [hother]
  | drain hbad hfails hstate => exact absurd hmatches (hfails body hbody)

/-- Only behind the time of a frame that matches does the parser wait for its end. -/
theorem Parsed.of_latch (hparsed : Parsed rx bytes) (hlatch : rx.rxState = .latch) :
    ∃ body, frameOf bytes = some body ∧ OnFrame rx body := by
  cases hparsed with
  | idle hnil hstate => simp [hlatch] at hstate
  | preamble hne hpre hstate => simp [hlatch] at hstate
  | frame body hbody hon => exact ⟨body, hbody, hon⟩
  | drain hbad hfails hstate => simp [hlatch] at hstate

section Strobe

variable {rxNibble : Bool} {pins : PausePins}

/-- The parser takes the byte on the strobe. -/
theorem clkEdge_strobe (hstb : rx.bStb = true) (hend : rx.bEnd = false) :
    (rx.clkEdge rxNibble pins).rxState = rx.parseByte.rxState ∧
      (rx.clkEdge rxNibble pins).rxIdx = rx.parseByte.rxIdx ∧
      (rx.clkEdge rxNibble pins).pauseQuanta = rx.parseByte.pauseQuanta ∧
      (rx.clkEdge rxNibble pins).rxLen =
        if rx.rxBody && rx.rxLen != 64 then rx.rxLen + 1 else rx.parseByte.rxLen := by
  simp only [EthPauseRx.clkEdge, EthPauseRx.nextParser, hstb, hend, if_true,
    Bool.false_eq_true, if_false]
  split <;> exact ⟨rfl, rfl, rfl, rfl⟩

theorem clkEdge_quiet (hstb : rx.bStb = false) (hend : rx.bEnd = false) :
    (rx.clkEdge rxNibble pins).toPauseParser = rx.toPauseParser ∧
      (rx.clkEdge rxNibble pins).rxCrc = rx.rxCrc := by
  simp [EthPauseRx.clkEdge, EthPauseRx.nextParser, EthPauseRx.rxBody, EthPauseRx.rxSfd,
    Crc32.clkEdge, hstb, hend]

theorem parseByte_rxLen (hidle : rx.rxState ≠ .idle) (hpre : rx.rxState ≠ .pre) :
    rx.parseByte.rxLen = rx.rxLen := by
  unfold EthPauseRx.parseByte
  split <;> first | contradiction | rfl | (split <;> first | rfl | (split <;> rfl))

theorem OnFrame.takes (hon : OnFrame rx body) (hstb : rx.bStb = true) :
    rx.rxBody = true ∧ rx.rxSfd = false ∧ rx.parseByte.rxLen = rx.rxLen := by
  obtain ⟨hidle, hpre, hdrain⟩ := parserPlace_body body.length
  rw [← hon.place] at hidle hpre hdrain
  refine ⟨?_, ?_, parseByte_rxLen hidle hpre⟩
  · simp_all [EthPauseRx.rxBody]
  · simp_all [EthPauseRx.rxSfd]

/-- One more byte of a frame that matches with it. -/
theorem OnFrame.byte (hon : OnFrame rx body) (hstb : rx.bStb = true) (hend : rx.bEnd = false)
    (hfield : ∀ field ∈ pauseHeader body.length, rx.bD = field)
    (hplace : (rx.parseByte.rxState, rx.parseByte.rxIdx) = parserPlace (body.length + 1)) :
    OnFrame (rx.clkEdge rxNibble pins) (body ++ [rx.bD]) := by
  obtain ⟨hstate, hidx, hquanta, hlen⟩ := @clkEdge_strobe rx rxNibble pins hstb hend
  obtain ⟨hbody, hsfd, hkept⟩ := hon.takes hstb
  have htime := parseByte_pauseQuanta hon.place
  constructor
  · exact matches_concat.mpr ⟨hon.header, hfield⟩
  · rw [hstate, hidx, hplace, List.length_append, List.length_singleton]
  · have hcount := hon.rxLen
    rw [hlen, hbody, hkept, Bool.true_and, List.length_append, List.length_singleton]
    by_cases hfull : rx.rxLen = 64
    · rw [hfull] at hcount ⊢
      have h64 : (64 : BitVec 7).toNat = 64 := rfl
      rw [h64] at hcount
      simp only [bne_self_eq_false, Bool.false_eq_true, if_false, h64]
      omega
    · have hne : rx.rxLen.toNat ≠ 64 := fun heq => hfull (BitVec.eq_of_toNat_eq heq)
      have hone : (1 : BitVec 7).toNat = 1 := rfl
      rw [if_pos (by simpa using hfull), BitVec.toNat_add_of_lt (by omega), hone]
      omega
  · have hcrc : (rx.clkEdge rxNibble pins).rxCrc.crcReg = crcStep rx.rxCrc.crcReg rx.bD := by
      simp [EthPauseRx.clkEdge, Crc32.clkEdge, hbody, hsfd]
    rw [hcrc, crcOf_concat, hon.rxCrc]
  · intro byte hbyte
    rw [hquanta, htime]
    rcases Nat.lt_trichotomy body.length 16 with hlt | heq | hgt
    · rw [List.getElem?_eq_none (by simp; omega)] at hbyte
      cases hbyte
    · rw [← heq, List.getElem?_concat_length, Option.some.injEq] at hbyte
      rw [if_pos heq, ← hbyte]
      exact extract_high _ _
    · rw [List.getElem?_append_left hgt] at hbyte
      rw [if_neg (by omega)]
      split
      · rw [extract_high]
        exact hon.quantaHi byte hbyte
      · exact hon.quantaHi byte hbyte
  · intro byte hbyte
    rw [hquanta, htime]
    rcases Nat.lt_trichotomy body.length 17 with hlt | heq | hgt
    · rw [List.getElem?_eq_none (by simp; omega)] at hbyte
      cases hbyte
    · rw [← heq, List.getElem?_concat_length, Option.some.injEq] at hbyte
      rw [if_neg (by omega), if_pos heq, ← hbyte]
      exact extract_low _ _
    · rw [List.getElem?_append_left hgt] at hbyte
      rw [if_neg (by omega), if_neg (by omega)]
      exact hon.quantaLo byte hbyte

/-- The parser takes one more byte of the envelope. -/
theorem Parsed.byte (hparsed : Parsed rx bytes) (hstb : rx.bStb = true)
    (hend : rx.bEnd = false) : Parsed (rx.clkEdge rxNibble pins) (bytes ++ [rx.bD]) := by
  obtain ⟨hstate, hidx, hquanta, hlen⟩ := @clkEdge_strobe rx rxNibble pins hstb hend
  -- in the preamble
  have hstart (hpre : ∀ byte ∈ bytes, byte = 0x55)
      (hat : rx.rxState = .idle ∨ rx.rxState = .pre) :
      Parsed (rx.clkEdge rxNibble pins) (bytes ++ [rx.bD]) := by
    have hbody : rx.rxBody = false := by
      rcases hat with hat | hat <;> simp [EthPauseRx.rxBody, hat]
    have hbyte : rx.parseByte = { rx.toPauseParser with
        rxIdx := 0
        rxLen := 0
        rxState := if rx.bD = 0xD5 then .dst else if rx.bD = 0x55 then .pre else .drain } := by
      rcases hat with hat | hat <;> rw [EthPauseRx.parseByte, hat]
    rw [hbyte] at hstate hidx
    by_cases hsfd : rx.bD = 0xD5
    · apply Parsed.frame []
      · rw [frameOf_preamble hpre, hsfd]
        rfl
      · rw [if_pos hsfd] at hstate
        refine ⟨matches_nil, by rw [hstate, hidx]; rfl, ?_, ?_, by simp, by simp⟩
        · rw [hlen, hbody, hbyte]
          rfl
        · have hnow : rx.rxSfd = true := by
            rcases hat with hat | hat <;> simp [EthPauseRx.rxSfd, hat, hstb, hsfd]
          simp [EthPauseRx.clkEdge, Crc32.clkEdge, hnow]
          rfl
    · rw [if_neg hsfd] at hstate
      by_cases hfive : rx.bD = 0x55
      · rw [if_pos hfive] at hstate
        apply Parsed.preamble (by simp) _ hstate
        intro byte hbyte
        rcases List.mem_append.mp hbyte with hbyte | hbyte
        · exact hpre byte hbyte
        · rw [List.mem_singleton.mp hbyte, hfive]
      · rw [if_neg hfive] at hstate
        apply Parsed.drain ⟨rx.bD, by simp, hfive⟩ _ hstate
        intro body hbody'
        rw [frameOf_preamble hpre, frameOf_astray hfive hsfd] at hbody'
        cases hbody'
  cases hparsed with
  | idle hnil hat => exact hstart (by simp [hnil]) (Or.inl hat)
  | preamble hne hpre hat => exact hstart hpre (Or.inr hat)
  | frame body hbody hon =>
      have hlonger := frameOf_append_some hbody [rx.bD]
      rcases parseByte_place hon.place with ⟨hfield, hplace⟩ | ⟨⟨field, hfield, hne⟩, hdrain⟩
      · exact Parsed.frame _ hlonger (hon.byte hstb hend hfield hplace)
      · apply Parsed.drain _ _ (hstate.trans hdrain)
        · by_contra hall
          have hpre : ∀ byte ∈ bytes ++ [rx.bD], byte = 0x55 := fun byte hbyte =>
            Decidable.of_not_not fun hne => hall ⟨byte, hbyte, hne⟩
          rw [frameOf_of_preamble hpre] at hlonger
          cases hlonger
        · intro other hother hmatches
          rw [hlonger, Option.some.injEq] at hother
          rw [← hother] at hmatches
          exact hne ((matches_concat.mp hmatches).2 field hfield)
  | drain hbad hfails hat =>
      obtain ⟨bad, hmem, hne⟩ := hbad
      refine Parsed.drain ⟨bad, List.mem_append_left _ hmem, hne⟩ ?_ ?_
      · intro body hbody hmatches
        cases hold : frameOf bytes with
        | none =>
            rw [frameOf_append_none hold ⟨bad, hmem, hne⟩] at hbody
            cases hbody
        | some old =>
            rw [frameOf_append_some hold, Option.some.injEq] at hbody
            rw [← hbody] at hmatches
            exact hfails old hold (matches_concat.mp hmatches).1
      · rw [hstate, EthPauseRx.parseByte, hat]
        exact hat

/-- Without a byte the parser waits. -/
theorem Parsed.quiet (hparsed : Parsed rx bytes) (hstb : rx.bStb = false)
    (hend : rx.bEnd = false) : Parsed (rx.clkEdge rxNibble pins) bytes := by
  obtain ⟨hparser, hcrc⟩ := @clkEdge_quiet rx rxNibble pins hstb hend
  have hstate := congrArg PauseParser.rxState hparser
  cases hparsed with
  | idle hnil hat => exact Parsed.idle hnil (hstate.trans hat)
  | preamble hne hpre hat => exact Parsed.preamble hne hpre (hstate.trans hat)
  | frame body hbody hon =>
      refine Parsed.frame body hbody ⟨hon.header, ?_, ?_, ?_, ?_, ?_⟩
      · rw [hstate, congrArg PauseParser.rxIdx hparser]
        exact hon.place
      · rw [congrArg PauseParser.rxLen hparser]
        exact hon.rxLen
      · rw [hcrc]
        exact hon.rxCrc
      · rw [congrArg PauseParser.pauseQuanta hparser]
        exact hon.quantaHi
      · rw [congrArg PauseParser.pauseQuanta hparser]
        exact hon.quantaLo
  | drain hbad hfails hat => exact Parsed.drain hbad hfails (hstate.trans hat)

/-- The end of an envelope leaves the parser idle. -/
theorem parsed_end (hend : rx.bEnd = true) : Parsed (rx.clkEdge rxNibble pins) [] := by
  apply Parsed.idle rfl
  simp [EthPauseRx.clkEdge, EthPauseRx.nextParser, hend]

end Strobe

end EmacZero
