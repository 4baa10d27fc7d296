/-
The option walk of `csum_calc`: it meets the options of an IPv4 header as the
list of them does.
-/
import EmacZero.CsumCalcBounds

namespace EmacZero

/-! The walk over a list, option by option. -/

@[simp] theorem optionsSkip_nil (left : Nat) : optionsSkip left [] = false := by
  cases left <;> rfl

/-- The walk from an option's length byte on. -/
def lengthSkip : List (BitVec 8) → Bool
  | [] => false
  | length :: rest => decide (length.toNat < 2) || optionsSkip (length.toNat - 2) rest

theorem optionsSkip_end (rest : List (BitVec 8)) : optionsSkip 0 (0 :: rest) = false := by
  cases rest <;> rfl

theorem optionsSkip_pad (rest : List (BitVec 8)) :
    optionsSkip 0 (1 :: rest) = optionsSkip 0 rest := by
  cases rest with
  | nil => rfl
  | cons length rest => simp [optionsSkip]

theorem optionsSkip_option {kind : BitVec 8} (hend : kind ≠ 0) (hpad : kind ≠ 1)
    (rest : List (BitVec 8)) :
    optionsSkip 0 (kind :: rest) = (sourceRoute kind || lengthSkip rest) := by
  cases rest with
  | nil => simp [optionsSkip, lengthSkip]
  | cons length rest =>
      rw [optionsSkip, if_neg hend, if_neg hpad, lengthSkip, Bool.or_assoc]

/-- How far the header's options have been walked, from the header's start. -/
def optionsAt (frame : List (BitVec 8)) : Nat :=
  max 20 (min (frame.length - l3Offset frame) (ihlBytes frame))

section Grown

variable {frame : List (BitVec 8)} (hlong : l3Offset frame < frame.length)
  (hip4 : isIp4 frame = true) (data : BitVec 8)
include hlong hip4

theorem ip4Options_inside (hstart : l3Offset frame + 20 ≤ frame.length)
    (hstop : frame.length < l3Offset frame + ihlBytes frame) :
    ip4Options (frame ++ [data]) = ip4Options frame ++ [data] := by
  rw [ip4Options, ip4Options, l3Offset_grown hlong, l4Offset_grown hlong,
    slice_concat frame data hstart, if_pos]
  rw [l4Offset, headerLength, isIp6_of_isIp4 hip4]
  exact hstop

theorem ip4Options_outside (hout : frame.length < l3Offset frame + 20 ∨
    l3Offset frame + ihlBytes frame ≤ frame.length) :
    ip4Options (frame ++ [data]) = ip4Options frame := by
  rw [ip4Options, ip4Options, l3Offset_grown hlong, l4Offset_grown hlong]
  rcases hout with hbefore | hafter
  · rw [slice_empty (by simp; omega), slice_empty hbefore.le]
  · apply slice_append
    rw [l4Offset, headerLength, isIp6_of_isIp4 hip4]
    exact hafter

omit hip4 in
theorem optionsAt_inside (hstart : l3Offset frame + 20 ≤ frame.length)
    (hstop : frame.length < l3Offset frame + ihlBytes frame) :
    optionsAt frame = frame.length - l3Offset frame ∧
      optionsAt (frame ++ [data]) = frame.length - l3Offset frame + 1 := by
  rw [optionsAt, optionsAt, l3Offset_grown hlong, ihlBytes_grown hlong, List.length_append,
    List.length_singleton]
  omega

omit hip4 in
theorem optionsAt_outside (hout : frame.length < l3Offset frame + 20 ∨
    l3Offset frame + ihlBytes frame ≤ frame.length) :
    optionsAt (frame ++ [data]) = optionsAt frame := by
  rw [optionsAt, optionsAt, l3Offset_grown hlong, ihlBytes_grown hlong, List.length_append,
    List.length_singleton]
  omega

end Grown

namespace CsumCalc

variable {zero : Bool} {s : CsumCalc} {i : CsumIn} {frame : List (BitVec 8)}
  {data : BitVec 8}

/-- What the walk has still to say about the bytes to come. -/
def optionsRest (options : CsumOptions) (position : Nat) (rest : List (BitVec 8)) : Bool :=
  if options.optEnd then false
  else if options.optLenNx then lengthSkip rest
  else optionsSkip (options.optPos.toNat - position) rest

/-- The walk at a position of the header, after these options. -/
structure Walked (options : CsumOptions) (position : Nat) (walked : List (BitVec 8)) :
    Prop where
  walk : ∀ rest, optionsSkip 0 (walked ++ rest) =
    (options.optSkip || optionsRest options position rest)
  ahead : options.optEnd = false → options.optLenNx = false →
    position ≤ options.optPos.toNat
  length : options.optEnd = false → options.optLenNx = true →
    options.optPos.toNat + 1 = position
  bound : options.optPos.toNat ≤ 314

theorem Walked.start :
    Walked { optPos := 20, optLenNx := false, optEnd := false, optSkip := false } 20 [] where
  walk _ := rfl
  ahead _ _ := Nat.le_refl 20
  length _ hnext := absurd hnext (by decide)
  bound := by decide

/-- The walk is over at the end of the header. -/
theorem Walked.optSkip_eq {options : CsumOptions} {position : Nat}
    {walked : List (BitVec 8)} (hwalked : Walked options position walked) :
    options.optSkip = optionsSkip 0 walked := by
  have hwalk := hwalked.walk []
  rw [List.append_nil] at hwalk
  rw [hwalk, optionsRest]
  split
  · simp
  · split <;> simp [lengthSkip]

/-- One byte of the options. -/
def optionByte (options : CsumOptions) (here : Bool) (data : BitVec 8) : CsumOptions :=
  if options.optEnd then options
  else if options.optLenNx then
    if data.ult 2 then
      { options with optLenNx := false, optEnd := true, optSkip := true }
    else
      { options with optLenNx := false, optPos := options.optPos + data.setWidth 9 }
  else if here then
    if data == 0x00 then { options with optEnd := true }
    else if data == 0x01 then { options with optPos := options.optPos + 1 }
    else
      { options with
        optLenNx := true
        optSkip := if data == 0x83 || data == 0x89 then true else options.optSkip }
  else options

theorem Walked.step {options : CsumOptions} {position : Nat} {walked : List (BitVec 8)}
    (hwalked : Walked options position walked) (hposition : position < 60)
    (data : BitVec 8) :
    Walked (optionByte options (decide (position = options.optPos.toNat)) data)
      (position + 1) (walked ++ [data]) := by
  obtain ⟨pos, next, ended, skip⟩ := options
  obtain ⟨hwalk, hahead, hlength, hbound⟩ := hwalked
  have hdata := data.isLt
  have hnow : ∀ rest, optionsSkip 0 (walked ++ [data] ++ rest) =
      (skip || optionsRest ⟨pos, next, ended, skip⟩ position (data :: rest)) := by
    intro rest
    rw [List.append_assoc]
    exact hwalk (data :: rest)
  cases ended with
  | true =>
      exact ⟨hnow, fun hend => absurd hend (Ne.symm Bool.false_ne_true),
        fun hend => absurd hend (Ne.symm Bool.false_ne_true), hbound⟩
  | false =>
      cases next with
      | true =>
          have hpos : pos.toNat + 1 = position := hlength rfl rfl
          by_cases hshort : data.toNat < 2
          · have hult : data.ult 2 = true := decide_eq_true hshort
            simp only [optionByte, Bool.false_eq_true, if_false, if_true, hult]
            constructor
            · intro rest
              rw [hnow]
              simp [optionsRest, lengthSkip, hshort]
            · intro hend
              exact absurd hend (Ne.symm Bool.false_ne_true)
            · intro hend
              exact absurd hend (Ne.symm Bool.false_ne_true)
            · exact hbound
          · have hult : data.ult 2 = false := decide_eq_false hshort
            have hsum : (pos + data.setWidth 9).toNat = pos.toNat + data.toNat := by
              rw [BitVec.toNat_add, BitVec.toNat_setWidth]
              omega
            simp only [optionByte, Bool.false_eq_true, if_false, if_true, hult]
            constructor
            · intro rest
              rw [hnow]
              have hleft : pos.toNat + data.toNat - (position + 1) = data.toNat - 2 := by
                omega
              simp only [optionsRest, hsum, hleft, Bool.false_eq_true, if_false, if_true,
                lengthSkip, hshort, decide_false, Bool.false_or]
            · intro _ _
              rw [hsum]
              omega
            · intro _ hnext
              exact absurd hnext Bool.false_ne_true
            · rw [hsum]
              omega
      | false =>
          have hle : position ≤ pos.toNat := hahead rfl rfl
          by_cases hhere : position = pos.toNat
          · simp only [optionByte, Bool.false_eq_true, if_false, hhere, decide_true, if_true,
              beq_iff_eq]
            have hkind : ∀ rest, optionsSkip 0 (walked ++ [data] ++ rest) =
                (skip || optionsSkip 0 (data :: rest)) := by
              intro rest
              rw [hnow, optionsRest, hhere, Nat.sub_self]
              rfl
            by_cases hend : data = 0
            · rw [if_pos hend]
              constructor
              · intro rest
                rw [hkind, hend, optionsSkip_end]
                rfl
              · intro hopen
                exact absurd hopen (Ne.symm Bool.false_ne_true)
              · intro hopen
                exact absurd hopen (Ne.symm Bool.false_ne_true)
              · exact hbound
            · rw [if_neg hend]
              by_cases hpad : data = 1
              · have hsum : (pos + 1).toNat = pos.toNat + 1 := by
                  rw [BitVec.toNat_add]
                  change (pos.toNat + 1) % 2 ^ 9 = _
                  omega
                rw [if_pos hpad]
                constructor
                · intro rest
                  rw [hkind, hpad, optionsSkip_pad]
                  simp only [optionsRest, hsum, Nat.sub_self, Bool.false_eq_true, if_false]
                · intro _ _
                  rw [hsum]
                · intro _ hnext
                  exact absurd hnext Bool.false_ne_true
                · rw [hsum]
                  omega
              · rw [if_neg hpad]
                constructor
                · intro rest
                  rw [hkind, optionsSkip_option hend hpad, sourceRoute, ← Bool.or_assoc]
                  simp only [optionsRest, Bool.false_eq_true, if_false, if_true]
                  cases skip <;> cases data == 0x83 || data == 0x89 <;> rfl
                · intro _ hnext
                  exact absurd hnext (Ne.symm Bool.false_ne_true)
                · intro _ _
                  rfl
                · exact hbound
          · simp only [optionByte, Bool.false_eq_true, if_false, hhere, decide_false]
            constructor
            · intro rest
              obtain ⟨left, hleft⟩ : ∃ left, pos.toNat - position = left + 1 :=
                ⟨pos.toNat - position - 1, by omega⟩
              have hless : pos.toNat - (position + 1) = left := by omega
              rw [hnow]
              simp only [optionsRest, Bool.false_eq_true, if_false, hleft, hless,
                optionsSkip]
            · intro _ _
              change position + 1 ≤ pos.toNat
              omega
            · intro _ hnext
              exact absurd hnext Bool.false_ne_true
            · exact hbound

/-- The walk's registers against the options that the frame has so far. -/
def OptionRegs (s : CsumCalc) (frame : List (BitVec 8)) : Prop :=
  Walked s.toCsumOptions (optionsAt frame) (ip4Options frame)

theorem OptionRegs.of_short
    (hoptions : s.toCsumOptions =
      { optPos := 20, optLenNx := false, optEnd := false, optSkip := false })
    (hshort : frame.length ≤ l3Offset frame + 20) : s.OptionRegs frame := by
  have hempty : ip4Options frame = [] := slice_empty hshort _
  have hat : optionsAt frame = 20 := by
    unfold optionsAt
    omega
  rw [OptionRegs, hempty, hat, hoptions]
  exact Walked.start

theorem OptionRegs.step (hoptions : s.OptionRegs frame)
    (hlong : l3Offset frame < frame.length) (hip4 : isIp4 frame = true)
    (hheader : s.HeaderRegs frame) (hether : s.EtherRegs frame)
    (hfeeds : Feeds zero i frame data) : (s.clkEdge i).OptionRegs (frame ++ [data]) := by
  have hedge : (s.clkEdge i).toCsumOptions = s.nextOptions i := rfl
  have hin := inL3_eq_true hether hlong (Or.inl hip4)
  have hr := hether.r_toNat hfeeds hlong.le
  have hhdr := hheader.hdrLen hip4
  have hmax := ihlBytes_le frame
  have hbound := hoptions.bound
  have hinOpt : s.inOpt i = (decide (l3Offset frame + 20 ≤ frame.length) &&
      decide (frame.length < l3Offset frame + ihlBytes frame) && !s.optEnd) := by
    rw [inOpt, inIp4h, hin, hether.fam4_eq hlong, hip4, BitVec.ult_eq_decide,
      BitVec.ule_eq_decide, hr, BitVec.toNat_setWidth, hhdr,
      Nat.mod_eq_of_lt (show ihlBytes frame < 2 ^ 14 by omega), Bool.eq_iff_iff]
    simp
    omega
  have hhere : (s.r i == s.optPos.setWidth 14) =
      decide (frame.length - l3Offset frame = s.optPos.toNat) := by
    rw [Bool.eq_iff_iff, beq_iff_eq, decide_eq_true_iff, ← BitVec.toNat_inj, hr,
      BitVec.toNat_setWidth, Nat.mod_eq_of_lt (by omega)]
  rw [OptionRegs, hedge]
  simp only [nextOptions, hfeeds.not_newFrame, hfeeds.valid, hin, hether.fam4_eq hlong,
    hip4, Bool.true_and, Bool.false_eq_true, if_false, hinOpt, hfeeds.inData, hhere]
  by_cases hwithin : l3Offset frame + 20 ≤ frame.length ∧
      frame.length < l3Offset frame + ihlBytes frame
  · obtain ⟨hstart, hstop⟩ := hwithin
    obtain ⟨hat, hat'⟩ := optionsAt_inside hlong data hstart hstop
    have hnext := Walked.step hoptions (by omega) data
    rw [ip4Options_inside hlong hip4 data hstart hstop, hat']
    rw [hat] at hnext
    simp only [hstart, hstop, decide_true, Bool.true_and]
    cases hend : s.optEnd with
    | true =>
        rw [optionByte, if_pos hend] at hnext
        exact hnext
    | false =>
        rw [optionByte, hend] at hnext
        exact hnext
  · have hout : frame.length < l3Offset frame + 20 ∨
        l3Offset frame + ihlBytes frame ≤ frame.length := by omega
    rw [ip4Options_outside hlong hip4 data hout, optionsAt_outside hlong data hout, if_neg]
    · exact hoptions
    · simp
      omega

end CsumCalc

end EmacZero
