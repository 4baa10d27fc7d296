/-
Frames one after the other through `net_rx`: nothing is left of one when the next begins.
-/
import EmacZero.ClockedRun
import EmacZero.NetRxPayload

namespace EmacZero

open NetFrame NetBeats NetMessage NetRx

variable {rx : NetRx} {beats : List NetRxIn} {shown : List NetRxOut} {i : NetRxIn}

/-- The parser in a frame, of which these beats have come. -/
structure Follows (rx : NetRx) (beats : List NetRxIn) (shown : List NetRxOut) : Prop where
  parses : Parses rx beats shown
  judged : Judged rx beats
  fin : rx.fin = false
  terrSeen : rx.terrSeen = error beats
  hdrBytes : rx.ipHdrBytes ≠ 1

/-- The parser before a frame.  The last byte of the one before may be held. -/
structure AtStart (rx : NetRx) : Prop where
  state : rx.state = .ethDst
  byteCnt : rx.byteCnt = 0
  hdrChk : rx.hdrChk = false
  terrSeen : rx.terrSeen = false
  hdrBytes : rx.ipHdrBytes ≠ 1

/-- The frame is over, and what is to come of it comes out on the next edge. -/
structure Ended (rx : NetRx) (frame : List NetRxIn) (shown : List NetRxOut) : Prop where
  atStart : AtStart rx
  complete : shown ++ rx.release.outs = (delivered frame).elim [] NetMessage.stream

/-! Edges. -/

theorem clkEdge_idle (hidle : i.tvalid = false) : rx.clkEdge i = rx.verdict i rx.release := by
  rw [NetRx.clkEdge, NetRx.beat, hidle]
  rfl

theorem clkEdge_beat (hvalid : i.tvalid = true) :
    rx.clkEdge i = rx.verdict i (rx.frameEnd i (rx.afterBeat i)) := by
  rw [NetRx.clkEdge, NetRx.beat, if_pos hvalid]
  rfl

theorem clkEdge_more (hvalid : i.tvalid = true) (hmore : i.tlast = false) :
    rx.clkEdge i = rx.verdict i (rx.afterBeat i) := by
  rw [clkEdge_beat hvalid, frameEnd, hmore]
  rfl

theorem error_concat (beats : List NetRxIn) (i : NetRxIn) :
    error (beats ++ [i]) = (error beats || i.terror) := by
  rw [error, List.any_append, ← error]
  exact congrArg (error beats || ·) (Bool.or_false _)

theorem outs_release (hfin : rx.fin = false) : rx.release.outs = [] := by
  rw [release_of_not_fin hfin]
  rfl

/-- What one frame leaves to the next. -/
theorem frameEnd_quiet (hlast : i.tlast = true) (hquiet : rx.inPayload = false)
    (next : NetRx) :
    rx.frameEnd i next = { next with
      state := .ethDst
      byteCnt := 0
      terrSeen := false
      hdrChk := false } := by
  rw [frameEnd, hlast, hquiet]
  rfl

theorem frameEnd_payload (hlast : i.tlast = true) (hpay : rx.inPayload = true)
    (next : NetRx) :
    rx.frameEnd i next = { next with
      state := .ethDst
      byteCnt := 0
      terrSeen := false
      hdrChk := false
      fin := true
      finErr := rx.terrSeen || i.terror || rx.remNext != 0
      finIcmp := rx.state == .icmpData } := by
  rw [frameEnd, hlast, hpay]
  rfl

/-- Outside a payload the frame is over with nothing to come. -/
theorem Ended.quiet {next : NetRx} (hfin : next.fin = false) (hbytes : next.ipHdrBytes ≠ 1)
    (hnone : delivered beats = none) :
    Ended { next with state := .ethDst, byteCnt := 0, terrSeen := false, hdrChk := false }
      beats [] where
  atStart := ⟨rfl, rfl, rfl, rfl, hbytes⟩
  complete := by
    rw [hnone, List.nil_append]
    exact outs_release hfin

theorem delivered_short (hshort : beats.length ≤ 14) : delivered beats = none := by
  apply delivered_of_not_sound
  apply sound_short
  rw [length_bytes, hdrEnd]
  omega

/-! The first edge behind a frame. -/

section AtStart

theorem AtStart.inPayload (hat : AtStart rx) : rx.inPayload = false := by
  rw [NetRx.inPayload, hat.state]
  rfl

theorem AtStart.byteCnt_toNat (hat : AtStart rx) : rx.byteCnt.toNat = 0 := by
  rw [hat.byteCnt]
  rfl

theorem AtStart.not_header (hat : AtStart rx) : rx.state ≠ .ipHdr := by
  rw [hat.state]
  exact fun heq => nomatch heq

theorem AtStart.idle (hat : AtStart rx) (hidle : i.tvalid = false) :
    Follows (rx.clkEdge i) [] [] ∧ (rx.clkEdge i).outs = rx.release.outs := by
  obtain ⟨hstate, hcnt, hchk, hbytes, hterr, hfin⟩ := release_keeps rx
  rw [clkEdge_idle hidle, verdict_of_not_due hat.hdrChk]
  refine ⟨⟨.ethDst (by decide) (hstate.trans hat.state) ?_ rfl, judged_of_quiet ?_ ?_ _, hfin,
    hterr.trans hat.terrSeen, ?_⟩, rfl⟩
  · rw [hcnt]
    exact hat.byteCnt_toNat
  · rw [NetRx.inPayload, hstate, hat.state]
    rfl
  · exact hchk.trans hat.hdrChk
  · rw [hbytes]
    exact hat.hdrBytes

theorem AtStart.more (hat : AtStart rx) (hvalid : i.tvalid = true) (hmore : i.tlast = false) :
    Follows (rx.clkEdge i) [i] [] ∧ (rx.clkEdge i).outs = rx.release.outs := by
  have hparses := @parsed_ethDst rx [] i (by decide) hat.state hat.byteCnt_toNat
  have houts := @outs_afterBeat rx i hat.inPayload
  obtain ⟨hquiet, hchk, hbytes⟩ := @afterBeat_quiet rx i hat.not_header hat.inPayload
  obtain ⟨hterr, hfin⟩ := afterBeat_keeps rx i
  rw [clkEdge_more hvalid hmore, verdict_of_not_due hat.hdrChk]
  refine ⟨⟨hparses, judged_of_quiet hquiet (hchk.trans hat.hdrChk) _, hfin, ?_, ?_⟩, houts⟩
  · rw [hterr, hat.terrSeen]
    exact (error_concat [] i).symm
  · rw [hbytes]
    exact hat.hdrBytes

theorem AtStart.last (hat : AtStart rx) (hvalid : i.tvalid = true) (hlast : i.tlast = true) :
    Ended (rx.clkEdge i) [i] [] ∧ (rx.clkEdge i).outs = rx.release.outs := by
  have houts := @outs_afterBeat rx i hat.inPayload
  obtain ⟨-, -, hbytes⟩ := @afterBeat_quiet rx i hat.not_header hat.inPayload
  obtain ⟨-, hfin⟩ := afterBeat_keeps rx i
  rw [clkEdge_beat hvalid, verdict_of_not_due hat.hdrChk,
    frameEnd_quiet hlast hat.inPayload]
  refine ⟨.quiet hfin ?_ (delivered_short (Nat.le_add_left 1 13)), houts⟩
  rw [hbytes]
  exact hat.hdrBytes

end AtStart

/-! Edges within a frame. -/

section Follows

/-- Without a beat the parser stands still. -/
theorem Parses.release (hfin : rx.fin = false) (hparses : Parses rx beats shown) :
    Parses rx.release beats shown := by
  rw [release_of_not_fin hfin]
  cases hparses with
  | ethDst hlength hstate hcount hshown => exact .ethDst hlength hstate hcount hshown
  | ethSrc hlength hstate hcount hshown => exact .ethSrc hlength hstate hcount hshown
  | ethType hlength hstate hcount htype hshown =>
      exact .ethType hlength hstate hcount htype hshown
  | header hin hshown =>
      exact .header ⟨hin.state, hin.type, hin.byteCnt, hin.begun, hin.hdrSum, hin.clear,
        hin.totHi, hin.totLo, hin.proto, hin.dst3, hin.dst2, hin.dst1⟩ hshown
  | payload hin =>
      exact .payload ⟨hin.accepted, hin.state, hin.byteCnt, hin.rem, hin.plSum, hin.plOdd,
        ⟨hin.holds.holdV, hin.holds.holdD, hin.holds.shown⟩⟩
  | refused hstate hrefused hshown => exact .refused hstate hrefused hshown

/-- A beat of a frame that is refused. -/
theorem parsed_refused (hstate : rx.state = .drop ∨ rx.state = .arpPayload)
    (hrefused : Refused beats) : Parses (rx.afterBeat i) (beats ++ [i]) [] := by
  have hafter : (rx.afterBeat i).state = rx.state := by
    rcases hstate with hstate | hstate <;>
      simp [afterBeat, count, NetRx.inPayload, parse, hstate, (release_keeps rx).1]
  exact .refused (by rwa [hafter]) (hrefused.append [i]) rfl

theorem Judged.quiet (hjudged : Judged rx beats) (hquiet : rx.inPayload = false) :
    rx.hdrChk = false := by
  rwa [Judged, hquiet] at hjudged

theorem Parses.shown_nil (hparses : Parses rx beats shown) (hquiet : rx.inPayload = false) :
    shown = [] := by
  cases hparses with
  | ethDst _ _ _ hshown | ethSrc _ _ _ hshown | ethType _ _ _ _ hshown => exact hshown
  | header _ hshown | refused _ _ hshown => exact hshown
  | payload hin =>
      rw [hin.inPayload] at hquiet
      exact nomatch hquiet

/-- A beat of a frame that is not in its payload. -/
theorem Follows.beat (hfollows : Follows rx beats shown) (hquiet : rx.inPayload = false)
    (i : NetRxIn) :
    Parses (rx.afterBeat i) (beats ++ [i]) [] ∧ Judged (rx.afterBeat i) (beats ++ [i]) ∧
      (rx.afterBeat i).ipHdrBytes ≠ 1 := by
  have hchk := hfollows.judged.quiet hquiet
  have hfin := hfollows.fin
  have hbytes := hfollows.hdrBytes
  have hbeat : rx.state ≠ .ipHdr →
      Judged (rx.afterBeat i) (beats ++ [i]) ∧ (rx.afterBeat i).ipHdrBytes ≠ 1 := by
    intro hheader
    obtain ⟨hstill, hsame, hkept⟩ := @afterBeat_quiet rx i hheader hquiet
    exact ⟨judged_of_quiet hstill (hsame.trans hchk) _, by rwa [hkept]⟩
  cases hfollows.parses with
  | ethDst hlength hstate hcount =>
      exact ⟨parsed_ethDst hlength hstate hcount,
        hbeat (by rw [hstate]; exact fun heq => nomatch heq)⟩
  | ethSrc hlength hstate hcount =>
      exact ⟨parsed_ethSrc hlength hstate hcount,
        hbeat (by rw [hstate]; exact fun heq => nomatch heq)⟩
  | ethType hlength hstate hcount htype =>
      exact ⟨parsed_ethType hlength hstate hcount htype,
        hbeat (by rw [hstate]; exact fun heq => nomatch heq)⟩
  | header hin =>
      have hcount := hin.byteCnt
      have hlength := length_bytes beats
      by_cases hfirst : beats.length = 14
      · obtain ⟨hparses, hsame, hstill, hkept⟩ :=
          @parsed_header_first rx beats i hfin hin hfirst hbytes hchk
        exact ⟨hparses, judged_of_quiet hstill hsame _, hkept⟩
      by_cases hlast : beats.length + 1 = hdrEnd (bytes beats)
      · obtain ⟨hparses, hjudged, hkept⟩ :=
          @parsed_header_last rx beats i hfin hchk hin (by omega) hlast
        exact ⟨hparses, hjudged, by rwa [hkept]⟩
      · obtain ⟨hparses, hsame, hstill, hkept⟩ :=
          @parsed_header_more rx beats i hfin hin (by omega) hlast
        exact ⟨hparses, judged_of_quiet hstill (hsame.trans hchk) _, by rwa [hkept]⟩
  | payload hin =>
      rw [hin.inPayload] at hquiet
      exact nomatch hquiet
  | refused hstate hrefused =>
      refine ⟨parsed_refused hstate hrefused, hbeat ?_⟩
      rcases hstate with hstate | hstate <;>
        (rw [hstate]; exact fun heq => nomatch heq)

/-- The parser is in the payload, and nowhere else. -/
theorem Parses.inPayload_iff (hparses : Parses rx beats shown) :
    rx.inPayload = true ↔ InPayload rx beats shown := by
  refine ⟨fun hpay => ?_, InPayload.inPayload⟩
  have helse : ∀ {state : NetRxState}, rx.state = state →
      (state == .icmpData || state == .udpHdr || state == .udpData) = false →
      InPayload rx beats shown := by
    intro state hstate hno
    rw [NetRx.inPayload, hstate, hno] at hpay
    exact absurd hpay Bool.false_ne_true
  cases hparses with
  | ethDst _ hstate | ethSrc _ hstate | ethType _ hstate => exact helse hstate rfl
  | header hin => exact helse hin.state rfl
  | payload hin => exact hin
  | refused hstate =>
      rcases hstate with hstate | hstate
      · exact helse hstate rfl
      · exact helse hstate rfl

/-- The edge after the verdict, within a payload. -/
theorem InPayload.follows (hpay : InPayload rx beats shown) (hjudged : Judged rx beats)
    {more : List NetRxIn} (hmore : more.length ≤ 1) {next : NetRx} {shown' : List NetRxOut}
    (hin : InPayload next (beats ++ more) shown') (hchk : next.hdrChk = rx.hdrChk)
    (hfin : next.fin = false) (hterr : next.terrSeen = error (beats ++ more))
    (hbytes : next.ipHdrBytes ≠ 1) (hgoes : (i.tvalid && i.tlast) = false) :
    Follows (rx.verdict i next) (beats ++ more) shown' ∧
      (rx.verdict i next).outs = next.outs := by
  have hnext := hin.inPayload
  rcases hpay.judged hjudged hmore hin i next with
    ⟨hok, ⟨hverdict, hquiet⟩ | hverdict⟩ | ⟨hrefused, hnone, hverdict⟩
  · rw [hverdict]
    refine ⟨⟨.payload hin, ?_, hfin, hterr, hbytes⟩, rfl⟩
    rw [Judged, if_pos hnext]
    exact Or.inr ⟨hchk.trans hquiet, hok⟩
  · rw [hverdict]
    refine ⟨⟨.payload ⟨hin.accepted, hin.state, hin.byteCnt, hin.rem, hin.plSum, hin.plOdd,
      ⟨hin.holds.holdV, hin.holds.holdD, hin.holds.shown⟩⟩, ?_, hfin, hterr, hbytes⟩, rfl⟩
    rw [Judged, if_pos]
    · exact Or.inr ⟨rfl, hok⟩
    · exact hnext
  · rw [hverdict, hgoes, if_neg Bool.false_ne_true]
    exact ⟨⟨.refused (Or.inl rfl) hrefused hnone, judged_of_quiet rfl rfl _, rfl, hterr,
      hbytes⟩, rfl⟩

/-- An edge without a beat. -/
theorem Follows.idle (hfollows : Follows rx beats shown) (hidle : i.tvalid = false) :
    Follows (rx.clkEdge i) beats (shown ++ (rx.clkEdge i).outs) := by
  obtain ⟨hstate, -, hchk, hbytes, hterr, hfin⟩ := release_keeps rx
  have hparses := hfollows.parses.release hfollows.fin
  have houts := outs_release hfollows.fin
  rw [clkEdge_idle hidle]
  cases hpay : rx.inPayload with
  | false =>
      rw [verdict_of_not_due (hfollows.judged.quiet hpay), houts, List.append_nil]
      refine ⟨hparses, judged_of_quiet ?_ ?_ _, hfin, hterr.trans hfollows.terrSeen, ?_⟩
      · rw [NetRx.inPayload, hstate, ← hpay]
        rfl
      · exact hchk.trans (hfollows.judged.quiet hpay)
      · rw [hbytes]
        exact hfollows.hdrBytes
  | true =>
      have hin := hfollows.parses.inPayload_iff.mp hpay
      have hin' : InPayload rx.release (beats ++ []) shown := by
        rw [List.append_nil]
        apply hparses.inPayload_iff.mp
        rw [NetRx.inPayload, hstate, ← hpay]
        rfl
      obtain ⟨hnext, hsame⟩ := @InPayload.follows rx beats shown i hin hfollows.judged []
        (Nat.zero_le 1) rx.release shown hin' hchk hfin
        (by rw [hterr, List.append_nil]; exact hfollows.terrSeen)
        (by rw [hbytes]; exact hfollows.hdrBytes) (by rw [hidle]; rfl)
      rw [hsame, houts, List.append_nil]
      rwa [List.append_nil] at hnext

/-- A beat that is not the last. -/
theorem Follows.more (hfollows : Follows rx beats shown) (hvalid : i.tvalid = true)
    (hmore : i.tlast = false) :
    Follows (rx.clkEdge i) (beats ++ [i]) (shown ++ (rx.clkEdge i).outs) := by
  obtain ⟨hterr, hfin⟩ := afterBeat_keeps rx i
  rw [hfollows.terrSeen, ← error_concat] at hterr
  rw [clkEdge_more hvalid hmore]
  cases hpay : rx.inPayload with
  | false =>
      obtain ⟨hparses, hjudged, hbytes⟩ := hfollows.beat hpay i
      rw [verdict_of_not_due (hfollows.judged.quiet hpay), outs_afterBeat hpay,
        outs_release hfollows.fin, List.append_nil, hfollows.parses.shown_nil hpay]
      exact ⟨hparses, hjudged, hfin, hterr, hbytes⟩
  | true =>
      have hin := hfollows.parses.inPayload_iff.mp hpay
      obtain ⟨hin', hcounts⟩ := @InPayload.step rx beats shown i hfollows.fin hin
      obtain ⟨hnext, hsame⟩ := @InPayload.follows rx beats shown i hin hfollows.judged [i]
        (Nat.le_refl 1) (rx.afterBeat i) (shown ++ (rx.afterBeat i).outs) hin' hcounts.hdrChk
        hfin hterr (by rw [hcounts.ipHdrBytes]; exact hfollows.hdrBytes)
        (by rw [hmore, Bool.and_false])
      rwa [hsame]

/-- A frame that ends outside its payload delivers nothing. -/
theorem Parses.early (hparses : Parses rx beats shown) (hquiet : rx.inPayload = false)
    (i : NetRxIn) : delivered (beats ++ [i]) = none := by
  have hlength := length_bytes beats
  have hlonger := length_concat beats i
  have hlength' := length_bytes (beats ++ [i])
  cases hparses with
  | ethDst hlt | ethSrc hlt | ethType hlt => exact delivered_short (by omega)
  | header hin =>
      have hcount := hin.byteCnt
      by_cases hfirst : beats.length = 14
      · cases hversion : versionOk (bytes (beats ++ [i])) with
        | false =>
            have hnone := refused_version (by omega) hversion []
            rwa [List.append_nil] at hnone
        | true =>
            have hmin := le_hdrEnd hversion
            exact delivered_of_not_sound (sound_short (by omega))
      · obtain ⟨-, -, hlt⟩ := hin.begun (by omega)
        apply delivered_of_not_sound
        apply sound_short
        rw [hlength', hlonger, bytes_concat, hdrEnd_append (by omega)]
        omega
  | payload hin =>
      rw [hin.inPayload] at hquiet
      exact nomatch hquiet
  | refused _ hrefused => exact hrefused [i]

/-- Which of the two streams the payload goes to. -/
theorem InPayload.icmp_iff (hin : InPayload rx beats shown) (i : NetRxIn) :
    (rx.state == .icmpData) = (proto (bytes (beats ++ [i])) == 1) := by
  have hlong := hin.accepted.long
  have hbytes := length_bytes beats
  rw [bytes_concat, proto_append (by omega), hin.state]
  by_cases hicmp : proto (bytes beats) = 1
  · rw [if_pos hicmp, hicmp]
    rfl
  · rw [if_neg hicmp, beq_eq_false_iff_ne.mpr hicmp]
    split <;> rfl

/-- The last beat of a frame. -/
theorem Follows.last (hfollows : Follows rx beats shown) (hvalid : i.tvalid = true)
    (hlast : i.tlast = true) :
    Ended (rx.clkEdge i) (beats ++ [i]) (shown ++ (rx.clkEdge i).outs) := by
  obtain ⟨-, hfin⟩ := afterBeat_keeps rx i
  rw [clkEdge_beat hvalid]
  cases hpay : rx.inPayload with
  | false =>
      obtain ⟨-, -, hbytes⟩ := hfollows.beat hpay i
      have houts : (rx.afterBeat i).outs = [] := by
        rw [outs_afterBeat hpay, outs_release hfollows.fin]
      rw [verdict_of_not_due (hfollows.judged.quiet hpay), frameEnd_quiet hlast hpay,
        hfollows.parses.shown_nil hpay]
      change Ended _ _ ([] ++ (rx.afterBeat i).outs)
      rw [houts]
      exact .quiet hfin hbytes (hfollows.parses.early hpay i)
  | true =>
      have hin := hfollows.parses.inPayload_iff.mp hpay
      obtain ⟨hin', hcounts⟩ := @InPayload.step rx beats shown i hfollows.fin hin
      have hbytes : (rx.afterBeat i).ipHdrBytes ≠ 1 := by
        rw [hcounts.ipHdrBytes]
        exact hfollows.hdrBytes
      have herr : (rx.terrSeen || i.terror || rx.remNext != 0) =
          (error (beats ++ [i]) || (rx.afterBeat i).rem != 0) := by
        rw [error_concat, hfollows.terrSeen, hcounts.rem]
      have hicmp := hin.icmp_iff i
      rw [frameEnd_payload hlast hpay]
      rcases hin.judged hfollows.judged (show [i].length ≤ 1 from Nat.le_refl 1) hin' i _ with
        ⟨hok, ⟨hverdict, -⟩ | hverdict⟩ | ⟨hrefused, hnone, hverdict⟩
      · rw [hverdict]
        exact ⟨⟨rfl, rfl, rfl, rfl, hbytes⟩, hin'.complete hok rfl rfl rfl rfl herr hicmp⟩
      · rw [hverdict]
        exact ⟨⟨rfl, rfl, rfl, rfl, hbytes⟩, hin'.complete hok rfl rfl rfl rfl herr hicmp⟩
      · have hdelivered := hrefused []
        rw [List.append_nil] at hdelivered
        rw [hverdict, hvalid, hlast]
        change Ended _ _ (shown ++ (rx.afterBeat i).outs)
        rw [hnone]
        refine ⟨⟨rfl, rfl, rfl, rfl, hbytes⟩, ?_⟩
        rw [hdelivered, List.nil_append]
        exact outs_release rfl

end Follows

/-! Runs. -/

theorem follows_reset : Follows .reset [] [] where
  parses := .ethDst (by decide) rfl rfl rfl
  judged := judged_of_quiet rfl rfl []
  fin := rfl
  terrSeen := rfl
  hdrBytes := by decide

/-- What came out for a frame is what the parser delivers of it. -/
def Delivers (frame : List NetRxIn × List NetRxOut) : Prop :=
  frame.2 = (delivered frame.1).elim [] NetMessage.stream

/-- The parser stands within a frame, or right behind one. -/
structure NetRxBench.Sound (bench : NetRxBench) : Prop where
  within : bench.ended = none → Follows bench.rx bench.current bench.shown
  behind : ∀ frame ∈ bench.ended, Ended bench.rx frame.1 frame.2 ∧ bench.current = []
  done : ∀ frame ∈ bench.done, Delivers frame

/-- The parser takes a beat, or none. -/
theorem beat_cases (i : NetRxIn) :
    i.tvalid = false ∨ i.tvalid = true ∧ i.tlast = false ∨ i.tvalid = true ∧ i.tlast = true := by
  cases i.tvalid with
  | false => exact Or.inl rfl
  | true =>
      cases i.tlast with
      | false => exact Or.inr (Or.inl ⟨rfl, rfl⟩)
      | true => exact Or.inr (Or.inr ⟨rfl, rfl⟩)

variable {bench : NetRxBench}

theorem sound_within (hsound : bench.Sound) (hwithin : bench.ended = none) (i : NetRxIn) :
    (bench.step i).Sound := by
  have hfollows := hsound.within hwithin
  have hdone : (bench.step i).done = bench.done := by
    rw [NetRxBench.step, hwithin]
  have hshown : (if bench.ended.isSome then [] else bench.shown ++ (bench.rx.clkEdge i).outs) =
      bench.shown ++ (bench.rx.clkEdge i).outs := by
    rw [hwithin]
    rfl
  rcases beat_cases i with hidle | ⟨hvalid, hmore⟩ | ⟨hvalid, hlast⟩
  · refine ⟨fun _ => ?_, ?_, by rw [hdone]; exact hsound.done⟩
    · simp only [NetRxBench.step, hshown, hidle, Bool.false_and, if_neg Bool.false_ne_true]
      exact hfollows.idle hidle
    · simp only [NetRxBench.step, hidle, Bool.false_and, if_neg Bool.false_ne_true]
      exact fun _ hmem => nomatch hmem
  · refine ⟨fun _ => ?_, ?_, by rw [hdone]; exact hsound.done⟩
    · simp only [NetRxBench.step, hshown, hvalid, hmore, Bool.and_false,
        if_neg Bool.false_ne_true, if_true]
      exact hfollows.more hvalid hmore
    · simp only [NetRxBench.step, hmore, Bool.and_false, if_neg Bool.false_ne_true]
      exact fun _ hmem => nomatch hmem
  · refine ⟨?_, ?_, by rw [hdone]; exact hsound.done⟩
    · simp only [NetRxBench.step, hvalid, hlast, Bool.and_true, if_true]
      exact fun hnone => nomatch hnone
    · simp only [NetRxBench.step, hshown, hvalid, hlast, Bool.and_true, if_true,
        Option.mem_some]
      rintro frame rfl
      exact ⟨hfollows.last hvalid hlast, trivial⟩

theorem sound_behind (hsound : bench.Sound) {frame : List NetRxIn × List NetRxOut}
    (hbehind : bench.ended = some frame) (i : NetRxIn) : (bench.step i).Sound := by
  obtain ⟨hended, hcurrent⟩ := hsound.behind frame hbehind
  have hat := hended.atStart
  have hdone : (bench.rx.clkEdge i).outs = bench.rx.release.outs →
      ∀ other ∈ (bench.step i).done, Delivers other := by
    intro houts other hother
    simp only [NetRxBench.step, hbehind, List.mem_append, List.mem_singleton] at hother
    rcases hother with hother | rfl
    · exact hsound.done other hother
    · rw [Delivers, houts]
      exact hended.complete
  have hshown : (if bench.ended.isSome then [] else bench.shown ++ (bench.rx.clkEdge i).outs) =
      [] := by
    rw [hbehind]
    rfl
  rcases beat_cases i with hidle | ⟨hvalid, hmore⟩ | ⟨hvalid, hlast⟩
  · obtain ⟨hnext, houts⟩ := hat.idle hidle
    refine ⟨fun _ => ?_, ?_, hdone houts⟩
    · simp only [NetRxBench.step, hshown, hcurrent, hidle, Bool.false_and,
        if_neg Bool.false_ne_true]
      exact hnext
    · simp only [NetRxBench.step, hidle, Bool.false_and, if_neg Bool.false_ne_true]
      exact fun _ hmem => nomatch hmem
  · obtain ⟨hnext, houts⟩ := hat.more hvalid hmore
    refine ⟨fun _ => ?_, ?_, hdone houts⟩
    · simp only [NetRxBench.step, hshown, hcurrent, hvalid, hmore, Bool.and_false,
        if_neg Bool.false_ne_true, if_true]
      exact hnext
    · simp only [NetRxBench.step, hmore, Bool.and_false, if_neg Bool.false_ne_true]
      exact fun _ hmem => nomatch hmem
  · obtain ⟨hnext, houts⟩ := hat.last hvalid hlast
    refine ⟨?_, ?_, hdone houts⟩
    · simp only [NetRxBench.step, hvalid, hlast, Bool.and_true, if_true]
      exact fun hnone => nomatch hnone
    · simp only [NetRxBench.step, hshown, hcurrent, hvalid, hlast, Bool.and_true, if_true,
        Option.mem_some]
      rintro other rfl
      exact ⟨hnext, trivial⟩

theorem sound_run (edges : List NetRxIn) :
    (runFrom NetRxBench.step NetRxBench.start edges).Sound := by
  have hstart : NetRxBench.start.Sound :=
    ⟨fun _ => follows_reset, fun _ hmem => (nomatch hmem), fun _ hmem => (nomatch hmem)⟩
  have hstep : ∀ (bench : NetRxBench) (i : NetRxIn), True → bench.Sound →
      (bench.step i).Sound := by
    intro bench i _ hsound
    cases hended : bench.ended with
    | none => exact sound_within hsound hended i
    | some frame => exact sound_behind hsound hended i
  exact invariant_along hstep hstart (along_of_forall (fun _ _ => trivial) _ edges)

/-- A message that is delivered shows. -/
theorem stream_ne_nil {message : NetMessage} (hbytes : message.bytes ≠ []) :
    message.stream ≠ [] := by
  rw [NetMessage.stream, List.getLast?_eq_some_getLast hbytes]
  exact List.append_ne_nil_of_right_ne_nil _ (List.cons_ne_nil _ _)

theorem delivered_eq_iff (frame : List NetRxIn) :
    (delivered frame).elim [] NetMessage.stream =
        (NetBeats.message frame).elim [] NetMessage.stream ↔ DstAgrees frame := by
  rw [delivered, NetBeats.message, DstAgrees]
  cases hsound : sound (bytes frame) with
  | false => simp
  | true =>
      have hbytes : (NetFrame.message (bytes frame) (error frame)).bytes ≠ [] := by
        rw [sound, Bool.and_eq_true, Bool.not_eq_true', List.isEmpty_eq_false_iff] at hsound
        exact hsound.2
      have hne := stream_ne_nil hbytes
      cases htaken : toUs (ourIp frame) (dstTaken frame) with
      | false =>
          cases hdst : toUs (ourIp frame) (NetFrame.dstIp (bytes frame)) with
          | false => simp
          | true => simpa using hne.symm
      | true =>
          cases hdst : toUs (ourIp frame) (NetFrame.dstIp (bytes frame)) with
          | false => simpa using hne
          | true => simp

/-- Without options the parser compares the address itself. -/
theorem dstAgrees_of_no_options {frame : List NetRxIn} (hihl : ihl (bytes frame) = 20) :
    DstAgrees frame := by
  intro _
  have hsame : dstTaken frame = NetFrame.dstIp (bytes frame) := by
    rw [dstTaken, hdrEnd, hihl, NetFrame.dstIp, wordAt, wordAt]
    exact BitVec.append_assoc
  rw [hsame]

/-- Each frame that has come delivers its message, on the right stream, and nothing else,
exactly when the byte that the parser takes for the last of the destination address makes
no difference; what comes out depends on nothing but the frame. -/
theorem netRx_run (edges : List NetRxIn) :
    ∀ frame ∈ (runFrom NetRxBench.step NetRxBench.start edges).done,
      frame.2 = (delivered frame.1).elim [] NetMessage.stream ∧
        (frame.2 = (NetBeats.message frame.1).elim [] NetMessage.stream ↔
          DstAgrees frame.1) := by
  intro frame hframe
  have hdelivers : frame.2 = (delivered frame.1).elim [] NetMessage.stream :=
    (sound_run edges).done frame hframe
  refine ⟨hdelivers, ?_⟩
  rw [hdelivers]
  exact delivered_eq_iff frame.1

/-- A frame for 10.0.0.1, one byte a cycle, and an idle edge behind it. -/
def beatsOf (frame : List (BitVec 8)) : List NetRxIn :=
  frame.dropLast.map (fun data => ⟨data, true, false, false, 0x0A000001⟩) ++
    frame.getLast?.toList.map fun data => ⟨data, true, true, false, 0x0A000001⟩

def idleNetRx : NetRxIn := ⟨0, false, false, false, 0x0A000001⟩

/-- An echo request without options. -/
def plainRequest : List (BitVec 8) :=
  [0x02, 0x00, 0x00, 0x00, 0x00, 0x01, 0x02, 0x00, 0x00, 0x00, 0x00, 0x02, 0x08, 0x00,
    0x45, 0x00, 0x00, 0x1C, 0x00, 0x00, 0x00, 0x00, 0x40, 0x01, 0x66, 0xDF, 0x0A, 0x00,
    0x00, 0x02, 0x0A, 0x00, 0x00, 0x01, 0x08, 0x00, 0xF7, 0xFF, 0x00, 0x00, 0x00, 0x00]

theorem netRx_run_plain :
    (beatsOf plainRequest,
        NetMessage.stream ⟨true, [0x08, 0x00, 0xF7, 0xFF, 0x00, 0x00, 0x00, 0x00], false⟩) ∈
      (runFrom NetRxBench.step NetRxBench.start (beatsOf plainRequest ++ [idleNetRx])).done ∧
      DstAgrees (beatsOf plainRequest) := by
  have hdone : (beatsOf plainRequest,
      NetMessage.stream ⟨true, [0x08, 0x00, 0xF7, 0xFF, 0x00, 0x00, 0x00, 0x00], false⟩) ∈
      (runFrom NetRxBench.step NetRxBench.start (beatsOf plainRequest ++ [idleNetRx])).done := by
    decide +kernel
  have hruns := netRx_run (beatsOf plainRequest ++ [idleNetRx]) _ hdone
  exact ⟨hdone, hruns.2.mp (by decide +kernel)⟩

/-- An echo request with four bytes of options, whose last one is 0. -/
def optionRequest : List (BitVec 8) :=
  [0x02, 0x00, 0x00, 0x00, 0x00, 0x01, 0x02, 0x00, 0x00, 0x00, 0x00, 0x02, 0x08, 0x00,
    0x46, 0x00, 0x00, 0x20, 0x00, 0x00, 0x00, 0x00, 0x40, 0x01, 0x63, 0xDA, 0x0A, 0x00,
    0x00, 0x02, 0x0A, 0x00, 0x00, 0x01, 0x01, 0x01, 0x01, 0x00, 0x08, 0x00, 0xF7, 0xFF,
    0x00, 0x00, 0x00, 0x00]

/-- The request is to be delivered, and the parser drops it. -/
theorem netRx_run_options :
    (NetBeats.message (beatsOf optionRequest)).elim [] NetMessage.stream ≠ [] ∧
      (beatsOf optionRequest, []) ∈
        (runFrom NetRxBench.step NetRxBench.start
          (beatsOf optionRequest ++ [idleNetRx])).done := by
  decide +kernel

end EmacZero
