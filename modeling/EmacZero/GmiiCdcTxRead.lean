/-
The readout of the transmit half of `gmii_cdc` at one of its two FIFOs: where it stands in
the frame that it sends, how many words of it have been consumed, and that the next word is
on the read port whenever it is needed.
-/
import EmacZero.GmiiCdcTx
import EmacZero.PacketLog

namespace EmacZero

/-- A byte with its error flag, as the MAC handed it over. -/
def GmiiTxWord.beat (word : GmiiTxWord) : BitVec 8 × Bool := (word.data, word.er)

section Rates

variable {speed : BitVec 2}

theorem speed_cases : ∀ speed : BitVec 2,
    (is1g speed = true ∧ paceMax speed = 0 ∧ txGap speed = 10) ∨
      (is1g speed = false ∧ paceMax speed = 9 ∧ txGap speed = 120) ∨
      (is1g speed = false ∧ paceMax speed = 99 ∧ txGap speed = 1200) := by
  decide

theorem paceMax_of_1g (hfast : is1g speed = true) : paceMax speed = 0 := by
  rcases speed_cases speed with ⟨-, h, -⟩ | ⟨h, -⟩ | ⟨h, -⟩
  · exact h
  all_goals exact absurd (hfast.symm.trans h) (by decide)

theorem two_le_txGap (speed : BitVec 2) : 2 ≤ (txGap speed).toNat := by
  rcases speed_cases speed with ⟨-, -, h⟩ | ⟨-, -, h⟩ | ⟨-, -, h⟩ <;> rw [h] <;> decide

theorem paceMax_eq_zero (speed : BitVec 2) : (paceMax speed == 0) = is1g speed := by
  rcases speed_cases speed with ⟨h, hpace, -⟩ | ⟨h, hpace, -⟩ | ⟨h, hpace, -⟩ <;>
    rw [h, hpace] <;> decide

end Rates

namespace GmiiTxReadout

variable {tx : GmiiTxReadout} {speed : BitVec 2}
variable {rdData : GmiiTxWord} {rdEmpty ctlPending datPending hold : Bool}

section Edges

theorem paceCnt_pred {cnt : BitVec 10} (hcnt : cnt ≠ 0) :
    (cnt - 1).toNat + 1 = cnt.toNat := by
  have hpos : cnt.toNat ≠ 0 := fun hzero => hcnt (BitVec.eq_of_toNat_eq hzero)
  have hone : (1 : BitVec 10).toNat = 1 := rfl
  have hlt := cnt.isLt
  rw [BitVec.toNat_sub, hone]
  omega

theorem txStartDelay_pred {delay : BitVec 11} (hdelay : delay ≠ 0) :
    (delay - 1).toNat + 1 = delay.toNat := by
  have hpos : delay.toNat ≠ 0 := fun hzero => hdelay (BitVec.eq_of_toNat_eq hzero)
  have hone : (1 : BitVec 11).toNat = 1 := rfl
  have hlt := delay.isLt
  rw [BitVec.toNat_sub, hone]
  omega

theorem edge_pick (hloaded : tx.txFrameLoaded = false) :
    tx.edge speed rdData rdEmpty ctlPending datPending hold =
      tx.pickEdge speed ctlPending datPending hold := by
  rw [edge, hloaded]
  rfl

theorem edge_back (hloaded : tx.txFrameLoaded = true)
    (hback : tx.givesWay ctlPending hold = true) :
    tx.edge speed rdData rdEmpty ctlPending datPending hold =
      { tx.tick speed with txFrameLoaded := false } := by
  rw [edge, hloaded, hback]
  rfl

theorem edge_gap (hloaded : tx.txFrameLoaded = true)
    (hback : tx.givesWay ctlPending hold = false) (hdelay : tx.txStartDelay ≠ 0) :
    tx.edge speed rdData rdEmpty ctlPending datPending hold = tx.gapEdge speed rdEmpty := by
  have hdelay' : (tx.txStartDelay != 0) = true := bne_iff_ne.mpr hdelay
  rw [edge, hloaded, hback, hdelay']
  rfl

theorem givesWay_of_zero (hdelay : tx.txStartDelay = 0) :
    tx.givesWay ctlPending hold = false := by
  rw [givesWay, hdelay]
  rfl

theorem edge_end (hloaded : tx.txFrameLoaded = true) (hdelay : tx.txStartDelay = 0)
    (hend : tx.txFrameEnd = true) :
    tx.edge speed rdData rdEmpty ctlPending datPending hold = tx.endEdge speed := by
  rw [edge, hloaded, givesWay_of_zero hdelay, hdelay, hend]
  rfl

theorem edge_byte (hloaded : tx.txFrameLoaded = true) (hdelay : tx.txStartDelay = 0)
    (hend : tx.txFrameEnd = false) :
    tx.edge speed rdData rdEmpty ctlPending datPending hold =
      tx.byteEdge speed rdData rdEmpty := by
  rw [edge, hloaded, givesWay_of_zero hdelay, hdelay, hend]
  rfl

theorem done_iff :
    tx.done = true ↔ tx.txFrameLoaded = true ∧ tx.txStartDelay = 0 ∧
      tx.txFrameEnd = true ∧ tx.paceCnt = 0 := by
  simp only [done, paceTick, Bool.and_eq_true, beq_iff_eq, and_assoc]

theorem done_of_not_loaded (hloaded : tx.txFrameLoaded = false) : tx.done = false := by
  rw [done, hloaded]
  rfl

/-- While a frame is loaded the selection stays. -/
theorem edge_txSelCtl (hloaded : tx.txFrameLoaded = true) :
    (tx.edge speed rdData rdEmpty ctlPending datPending hold).txSelCtl = tx.txSelCtl := by
  simp only [edge, hloaded, Bool.not_true, Bool.false_eq_true, if_false]
  split
  · rfl
  · split
    · rw [gapEdge]
      split <;> rfl
    · split
      · rw [endEdge]
        split <;> rfl
      · simp only [byteEdge]
        split
        · rfl
        · split <;> rfl

end Edges

/-- The readout at a frame of which `taken` words have been consumed: in the start gap, at
its bytes, or behind the last one.  Within the frame the next word is popped in the cycle in
which it is sent; at 10 and 100 Mbit/s the last one only when the frame is closed. -/
inductive At (speed : BitVec 2) (tx : GmiiTxReadout) (frame : List GmiiTxWord) (taken : Nat) :
    Prop
  | gap (hdelay : tx.txStartDelay ≠ 0) (hend : tx.txFrameEnd = false)
      (hrdEn : tx.txRdEn = false) (hquiet : tx.gmiiTxEnOut = false) (hnone : taken = 0) :
      At speed tx frame taken
  | bytes (hdelay : tx.txStartDelay = 0) (hend : tx.txFrameEnd = false)
      (hmore : taken < frame.length)
      (hrdEn : tx.txRdEn = (tx.paceCnt == 0 &&
        (taken == 0 || is1g speed || decide (taken + 1 < frame.length))))
      (hfirst : taken = 0 → tx.paceCnt = 0)
      (hpace : tx.paceCnt.toNat ≤ (paceMax speed).toNat)
      (hout : tx.gmiiOut = if taken = 0 then none else frame[taken - 1]?.map GmiiTxWord.beat) :
      At speed tx frame taken
  | last (hdelay : tx.txStartDelay = 0) (hend : tx.txFrameEnd = true)
      (hrdEn : tx.txRdEn = false) (hpace : tx.paceCnt.toNat ≤ (paceMax speed).toNat)
      (htaken : taken + (!is1g speed).toNat = frame.length)
      (hout : tx.gmiiOut = frame[frame.length - 1]?.map GmiiTxWord.beat) :
      At speed tx frame taken

section At

variable {frame : List GmiiTxWord} {taken : Nat}

/-- A frame is long enough for the pace: at 10 and 100 Mbit/s the word behind the first one
is on the read port before the frame can end. -/
def LongEnough (speed : BitVec 2) (frame : List GmiiTxWord) : Prop :=
  is1g speed = false → 2 ≤ frame.length

theorem At.pop_lt (hat : tx.At speed frame taken) (hrdEn : tx.txRdEn = true) :
    taken < frame.length := by
  cases hat with
  | gap _ _ hnone => exact absurd (hrdEn.symm.trans hnone) (by decide)
  | bytes _ _ hmore => exact hmore
  | last _ _ hnone => exact absurd (hrdEn.symm.trans hnone) (by decide)

theorem At.delay_of_pop (hat : tx.At speed frame taken) (hrdEn : tx.txRdEn = true) :
    tx.txStartDelay = 0 := by
  cases hat with
  | gap _ _ hnone => exact absurd (hrdEn.symm.trans hnone) (by decide)
  | bytes hdelay => exact hdelay
  | last _ _ hnone => exact absurd (hrdEn.symm.trans hnone) (by decide)

/-- The frame has been loaded. -/
theorem at_pickEdge (frame : List GmiiTxWord) (hend : tx.txFrameEnd = false)
    (hpick : (ctlPending || datPending && !hold) = true) :
    (tx.pickEdge speed ctlPending datPending hold).At speed frame 0 := by
  have hgap : txGap speed ≠ 0 := fun hzero => by
    have hlong := two_le_txGap speed
    rw [hzero] at hlong
    exact absurd hlong (by decide)
  rw [pickEdge, if_pos hpick]
  exact .gap hgap hend rfl rfl rfl

/-- A cycle of the start gap. -/
theorem At.gapEdge (hne : frame ≠ []) (hdelay : tx.txStartDelay ≠ 0)
    (hend : tx.txFrameEnd = false) (hfilled : tx.txStartDelay = 1 → rdEmpty = false) :
    (tx.gapEdge speed rdEmpty).At speed frame 0 := by
  rw [GmiiTxReadout.gapEdge]
  by_cases hlast : tx.txStartDelay = 1
  · have hcond : (tx.txStartDelay == 1 && !rdEmpty) = true := by
      rw [hlast, hfilled hlast]
      rfl
    rw [if_pos hcond]
    refine .bytes ?_ hend (List.length_pos_iff.mpr hne) rfl (fun _ => rfl) (Nat.zero_le _) rfl
    change tx.txStartDelay - 1 = 0
    rw [hlast]
    rfl
  · have hcond : (tx.txStartDelay == 1) = false := beq_eq_false_iff_ne.mpr hlast
    rw [hcond, Bool.false_and, if_neg Bool.false_ne_true]
    refine .gap (fun hzero => ?_) hend rfl rfl rfl
    have hpred := txStartDelay_pred hdelay
    rw [show tx.txStartDelay - 1 = 0 from hzero] at hpred
    exact hlast (BitVec.eq_of_toNat_eq hpred.symm)

/-- In the cycle in which a byte is sent its word is popped, but for the last one at 10 and
100 Mbit/s. -/
theorem pop_eq (hlong : LongEnough speed frame) (hmore : taken < frame.length)
    (hrdEn : tx.txRdEn = (tx.paceCnt == 0 &&
      (taken == 0 || is1g speed || decide (taken + 1 < frame.length))))
    (htick : tx.paceCnt = 0) :
    tx.txRdEn = (is1g speed || decide (taken + 1 < frame.length)) := by
  rw [hrdEn, htick, beq_self_eq_true, Bool.true_and]
  cases hfast : is1g speed with
  | true => simp only [Bool.or_true, Bool.true_or]
  | false =>
      have htwo := hlong hfast
      by_cases hlast : taken + 1 < frame.length
      · rw [decide_eq_true hlast, Bool.or_true, Bool.or_true]
      · have hzero : (taken == 0) = false := beq_eq_false_iff_ne.mpr (by omega)
        rw [hzero, Bool.false_or]

/-- A cycle at the bytes of the frame. -/
theorem At.byteEdge (hmarked : MarkedBy GmiiTxWord.eof frame) (hlong : LongEnough speed frame)
    (hdelay : tx.txStartDelay = 0) (hend : tx.txFrameEnd = false)
    (hmore : taken < frame.length)
    (hrdEn : tx.txRdEn = (tx.paceCnt == 0 &&
      (taken == 0 || is1g speed || decide (taken + 1 < frame.length))))
    (hfirst : taken = 0 → tx.paceCnt = 0)
    (hpace : tx.paceCnt.toNat ≤ (paceMax speed).toNat)
    (hout : tx.gmiiOut = if taken = 0 then none else frame[taken - 1]?.map GmiiTxWord.beat)
    (hword : frame[taken]? = some rdData) :
    (tx.byteEdge speed rdData false).At speed frame (taken + tx.txRdEn.toNat) := by
  have heof : rdData.eof = decide (taken + 1 = frame.length) := by
    rw [Bool.eq_iff_iff, decide_eq_true_iff]
    exact hmarked taken rdData hword
  rw [GmiiTxReadout.byteEdge, if_neg Bool.false_ne_true]
  by_cases htick : tx.paceCnt = 0
  · have htick' : tx.paceTick = true := beq_iff_eq.mpr htick
    rw [if_pos htick']
    have hbeat : some (rdData.data, rdData.er) = frame[taken]?.map GmiiTxWord.beat := by
      rw [hword]
      rfl
    have hcnt : (tx.tick speed).paceCnt = paceMax speed := if_pos htick'
    by_cases hlast : taken + 1 = frame.length
    · have heof' : rdData.eof = true := by rw [heof, decide_eq_true hlast]
      have hpop : tx.txRdEn = is1g speed := by
        rw [pop_eq hlong hmore hrdEn htick, decide_eq_false (by omega), Bool.or_false]
      refine .last hdelay ?_ ?_ ?_ ?_ ?_
      · exact if_pos heof'
      · rw [heof', Bool.not_true, Bool.and_false]
      · exact (congrArg BitVec.toNat hcnt).le
      · rw [hpop, ← hlast]
        cases is1g speed <;> rfl
      · rw [← hlast, Nat.add_sub_cancel, ← hbeat]
        rfl
    · have heof' : rdData.eof = false := by rw [heof, decide_eq_false hlast]
      have hmore' : taken + 1 < frame.length := by omega
      have hpop : tx.txRdEn = true := by
        rw [pop_eq hlong hmore hrdEn htick, decide_eq_true hmore', Bool.or_true]
      rw [hpop, Bool.toNat_true]
      refine .bytes hdelay ?_ hmore' ?_ (fun hzero => absurd hzero (Nat.succ_ne_zero _)) ?_ ?_
      · exact (if_neg (by rw [heof']; exact Bool.false_ne_true)).trans hend
      · have hsucc : (taken + 1 == 0) = false := rfl
        have hone : (tx.paceCnt == 1) = false := by rw [htick]; rfl
        change (tx.paceAdvance speed && !rdData.eof) =
          ((tx.tick speed).paceCnt == 0 && (taken + 1 == 0 || is1g speed ||
            decide (taken + 1 + 1 < frame.length)))
        rw [hcnt, paceMax_eq_zero, paceAdvance, paceMax_eq_zero, hone, heof', hsucc,
          Bool.or_false, Bool.false_or]
        cases is1g speed <;> rfl
      · exact (congrArg BitVec.toNat hcnt).le
      · rw [if_neg (Nat.succ_ne_zero _), Nat.add_sub_cancel, ← hbeat]
        rfl
  · have htick' : tx.paceTick = false := beq_eq_false_iff_ne.mpr htick
    have hslow : is1g speed = false := by
      by_contra hfast
      rw [paceMax_of_1g ((Bool.not_eq_false _).mp hfast)] at hpace
      exact htick (BitVec.eq_of_toNat_eq (Nat.le_zero.mp hpace))
    have hpop : tx.txRdEn = false := by
      rw [hrdEn, beq_eq_false_iff_ne.mpr htick]
      rfl
    have hpos : taken ≠ 0 := fun hzero => htick (hfirst hzero)
    have hcnt : (tx.tick speed).paceCnt = tx.paceCnt - 1 := if_neg (by rw [htick']; decide)
    have hpred := paceCnt_pred htick
    rw [if_neg (by rw [htick']; exact Bool.false_ne_true), hpop, Bool.toNat_false,
      Nat.add_zero]
    refine .bytes hdelay hend hmore ?_ (fun hzero => absurd hzero hpos) ?_ hout
    · have hzero : (taken == 0) = false := beq_eq_false_iff_ne.mpr hpos
      have hnext : ((tx.tick speed).paceCnt == 0) = (tx.paceCnt == 1) := by
        rw [hcnt, Bool.eq_iff_iff, beq_iff_eq, beq_iff_eq]
        constructor
        · intro hnone
          rw [hnone] at hpred
          exact BitVec.eq_of_toNat_eq hpred.symm
        · intro hone
          rw [hone]
          rfl
      change (tx.paceAdvance speed && !rdData.eof) =
        ((tx.tick speed).paceCnt == 0 && (taken == 0 || is1g speed ||
          decide (taken + 1 < frame.length)))
      rw [hnext, paceAdvance, paceMax_eq_zero, hslow, hzero, heof, Bool.false_or,
        Bool.false_or, Bool.false_or, ← decide_not]
      congr 1
      rw [Bool.eq_iff_iff, decide_eq_true_iff, decide_eq_true_iff]
      omega
    · change (tx.tick speed).paceCnt.toNat ≤ _
      rw [hcnt]
      omega

/-- A cycle behind the last byte. -/
theorem At.endEdge (hdelay : tx.txStartDelay = 0) (hend : tx.txFrameEnd = true)
    (hpace : tx.paceCnt.toNat ≤ (paceMax speed).toNat)
    (htaken : taken + (!is1g speed).toNat = frame.length)
    (hout : tx.gmiiOut = frame[frame.length - 1]?.map GmiiTxWord.beat) (hmore : tx.paceCnt ≠ 0) :
    (tx.endEdge speed).At speed frame taken := by
  have htick : tx.paceTick = false := beq_eq_false_iff_ne.mpr hmore
  have hpred := paceCnt_pred hmore
  rw [GmiiTxReadout.endEdge, if_neg (by rw [htick]; exact Bool.false_ne_true)]
  refine .last hdelay hend rfl ?_ htaken hout
  have hcnt : (tx.tick speed).paceCnt = tx.paceCnt - 1 :=
    if_neg (by rw [htick]; exact Bool.false_ne_true)
  rw [hcnt]
  omega

/-- An edge within the frame. -/
theorem At.edge (hat : tx.At speed frame taken) (hloaded : tx.txFrameLoaded = true)
    (hne : frame ≠ []) (hmarked : MarkedBy GmiiTxWord.eof frame)
    (hlong : LongEnough speed frame) (hback : tx.givesWay ctlPending hold = false)
    (hport : taken < frame.length → tx.txStartDelay.toNat < (txGap speed).toNat →
      rdEmpty = false ∧ frame[taken]? = some rdData) (hdone : tx.done = false) :
    (tx.edge speed rdData rdEmpty ctlPending datPending hold).txFrameLoaded = true ∧
      (tx.edge speed rdData rdEmpty ctlPending datPending hold).At speed frame
        (taken + tx.txRdEn.toNat) := by
  have hgap := two_le_txGap speed
  cases hat with
  | gap hdelay hend hrdEn hquiet hnone =>
      have hfilled : tx.txStartDelay = 1 → rdEmpty = false := fun hone => by
        refine (hport ?_ ?_).1
        · rw [hnone]
          exact List.length_pos_iff.mpr hne
        · rw [hone]
          exact lt_of_lt_of_le (by decide) hgap
      rw [edge_gap hloaded hback hdelay, hrdEn, hnone]
      refine ⟨?_, At.gapEdge hne hdelay hend hfilled⟩
      rw [GmiiTxReadout.gapEdge]
      split <;> exact hloaded
  | bytes hdelay hend hmore hrdEn hfirst hpace hout =>
      obtain ⟨hfilled, hword⟩ := hport hmore (by
        rw [hdelay]
        exact lt_of_lt_of_le (by decide) hgap)
      rw [edge_byte hloaded hdelay hend, hfilled]
      refine ⟨?_, At.byteEdge hmarked hlong hdelay hend hmore hrdEn hfirst hpace hout hword⟩
      simp only [GmiiTxReadout.byteEdge, Bool.false_eq_true, if_false]
      split <;> exact hloaded
  | last hdelay hend hrdEn hpace htaken hout =>
      have hcnt : tx.paceCnt ≠ 0 := fun hzero => by
        rw [done_iff.mpr ⟨hloaded, hdelay, hend, hzero⟩] at hdone
        cases hdone
      have htick : tx.paceTick = false := beq_eq_false_iff_ne.mpr hcnt
      rw [edge_end hloaded hdelay hend, hrdEn]
      refine ⟨?_, At.endEdge hdelay hend hpace htaken hout hcnt⟩
      rw [GmiiTxReadout.endEdge, htick]
      exact hloaded

/-- A frame that gives way has not been touched. -/
theorem At.back (hat : tx.At speed frame taken) (hback : tx.givesWay ctlPending hold = true) :
    tx.txStartDelay ≠ 0 ∧ tx.txFrameEnd = false ∧ tx.txRdEn = false ∧
      tx.gmiiTxEnOut = false ∧ taken = 0 := by
  cases hat with
  | gap hdelay hend hrdEn hquiet hnone => exact ⟨hdelay, hend, hrdEn, hquiet, hnone⟩
  | bytes hzero =>
      rw [givesWay_of_zero hzero] at hback
      cases hback
  | last hzero =>
      rw [givesWay_of_zero hzero] at hback
      cases hback

theorem done_of_delay (hdelay : tx.txStartDelay ≠ 0) : tx.done = false := by
  rw [← Bool.not_eq_true, done_iff]
  exact fun hall => hdelay hall.2.1

/-- The end of the frame. -/
theorem At.of_done (hat : tx.At speed frame taken) (hdone : tx.done = true) :
    tx.txRdEn = false ∧ taken + (!is1g speed).toNat = frame.length ∧
      tx.gmiiOut = frame[frame.length - 1]?.map GmiiTxWord.beat := by
  obtain ⟨-, hdelay, hend, -⟩ := done_iff.mp hdone
  cases hat with
  | gap hnot => exact absurd hdelay hnot
  | bytes _ hnot => exact absurd (hnot.symm.trans hend) (by decide)
  | last _ _ hrdEn _ htaken hout => exact ⟨hrdEn, htaken, hout⟩

/-- Where the frame ends it is closed, and at 10 and 100 Mbit/s its last word consumed. -/
theorem edge_done (hdone : tx.done = true) :
    (tx.edge speed rdData rdEmpty ctlPending datPending hold).txFrameLoaded = false ∧
      (tx.edge speed rdData rdEmpty ctlPending datPending hold).txRdEn = !is1g speed ∧
      (tx.edge speed rdData rdEmpty ctlPending datPending hold).gmiiOut = none := by
  obtain ⟨hloaded, hdelay, hend, hcnt⟩ := done_iff.mp hdone
  have htick : tx.paceTick = true := beq_iff_eq.mpr hcnt
  rw [edge_end hloaded hdelay hend, GmiiTxReadout.endEdge, if_pos htick]
  exact ⟨rfl, rfl, rfl⟩

end At

end GmiiTxReadout

end EmacZero
