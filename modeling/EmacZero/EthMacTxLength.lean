/-
How long an envelope of `eth_mac_tx` gets: the frame with its preamble, padding and FCS, and
a filler byte for every cycle in which the source had none.
-/
import EmacZero.EthMacTxBench
import EmacZero.GmiiCdcTxOffers

namespace EmacZero

namespace EthMacTx

variable {tx : EthMacTx} {i : EthMacTxIn} {maxFrame len filler : Nat}

/-- A filler byte goes out for a byte of the source that is not there. -/
def stalls (tx : EthMacTx) (i : EthMacTxIn) : Bool :=
  tx.state == .data && !tx.frameEnded && !tx.haveFirst && !i.sAxisTvalid

/-- The longest envelope without filler, from its preamble to its FCS. -/
def fullLength (maxFrame : Nat) : Nat := 12 + max minFrame maxFrame

/-- The beats of the envelope that is open, by the state of the framer. -/
def Measured (maxFrame : Nat) (tx : EthMacTx) (len filler : Nat) : Prop :=
  match tx.state with
  | .idle => True
  | .preamble => len = tx.count.toNat ∧ filler = 0
  | .sfd => len = 7 ∧ filler = 0
  | .data =>
      len = 8 + tx.dataCnt.toNat + filler ∧ tx.dataCnt.toNat ≤ maxFrame ∧
        (tx.frameEnded = false → tx.dataCnt.toNat < maxFrame)
  | .pad => len = 8 + tx.dataCnt.toNat + filler
  | .crc => 8 ≤ len ∧ len ≤ 8 + max minFrame maxFrame + filler + tx.count.toNat
  | .ifg => tx.gmiiTxEn = true → 8 ≤ len ∧ len ≤ fullLength maxFrame + filler

/-- The filler of the frame under way. -/
def fillerEdge (tx : EthMacTx) (i : EthMacTxIn) (filler : Nat) : Nat :=
  if tx.state = .idle then 0 else filler + (tx.stalls i).toNat

theorem stalls_of_ne (hstate : tx.state ≠ .data) : tx.stalls i = false := by
  rw [stalls, beq_eq_false_iff_ne.mpr hstate]
  rfl

/-- A byte of the frame goes out. -/
theorem Measured.byteEdge (hmax : maxFrame ≤ 16383) (hstate : tx.state = .data)
    (hlen : len = 8 + tx.dataCnt.toNat + filler) (hroom : tx.dataCnt.toNat < maxFrame)
    (data : BitVec 8) (last : Bool) :
    (tx.byteEdge maxFrame data last).Measured maxFrame (len + 1) filler := by
  have hsucc := toNat_succ hroom (show maxFrame < 2 ^ 14 by omega)
  simp only [EthMacTx.byteEdge, cycleDefaults]
  split
  · simp only [Measured, hstate, hsucc, hlen, BitVec.ofNat_eq_ofNat]
    refine ⟨by omega, by omega, fun hnot => absurd hnot (by decide)⟩
  · split
    · simp only [Measured, hlen, fullLength]
      omega
    · simp only [Measured, hstate, hsucc, hlen, BitVec.ofNat_eq_ofNat]
      omega

/-- One cycle: another beat, or the end of the envelope. -/
theorem Measured.clkEdge (hmin : 1 ≤ maxFrame) (hmax : maxFrame ≤ 16383)
    (hsettled : tx.Settled) (hmeasured : tx.Measured maxFrame len filler) :
    (tx.clkEdge maxFrame i).Measured maxFrame
      (if (tx.clkEdge maxFrame i).gmiiTxEn then len + 1 else 0) (tx.fillerEdge i filler) := by
  unfold EthMacTx.clkEdge
  cases hstate : tx.state with
  | idle =>
      simp only [Settled, hstate] at hsettled
      simp only [idleEdge, cycleDefaults]
      split
      · split
        · simp [Measured, fillerEdge, hstate]
        · simp [Measured, hstate]
      · simp [Measured, hstate]
  | preamble =>
      simp only [Settled, hstate] at hsettled
      simp only [Measured, hstate] at hmeasured
      obtain ⟨-, -, -, -, hcount⟩ := hsettled
      obtain ⟨hlen, hfiller⟩ := hmeasured
      have hsucc := toNat_succ hcount (show preambleLen < 2 ^ 4 by decide)
      have hstill : tx.stalls i = false := stalls_of_ne (by rw [hstate]; decide)
      simp only [preambleEdge, cycleDefaults]
      split
      · rename_i hlast
        simp [Measured, fillerEdge, hstate, hstill, hfiller, hlen, hlast, preambleLen]
      · simp [Measured, fillerEdge, hstate, hstill, hfiller, hlen, hsucc]
  | sfd =>
      simp only [Settled, hstate] at hsettled
      simp only [Measured, hstate] at hmeasured
      obtain ⟨-, -, hended, -, hen⟩ := hsettled
      have hstill : tx.stalls i = false := stalls_of_ne (by rw [hstate]; decide)
      simp [sfdEdge, cycleDefaults, Measured, fillerEdge, hstate, hstill, hen, hmeasured]
      omega
  | data =>
      simp only [Settled, hstate] at hsettled
      simp only [Measured, hstate] at hmeasured
      obtain ⟨hen, hfirst, -, -⟩ := hsettled
      obtain ⟨hlen, hfits, hroom⟩ := hmeasured
      have hstalls : tx.stalls i = (!tx.frameEnded && !tx.haveFirst && !i.sAxisTvalid) := by
        rw [stalls, hstate]
        rfl
      have hfiller : tx.fillerEdge i filler = filler + (tx.stalls i).toNat := by
        rw [fillerEdge, hstate, if_neg (by decide)]
      rw [hfiller, hstalls, dataEdge_gmiiTxEn, hen, if_pos rfl]
      simp only [dataEdge]
      cases hended : tx.frameEnded with
      | true =>
          simp only [endedEdge, cycleDefaults, if_true, Bool.not_true, Bool.false_and,
            Bool.toNat_false, Nat.add_zero]
          split
          · rename_i hshort
            have hsucc := toNat_succ hshort (show minFrame - 1 < 2 ^ 14 by decide)
            simp only [Measured, hsucc, BitVec.ofNat_eq_ofNat]
            omega
          · split
            · rename_i hlast
              have hmin' : minFrame = 60 := rfl
              simp only [Measured]
              omega
            · have hone : (1 : BitVec 4).toNat = 1 := rfl
              simp only [Measured, hone]
              omega
      | false =>
          have hmore := hroom hended
          cases hheld : tx.haveFirst with
          | true => exact Measured.byteEdge hmax hstate hlen hmore _ _
          | false =>
              cases hvalid : i.sAxisTvalid with
              | true => exact Measured.byteEdge hmax hstate hlen hmore _ _
              | false =>
                  simp only [stallEdge, cycleDefaults, Bool.not_false, Bool.and_self,
                    Bool.toNat_true, Bool.false_eq_true, if_false]
                  split
                  · simp only [Measured, fullLength]
                    omega
                  · simp only [Measured]
                    omega
  | pad =>
      simp only [Settled, hstate] at hsettled
      simp only [Measured, hstate] at hmeasured
      obtain ⟨hen, -, -, hcount⟩ := hsettled
      have hsucc := toNat_succ hcount (show minFrame < 2 ^ 14 by decide)
      have hstill : tx.stalls i = false := stalls_of_ne (by rw [hstate]; decide)
      simp only [padEdge, cycleDefaults]
      split
      · simp [Measured, fillerEdge, hstate, hstill]
        omega
      · simp [Measured, fillerEdge, hstate, hstill, hsucc]
        omega
  | crc =>
      simp only [Settled, hstate] at hsettled
      simp only [Measured, hstate] at hmeasured
      obtain ⟨hen, -, -, hcount⟩ := hsettled
      have hsucc := toNat_succ hcount (show 4 < 2 ^ 4 by decide)
      have hstill : tx.stalls i = false := stalls_of_ne (by rw [hstate]; decide)
      simp only [crcEdge, cycleDefaults]
      split_ifs <;> simp [Measured, fillerEdge, hstate, hstill, hen, hsucc, fullLength] <;> omega
  | ifg =>
      simp [ifgEdge, cycleDefaults]
      split <;> simp [Measured]

/-- Within the longest envelope and its filler. -/
theorem Measured.length_le (hmin : 1 ≤ maxFrame) (hsettled : tx.Settled)
    (hmeasured : tx.Measured maxFrame len filler) (hen : tx.gmiiTxEn = true) :
    len ≤ fullLength maxFrame + filler := by
  rw [fullLength]
  have hmin' : minFrame = 60 := rfl
  cases hstate : tx.state <;> simp only [Settled, Measured, hstate] at hsettled hmeasured
  · exact absurd (hsettled.1.symm.trans hen) (by decide)
  · have hcount := hsettled.2.2.2.2
    have hlead : preambleLen = 7 := rfl
    omega
  · omega
  · omega
  · have hcount := hsettled.2.2.2
    omega
  · have hcount := hsettled.2.2.2
    omega
  · have hbound := (hmeasured hen).2
    rw [fullLength] at hbound
    exact hbound

/-- The GMII outputs. -/
def gmiiIn (tx : EthMacTx) : GmiiTxIn := ⟨tx.gmiiTxd, tx.gmiiTxEn, tx.gmiiTxEr⟩

theorem beat_gmiiIn (tx : EthMacTx) : tx.gmiiIn.beat = tx.beat := rfl

end EthMacTx

/-- The framer as a writer of `gmii_cdc` whose busy line keeps it from starting. -/
structure Leads (maxFrame longest : Nat) (bench : MacTxBench) (filler : Nat)
    (writer : GmiiTxWriter) : Prop where
  same : writer.sent = bench.wire
  settled : bench.tx.Settled
  measured : bench.tx.Measured maxFrame bench.now.opened.length filler
  budget : EthMacTx.fullLength maxFrame + filler ≤ longest
  clear : bench.tx.state = .preamble → bench.tx.count = 0 → writer.clear = true
  first : bench.tx.gmiiTxEn = true → bench.wire.opened = [] → writer.clear = true
  ended : bench.tx.gmiiTxEn = false → bench.wire.opened.length ≠ 1

/-- With its filler the frame under way is still no longer than this. -/
def InTime (maxFrame longest : Nat) (tx : EthMacTx) (filler : Nat) (i : EthMacTxIn) : Prop :=
  tx.stalls i = true → EthMacTx.fullLength maxFrame + filler + 1 ≤ longest

instance (maxFrame longest : Nat) (tx : EthMacTx) (filler : Nat) (i : EthMacTxIn) :
    Decidable (InTime maxFrame longest tx filler i) :=
  inferInstanceAs (Decidable (_ → _))

section Leads

variable {maxFrame longest filler : Nat} {bench : MacTxBench} {writer : GmiiTxWriter}
variable {i : EthMacTxIn}

theorem leads_start (hfits : EthMacTx.fullLength maxFrame ≤ longest) :
    Leads maxFrame longest .start 0 .start where
  same := rfl
  settled := EthMacTx.settled_reset
  measured := trivial
  budget := hfits
  clear := fun hstate => by cases hstate
  first := fun hen => absurd hen Bool.false_ne_true
  ended := fun _ => by decide

/-- Such a framer keeps to the rules of a writer. -/
theorem Leads.honours (hmin : 1 ≤ maxFrame) (hleads : Leads maxFrame longest bench filler writer)
    (speed : BitVec 2) (busy : Bool) :
    Honours speed longest writer busy bench.tx.gmiiIn := by
  rw [Honours, hleads.same]
  refine ⟨fun hen hfirst => .inl (hleads.first hen hfirst), fun hen => ?_,
    fun hlow _ => hleads.ended hlow⟩
  have hlong := hleads.measured.length_le hmin hleads.settled hen
  have hnow : bench.now.opened.length = bench.wire.opened.length + 1 := by
    have hhigh : bench.tx.gmiiTxEn = true := hen
    rw [MacTxBench.now, EthMacTx.beat, if_pos hhigh, Envelopes.observe_some_opened,
      List.length_append, List.length_singleton]
  have hbudget := hleads.budget
  omega

theorem length_now_step (maxFrame : Nat) (bench : MacTxBench) (i : EthMacTxIn) :
    (bench.step maxFrame i).now.opened.length =
      if (bench.tx.clkEdge maxFrame i).gmiiTxEn then bench.now.opened.length + 1 else 0 := by
  rw [MacTxBench.step_now, EthMacTx.beat]
  split
  · rw [Envelopes.observe_some_opened, List.length_append, List.length_singleton]
  · rw [Envelopes.observe_none_opened]
    rfl

/-- `gmii_tx_en` rises only behind S_IDLE. -/
theorem preamble_of_rise {tx : EthMacTx} (hsettled : tx.Settled) (hlow : tx.gmiiTxEn = false)
    (hrise : (tx.clkEdge maxFrame i).gmiiTxEn = true) : tx.state = .preamble := by
  unfold EthMacTx.clkEdge at hrise
  cases hstate : tx.state with
  | preamble => rfl
  | idle =>
      simp only [hstate, EthMacTx.idleEdge, EthMacTx.cycleDefaults] at hrise
      split at hrise
      · split at hrise <;> cases hrise
      · cases hrise
  | ifg =>
      simp only [hstate, EthMacTx.ifgEdge] at hrise
      cases hrise
  | sfd =>
      simp only [EthMacTx.Settled, hstate] at hsettled
      exact absurd (hlow.symm.trans hsettled.2.2.2.2) (by decide)
  | data =>
      simp only [EthMacTx.Settled, hstate] at hsettled
      exact absurd (hlow.symm.trans hsettled.1) (by decide)
  | pad =>
      simp only [EthMacTx.Settled, hstate] at hsettled
      exact absurd (hlow.symm.trans hsettled.1) (by decide)
  | crc =>
      simp only [EthMacTx.Settled, hstate] at hsettled
      exact absurd (hlow.symm.trans hsettled.1) (by decide)

/-- S_PREAMBLE begins only where starting is allowed. -/
theorem startOk_of_preamble {tx : EthMacTx} (hsettled : tx.Settled)
    (hstate : (tx.clkEdge maxFrame i).state = .preamble)
    (hcount : (tx.clkEdge maxFrame i).count = 0) :
    tx.gmiiTxEn = false ∧ i.txStartOk = true := by
  unfold EthMacTx.clkEdge at hstate hcount
  cases hbefore : tx.state with
  | idle =>
      simp only [EthMacTx.Settled, hbefore] at hsettled
      refine ⟨hsettled.1, ?_⟩
      simp only [hbefore, EthMacTx.idleEdge, EthMacTx.cycleDefaults] at hstate
      split at hstate
      · split at hstate
        · assumption
        · cases hstate
      · cases hstate
  | preamble =>
      simp only [EthMacTx.Settled, hbefore] at hsettled
      have hsucc := EthMacTx.toNat_succ hsettled.2.2.2.2
        (show EthMacTx.preambleLen < 2 ^ 4 by decide)
      simp only [hbefore, EthMacTx.preambleEdge, EthMacTx.cycleDefaults] at hcount
      rw [show tx.count + 1#4 = 0 from hcount] at hsucc
      exact absurd hsucc.symm (Nat.succ_ne_zero _)
  | sfd =>
      simp only [hbefore, EthMacTx.sfdEdge] at hstate
      cases hstate
  | data =>
      simp only [hbefore, EthMacTx.dataEdge, EthMacTx.endedEdge, EthMacTx.byteEdge,
        EthMacTx.stallEdge, EthMacTx.cycleDefaults] at hstate
      split_ifs at hstate
  | pad =>
      simp only [hbefore, EthMacTx.padEdge, EthMacTx.cycleDefaults] at hstate
      split at hstate <;> simp_all
  | crc =>
      simp only [hbefore, EthMacTx.crcEdge, EthMacTx.cycleDefaults] at hstate
      split_ifs at hstate
  | ifg =>
      simp only [hbefore, EthMacTx.ifgEdge, EthMacTx.cycleDefaults] at hstate
      split at hstate <;> simp_all

theorem Leads.step {addrWidth : Nat} {ramStyle : RamStyle} (hmin : 1 ≤ maxFrame)
    (hmax : maxFrame ≤ 16383) (hleads : Leads maxFrame longest bench filler writer)
    (hok : InTime maxFrame longest bench.tx filler i) (lane : GmiiTxLane addrWidth ramStyle)
    {busy : Bool} (hbusy : i.txStartOk = true → busy = false) :
    Leads maxFrame longest (bench.step maxFrame i) (bench.tx.fillerEdge i filler)
      (writer.edge lane busy bench.tx.gmiiIn) := by
  have hclear : (writer.edge lane busy bench.tx.gmiiIn).clear =
      (!bench.tx.gmiiTxEn && (writer.clear || !busy)) := rfl
  have hlength := length_now_step maxFrame bench i
  have hnext : (bench.step maxFrame i).tx = bench.tx.clkEdge maxFrame i := rfl
  refine ⟨?_, hleads.settled.clkEdge, ?_, ?_, fun hstate hcount => ?_, fun hen hnone => ?_,
    fun hlow hone => ?_⟩
  · change writer.sent.observe bench.tx.gmiiIn.beat = bench.wire.observe bench.tx.beat
    rw [hleads.same, EthMacTx.beat_gmiiIn]
  · rw [hlength]
    exact hleads.measured.clkEdge hmin hmax hleads.settled
  · have hbudget := hleads.budget
    rw [EthMacTx.fillerEdge]
    split
    · omega
    · cases hstalls : bench.tx.stalls i with
      | false => exact hbudget
      | true => exact hok hstalls
  · obtain ⟨hlow, hstart⟩ := startOk_of_preamble hleads.settled hstate hcount
    rw [hclear, hlow, hbusy hstart]
    exact Bool.or_true _
  · have hnow : bench.now.opened = [] := hnone
    have hlow : bench.tx.gmiiTxEn = false := by
      by_contra hhigh
      exact MacTxBench.now_opened_of_high ((Bool.not_eq_false _).mp hhigh) hnow
    have hpre := preamble_of_rise hleads.settled hlow hen
    have hmeasured := hleads.measured
    simp only [EthMacTx.Measured, hpre, hnow, List.length_nil] at hmeasured
    have hbefore := hleads.clear hpre (BitVec.eq_of_toNat_eq hmeasured.1.symm)
    rw [hclear, hlow, hbefore]
    rfl
  · have hnow : bench.now.opened.length = 1 := hone
    have hhigh : bench.tx.gmiiTxEn = true := by
      by_contra hnot
      rw [MacTxBench.now_opened_of_low ((Bool.not_eq_true _).mp hnot)] at hnow
      cases hnow
    by_cases hifg : bench.tx.state = .ifg
    · have hmeasured := hleads.measured
      simp only [EthMacTx.Measured, hifg] at hmeasured
      have hlong := (hmeasured hhigh).1
      omega
    · have hstill := EthMacTx.gmiiTxEn_clkEdge hleads.settled hifg hlow
      exact absurd (hstill.symm.trans hhigh) (by decide)

end Leads

end EmacZero
