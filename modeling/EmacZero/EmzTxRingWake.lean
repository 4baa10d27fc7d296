/-
Whether the driver's queue is ever left stopped with room in the ring, and what holds of
the ring over every run.
-/
import EmacZero.EmzTxRingSteps

namespace EmacZero

namespace EmzTx

/-- The run of `emz_tx_complete` has a completed slot to retire or has retired one, and
has not found the queue running. -/
def LooksFrom (tx : EmzTx) : EmzTxComplete → Prop
  | .idle => False
  | .begun => tx.txTail ≠ tx.txHead ∧ (tx.slots (slotIdx tx.txTail)).done = true
  | .loop tail head pkts _ => 0 < pkts ∨ tail ≠ head ∧ (tx.slots (slotIdx tail)).done = true
  | _ => True

instance decidableLooksFrom (tx : EmzTx) :
    (napi : EmzTxComplete) → Decidable (tx.LooksFrom napi)
  | .idle => inferInstanceAs (Decidable False)
  | .begun => inferInstanceAs (Decidable (_ ∧ _))
  | .loop .. => inferInstanceAs (Decidable (_ ∨ _))
  | .status .. | .len .. | .report .. | .store .. | .test | .room | .wake =>
      inferInstanceAs (Decidable True)

/-- The run under way will look at the queue, or the one that is scheduled. -/
def Looks (tx : EmzTx) : Prop :=
  (tx.scheduled = true ∧ tx.txTail ≠ tx.txHead ∧ (tx.slots (slotIdx tx.txTail)).done = true) ∨
    tx.LooksFrom tx.napi

instance (tx : EmzTx) : Decidable tx.Looks := inferInstanceAs (Decidable (_ ∨ _))

/-- Where the branch that returns NETDEV_TX_BUSY stops the queue, there is no room to
wake it for, or a run of `emz_tx_complete` will look at it. -/
def BusyWell (tx : EmzTx) : Move → Prop
  | .xmit _ => tx.xmit = .busy → tx.txFree < emzTxWake ∨ tx.Looks
  | _ => True

instance decidableBusyWell (tx : EmzTx) : (move : Move) → Decidable (tx.BusyWell move)
  | .xmit _ => inferInstanceAs (Decidable (_ → _))
  | .call _ | .dma _ | .napi => inferInstanceAs (Decidable True)

/-- The kernel calls `emz_start_xmit` only while the queue is not stopped. -/
def CalledRunning (tx : EmzTx) : Move → Prop
  | .call _ => tx.stopped = false
  | _ => True

instance decidableCalledRunning (tx : EmzTx) :
    (move : Move) → Decidable (tx.CalledRunning move)
  | .call _ => inferInstanceAs (Decidable (_ = _))
  | .xmit _ | .dma _ | .napi => inferInstanceAs (Decidable True)

/-- A stopped queue with room is about to be looked at, by `emz_start_xmit` or by
`emz_tx_complete`. -/
def Awake (tx : EmzTx) : Prop :=
  tx.stopped = true → emzTxWake ≤ tx.txFree →
    (tx.xmit = .recheck ∨ tx.xmit = .start) ∨ tx.Looks

end EmzTx

namespace EmzTxBench

open EmzTx

variable {bench : EmzTxBench}

/-- What the others do keeps a run looking: nothing in the ring is taken back. -/
theorem looks_mono (hinv : bench.Inv) {tx : EmzTx} (hnapi : tx.napi = bench.tx.napi)
    (hscheduled : bench.tx.scheduled = true → tx.scheduled = true)
    (htail : tx.txTail = bench.tx.txTail)
    (hhead : bench.tx.txTail ≠ bench.tx.txHead → tx.txTail ≠ tx.txHead)
    (hdone : ∀ count, bench.stored ≤ count → count < bench.published.length →
      (bench.tx.slots (count % 64)).done = true → (tx.slots (count % 64)).done = true)
    (hlooks : bench.tx.Looks) : tx.Looks := by
  have hle := hinv.ring.stored_le.trans hinv.ring.length_retired_le
  have hready : bench.tx.txTail ≠ bench.tx.txHead ∧
        (bench.tx.slots (slotIdx bench.tx.txTail)).done = true →
      tx.txTail ≠ tx.txHead ∧ (tx.slots (slotIdx tx.txTail)).done = true := by
    rintro ⟨hne, hready⟩
    refine ⟨hhead hne, ?_⟩
    rw [hinv.ring.tail, hinv.ring.head, ofNat_ne_iff hle hinv.ring.fits] at hne
    rw [htail]
    rw [hinv.ring.tail, slotIdx_ofNat] at hready ⊢
    exact hdone _ le_rfl hne hready
  rcases hlooks with ⟨hsched, hlater⟩ | hnow
  · exact Or.inl ⟨hscheduled hsched, hready hlater⟩
  · refine Or.inr ?_
    have hat := hinv.napi
    rw [hnapi]
    cases hpc : bench.tx.napi with
    | idle =>
        rw [hpc] at hnow
        exact hnow
    | begun =>
        rw [hpc] at hnow
        exact hready hnow
    | loop tail head pkts bytes =>
        rw [hpc] at hnow hat
        obtain ⟨hcounting, seen, hseen, hleast, hmost⟩ := hat
        rcases hnow with hpkts | ⟨hne, hnext⟩
        · exact Or.inl hpkts
        · refine Or.inr ⟨hne, ?_⟩
          rw [hcounting.tail, hseen,
            ofNat_ne_iff hleast (hmost.trans hinv.retired_le_add)] at hne
          rw [hcounting.tail, slotIdx_ofNat] at hnext ⊢
          exact hdone _ hinv.ring.stored_le (hne.trans_le hmost) hnext
    | status | len | report | store | test | room | wake => trivial

theorem wake_le_iff (hinv : bench.Inv) :
    emzTxWake ≤ bench.tx.txFree ↔ bench.published.length + 16 ≤ bench.stored + 64 := by
  have hle := hinv.ring.stored_le.trans hinv.ring.length_retired_le
  have hfits := hinv.ring.fits
  rw [BitVec.le_def, txFree, hinv.ring.head, hinv.ring.tail, toNat_free hle hfits]
  change 16 ≤ _ ↔ _
  omega

theorem awake_call (hawake : bench.tx.Awake) (len : Nat) : (bench.callStep len).tx.Awake := by
  rw [callStep, EmzTx.call]
  dsimp only
  split
  · rename_i hidle
    intro hstopped hwake
    refine Or.inr ((hawake hstopped hwake).resolve_left ?_)
    rw [hidle]
    simp
  · exact hawake

theorem done_update {slots : Nat → EmzTxSlot} {idx : Nat} {slot : EmzTxSlot}
    (hslot : (slots idx).done = true → slot.done = true) {other : Nat}
    (hother : (slots other).done = true) : (Function.update slots idx slot other).done = true := by
  by_cases hsame : other = idx
  · rw [hsame] at hother ⊢
    rw [Function.update_self]
    exact hslot hother
  · rw [Function.update_of_ne hsame]
    exact hother

/-- A write to a slot that does not take its `done` back. -/
theorem looks_update (hinv : bench.Inv) {tx : EmzTx} {idx : Nat} {slot : EmzTxSlot}
    (hslots : tx.slots = Function.update bench.tx.slots idx slot)
    (hslot : (bench.tx.slots idx).done = true → slot.done = true)
    (hnapi : tx.napi = bench.tx.napi) (hscheduled : tx.scheduled = bench.tx.scheduled)
    (htail : tx.txTail = bench.tx.txTail) (hhead : tx.txHead = bench.tx.txHead) :
    bench.tx.Looks → tx.Looks := by
  refine looks_mono hinv hnapi (fun hold => hscheduled.trans hold) htail ?_ ?_
  · rw [htail, hhead]
    exact id
  · intro count _ _ hdone
    rw [hslots]
    exact done_update hslot hdone

/-- A move that leaves the queue, the room and the place of `emz_start_xmit`. -/
theorem awake_of_looks (hawake : bench.tx.Awake) {tx : EmzTx}
    (hstopped : tx.stopped = bench.tx.stopped) (hfree : tx.txFree = bench.tx.txFree)
    (hxmit : tx.xmit = bench.tx.xmit) (hlooks : bench.tx.Looks → tx.Looks) : tx.Awake := by
  intro hstop hwake
  rw [hxmit]
  exact (hawake (hstopped ▸ hstop) (hfree ▸ hwake)).imp_right hlooks

theorem awake_dmaStep (hinv : bench.Inv) (hawake : bench.tx.Awake) (fails : Bool) :
    (bench.dmaStep fails).tx.Awake := by
  rw [EmzTxBench.dmaStep, EmzTx.dmaStep]
  cases hpc : bench.tx.dma with
  | idle =>
      cases hqueue : bench.tx.queue with
      | nil => exact hawake
      | cons idx rest => exact awake_of_looks hawake rfl rfl rfl id
  | status idx failed =>
      exact awake_of_looks hawake rfl rfl rfl (looks_update hinv rfl id rfl rfl rfl rfl)
  | count idx | gate idx => exact awake_of_looks hawake rfl rfl rfl id
  | done idx failed =>
      exact awake_of_looks hawake rfl rfl rfl
        (looks_update hinv rfl (fun _ => rfl) rfl rfl rfl rfl)
  | schedule =>
      exact awake_of_looks hawake rfl rfl rfl
        (looks_mono hinv rfl (fun _ => rfl) rfl id fun _ _ _ => id)

/-- `emz_start_xmit` goes on, from where it would not have looked at the queue. -/
theorem awake_of_xmit (hawake : bench.tx.Awake) {tx : EmzTx}
    (hstopped : tx.stopped = bench.tx.stopped)
    (hfree : emzTxWake ≤ tx.txFree → emzTxWake ≤ bench.tx.txFree)
    (hrecheck : bench.tx.xmit ≠ .recheck) (hstart : bench.tx.xmit ≠ .start)
    (hlooks : bench.tx.Looks → tx.Looks) : tx.Awake := by
  intro hstop hwake
  have hold := hawake (hstopped ▸ hstop) (hfree hwake)
  exact Or.inr (hlooks (hold.resolve_left fun hxmit => hxmit.elim hrecheck hstart))

theorem awake_fill (hinv : bench.Inv) (hawake : bench.tx.Awake) {head : BitVec 32}
    (hhead : head = BitVec.ofNat 32 bench.published.length)
    (hroom : bench.published.length < bench.stored + 64)
    (hrecheck : bench.tx.xmit ≠ .recheck) (hstart : bench.tx.xmit ≠ .start)
    (slot : EmzTxSlot) (xmit : EmzStartXmit) :
    EmzTx.Awake { bench.tx.setSlot (slotIdx head) slot with xmit := xmit } := by
  refine awake_of_xmit hawake rfl id hrecheck hstart (looks_mono hinv rfl id rfl id ?_)
  intro count hstored hcount hdone
  change (Function.update bench.tx.slots _ _ _).done = true
  rw [hhead, slotIdx_ofNat, Function.update_of_ne (by omega)]
  exact hdone

theorem awake_xmitStep (hinv : bench.Inv) (hawake : bench.tx.Awake) {fails : Bool}
    (hwell : bench.tx.BusyWell (.xmit fails)) : (bench.xmitStep fails).tx.Awake := by
  have hat := hinv.xmit
  have hgo : ∀ tx : EmzTx, bench.tx.xmit ≠ .recheck → bench.tx.xmit ≠ .start →
      tx.stopped = bench.tx.stopped → tx.txFree = bench.tx.txFree →
      (bench.tx.Looks → tx.Looks) → tx.Awake :=
    fun tx hrecheck hstart hstopped hfree hlooks =>
      awake_of_xmit hawake hstopped (fun hwake => hfree ▸ hwake) hrecheck hstart hlooks
  rw [EmzTxBench.xmitStep, EmzTx.xmitStep]
  cases hpc : bench.tx.xmit with
  | idle => exact hawake
  | entered head len | report head len | failCount head | failGate head | check =>
      rw [hpc] at hgo
      exact hgo _ (by simp) (by simp) rfl rfl id
  | busy =>
      intro _ hwake
      rcases hwell hpc with hfull | hlooks
      · exact absurd hwake (BitVec.not_le.mpr hfull)
      · exact Or.inr hlooks
  | gate head len =>
      rw [hpc] at hgo
      dsimp only
      split
      · exact hgo _ (by simp) (by simp) rfl rfl id
      · exact hgo _ (by simp) (by simp) rfl rfl id
  | copy head len | prep head len | submit head =>
      rw [hpc] at hgo
      cases fails with
      | true => exact hgo _ (by simp) (by simp) rfl rfl id
      | false => exact hgo _ (by simp) (by simp) rfl rfl id
  | setLen head len =>
      rw [hpc] at hat
      exact awake_fill hinv hawake hat.1 hat.2 (by rw [hpc]; simp)
        (by rw [hpc]; simp) _ _
  | setStatus head len | setDone head len =>
      rw [hpc] at hat
      exact awake_fill hinv hawake hat.1.1 hat.1.2 (by rw [hpc]; simp)
        (by rw [hpc]; simp) _ _
  | publish head len =>
      rw [hpc] at hat
      obtain ⟨⟨hhead, hroom⟩, -⟩ := hat
      have hle := hinv.ring.stored_le.trans hinv.ring.length_retired_le
      have hnext : head + 1 = BitVec.ofNat 32 (bench.published.length + 1) := by
        rw [BitVec.ofNat_add, ← hhead]
        rfl
      refine awake_of_xmit hawake rfl ?_ (by rw [hpc]; simp) (by rw [hpc]; simp)
        (looks_mono hinv rfl id rfl ?_ fun _ _ _ => id)
      · intro hwake
        change emzTxWake ≤ emzTxRing - (head + 1 - bench.tx.txTail) at hwake
        rw [BitVec.le_def, hnext, hinv.ring.tail,
          toNat_free (Nat.le_succ_of_le hle) hroom] at hwake
        have hwake' : 16 ≤ 64 - (bench.published.length + 1 - bench.stored) := hwake
        rw [wake_le_iff hinv]
        omega
      · intro _
        change bench.tx.txTail ≠ head + 1
        rw [hnext, hinv.ring.tail, ofNat_ne_iff (Nat.le_succ_of_le hle) hroom]
        exact Nat.lt_succ_of_le hle
  | failStatus head =>
      rw [hpc] at hgo
      exact hgo _ (by simp) (by simp) rfl rfl (looks_update hinv rfl id rfl rfl rfl rfl)
  | failDone head =>
      rw [hpc] at hgo
      exact hgo _ (by simp) (by simp) rfl rfl
        (looks_update hinv rfl (fun _ => rfl) rfl rfl rfl rfl)
  | failSchedule =>
      rw [hpc] at hgo
      exact hgo _ (by simp) (by simp) rfl rfl
        (looks_mono hinv rfl (fun _ => rfl) rfl id fun _ _ _ => id)
  | stop => exact fun _ _ => Or.inl (Or.inl rfl)
  | recheck =>
      intro hstop hwake
      refine Or.inl (Or.inr ?_)
      exact if_pos hwake
  | start => exact fun hstop => absurd hstop Bool.false_ne_true

/-- `emz_tx_complete` goes on: either it will still look at the queue, or it has found
nothing to retire, no room or the queue running. -/
theorem awake_napiStep (hinv : bench.Inv) (hawake : bench.tx.Awake) :
    bench.napiStep.tx.Awake := by
  have hat := hinv.napi
  have hgo : ∀ tx : EmzTx, tx.stopped = bench.tx.stopped → tx.txFree = bench.tx.txFree →
      tx.xmit = bench.tx.xmit → (bench.tx.Looks → tx.Looks) → tx.Awake :=
    fun _ => awake_of_looks hawake
  have hlooks : ∀ tx : EmzTx, tx.LooksFrom tx.napi → tx.Awake :=
    fun _ hlooks _ _ => Or.inr (Or.inr hlooks)
  rw [EmzTxBench.napiStep, EmzTx.napiStep]
  cases hpc : bench.tx.napi with
  | idle =>
      refine hgo _ rfl rfl rfl ?_
      rintro (⟨-, hready⟩ | hnow)
      · exact Or.inr hready
      · rw [hpc] at hnow
        exact hnow.elim
  | begun =>
      refine hgo _ rfl rfl rfl ?_
      rintro (hlater | hnow)
      · exact Or.inl hlater
      · rw [hpc] at hnow
        exact Or.inr (Or.inr hnow)
  | loop tail head pkts bytes =>
      dsimp only
      split
      · exact hlooks _ trivial
      · rename_i hnext
        split
        · rename_i hnone
          refine hgo _ rfl rfl rfl ?_
          rintro (hlater | hnow)
          · exact Or.inl hlater
          · rw [hpc] at hnow
            exact absurd (hnow.resolve_left (by omega)) hnext
        · exact hlooks _ trivial
  | len tail head pkts bytes failed => exact hlooks _ (Or.inl (Nat.succ_pos pkts))
  | status | report | store => exact hlooks _ trivial
  | test =>
      cases hstopped : bench.tx.stopped with
      | true => exact hlooks _ trivial
      | false => exact fun hstop => absurd hstop Bool.false_ne_true
  | room =>
      dsimp only
      split
      · exact hlooks _ trivial
      · rename_i hfull
        exact fun _ hwake => absurd hwake hfull
  | wake => exact fun hstop => absurd hstop Bool.false_ne_true

theorem awake_step (hinv : bench.Inv) (hawake : bench.tx.Awake) {move : Move}
    (hwell : bench.tx.BusyWell move) : (bench.step move).tx.Awake := by
  cases move with
  | call len => exact awake_call hawake len
  | xmit fails => exact awake_xmitStep hinv hawake hwell
  | dma fails => exact awake_dmaStep hinv hawake fails
  | napi => exact awake_napiStep hinv hawake

theorem not_lost (hawake : bench.tx.Awake) : ¬ bench.tx.Lost := by
  rintro ⟨hstopped, hwake, hxmit, hnapi, hscheduled⟩
  rcases hawake hstopped hwake with (hlate | hlate) | ⟨hlater, -⟩ | hnow
  · exact absurd (hxmit.symm.trans hlate) (by simp)
  · exact absurd (hxmit.symm.trans hlate) (by simp)
  · exact absurd (hscheduled.symm.trans hlater) Bool.false_ne_true
  · rw [hnapi] at hnow
    exact hnow

/-- `emz_start_xmit` copies a frame into a slot only when every earlier use of the slot
has been completed, and `tx_tail` has passed it. -/
def CopiesFree (bench : EmzTxBench) (move : Move) : Prop :=
  ∀ head len fails, bench.tx.xmit = .copy head len → move = .xmit fails →
    ∀ count use, bench.published[count]? = some use → count % 64 = slotIdx head →
      count < bench.stored ∧ use.outcome.isSome = true

theorem copiesFree_of_inv (hinv : bench.Inv) (move : Move) : bench.CopiesFree move := by
  intro head len fails hpc _ count use huse hslot
  have hat := hinv.xmit
  rw [hpc] at hat
  rw [hat.1, slotIdx_ofNat] at hslot
  have hcount := lt_length_of_some huse
  have hroom := hat.2
  have hpassed : count < bench.stored := by omega
  refine ⟨hpassed, ?_⟩
  have hlt := hpassed.trans_le hinv.ring.stored_le
  have hsame := List.prefix_iff_getElem?.mp hinv.ring.retired_pre count hlt
  rw [huse, Option.some_inj] at hsame
  rw [hsame]
  exact hinv.ring.ended _ (List.getElem_mem hlt)

/-- The slots from `tx_tail` to `tx_head` hold the lengths published. -/
theorem inFlight_eq (hinv : bench.Inv) :
    bench.inFlight = (bench.published.drop bench.stored).map EmzTxUse.len := by
  have hle := hinv.ring.stored_le.trans hinv.ring.length_retired_le
  have hfits := hinv.ring.fits
  have hcount : (bench.tx.txHead - bench.tx.txTail).toNat =
      bench.published.length - bench.stored := by
    rw [hinv.ring.head, hinv.ring.tail, ofNat_sub_ofNat hle, BitVec.toNat_ofNat]
    omega
  rw [inFlight, hcount]
  refine List.ext_getElem (by simp) ?_
  intro count hleft hright
  rw [List.length_map, List.length_drop] at hright
  have huse := List.getElem?_eq_getElem (Nat.add_lt_of_lt_sub' hright)
  have hagrees := hinv.ring.agrees _ _ (Nat.le_add_right _ count) huse
  rw [List.getElem_map, List.getElem_map, List.getElem_range, List.getElem_drop,
    hinv.ring.tail, ← BitVec.ofNat_add, slotIdx_ofNat]
  exact hagrees.len

theorem take_retired (hinv : bench.Inv) :
    bench.retired.take bench.stored = bench.published.take bench.stored := by
  obtain ⟨rest, hrest⟩ := hinv.ring.retired_pre
  rw [← hrest, List.take_append_of_le_length hinv.ring.stored_le]

/-- What has been reported sent and not completed is what is in flight. -/
theorem reports (hinv : bench.Inv) :
    bench.tx.sentPkts + bench.unstored.length =
        bench.tx.completedPkts + bench.inFlight.length +
          (unpublished bench.tx.xmit).length ∧
      bench.tx.sentBytes + EmzTxUse.lens bench.unstored =
        bench.tx.completedBytes + bench.inFlight.sum + (unpublished bench.tx.xmit).sum := by
  have hstored := hinv.ring.stored_le
  have hle := hstored.trans hinv.ring.length_retired_le
  have hsplit : EmzTxUse.lens bench.published =
      EmzTxUse.lens (bench.retired.take bench.stored) +
        EmzTxUse.lens (bench.published.drop bench.stored) := by
    rw [take_retired hinv, ← EmzTxUse.lens_append, List.take_append_drop]
  have hpassed : bench.tx.completedPkts = bench.stored + bench.unstored.length ∧
      bench.tx.completedBytes =
        EmzTxUse.lens (bench.retired.take bench.stored) + EmzTxUse.lens bench.unstored := by
    have hcompleted := hinv.completed
    rw [unstored]
    cases hpc : bench.tx.napi with
    | store tail =>
        rw [hpc] at hcompleted
        rw [← EmzTxUse.lens_append, List.take_append_drop, List.length_drop,
          Nat.add_sub_cancel' hstored, hcompleted.2]
        exact ⟨hcompleted.1, congrArg EmzTxUse.lens (List.take_length)⟩
    | _ =>
        rw [hpc] at hcompleted
        exact hcompleted
  have hlength : bench.inFlight.length = bench.published.length - bench.stored := by
    rw [inFlight_eq hinv, List.length_map, List.length_drop]
  have hsum : bench.inFlight.sum = EmzTxUse.lens (bench.published.drop bench.stored) := by
    rw [inFlight_eq hinv]
    rfl
  rw [hpassed.1, hpassed.2, hinv.sent.1, hinv.sent.2, hlength, hsum, hsplit]
  omega

/-- In every run of the transmit ring, whatever the order of its steps and whatever fails,
at most 64 slots lie between the two counters, and each frame is copied into a slot whose
earlier uses have all been retired.  The slots retired are those published, each once and
in order, and each completed.  What is reported sent and not completed is in flight.  The
queue is never left stopped with room and nothing to wake it, as long as this holds
wherever the NETDEV_TX_BUSY branch stops it. -/
theorem ring_run (moves : List Move) :
    let bench := runFrom step start moves
    (bench.tx.txHead = BitVec.ofNat 32 bench.published.length ∧
      bench.tx.txTail = BitVec.ofNat 32 bench.stored ∧ bench.stored ≤ bench.retired.length ∧
      bench.retired.length ≤ bench.published.length ∧
      bench.published.length ≤ bench.stored + 64 ∧
      (bench.tx.txHead - bench.tx.txTail).toNat = bench.published.length - bench.stored) ∧
    Along step CopiesFree start moves ∧
    (bench.retired <+: bench.published ∧
      ∀ use ∈ bench.retired, use.outcome.isSome = true) ∧
    (bench.tx.sentPkts + bench.unstored.length =
        bench.tx.completedPkts + bench.inFlight.length +
          (unpublished bench.tx.xmit).length ∧
      bench.tx.sentBytes + EmzTxUse.lens bench.unstored =
        bench.tx.completedBytes + bench.inFlight.sum + (unpublished bench.tx.xmit).sum) ∧
    (Along step (fun bench => bench.tx.BusyWell) start moves → ¬ bench.tx.Lost) := by
  intro bench
  have hinv : bench.Inv := inv_run moves
  have hle := hinv.ring.stored_le.trans hinv.ring.length_retired_le
  have hfits := hinv.ring.fits
  refine ⟨⟨hinv.ring.head, hinv.ring.tail, hinv.ring.stored_le,
    hinv.ring.length_retired_le, hfits, ?_⟩, ?_, ⟨hinv.ring.retired_pre, hinv.ring.ended⟩,
    reports hinv, ?_⟩
  · rw [hinv.ring.head, hinv.ring.tail, ofNat_sub_ofNat hle, BitVec.toNat_ofNat]
    omega
  · have htrue : Along step (fun _ _ => True) start moves :=
      along_of_forall (fun _ _ => trivial) start moves
    have hstep : ∀ (bench : EmzTxBench) (move : Move), True → bench.Inv →
        (bench.step move).Inv := fun _ move _ hinv => hinv.step move
    have hcopies : ∀ (bench : EmzTxBench) (move : Move), True → bench.Inv →
        bench.CopiesFree move := fun _ move _ hinv => copiesFree_of_inv hinv move
    exact along_of_invariant hstep hcopies inv_start htrue
  · intro hwell
    have hstep : ∀ (bench : EmzTxBench) (move : Move), bench.tx.BusyWell move →
        bench.Inv ∧ bench.tx.Awake → (bench.step move).Inv ∧ (bench.step move).tx.Awake :=
      fun _ move hwell hholds =>
        ⟨hholds.1.step move, awake_step hholds.1 hholds.2 hwell⟩
    have hstart : start.Inv ∧ start.tx.Awake :=
      ⟨inv_start, fun hstop => absurd hstop Bool.false_ne_true⟩
    exact not_lost (invariant_along hstep hstart hwell).2

/-- A frame from the call to the return, unless it fills the ring. -/
def sending : List Move := .call 60 :: List.replicate 11 (.xmit false)

/-- The callbacks of that many slots. -/
def completing (count : Nat) : List Move := List.replicate (4 * count) (.dma false)

/-- A run of `emz_tx_complete` over that many slots, up to its test of the queue. -/
def retiring (count : Nat) : List Move := List.replicate (3 * count + 6) .napi

/-- A full ring whose queue is running: `emz_start_xmit` has started it between the last
test of `emz_tx_complete` and its wake, and has filled the ring again. -/
def wokenFull : List Move :=
  (List.replicate 64 sending).flatten ++ [.xmit false] ++ completing 16 ++ retiring 16 ++
    [.napi, .xmit false, .xmit false] ++ (List.replicate 16 sending).flatten ++
    [.xmit false, .xmit false, .napi]

/-- The next frame is refused at once, and then sixteen slots are retired. -/
theorem ring_run_refused :
    let moves :=
      wokenFull ++ [.call 60, .xmit false, .xmit false] ++ completing 16 ++ retiring 16
    (runFrom step start moves).tx.xmit = .idle ∧
      (runFrom step start moves).tx.txFree = emzTxWake ∧
      ¬ (runFrom step start moves).tx.Lost := by
  intro moves
  exact ⟨by decide +kernel, by decide +kernel, (ring_run moves).2.2.2.2 (by decide +kernel)⟩

/-- All slots are retired between the test for room and the stop. -/
theorem ring_run_lost :
    ∃ moves : List Move, Along step (fun bench => bench.tx.CalledRunning) start moves ∧
      (runFrom step start moves).tx.Lost ∧
      (runFrom step start moves).tx.txFree = emzTxRing := by
  refine ⟨wokenFull ++ [.call 60, .xmit false] ++ completing 64 ++ retiring 64 ++
    [.xmit false], ?_⟩
  exact ⟨by decide +kernel, by decide +kernel, by decide +kernel⟩

end EmzTxBench

end EmacZero
