/-
What every step of the driver's transmit ring preserves.
-/
import EmacZero.EmzTxRingBench

namespace EmacZero

namespace EmzTxBench

open EmzTx

/-- The retired uses that the reports of completion cover. -/
def reported (stored retired : Nat) : EmzTxComplete → Nat
  | .store _ => retired
  | _ => stored

/-- The ring, the three threads and what has been reported. -/
structure Inv (bench : EmzTxBench) : Prop where
  ring : Ring bench.tx.txHead bench.tx.txTail bench.tx.slots bench.published bench.retired
    bench.stored
  flight : Flight bench.published
    (bench.flying ++ held bench.published.length bench.tx.xmit)
  calls : calledFor bench.tx.dma ++ bench.tx.queue = bench.flying.map (· % 64)
  xmit : XmitAt bench.tx.slots bench.published.length bench.stored bench.tx.xmit
  dma : DmaAt bench.tx.slots bench.tx.dma
  napi : NapiAt bench.published bench.retired bench.stored bench.tx.napi
  sent : bench.tx.sentPkts = bench.published.length + (unpublished bench.tx.xmit).length ∧
    bench.tx.sentBytes = EmzTxUse.lens bench.published + (unpublished bench.tx.xmit).sum
  completed :
    let count := reported bench.stored bench.retired.length bench.tx.napi
    bench.tx.completedPkts = count ∧
      bench.tx.completedBytes = EmzTxUse.lens (bench.retired.take count)

theorem inv_start : start.Inv where
  ring :=
    { head := rfl
      tail := rfl
      fits := Nat.zero_le _
      stored_le := le_rfl
      retired_pre := List.prefix_rfl
      ended := nofun
      agrees := nofun }
  flight := ⟨.nil, nofun⟩
  calls := rfl
  xmit := trivial
  dma := trivial
  napi := rfl
  sent := ⟨rfl, rfl⟩
  completed := ⟨rfl, rfl⟩

variable {bench : EmzTxBench}

/-- There is room exactly where `emz_tx_free` is not zero. -/
theorem Inv.free_eq_zero_iff (hinv : bench.Inv) :
    bench.tx.txFree = 0 ↔ ¬ bench.published.length < bench.stored + 64 := by
  have hle := hinv.ring.stored_le.trans hinv.ring.length_retired_le
  rw [txFree, hinv.ring.head, hinv.ring.tail, ← BitVec.toNat_inj,
    toNat_free hle hinv.ring.fits]
  change 64 - _ = 0 ↔ _
  omega

/-- The slot of the next frame is not one of the DMA's. -/
theorem Inv.next_ne (hinv : bench.Inv) (hroom : bench.published.length < bench.stored + 64)
    {use : Nat} (hmem : use ∈ bench.flying) :
    use % 64 ≠ bench.published.length % 64 := by
  obtain ⟨len, huse⟩ := hinv.flight.out use (List.mem_append_left _ hmem)
  have hlt := lt_length_of_some huse
  have hafter := hinv.ring.retired_le huse
  have hstored := hinv.ring.stored_le
  omega

theorem Inv.held_out (hinv : bench.Inv) {use : Nat}
    (hheld : use ∈ held bench.published.length bench.tx.xmit) :
    ∃ len, bench.published[use]? = some ⟨len, none⟩ :=
  hinv.flight.out use (List.mem_append_right _ hheld)

/-- Nor is the slot that `emz_start_xmit` completes itself. -/
theorem Inv.held_ne (hinv : bench.Inv) {other : Nat}
    (hheld : other ∈ held bench.published.length bench.tx.xmit) :
    ∀ use ∈ bench.flying, use % 64 ≠ other % 64 := by
  intro use hmem
  have hsorted := (List.pairwise_append.mp hinv.flight.sorted).2.2 use hmem other hheld
  obtain ⟨len, huse⟩ := hinv.flight.out use (List.mem_append_left _ hmem)
  obtain ⟨_, hother⟩ := hinv.held_out hheld
  have hlt := lt_length_of_some hother
  have hafter := hinv.ring.retired_le huse
  have hstored := hinv.ring.stored_le
  have hfits := hinv.ring.fits
  omega

/-- The callback's slot, whatever is written to another one. -/
theorem Inv.dma_update (hinv : bench.Inv) {idx : Nat} {slot : EmzTxSlot}
    (hother : ∀ use ∈ bench.flying, use % 64 ≠ idx) :
    DmaAt (Function.update bench.tx.slots idx slot) bench.tx.dma := by
  have hcalls := hinv.calls
  have hat := hinv.dma
  have hne : ∀ called ∈ calledFor bench.tx.dma, called ≠ idx := by
    intro called hmem
    have hin : called ∈ bench.flying.map (· % 64) := hcalls ▸ List.mem_append_left _ hmem
    obtain ⟨use, huse, rfl⟩ := List.mem_map.mp hin
    exact hother use huse
  cases hdma : bench.tx.dma with
  | idle | status | schedule => trivial
  | count called | gate called | done called failed =>
      rw [hdma] at hat hne
      rw [DmaAt, Function.update_of_ne (hne called (List.mem_singleton_self _))]
      exact hat

theorem Inv.call (hinv : bench.Inv) (len : Nat) : (bench.callStep len).Inv := by
  rw [callStep, EmzTx.call]
  split
  · rename_i hidle
    have hflight := hinv.flight
    have hsent := hinv.sent
    rw [hidle] at hflight hsent
    exact ⟨hinv.ring, hflight, hinv.calls, hinv.ring.head, hinv.dma, hinv.napi, hsent,
      hinv.completed⟩
  · exact hinv

/-- `emz_start_xmit` writes the slot of the next frame. -/
theorem Inv.xmit_fill (hinv : bench.Inv) {head : BitVec 32} {slot : EmzTxSlot}
    {xmit : EmzStartXmit} (hhead : head = BitVec.ofNat 32 bench.published.length)
    (hroom : bench.published.length < bench.stored + 64)
    (hheld : held bench.published.length xmit = held bench.published.length bench.tx.xmit)
    (hunpublished : unpublished xmit = unpublished bench.tx.xmit)
    (hat : XmitAt (Function.update bench.tx.slots (bench.published.length % 64) slot)
      bench.published.length bench.stored xmit) :
    Inv { bench with tx := { bench.tx.setSlot (slotIdx head) slot with xmit := xmit } } := by
  have hidx : slotIdx head = bench.published.length % 64 := by
    rw [hhead]
    exact slotIdx_ofNat _
  have hother : ∀ use ∈ bench.flying, use % 64 ≠ bench.published.length % 64 :=
    fun _ => hinv.next_ne hroom
  rw [hidx]
  exact ⟨hinv.ring.fill hroom slot, hheld ▸ hinv.flight, hinv.calls, hat,
    hinv.dma_update hother, hinv.napi, hunpublished ▸ hinv.sent, hinv.completed⟩

theorem Inv.xmitStep (hinv : bench.Inv) (fails : Bool) : (bench.xmitStep fails).Inv := by
  have hflight := hinv.flight
  have hat := hinv.xmit
  have hsent := hinv.sent
  rw [EmzTxBench.xmitStep, EmzTx.xmitStep]
  cases hpc : bench.tx.xmit with
  | idle => exact hinv
  | entered head len =>
      rw [hpc] at hflight hat hsent
      by_cases hfull : bench.tx.txFree = 0
      · simp only [hfull, if_true]
        exact ⟨hinv.ring, hflight, hinv.calls, trivial, hinv.dma, hinv.napi, hsent,
          hinv.completed⟩
      · have hroom := not_not.mp (mt hinv.free_eq_zero_iff.mpr hfull)
        simp only [hfull, if_false]
        exact ⟨hinv.ring, hflight, hinv.calls, ⟨hat, hroom⟩, hinv.dma, hinv.napi, hsent,
          hinv.completed⟩
  | busy | failSchedule | stop | start =>
      rw [hpc] at hflight hsent
      exact ⟨hinv.ring, hflight, hinv.calls, trivial, hinv.dma, hinv.napi, hsent,
        hinv.completed⟩
  | gate head len =>
      rw [hpc] at hflight hat hsent
      dsimp only
      split
      · exact ⟨hinv.ring, hflight, hinv.calls, trivial, hinv.dma, hinv.napi, hsent,
          hinv.completed⟩
      · exact ⟨hinv.ring, hflight, hinv.calls, hat, hinv.dma, hinv.napi, hsent,
          hinv.completed⟩
  | copy head len | prep head len =>
      rw [hpc] at hflight hat hsent
      cases fails with
      | true =>
          exact ⟨hinv.ring, hflight, hinv.calls, trivial, hinv.dma, hinv.napi, hsent,
            hinv.completed⟩
      | false =>
          exact ⟨hinv.ring, hflight, hinv.calls, hat, hinv.dma, hinv.napi, hsent,
            hinv.completed⟩
  | setLen head len =>
      rw [hpc] at hat
      refine hinv.xmit_fill hat.1 hat.2 (by rw [hpc]; rfl) (by rw [hpc]; rfl) ?_
      exact ⟨hat, by rw [Function.update_self]⟩
  | setStatus head len =>
      rw [hpc] at hat
      refine hinv.xmit_fill hat.1.1 hat.1.2 (by rw [hpc]; rfl) (by rw [hpc]; rfl) ?_
      refine ⟨hat.1, ?_⟩
      rw [Function.update_self, hat.1.1, slotIdx_ofNat]
      exact ⟨hat.2, rfl⟩
  | setDone head len =>
      rw [hpc] at hat
      refine hinv.xmit_fill hat.1.1 hat.1.2 (by rw [hpc]; rfl) (by rw [hpc]; rfl) ?_
      refine ⟨hat.1, ?_⟩
      obtain ⟨⟨hhead, -⟩, hlen, hstatus⟩ := hat
      rw [Function.update_self, hhead, slotIdx_ofNat, ← hlen, ← hstatus]
  | report head len =>
      rw [hpc] at hflight hat hsent
      refine ⟨hinv.ring, hflight, hinv.calls, hat, hinv.dma, hinv.napi, ?_, hinv.completed⟩
      exact ⟨congrArg (· + 1) hsent.1, congrArg (· + len) hsent.2⟩
  | publish head len =>
      rw [hpc] at hflight hat hsent
      have hlength : (bench.published ++ [(⟨len, none⟩ : EmzTxUse)]).length =
          bench.published.length + 1 := List.length_append
      have hring := hinv.ring.publish hat.1.2 hat.2
      rw [← hat.1.1] at hring
      have hnext := hflight.publish len
      change Flight _ (bench.flying ++ [] ++ _) at hnext
      rw [List.append_nil] at hnext
      refine ⟨hring, ?_, hinv.calls, ?_, hinv.dma, hinv.napi.grows (grows_append _ _), ?_,
        hinv.completed⟩
      · rw [hlength]
        exact hnext
      · rw [hlength]
        exact ⟨Nat.succ_pos _, hat.1.1⟩
      · rw [hlength, EmzTxUse.lens_append]
        exact hsent
  | submit head =>
      rw [hpc] at hflight hat hsent
      cases fails with
      | true =>
          exact ⟨hinv.ring, hflight, hinv.calls, hat, hinv.dma, hinv.napi, hsent,
            hinv.completed⟩
      | false =>
          refine ⟨hinv.ring, ?_, ?_, trivial, hinv.dma, hinv.napi, hsent, hinv.completed⟩
          · change Flight _ (_ ++ [])
            rw [List.append_nil]
            exact hflight
          · change calledFor bench.tx.dma ++ (bench.tx.queue ++ [slotIdx head]) =
              (bench.flying ++ [bench.last]).map (· % 64)
            rw [← List.append_assoc, hinv.calls, List.map_append, hat.2, slotIdx_ofNat]
            rfl
  | failStatus head =>
      obtain ⟨len, huse⟩ := hinv.held_out (by rw [hpc]; exact List.mem_singleton_self _)
      have hother := hinv.held_ne (by rw [hpc]; exact List.mem_singleton_self _)
      rw [hpc] at hflight hat hsent
      have hnext := Function.update_self ((bench.published.length - 1) % 64)
        { bench.tx.slots ((bench.published.length - 1) % 64) with status := true }
        bench.tx.slots
      dsimp only
      rw [hat.2, slotIdx_ofNat]
      exact ⟨hinv.ring.setStatus huse true, hflight, hinv.calls,
        ⟨⟨hat.1, rfl⟩, congrArg EmzTxSlot.status hnext⟩, hinv.dma_update hother, hinv.napi,
        hsent, hinv.completed⟩
  | failCount head | failGate head =>
      rw [hpc] at hflight hat hsent
      exact ⟨hinv.ring, hflight, hinv.calls, hat, hinv.dma, hinv.napi, hsent,
        hinv.completed⟩
  | failDone head =>
      obtain ⟨len, huse⟩ := hinv.held_out (by rw [hpc]; exact List.mem_singleton_self _)
      have hother := hinv.held_ne (by rw [hpc]; exact List.mem_singleton_self _)
      rw [hpc] at hflight hat hsent
      dsimp only
      rw [hat.1.2, slotIdx_ofNat]
      refine ⟨hinv.ring.finish huse hat.2, hflight.finish true, hinv.calls, trivial,
        hinv.dma_update hother, hinv.napi.grows (grows_modify huse true), ?_, hinv.completed⟩
      rw [List.length_modify, EmzTxUse.lens_modify]
      exact hsent
  | check =>
      rw [hpc] at hflight hsent
      dsimp only
      split <;> exact ⟨hinv.ring, hflight, hinv.calls, trivial, hinv.dma, hinv.napi, hsent,
        hinv.completed⟩
  | recheck =>
      rw [hpc] at hflight hsent
      dsimp only
      split <;> exact ⟨hinv.ring, hflight, hinv.calls, trivial, hinv.dma, hinv.napi, hsent,
        hinv.completed⟩

/-- The use that a callback is for. -/
theorem Inv.called (hinv : bench.Inv) {idx : Nat} (hcalled : calledFor bench.tx.dma = [idx]) :
    ∃ use rest len, bench.flying = use :: rest ∧ idx = use % 64 ∧
      bench.tx.queue = rest.map (· % 64) ∧ bench.published[use]? = some ⟨len, none⟩ := by
  have hcalls := hinv.calls
  rw [hcalled] at hcalls
  cases hflying : bench.flying with
  | nil =>
      rw [hflying] at hcalls
      exact nomatch hcalls
  | cons use rest =>
      rw [hflying, List.map_cons, List.singleton_append, List.cons.injEq] at hcalls
      have hmem : use ∈ bench.flying := hflying ▸ List.mem_cons_self
      obtain ⟨len, huse⟩ := hinv.flight.out use (List.mem_append_left _ hmem)
      exact ⟨use, rest, len, rfl, hcalls.1, hcalls.2, huse⟩

/-- The callback writes its slot: `emz_start_xmit` does not see it. -/
theorem Inv.xmit_update (hinv : bench.Inv) {use : Nat} (hmem : use ∈ bench.flying)
    (slot : EmzTxSlot) :
    XmitAt (Function.update bench.tx.slots (use % 64) slot) bench.published.length
      bench.stored bench.tx.xmit := by
  refine hinv.xmit.frame le_rfl ?_ ?_
  · intro hroom
    rw [Function.update_of_ne (hinv.next_ne hroom hmem).symm]
  · intro other hheld
    rw [Function.update_of_ne (hinv.held_ne hheld use hmem).symm]

theorem Inv.dmaStep (hinv : bench.Inv) (fails : Bool) : (bench.dmaStep fails).Inv := by
  have hcalls := hinv.calls
  have hat := hinv.dma
  rw [EmzTxBench.dmaStep, EmzTx.dmaStep]
  cases hpc : bench.tx.dma with
  | idle =>
      rw [hpc] at hcalls
      cases hqueue : bench.tx.queue with
      | nil => exact hinv
      | cons idx rest =>
          rw [hqueue] at hcalls
          exact ⟨hinv.ring, hinv.flight, hcalls, hinv.xmit, trivial, hinv.napi, hinv.sent,
            hinv.completed⟩
  | status idx failed =>
      obtain ⟨use, rest, len, hflying, hidx, hqueue, huse⟩ :=
        hinv.called (by rw [hpc]; rfl)
      have hmem : use ∈ bench.flying := hflying ▸ List.mem_cons_self
      have hnext := Function.update_self (use % 64)
        { bench.tx.slots (use % 64) with status := failed } bench.tx.slots
      rw [hpc] at hcalls
      dsimp only
      rw [hidx] at hcalls ⊢
      refine ⟨hinv.ring.setStatus huse failed, hinv.flight, ?_, hinv.xmit_update hmem _, ?_,
        hinv.napi, hinv.sent, hinv.completed⟩
      · cases failed <;> exact hcalls
      · cases failed <;> exact congrArg EmzTxSlot.status hnext
  | count idx | gate idx =>
      rw [hpc] at hcalls hat
      exact ⟨hinv.ring, hinv.flight, hcalls, hinv.xmit, hat, hinv.napi, hinv.sent,
        hinv.completed⟩
  | done idx failed =>
      obtain ⟨use, rest, len, hflying, hidx, hqueue, huse⟩ :=
        hinv.called (by rw [hpc]; rfl)
      have hmem : use ∈ bench.flying := hflying ▸ List.mem_cons_self
      have hflight := hinv.flight
      have hsent := hinv.sent
      have hxmit := hinv.xmit_update hmem { bench.tx.slots (use % 64) with done := true }
      rw [hpc, hidx] at hat
      rw [hflying] at hflight
      simp only [hflying, hidx, List.tail_cons]
      refine ⟨hinv.ring.finish huse hat, ?_, ?_, ?_, trivial,
        hinv.napi.grows (grows_modify huse failed), ?_, hinv.completed⟩
      · rw [List.length_modify]
        exact @Flight.finish _ [] _ _ hflight failed
      · exact hqueue
      · rw [List.length_modify]
        exact hxmit
      · rw [List.length_modify, EmzTxUse.lens_modify]
        exact hsent
  | schedule =>
      rw [hpc] at hcalls
      exact ⟨hinv.ring, hinv.flight, hcalls, hinv.xmit, trivial, hinv.napi, hinv.sent,
        hinv.completed⟩

theorem Inv.retired_le_add (hinv : bench.Inv) :
    bench.published.length ≤ bench.retired.length + 64 :=
  hinv.ring.fits.trans (Nat.add_le_add_right hinv.ring.stored_le 64)

/-- The slot that `emz_tx_complete` is at. -/
theorem Inv.agrees_next (hinv : bench.Inv) {use : EmzTxUse}
    (huse : bench.published[bench.retired.length]? = some use) {tail : BitVec 32}
    (htail : tail = BitVec.ofNat 32 bench.retired.length) :
    Agrees (bench.tx.slots (slotIdx tail)) use := by
  rw [htail, slotIdx_ofNat]
  exact hinv.ring.agrees _ use hinv.ring.stored_le huse

theorem Inv.napiStep (hinv : bench.Inv) : bench.napiStep.Inv := by
  have hat := hinv.napi
  have hcompleted := hinv.completed
  rw [EmzTxBench.napiStep, EmzTx.napiStep]
  cases hpc : bench.tx.napi with
  | idle | wake =>
      rw [hpc] at hat hcompleted
      exact ⟨hinv.ring, hinv.flight, hinv.calls, hinv.xmit, hinv.dma, hat, hinv.sent,
        hcompleted⟩
  | begun =>
      rw [hpc] at hat hcompleted
      refine ⟨hinv.ring, hinv.flight, hinv.calls, hinv.xmit, hinv.dma, ⟨⟨?_, hat, ?_⟩, ?_⟩,
        hinv.sent, hcompleted⟩
      · rw [hinv.ring.tail, hat]
      · rw [← hat, List.drop_length]
        rfl
      · exact ⟨_, hinv.ring.head, hinv.ring.length_retired_le, le_rfl⟩
  | loop tail head pkts bytes =>
      rw [hpc] at hat hcompleted
      obtain ⟨hcounting, seen, hhead, hleast, hmost⟩ := hat
      dsimp only
      split
      · rename_i hdone
        have hfits := hmost.trans hinv.retired_le_add
        rw [hcounting.tail, hhead, ofNat_ne_iff hleast hfits] at hdone
        have huse := List.getElem?_eq_getElem (hdone.1.trans_le hmost)
        have hagrees := hinv.agrees_next huse rfl
        obtain ⟨failed, hfailed⟩ := Option.isSome_iff_exists.mp (hagrees.done ▸ hdone.2)
        have hended : ∃ len failed,
            bench.published[bench.retired.length]? = some ⟨len, some failed⟩ :=
          ⟨_, failed, by rw [huse, ← hfailed]⟩
        exact ⟨hinv.ring, hinv.flight, hinv.calls, hinv.xmit, hinv.dma,
          ⟨⟨hcounting, seen, hhead, hdone.1, hmost⟩, hended⟩, hinv.sent, hcompleted⟩
      · split
        · rename_i hnone
          have hpkts := hcounting.pkts
          rw [hnone] at hpkts
          exact ⟨hinv.ring, hinv.flight, hinv.calls, hinv.xmit, hinv.dma, hpkts, hinv.sent,
            hcompleted⟩
        · exact ⟨hinv.ring, hinv.flight, hinv.calls, hinv.xmit, hinv.dma, hcounting,
            hinv.sent, hcompleted⟩
  | status tail head pkts bytes =>
      rw [hpc] at hat hcompleted
      obtain ⟨hseen, len, failed, huse⟩ := hat
      have hagrees := hinv.agrees_next huse hseen.1.tail
      refine ⟨hinv.ring, hinv.flight, hinv.calls, hinv.xmit, hinv.dma, ⟨hseen, len, ?_⟩,
        hinv.sent, hcompleted⟩
      rw [huse, hagrees.status failed rfl]
  | len tail head pkts bytes failed =>
      rw [hpc] at hat hcompleted
      obtain ⟨⟨hcounting, seen, hhead, hleast, hmost⟩, len, huse⟩ := hat
      have hagrees := hinv.agrees_next huse hcounting.tail
      have hstored := hinv.ring.stored_le
      have hlength : (bench.retired ++ [(⟨len, some failed⟩ : EmzTxUse)]).length =
          bench.retired.length + 1 := List.length_append
      dsimp only
      rw [hagrees.len]
      refine ⟨hinv.ring.retire huse rfl, hinv.flight, hinv.calls, hinv.xmit, hinv.dma,
        ⟨⟨?_, ?_, ?_⟩, seen, hhead, ?_, hmost⟩, hinv.sent, ?_⟩
      · rw [hlength, BitVec.ofNat_add, ← hcounting.tail]
        rfl
      · rw [hlength, hcounting.pkts]
        rfl
      · rw [List.drop_append_of_le_length hstored, EmzTxUse.lens_append, ← hcounting.bytes]
        rfl
      · rw [hlength]
        exact hleast
      · change _ ∧ _ = EmzTxUse.lens ((bench.retired ++ _).take bench.stored)
        rw [List.take_append_of_le_length hstored]
        exact hcompleted
  | report tail pkts bytes =>
      rw [hpc] at hat hcompleted
      refine ⟨hinv.ring, hinv.flight, hinv.calls, hinv.xmit, hinv.dma, hat.tail, hinv.sent,
        ?_⟩
      change bench.tx.completedPkts + pkts = bench.retired.length ∧
        bench.tx.completedBytes + bytes =
          EmzTxUse.lens (bench.retired.take bench.retired.length)
      rw [hcompleted.1, hcompleted.2, hat.bytes, List.take_length, ← EmzTxUse.lens_append]
      exact ⟨hat.pkts.symm, congrArg EmzTxUse.lens (List.take_append_drop _ _)⟩
  | store tail =>
      rw [hpc] at hat hcompleted
      have hring := hinv.ring.store
      rw [← hat] at hring
      have hxmit := hinv.xmit.frame hinv.ring.stored_le (fun _ => rfl) (fun _ _ => rfl)
      exact ⟨hring, hinv.flight, hinv.calls, hxmit, hinv.dma, rfl, hinv.sent, hcompleted⟩
  | test | room =>
      rw [hpc] at hat hcompleted
      dsimp only
      split <;> exact ⟨hinv.ring, hinv.flight, hinv.calls, hinv.xmit, hinv.dma, hat,
        hinv.sent, hcompleted⟩

theorem Inv.step (hinv : bench.Inv) (move : Move) : (bench.step move).Inv := by
  cases move with
  | call len => exact hinv.call len
  | xmit fails => exact hinv.xmitStep fails
  | dma fails => exact hinv.dmaStep fails
  | napi => exact hinv.napiStep

theorem inv_run (moves : List Move) : (runFrom step start moves).Inv :=
  invariant_runFrom (fun _ move hinv => hinv.step move) inv_start moves

end EmzTxBench

end EmacZero
