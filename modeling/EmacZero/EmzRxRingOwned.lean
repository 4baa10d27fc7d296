/-
The fragments of the driver's receive ring: each one that is out of the pool has one
owner at every step, and none is lost.
-/
import EmacZero.EmzRxRingBench

namespace EmacZero

namespace EmzRx

variable {rx next : EmzRx}

/-- Nothing changes hands. -/
theorem Owned.congr (howned : rx.Owned)
    (hfrag : ∀ idx, (next.slots idx).frag = (rx.slots idx).frag)
    (hdma : ∀ idx, (next.slots idx).dma = (rx.slots idx).dma)
    (hlent : ∀ desc ∈ next.lent, desc ∈ rx.lent) (hout : next.out = rx.out)
    (hstack : next.napi.flying ++ next.stack = rx.napi.flying ++ rx.stack) : next.Owned where
  out := by
    have hring : next.ringFrags = rx.ringFrags :=
      List.map_congr_left fun idx _ => hfrag idx
    rw [hout, hring, hstack]
    exact howned.out
  distinct := by
    rw [hout]
    exact howned.distinct
  slot := fun idx => by rw [hdma, hfrag, howned.slot]
  lent := fun desc hmem => by rw [hfrag, howned.lent desc (hlent desc hmem)]

/-- A slot is written, but not its fragment. -/
theorem Owned.setSlot (howned : rx.Owned) {idx : Nat} {slot : EmzRxSlot}
    (hslots : next.slots = Function.update rx.slots idx slot)
    (hfrag : slot.frag = (rx.slots idx).frag) (hdma : slot.dma = (rx.slots idx).dma)
    (hlent : next.lent = rx.lent) (hout : next.out = rx.out)
    (hstack : next.napi.flying ++ next.stack = rx.napi.flying ++ rx.stack) : next.Owned := by
  refine howned.congr (fun other => ?_) (fun other => ?_) ?_ hout hstack
  · rw [hslots]
    by_cases hsame : other = idx
    · rw [hsame, Function.update_self, hfrag]
    · rw [Function.update_of_ne hsame]
  · rw [hslots]
    by_cases hsame : other = idx
    · rw [hsame, Function.update_self, hdma]
    · rw [Function.update_of_ne hsame]
  · rw [hlent]
    exact fun _ hmem => hmem

/-- A slot gets a new fragment, and the poll has its old one. -/
theorem Owned.alloc (howned : rx.Owned) {counts : EmzRxCounts} {len : Nat} {frag fresh : EmzFrag}
    (hpc : rx.napi = .alloc counts len frag) (hfrag : frag = rx.tailSlot.frag)
    (htail : rx.rxTail < emzRxRing) (hheld : ∀ desc ∈ rx.lent, desc.idx ≠ rx.rxTail)
    (hfresh : fresh ∉ rx.out) :
    Owned { rx.setSlot rx.rxTail { rx.tailSlot with frag := fresh, dma := fresh } with
      out := fresh :: rx.out
      napi := .build counts len frag } := by
  have hfrags : ∀ slots : Nat → EmzRxSlot,
      (fun idx => (Function.update slots rx.rxTail
        { rx.tailSlot with frag := fresh, dma := fresh } idx).frag) =
        Function.update (fun idx => (slots idx).frag) rx.rxTail fresh := by
    intro slots
    funext idx
    by_cases hsame : idx = rx.rxTail
    · rw [hsame, Function.update_self, Function.update_self]
    · rw [Function.update_of_ne hsame, Function.update_of_ne hsame]
  obtain ⟨rest, hold, hnew⟩ := map_update_perm (fun idx => (rx.slots idx).frag) fresh
    (List.mem_range.mpr htail) List.nodup_range
  have hout := howned.out
  rw [hpc] at hout
  refine ⟨?_, List.nodup_cons.mpr ⟨hfresh, howned.distinct⟩, fun idx => ?_, fun desc hmem => ?_⟩
  · change (fresh :: rx.out).Perm ((List.range emzRxRing).map _ ++ ([frag] ++ rx.stack))
    have hring : (List.range emzRxRing).map (fun idx =>
        (Function.update rx.slots rx.rxTail
          { rx.tailSlot with frag := fresh, dma := fresh } idx).frag) =
        (List.range emzRxRing).map
          (Function.update (fun idx => (rx.slots idx).frag) rx.rxTail fresh) := by
      rw [hfrags]
    have howners : rx.out.Perm (rest ++ ([frag] ++ rx.stack)) := by
      refine hout.trans ?_
      rw [hfrag]
      exact (hold.append_right _).trans List.perm_middle.symm
    refine (howners.cons fresh).trans ?_
    refine List.Perm.trans ?_ (hring ▸ hnew.symm.append_right _)
    exact List.Perm.refl _
  · change (Function.update rx.slots rx.rxTail _ idx).dma =
      (Function.update rx.slots rx.rxTail _ idx).frag
    by_cases hsame : idx = rx.rxTail
    · rw [hsame, Function.update_self]
    · rw [Function.update_of_ne hsame, howned.slot]
  · change desc.dma = (Function.update rx.slots rx.rxTail _ desc.idx).frag
    rw [Function.update_of_ne (hheld desc hmem), howned.lent desc hmem]

/-- A fragment goes back to the pool. -/
theorem Owned.recycle (howned : rx.Owned) {counts : EmzRxCounts} {frag : EmzFrag}
    (hpc : rx.napi = .recycle counts frag) :
    Owned { rx with out := rx.out.erase frag, napi := .drop counts } where
  out := by
    have hout := howned.out
    rw [hpc] at hout
    have hhead : rx.out.Perm (frag :: (rx.ringFrags ++ rx.stack)) :=
      hout.trans List.perm_middle
    have hrest := hhead.erase frag
    rw [List.erase_cons_head] at hrest
    exact hrest
  distinct := howned.distinct.erase frag
  slot := howned.slot
  lent := howned.lent

/-- An skb is freed. -/
theorem Owned.freeSkb (howned : rx.Owned) (frag : EmzFrag) : (rx.freeSkb frag).Owned := by
  rw [EmzRx.freeSkb]
  split
  · rename_i hmem
    refine ⟨?_, howned.distinct.erase frag, howned.slot, howned.lent⟩
    have hsplit : (rx.ringFrags ++ (rx.napi.flying ++ rx.stack)).Perm
        (frag :: (rx.ringFrags ++ (rx.napi.flying ++ rx.stack.erase frag))) := by
      rw [← List.append_assoc, ← List.append_assoc]
      exact ((List.perm_cons_erase hmem).append_left _).trans List.perm_middle
    have hrest := (howned.out.trans hsplit).erase frag
    rw [List.erase_cons_head] at hrest
    exact hrest
  · exact howned

/-- Two slots have two fragments. -/
theorem Owned.frag_ne (howned : rx.Owned) {first second : Nat} (hfirst : first < emzRxRing)
    (hsecond : second < emzRxRing) (hne : first ≠ second) :
    (rx.slots first).frag ≠ (rx.slots second).frag := by
  have hring : rx.ringFrags.Nodup :=
    ((howned.out.nodup_iff.mp howned.distinct).of_append_left)
  exact fun hsame => hne (List.inj_on_of_nodup_map hring (List.mem_range.mpr hfirst)
    (List.mem_range.mpr hsecond) hsame)

/-- What the poll has is not a slot's. -/
theorem Owned.flying_ne (howned : rx.Owned) {frag : EmzFrag} (hflying : frag ∈ rx.napi.flying)
    {idx : Nat} (hidx : idx < emzRxRing) : frag ≠ (rx.slots idx).frag := by
  have hparts := List.nodup_append.mp (howned.out.nodup_iff.mp howned.distinct)
  exact fun hsame => hparts.2.2 _ (List.mem_map_of_mem (List.mem_range.mpr hidx)) _
    (List.mem_append_left _ hflying) hsame.symm

end EmzRx

end EmacZero
