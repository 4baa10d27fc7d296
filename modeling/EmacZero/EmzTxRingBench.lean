/-
Runs of the driver's transmit ring: every use of a slot from its publication to its
retirement, and what the driver reports of it.
-/
import Mathlib.Data.List.Basic
import EmacZero.ClockedRun
import EmacZero.EmzTxRing

namespace EmacZero

/-- A slot published for a frame, and whether its descriptor has failed once it is
completed. -/
structure EmzTxUse where
  len : Nat
  outcome : Option Bool
deriving Repr, DecidableEq

namespace EmzTxUse

def ended (failed : Bool) (use : EmzTxUse) : EmzTxUse := { use with outcome := some failed }

def lens (uses : List EmzTxUse) : Nat := (uses.map len).sum

theorem lens_append (first second : List EmzTxUse) :
    lens (first ++ second) = lens first + lens second := by
  rw [lens, List.map_append, List.sum_append]
  rfl

theorem map_len_modify (uses : List EmzTxUse) (count : Nat) (failed : Bool) :
    (uses.modify count (ended failed)).map len = uses.map len := by
  induction uses generalizing count with
  | nil => rw [List.modify_nil]
  | cons use rest ih =>
      cases count with
      | zero => rfl
      | succ count => rw [List.modify_succ_cons, List.map_cons, List.map_cons, ih]

theorem lens_modify (uses : List EmzTxUse) (count : Nat) (failed : Bool) :
    lens (uses.modify count (ended failed)) = lens uses := by
  rw [lens, map_len_modify, lens]

end EmzTxUse

/-- The driver and what has become of its slots: the uses published in order, those that
`emz_tx_complete` has counted, how many of these `tx_tail` has passed, and the uses whose
descriptor is with the DMA. -/
structure EmzTxBench where
  tx : EmzTx
  published : List EmzTxUse
  retired : List EmzTxUse
  stored : Nat
  flying : List Nat

namespace EmzTxBench

open EmzTx

def start : EmzTxBench := ⟨.up, [], [], 0, []⟩

section Step

variable (bench : EmzTxBench)

def last : Nat := bench.published.length - 1

def callStep (len : Nat) : EmzTxBench := { bench with tx := bench.tx.call len }

def xmitStep (fails : Bool) : EmzTxBench :=
  { bench with
    tx := bench.tx.xmitStep fails
    published :=
      match bench.tx.xmit with
      | .publish _ len => bench.published ++ [⟨len, none⟩]
      | .failDone _ => bench.published.modify bench.last (.ended true)
      | _ => bench.published
    flying :=
      match bench.tx.xmit with
      | .submit _ => if fails then bench.flying else bench.flying ++ [bench.last]
      | _ => bench.flying }

def dmaStep (fails : Bool) : EmzTxBench :=
  { bench with
    tx := bench.tx.dmaStep fails
    published :=
      match bench.tx.dma, bench.flying with
      | .done _ failed, use :: _ => bench.published.modify use (.ended failed)
      | _, _ => bench.published
    flying :=
      match bench.tx.dma with
      | .done _ _ => bench.flying.tail
      | _ => bench.flying }

def napiStep : EmzTxBench :=
  { bench with
    tx := bench.tx.napiStep
    retired :=
      match bench.tx.napi with
      | .len tail _ _ _ failed =>
          bench.retired ++ [⟨(bench.tx.slots (slotIdx tail)).len, some failed⟩]
      | _ => bench.retired
    stored :=
      match bench.tx.napi with
      | .store _ => bench.retired.length
      | _ => bench.stored }

def step : Move → EmzTxBench
  | .call len => bench.callStep len
  | .xmit fails => bench.xmitStep fails
  | .dma fails => bench.dmaStep fails
  | .napi => bench.napiStep

/-- The lengths in the slots from `tx_tail` to `tx_head`. -/
def inFlight : List Nat :=
  (List.range (bench.tx.txHead - bench.tx.txTail).toNat).map fun count =>
    (bench.tx.slots (slotIdx (bench.tx.txTail + BitVec.ofNat 32 count))).len

/-- The frame reported sent that `tx_head` does not cover yet. -/
def unpublished : EmzStartXmit → List Nat
  | .publish _ len => [len]
  | _ => []

/-- The uses reported completed that `tx_tail` does not pass yet. -/
def unstored : List EmzTxUse :=
  match bench.tx.napi with
  | .store _ => bench.retired.drop bench.stored
  | _ => []

end Step

end EmzTxBench

/-! Counters of 32 bits and the slots they stand for. -/

section Counters

variable {head tail : Nat}

theorem slotIdx_ofNat (count : Nat) : EmzTx.slotIdx (BitVec.ofNat 32 count) = count % 64 := by
  rw [EmzTx.slotIdx, BitVec.toNat_umod, BitVec.toNat_ofNat]
  exact Nat.mod_mod_of_dvd _ (by decide)

theorem ofNat_sub_ofNat (hle : tail ≤ head) :
    BitVec.ofNat 32 head - BitVec.ofNat 32 tail = BitVec.ofNat 32 (head - tail) := by
  rw [BitVec.sub_eq_iff_eq_add, ← BitVec.ofNat_add, Nat.sub_add_cancel hle]

theorem toNat_free (hle : tail ≤ head) (hfits : head ≤ tail + 64) :
    (emzTxRing - (BitVec.ofNat 32 head - BitVec.ofNat 32 tail)).toNat = 64 - (head - tail) := by
  rw [ofNat_sub_ofNat hle, BitVec.toNat_sub, BitVec.toNat_ofNat, emzTxRing]
  change (2 ^ 32 - (head - tail) % 2 ^ 32 + 64) % 2 ^ 32 = _
  omega

theorem ofNat_ne_iff (hle : tail ≤ head) (hfits : head ≤ tail + 64) :
    BitVec.ofNat 32 tail ≠ BitVec.ofNat 32 head ↔ tail < head := by
  rw [ne_eq, ← BitVec.toNat_inj, BitVec.toNat_ofNat, BitVec.toNat_ofNat]
  omega

end Counters

/-! What the ring holds, whoever moves. -/

section Ring

/-- A slot that `emz_start_xmit` has published for a use. -/
structure Agrees (slot : EmzTxSlot) (use : EmzTxUse) : Prop where
  len : slot.len = use.len
  done : slot.done = use.outcome.isSome
  status : ∀ failed, use.outcome = some failed → slot.status = failed

/-- The counters against the uses: at most 64 are published and not passed by `tx_tail`,
and each of these has its slot.  Those retired are the first, each completed. -/
structure Ring (txHead txTail : BitVec 32) (slots : Nat → EmzTxSlot)
    (published retired : List EmzTxUse) (stored : Nat) : Prop where
  head : txHead = BitVec.ofNat 32 published.length
  tail : txTail = BitVec.ofNat 32 stored
  fits : published.length ≤ stored + 64
  stored_le : stored ≤ retired.length
  retired_pre : retired <+: published
  ended : ∀ use ∈ retired, use.outcome.isSome = true
  agrees : ∀ count use, stored ≤ count → published[count]? = some use →
    Agrees (slots (count % 64)) use

variable {txHead txTail : BitVec 32} {slots : Nat → EmzTxSlot}
  {published retired : List EmzTxUse} {stored : Nat}

theorem Ring.length_retired_le (hring : Ring txHead txTail slots published retired stored) :
    retired.length ≤ published.length :=
  hring.retired_pre.length_le

theorem lt_length_of_some {count : Nat} {use : EmzTxUse} (huse : published[count]? = some use) :
    count < published.length :=
  (List.getElem?_eq_some_iff.mp huse).1

/-- A use that is with the DMA has not been retired. -/
theorem Ring.retired_le (hring : Ring txHead txTail slots published retired stored)
    {count len : Nat} (huse : published[count]? = some ⟨len, none⟩) :
    retired.length ≤ count := by
  by_contra hge
  have hlt := Nat.lt_of_not_ge hge
  have hsame := List.prefix_iff_getElem?.mp hring.retired_pre count hlt
  rw [huse, Option.some_inj] at hsame
  have hended := hring.ended _ (List.getElem_mem hlt)
  rw [← hsame] at hended
  exact Bool.false_ne_true hended

/-- The slot that the next frame may have. -/
theorem Ring.fill (hring : Ring txHead txTail slots published retired stored)
    (hroom : published.length < stored + 64) (slot : EmzTxSlot) :
    Ring txHead txTail (Function.update slots (published.length % 64) slot) published retired
      stored where
  head := hring.head
  tail := hring.tail
  fits := hring.fits
  stored_le := hring.stored_le
  retired_pre := hring.retired_pre
  ended := hring.ended
  agrees := by
    intro count use hstored huse
    have hlt := lt_length_of_some huse
    rw [Function.update_of_ne (by omega)]
    exact hring.agrees count use hstored huse

theorem Ring.publish (hring : Ring txHead txTail slots published retired stored)
    (hroom : published.length < stored + 64) {len : Nat}
    (hslot : slots (published.length % 64) = ⟨len, false, false⟩) :
    Ring (BitVec.ofNat 32 published.length + 1) txTail slots (published ++ [⟨len, none⟩]) retired
      stored where
  head := by rw [List.length_append, BitVec.ofNat_add]; rfl
  tail := hring.tail
  fits := by rw [List.length_append]; exact hroom
  stored_le := hring.stored_le
  retired_pre := hring.retired_pre.trans (List.prefix_append _ _)
  ended := hring.ended
  agrees := by
    intro count use hstored huse
    rcases Nat.lt_or_ge count published.length with hlt | hge
    · rw [List.getElem?_append_left hlt] at huse
      exact hring.agrees count use hstored huse
    · rw [List.getElem?_append_right hge, List.getElem?_singleton] at huse
      have hcount : count = published.length := by
        by_contra hne
        rw [if_neg (by omega)] at huse
        exact nomatch huse
      rw [hcount, Nat.sub_self, if_pos rfl, Option.some_inj] at huse
      rw [hcount, hslot, ← huse]
      exact ⟨rfl, rfl, nofun⟩

/-- The callback, or `emz_start_xmit` for it, writes a slot's status. -/
theorem Ring.setStatus (hring : Ring txHead txTail slots published retired stored)
    {count len : Nat} (huse : published[count]? = some ⟨len, none⟩) (failed : Bool) :
    Ring txHead txTail
      (Function.update slots (count % 64) { slots (count % 64) with status := failed })
      published retired stored where
  head := hring.head
  tail := hring.tail
  fits := hring.fits
  stored_le := hring.stored_le
  retired_pre := hring.retired_pre
  ended := hring.ended
  agrees := by
    intro other use hstored hother
    by_cases hsame : other = count
    · rw [hsame] at hother ⊢
      have hagrees := hring.agrees count use (hsame ▸ hstored) hother
      rw [Function.update_self]
      rw [huse, Option.some_inj] at hother
      refine ⟨hagrees.len, hagrees.done, ?_⟩
      rw [← hother]
      exact nofun
    · have hcount := lt_length_of_some huse
      have hlt := lt_length_of_some hother
      have hafter := hring.retired_le huse
      have hstored_le := hring.stored_le
      have hfits := hring.fits
      rw [Function.update_of_ne (by omega)]
      exact hring.agrees other use hstored hother

/-- A descriptor is completed: its slot is done, with the status written before. -/
theorem Ring.finish (hring : Ring txHead txTail slots published retired stored)
    {count len : Nat} (huse : published[count]? = some ⟨len, none⟩) {failed : Bool}
    (hstatus : (slots (count % 64)).status = failed) :
    Ring txHead txTail
      (Function.update slots (count % 64) { slots (count % 64) with done := true })
      (published.modify count (.ended failed)) retired stored where
  head := by rw [List.length_modify]; exact hring.head
  tail := hring.tail
  fits := by rw [List.length_modify]; exact hring.fits
  stored_le := hring.stored_le
  retired_pre := by
    have hafter := hring.retired_le huse
    rw [List.prefix_iff_getElem?]
    intro index hindex
    rw [List.getElem?_modify_ne _ _ (by omega)]
    exact List.prefix_iff_getElem?.mp hring.retired_pre index hindex
  ended := hring.ended
  agrees := by
    intro other use hstored hother
    have hafter := hring.retired_le huse
    have hstored_le := hring.stored_le
    by_cases hsame : other = count
    · rw [hsame, List.getElem?_modify_eq, huse, Option.map_eq_map,
        Option.map_some, Option.some_inj] at hother
      rw [hsame, Function.update_self, ← hother]
      have hagrees := hring.agrees count _ (by omega) huse
      refine ⟨hagrees.len, rfl, ?_⟩
      intro result hresult
      rw [EmzTxUse.ended, Option.some_inj] at hresult
      exact hstatus.trans hresult
    · have hcount := lt_length_of_some huse
      rw [List.getElem?_modify_ne _ _ (Ne.symm hsame)] at hother
      have hlt := lt_length_of_some hother
      have hfits := hring.fits
      rw [Function.update_of_ne (by omega)]
      exact hring.agrees other use hstored hother

/-- `emz_tx_complete` counts the next slot. -/
theorem Ring.retire (hring : Ring txHead txTail slots published retired stored)
    {use : EmzTxUse} (huse : published[retired.length]? = some use)
    (hended : use.outcome.isSome = true) :
    Ring txHead txTail slots published (retired ++ [use]) stored where
  head := hring.head
  tail := hring.tail
  fits := hring.fits
  stored_le := by
    rw [List.length_append]
    exact Nat.le_add_right_of_le hring.stored_le
  retired_pre := by
    obtain ⟨rest, hrest⟩ := hring.retired_pre
    rw [← hrest, List.getElem?_append_right le_rfl, Nat.sub_self] at huse
    cases rest with
    | nil => exact nomatch huse
    | cons first rest =>
        obtain rfl := Option.some_inj.mp huse
        exact ⟨rest, by rw [← hrest, List.append_assoc]; rfl⟩
  ended := by
    intro other hmem
    rcases List.mem_append.mp hmem with hold | hnew
    · exact hring.ended other hold
    · rw [List.mem_singleton.mp hnew]
      exact hended
  agrees := hring.agrees

/-- `tx_tail` passes the slots counted. -/
theorem Ring.store (hring : Ring txHead txTail slots published retired stored) :
    Ring txHead (BitVec.ofNat 32 retired.length) slots published retired retired.length where
  head := hring.head
  tail := rfl
  fits := hring.fits.trans (Nat.add_le_add_right hring.stored_le 64)
  stored_le := le_rfl
  retired_pre := hring.retired_pre
  ended := hring.ended
  agrees count use hle huse := hring.agrees count use (hring.stored_le.trans hle) huse

end Ring

/-! What each of the three relies on. -/

section Threads

/-- Uses whose descriptor has not been completed, in the order of their submission. -/
structure Flight (published : List EmzTxUse) (uses : List Nat) : Prop where
  sorted : uses.Pairwise (· < ·)
  out : ∀ use ∈ uses, ∃ len, published[use]? = some ⟨len, none⟩

/-- The use that `emz_start_xmit` is to submit, or to complete itself. -/
def held (count : Nat) : EmzStartXmit → List Nat
  | .submit _ | .failStatus _ | .failCount _ | .failGate _ | .failDone _ => [count - 1]
  | _ => []

/-- `emz_start_xmit` between its accesses, when `count` uses are published. -/
def XmitAt (slots : Nat → EmzTxSlot) (count stored : Nat) : EmzStartXmit → Prop
  | .entered head _ => head = BitVec.ofNat 32 count
  | .gate head _ | .copy head _ | .prep head _ | .setLen head _ =>
      head = BitVec.ofNat 32 count ∧ count < stored + 64
  | .setStatus head len =>
      (head = BitVec.ofNat 32 count ∧ count < stored + 64) ∧ (slots (count % 64)).len = len
  | .setDone head len =>
      (head = BitVec.ofNat 32 count ∧ count < stored + 64) ∧
        (slots (count % 64)).len = len ∧ (slots (count % 64)).status = false
  | .report head len | .publish head len =>
      (head = BitVec.ofNat 32 count ∧ count < stored + 64) ∧
        slots (count % 64) = ⟨len, false, false⟩
  | .submit head | .failStatus head => 0 < count ∧ head = BitVec.ofNat 32 (count - 1)
  | .failCount head | .failGate head | .failDone head =>
      (0 < count ∧ head = BitVec.ofNat 32 (count - 1)) ∧
        (slots ((count - 1) % 64)).status = true
  | _ => True

/-- The slot of the callback that is running. -/
def calledFor : EmzTxDmaDone → List Nat
  | .status idx _ | .count idx | .gate idx | .done idx _ => [idx]
  | _ => []

def DmaAt (slots : Nat → EmzTxSlot) : EmzTxDmaDone → Prop
  | .count idx | .gate idx => (slots idx).status = true
  | .done idx failed => (slots idx).status = failed
  | _ => True

/-- What a run of `emz_tx_complete` has counted since `tx_tail`. -/
structure Counting (retired : List EmzTxUse) (stored : Nat) (tail : BitVec 32)
    (pkts bytes : Nat) : Prop where
  tail : tail = BitVec.ofNat 32 retired.length
  pkts : retired.length = stored + pkts
  bytes : bytes = EmzTxUse.lens (retired.drop stored)

/-- The head that a run goes up to. -/
def Snapshot (published : List EmzTxUse) (least : Nat) (head : BitVec 32) : Prop :=
  ∃ seen, head = BitVec.ofNat 32 seen ∧ least ≤ seen ∧ seen ≤ published.length

def NapiAt (published retired : List EmzTxUse) (stored : Nat) : EmzTxComplete → Prop
  | .loop tail head pkts bytes =>
      Counting retired stored tail pkts bytes ∧ Snapshot published retired.length head
  | .status tail head pkts bytes =>
      (Counting retired stored tail pkts bytes ∧
        Snapshot published (retired.length + 1) head) ∧
      ∃ len failed, published[retired.length]? = some ⟨len, some failed⟩
  | .len tail head pkts bytes failed =>
      (Counting retired stored tail pkts bytes ∧
        Snapshot published (retired.length + 1) head) ∧
      ∃ len, published[retired.length]? = some ⟨len, some failed⟩
  | .report tail pkts bytes => Counting retired stored tail pkts bytes
  | .store tail => tail = BitVec.ofNat 32 retired.length
  | _ => retired.length = stored

variable {published retired : List EmzTxUse} {uses : List Nat} {stored : Nat}
  {slots : Nat → EmzTxSlot}

theorem Flight.publish (hflight : Flight published uses) (len : Nat) :
    Flight (published ++ [⟨len, none⟩]) (uses ++ [published.length]) where
  sorted := by
    rw [List.pairwise_append]
    refine ⟨hflight.sorted, List.pairwise_singleton _ _, ?_⟩
    intro use hmem last hlast
    obtain ⟨before, huse⟩ := hflight.out use hmem
    rw [List.mem_singleton.mp hlast]
    exact lt_length_of_some huse
  out := by
    intro use hmem
    rcases List.mem_append.mp hmem with hold | hnew
    · obtain ⟨before, huse⟩ := hflight.out use hold
      exact ⟨before, by rw [List.getElem?_append_left (lt_length_of_some huse)]; exact huse⟩
    · rw [List.mem_singleton.mp hnew]
      exact ⟨len, by simp⟩

theorem Flight.finish {before after : List Nat} {use : Nat}
    (hflight : Flight published (before ++ use :: after)) (failed : Bool) :
    Flight (published.modify use (.ended failed)) (before ++ after) where
  sorted := hflight.sorted.sublist
    (List.Sublist.append_left (List.sublist_cons_self use after) before)
  out := by
    intro other hmem
    have hother : other ∈ before ++ use :: after :=
      (List.Sublist.append_left (List.sublist_cons_self use after) before).subset hmem
    have hne : use ≠ other := by
      have hsorted := List.pairwise_append.mp hflight.sorted
      rcases List.mem_append.mp hmem with hbefore | hafter
      · exact (hsorted.2.2 other hbefore use List.mem_cons_self).ne'
      · exact (List.rel_of_pairwise_cons hsorted.2.1 hafter).ne
    obtain ⟨len, hlen⟩ := hflight.out other hother
    exact ⟨len, by rw [List.getElem?_modify_ne _ _ hne]; exact hlen⟩

/-- Nothing that has been completed is lost from the uses. -/
def Grows (published later : List EmzTxUse) : Prop :=
  published.length ≤ later.length ∧
    ∀ (count len : Nat) (failed : Bool), published[count]? = some ⟨len, some failed⟩ →
      later[count]? = some ⟨len, some failed⟩

theorem grows_append (published : List EmzTxUse) (use : EmzTxUse) :
    Grows published (published ++ [use]) := by
  refine ⟨by rw [List.length_append]; exact Nat.le_add_right _ _, ?_⟩
  intro count before failed huse
  rw [List.getElem?_append_left (lt_length_of_some huse)]
  exact huse

theorem grows_modify {count len : Nat} (huse : published[count]? = some ⟨len, none⟩)
    (failed : Bool) : Grows published (published.modify count (.ended failed)) := by
  refine ⟨by rw [List.length_modify], ?_⟩
  intro other before result hother
  have hne : count ≠ other := by
    rintro rfl
    rw [huse] at hother
    exact nomatch hother
  rw [List.getElem?_modify_ne _ _ hne]
  exact hother

theorem Snapshot.grows {later : List EmzTxUse} (hgrows : Grows published later) {least : Nat}
    {head : BitVec 32} (hseen : Snapshot published least head) : Snapshot later least head := by
  obtain ⟨seen, hhead, hleast, hmost⟩ := hseen
  exact ⟨seen, hhead, hleast, hmost.trans hgrows.1⟩

theorem NapiAt.grows {later : List EmzTxUse} (hgrows : Grows published later)
    {napi : EmzTxComplete} (hat : NapiAt published retired stored napi) :
    NapiAt later retired stored napi := by
  cases napi with
  | loop tail head pkts bytes => exact ⟨hat.1, hat.2.grows hgrows⟩
  | status tail head pkts bytes =>
      obtain ⟨⟨hcounting, hseen⟩, len, failed, huse⟩ := hat
      exact ⟨⟨hcounting, hseen.grows hgrows⟩, len, failed, hgrows.2 _ _ _ huse⟩
  | len tail head pkts bytes failed =>
      obtain ⟨⟨hcounting, hseen⟩, len, huse⟩ := hat
      exact ⟨⟨hcounting, hseen.grows hgrows⟩, len, hgrows.2 _ _ _ huse⟩
  | report tail pkts bytes => exact hat
  | store tail => exact hat
  | idle | begun | test | room | wake => exact hat

/-- The others only make room, and leave the slot of the next frame and the one held. -/
theorem XmitAt.frame {later : Nat → EmzTxSlot} {count passed : Nat} {xmit : EmzStartXmit}
    (hle : stored ≤ passed)
    (hnext : count < stored + 64 → later (count % 64) = slots (count % 64))
    (hheld : ∀ use ∈ held count xmit,
      (later (use % 64)).status = (slots (use % 64)).status)
    (hat : XmitAt slots count stored xmit) : XmitAt later count passed xmit := by
  have hroom : count < stored + 64 → count < passed + 64 :=
    fun hlt => hlt.trans_le (Nat.add_le_add_right hle 64)
  cases xmit with
  | idle | busy | failSchedule | check | stop | recheck | start => trivial
  | entered head len => exact hat
  | gate head len | copy head len | prep head len | setLen head len =>
      exact ⟨hat.1, hroom hat.2⟩
  | setStatus head len | setDone head len | report head len | publish head len =>
      rw [XmitAt, hnext hat.1.2]
      exact ⟨⟨hat.1.1, hroom hat.1.2⟩, hat.2⟩
  | submit head | failStatus head => exact hat
  | failCount head | failGate head | failDone head =>
      exact ⟨hat.1, (hheld _ (List.mem_singleton_self _)).trans hat.2⟩

end Threads

end EmacZero
