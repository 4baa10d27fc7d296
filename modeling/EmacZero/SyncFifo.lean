/-
`sync_fifo`: a FIFO on one clock, with block-RAM storage and an output register
that holds the oldest word ahead of the pop that consumes it.
-/
import Mathlib.Data.BitVec
import Mathlib.Data.List.Basic
import Mathlib.Logic.Function.Basic

namespace EmacZero

universe u

variable {α : Type u} {addrWidth : Nat}

structure SyncFifo (α : Type u) (addrWidth : Nat) where
  mem : BitVec addrWidth → α
  wrPtr : BitVec (addrWidth + 1)
  rdPtr : BitVec (addrWidth + 1)
  doutR : α
  doutValidR : Bool

namespace SyncFifo

/-- The storage and its read register are not reset. -/
def reset (mem : BitVec addrWidth → α) (doutR : α) : SyncFifo α addrWidth where
  mem := mem
  wrPtr := 0
  rdPtr := 0
  doutR := doutR
  doutValidR := false

variable (fifo : SyncFifo α addrWidth)

def occ : BitVec (addrWidth + 1) := fifo.wrPtr - fifo.rdPtr

def empty : Bool := fifo.occ == 0

def full : Bool := fifo.occ == BitVec.ofNat (addrWidth + 1) (2 ^ addrWidth)

def pop (rdEn : Bool) : Bool := fifo.doutValidR && rdEn

def issueRead (rdEn : Bool) : Bool :=
  !fifo.empty && (!fifo.doutValidR || fifo.pop rdEn)

def pushOk (wrEn rdEn : Bool) : Bool :=
  wrEn && (!fifo.full || fifo.issueRead rdEn)

def wrOverflow (wrEn rdEn : Bool) : Bool := wrEn && !fifo.pushOk wrEn rdEn

def rdEmpty : Bool := fifo.empty && !fifo.doutValidR

/-- The words in the storage, the one in the output register not counted. -/
def count : BitVec (addrWidth + 1) := fifo.occ

/-- A rising edge of `clk`. -/
def clkEdge (wrEn : Bool) (wrData : α) (rdEn : Bool) :
    SyncFifo α addrWidth where
  mem :=
    if fifo.pushOk wrEn rdEn then
      Function.update fifo.mem (fifo.wrPtr.setWidth addrWidth) wrData
    else fifo.mem
  wrPtr := if fifo.pushOk wrEn rdEn then fifo.wrPtr + 1 else fifo.wrPtr
  rdPtr := if fifo.issueRead rdEn then fifo.rdPtr + 1 else fifo.rdPtr
  doutR :=
    if fifo.issueRead rdEn then fifo.mem (fifo.rdPtr.setWidth addrWidth)
    else fifo.doutR
  doutValidR :=
    if fifo.issueRead rdEn then true
    else if fifo.pop rdEn then false
    else fifo.doutValidR

/-- The words in the storage, oldest first. -/
def stored : List α :=
  (List.range fifo.occ.toNat).map fun index =>
    fifo.mem (fifo.rdPtr.setWidth addrWidth + BitVec.ofNat addrWidth index)

/-- Every word held, the output register's first. -/
def words : List α :=
  (if fifo.doutValidR then [fifo.doutR] else []) ++ fifo.stored

/-- What the pointers and the output register keep to: the storage is never
overfilled, and a word waits in it alone for the output register. -/
structure Valid : Prop where
  occ_le : fifo.occ.toNat ≤ 2 ^ addrWidth
  staged : fifo.doutValidR = false → fifo.occ.toNat ≤ 1

variable {fifo}

@[simp] theorem length_stored : fifo.stored.length = fifo.occ.toNat := by
  simp [stored]

theorem valid_reset (mem : BitVec addrWidth → α) (doutR : α) :
    (reset mem doutR).Valid := by
  constructor <;> simp [reset, occ]

@[simp] theorem words_reset (mem : BitVec addrWidth → α) (doutR : α) :
    (reset mem doutR).words = [] := by
  simp [words, stored, reset, occ]

theorem empty_iff : fifo.empty = true ↔ fifo.occ.toNat = 0 := by
  rw [empty, beq_iff_eq, ← BitVec.toNat_inj]
  rfl

theorem full_iff : fifo.full = true ↔ fifo.occ.toNat = 2 ^ addrWidth := by
  have hlt : 2 ^ addrWidth < 2 ^ (addrWidth + 1) := by
    rw [Nat.pow_succ]
    have := Nat.two_pow_pos addrWidth
    omega
  rw [full, beq_iff_eq, ← BitVec.toNat_inj, BitVec.toNat_ofNat,
    Nat.mod_eq_of_lt hlt]

/-- A write is refused only when the storage is full. -/
theorem pushOk_of_room {wrEn rdEn : Bool}
    (hroom : fifo.occ.toNat < 2 ^ addrWidth) : fifo.pushOk wrEn rdEn = wrEn := by
  have hfull : fifo.full = false := by
    rw [← Bool.not_eq_true, full_iff]
    omega
  simp [pushOk, hfull]

theorem issueRead_imp {rdEn : Bool} (hread : fifo.issueRead rdEn = true) :
    0 < fifo.occ.toNat := by
  apply Nat.pos_of_ne_zero
  intro hzero
  simp [issueRead, empty_iff.mpr hzero] at hread

theorem occ_lt_or_read {wrEn rdEn : Bool} (hvalid : fifo.Valid)
    (hpush : fifo.pushOk wrEn rdEn = true) :
    fifo.occ.toNat < 2 ^ addrWidth ∨ fifo.issueRead rdEn = true := by
  have hle := hvalid.occ_le
  simp only [pushOk, Bool.and_eq_true, Bool.or_eq_true] at hpush
  rcases hpush.2 with hfull | hread
  · left
    have hne : fifo.occ.toNat ≠ 2 ^ addrWidth := by
      rw [ne_eq, ← full_iff]
      simpa using hfull
    omega
  · exact Or.inr hread

/-- The storage gains the accepted write and loses the word read. -/
theorem occ_clkEdge (hvalid : fifo.Valid) (wrEn : Bool) (wrData : α)
    (rdEn : Bool) :
    (fifo.clkEdge wrEn wrData rdEn).occ.toNat =
      fifo.occ.toNat - (fifo.issueRead rdEn).toNat +
        (fifo.pushOk wrEn rdEn).toNat := by
  have hle := hvalid.occ_le
  have hpow : 2 ^ (addrWidth + 1) = 2 * 2 ^ addrWidth := Nat.pow_succ'
  have hone : (1 : BitVec (addrWidth + 1)).toNat = 1 :=
    BitVec.toNat_one (Nat.succ_pos addrWidth)
  cases hpush : fifo.pushOk wrEn rdEn with
  | false =>
      cases hread : fifo.issueRead rdEn with
      | false => simp [occ, clkEdge, hread, hpush]
      | true =>
          have hpos := issueRead_imp hread
          have hocc : (fifo.clkEdge wrEn wrData rdEn).occ = fifo.occ - 1 := by
            simp only [occ, clkEdge, hread, hpush]
            grind
          rw [hocc, BitVec.toNat_sub_of_le (by rw [BitVec.le_def]; omega), hone]
          rfl
  | true =>
      cases hread : fifo.issueRead rdEn with
      | false =>
          have hroom := (occ_lt_or_read hvalid hpush).resolve_right (by simp [hread])
          have hocc : (fifo.clkEdge wrEn wrData rdEn).occ = fifo.occ + 1 := by
            simp only [occ, clkEdge, hread, hpush]
            grind
          rw [hocc, BitVec.toNat_add_of_lt (by omega), hone]
          rfl
      | true =>
          have hpos := issueRead_imp hread
          have hocc : (fifo.clkEdge wrEn wrData rdEn).occ = fifo.occ := by
            simp only [occ, clkEdge, hread, hpush]
            grind
          rw [hocc]
          exact (Nat.sub_add_cancel hpos).symm

theorem Valid.clkEdge (hvalid : fifo.Valid) (wrEn : Bool) (wrData : α)
    (rdEn : Bool) : (fifo.clkEdge wrEn wrData rdEn).Valid := by
  have hle := hvalid.occ_le
  have hocc := occ_clkEdge hvalid wrEn wrData rdEn
  constructor
  · cases hpush : fifo.pushOk wrEn rdEn with
    | false => rw [hocc, hpush]; exact le_trans (Nat.sub_le _ _) hle
    | true =>
        rcases occ_lt_or_read hvalid hpush with hroom | hread
        · rw [hocc, hpush]
          simp only [Bool.toNat_true]
          omega
        · have hpos := issueRead_imp hread
          rw [hocc, hpush, hread]
          simp only [Bool.toNat_true]
          omega
  · intro hdout
    have hread : fifo.issueRead rdEn = false := by
      cases hread : fifo.issueRead rdEn with
      | false => rfl
      | true => simp [SyncFifo.clkEdge, hread] at hdout
    have hempty : fifo.occ.toNat = 0 := by
      rw [← empty_iff]
      cases hempty : fifo.empty with
      | true => rfl
      | false =>
          cases hvalidR : fifo.doutValidR <;> cases rdEn <;>
            simp_all [SyncFifo.clkEdge, issueRead, pop]
    rw [hocc, hempty]
    cases fifo.pushOk wrEn rdEn <;> simp

/-- Two slots of the storage that are less than its depth apart differ. -/
theorem slot_ne (base : BitVec addrWidth) {first second : Nat}
    (hlt : first < second) (hnear : second < first + 2 ^ addrWidth) :
    base + BitVec.ofNat addrWidth first ≠ base + BitVec.ofNat addrWidth second := by
  intro heq
  have hcount := congrArg BitVec.toNat (add_left_cancel heq)
  simp only [BitVec.toNat_ofNat] at hcount
  have hmod := (Nat.modEq_iff_dvd' hlt.le).mp hcount
  have := Nat.le_of_dvd (by omega) hmod
  omega

theorem wrPtr_setWidth :
    fifo.wrPtr.setWidth addrWidth =
      fifo.rdPtr.setWidth addrWidth +
        BitVec.ofNat addrWidth fifo.occ.toNat := by
  have hptr : fifo.wrPtr = fifo.rdPtr + fifo.occ := by
    rw [occ]
    grind
  rw [hptr, BitVec.setWidth_add _ _ (Nat.le_succ _), BitVec.ofNat_toNat]

/-- Slots of the storage after an edge: the accepted write goes into the slot
after the last word, the others keep their words. -/
theorem mem_clkEdge {wrEn : Bool} {wrData : α} {rdEn : Bool} {index : Nat}
    (hvalid : fifo.Valid) (hindex : index ≤ fifo.occ.toNat)
    (hread : fifo.issueRead rdEn = true → 0 < index) :
    (fifo.clkEdge wrEn wrData rdEn).mem
        (fifo.rdPtr.setWidth addrWidth + BitVec.ofNat addrWidth index) =
      if fifo.pushOk wrEn rdEn ∧ index = fifo.occ.toNat then wrData
      else fifo.mem
        (fifo.rdPtr.setWidth addrWidth + BitVec.ofNat addrWidth index) := by
  cases hpush : fifo.pushOk wrEn rdEn with
  | false => simp [clkEdge, hpush]
  | true =>
      simp only [clkEdge, hpush, if_true, true_and, wrPtr_setWidth]
      by_cases hlast : index = fifo.occ.toNat
      · rw [hlast, Function.update_self, if_pos rfl]
      · have hle := hvalid.occ_le
        have hnear : fifo.occ.toNat < index + 2 ^ addrWidth := by
          rcases occ_lt_or_read hvalid hpush with hroom | hissue
          · omega
          · have := hread hissue
            omega
        rw [if_neg hlast, Function.update_of_ne (slot_ne _ (by omega) hnear)]

theorem stored_clkEdge (hvalid : fifo.Valid) (wrEn : Bool) (wrData : α)
    (rdEn : Bool) :
    (fifo.clkEdge wrEn wrData rdEn).stored =
      fifo.stored.drop (fifo.issueRead rdEn).toNat ++
        if fifo.pushOk wrEn rdEn then [wrData] else [] := by
  have hocc := occ_clkEdge hvalid wrEn wrData rdEn
  have hpos : (fifo.issueRead rdEn).toNat ≤ fifo.occ.toNat := by
    cases hread : fifo.issueRead rdEn with
    | false => exact Nat.zero_le _
    | true => exact issueRead_imp hread
  have haddr : ∀ index : Nat,
      (fifo.clkEdge wrEn wrData rdEn).rdPtr.setWidth addrWidth +
          BitVec.ofNat addrWidth index =
        fifo.rdPtr.setWidth addrWidth +
          BitVec.ofNat addrWidth (index + (fifo.issueRead rdEn).toNat) := by
    intro index
    cases hread : fifo.issueRead rdEn with
    | false => simp [clkEdge, hread]
    | true =>
        have hone : (1 : BitVec (addrWidth + 1)).setWidth addrWidth =
            BitVec.ofNat addrWidth 1 :=
          BitVec.setWidth_ofNat_of_le (Nat.le_succ addrWidth) 1
        simp only [clkEdge, hread, if_true, Bool.toNat_true, BitVec.ofNat_add,
          BitVec.setWidth_add _ _ (Nat.le_succ addrWidth), hone]
        grind
  apply List.ext_getElem
  · rw [length_stored, hocc, List.length_append, List.length_drop, length_stored]
    cases fifo.pushOk wrEn rdEn <;> rfl
  · intro index hleft hright
    rw [length_stored, hocc] at hleft
    have hle : index + (fifo.issueRead rdEn).toNat ≤ fifo.occ.toNat := by
      cases hpush : fifo.pushOk wrEn rdEn <;> simp [hpush] at hleft <;> omega
    have hread : fifo.issueRead rdEn = true →
        0 < index + (fifo.issueRead rdEn).toNat := by
      intro hissue
      simp [hissue]
    simp only [stored, List.getElem_map, List.getElem_range, haddr]
    rw [mem_clkEdge hvalid hle hread]
    by_cases hlast : index + (fifo.issueRead rdEn).toNat = fifo.occ.toNat
    · have hpush : fifo.pushOk wrEn rdEn = true := by
        cases hpush : fifo.pushOk wrEn rdEn with
        | true => rfl
        | false =>
            rw [hpush] at hleft
            simp at hleft
            omega
      rw [if_pos ⟨hpush, hlast⟩, List.getElem_append_right (by simp; omega)]
      simp [hpush]
    · rw [if_neg (fun h => hlast h.2), List.getElem_append_left (by simp; omega)]
      simp [Nat.add_comm]

/-- An edge takes the word popped and adds the one accepted, in order. -/
theorem words_clkEdge (hvalid : fifo.Valid) (wrEn : Bool) (wrData : α)
    (rdEn : Bool) :
    (fifo.clkEdge wrEn wrData rdEn).words =
      fifo.words.drop (fifo.pop rdEn).toNat ++
        if fifo.pushOk wrEn rdEn then [wrData] else [] := by
  have hread : fifo.issueRead rdEn = true →
      fifo.mem (fifo.rdPtr.setWidth addrWidth) :: fifo.stored.drop 1 =
        fifo.stored := by
    intro hissue
    obtain ⟨left, hleft⟩ := Nat.exists_eq_succ_of_ne_zero (issueRead_imp hissue).ne'
    simp [stored, hleft, List.range_succ_eq_map]
  rw [words, stored_clkEdge hvalid]
  cases hissue : fifo.issueRead rdEn with
  | true =>
      have hdrop : fifo.words.drop (fifo.pop rdEn).toNat = fifo.stored := by
        cases hvalidR : fifo.doutValidR with
        | false => simp [words, pop, hvalidR]
        | true =>
            have hpop : fifo.pop rdEn = true := by
              simp only [issueRead, hvalidR, Bool.not_true, Bool.false_or,
                Bool.and_eq_true] at hissue
              exact hissue.2
            simp [words, hvalidR, hpop]
      rw [hdrop, ← hread hissue]
      simp [clkEdge, hissue]
  | false =>
      cases hpop : fifo.pop rdEn with
      | false => simp [words, clkEdge, hissue, hpop]
      | true =>
          have hvalidR : fifo.doutValidR = true := by
            rw [pop, Bool.and_eq_true] at hpop
            exact hpop.1
          simp [words, clkEdge, hissue, hpop, hvalidR]

/-- The head of the FIFO, when it is valid, is its oldest word. -/
theorem words_of_rdValid (hvalidR : fifo.doutValidR = true) :
    fifo.words = fifo.doutR :: fifo.stored := by
  simp [words, hvalidR]

theorem words_eq_nil_iff : fifo.words = [] ↔ fifo.rdEmpty = true := by
  rw [rdEmpty, Bool.and_eq_true, empty_iff, ← length_stored, List.length_eq_zero_iff]
  cases hvalidR : fifo.doutValidR <;> simp [words, hvalidR]

/-- Only the word written last can still be on its way to the output register. -/
theorem drop_words_of_unstaged {wrEn rdEn : Bool} {wrData : α}
    (hunstaged : (fifo.clkEdge wrEn wrData rdEn).doutValidR = false) :
    fifo.words.drop (fifo.pop rdEn).toNat = [] := by
  have hread : fifo.issueRead rdEn = false := by
    cases hread : fifo.issueRead rdEn with
    | false => rfl
    | true => simp [clkEdge, hread] at hunstaged
  cases hvalidR : fifo.doutValidR with
  | false =>
      have hempty : fifo.empty = true := by simpa [issueRead, hvalidR] using hread
      simp [words_eq_nil_iff.mpr (show fifo.rdEmpty = true by simp [rdEmpty, hempty, hvalidR])]
  | true =>
      have hpop : fifo.pop rdEn = true := by simpa [clkEdge, hread, hvalidR] using hunstaged
      have hempty : fifo.empty = true := by simpa [issueRead, hpop] using hread
      have hstored : fifo.stored = [] := by
        rw [← List.length_eq_zero_iff, length_stored, empty_iff.mp hempty]
      rw [hpop, words_of_rdValid hvalidR, hstored]
      rfl

end SyncFifo

end EmacZero
