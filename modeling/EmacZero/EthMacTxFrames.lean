/-
What `eth_mac_tx` puts on the wire for a frame, and what it still owes the wire
once it knows where the frame ends.
-/
import EmacZero.EthMacTx

namespace EmacZero

/-- A frame with the zeros that bring it to the minimum length. -/
def padded (data : List (BitVec 8)) : List (BitVec 8) :=
  data ++ List.replicate (EthMacTx.minFrame - data.length) 0

def preambleBytes : List (BitVec 8) :=
  List.replicate EthMacTx.preambleLen 0x55 ++ [0xD5]

/-- Bytes on the GMII pins, `gmii_tx_er` low. -/
def errorFree (bytes : List (BitVec 8)) : List (BitVec 8 × Bool) :=
  bytes.map fun byte => (byte, false)

/-- A frame as the wire carries it: preamble, SFD, frame, padding, FCS. -/
def wireFrame (data : List (BitVec 8)) : List (BitVec 8 × Bool) :=
  errorFree (preambleBytes ++ padded data ++ fcsOf (padded data))

theorem length_padded (data : List (BitVec 8)) :
    (padded data).length = max data.length EthMacTx.minFrame := by
  rw [padded, List.length_append, List.length_replicate]
  omega

@[simp] theorem errorFree_nil : errorFree [] = [] := rfl

@[simp] theorem errorFree_cons (byte : BitVec 8) (rest : List (BitVec 8)) :
    errorFree (byte :: rest) = (byte, false) :: errorFree rest := rfl

@[simp] theorem errorFree_append (first second : List (BitVec 8)) :
    errorFree (first ++ second) = errorFree first ++ errorFree second :=
  List.map_append

namespace EthMacTx

/-- Padding and FCS of a frame of which `count` bytes are out. -/
def trailer (crc : BitVec 32) (count : Nat) : List (BitVec 8) :=
  List.replicate (minFrame - count) 0 ++
    lowBytes 4 (~~~crcFeed crcPolynomial crc (List.replicate (minFrame - count) 0))

/-- The rest of preamble and SFD. -/
def leader (tx : EthMacTx) : List (BitVec 8) :=
  match tx.state with
  | .idle => preambleBytes
  | .preamble => List.replicate (preambleLen - tx.count.toNat) 0x55 ++ [0xD5]
  | .sfd => [0xD5]
  | _ => []

/-- What follows preamble and SFD when the byte held is the whole frame. -/
def single (tx : EthMacTx) : List (BitVec 8) :=
  tx.firstData :: trailer (crcStep crcStart tx.firstData) 1

/-- The end of the frame on the wire is known. -/
def ending (tx : EthMacTx) : Bool :=
  match tx.state with
  | .idle | .preamble | .sfd => tx.haveFirst && tx.firstLast
  | .data => tx.frameEnded || (tx.haveFirst && tx.firstLast)
  | .pad | .crc => true
  | .ifg => tx.gmiiTxEn

/-- The bytes still due on the wire when the end is known. -/
def remaining (tx : EthMacTx) : List (BitVec 8) :=
  match tx.state with
  | .idle | .preamble | .sfd => tx.leader ++ tx.single
  | .data =>
      if tx.frameEnded then trailer tx.crcAccum tx.dataCnt.toNat else tx.single
  | .pad => trailer tx.crcAccum tx.dataCnt.toNat
  | .crc => (lowBytes 4 tx.crcSaved).drop tx.count.toNat
  | .ifg => []

/-- Bytes of a frame are still to come from the source. -/
def inProgress (tx : EthMacTx) : Bool :=
  if tx.haveFirst then !tx.firstLast else tx.state == .data && !tx.frameEnded

theorem trailer_short {count : Nat} (hshort : count < minFrame) (crc : BitVec 32) :
    trailer crc count = 0 :: trailer (crcStep crc 0) (count + 1) := by
  rw [trailer, trailer, show minFrame - count = minFrame - (count + 1) + 1 by omega,
    List.replicate_succ]
  rfl

theorem trailer_long {count : Nat} (hlong : minFrame ≤ count) (crc : BitVec 32) :
    trailer crc count = lowBytes 4 (~~~crc) := by
  rw [trailer, Nat.sub_eq_zero_of_le hlong]
  rfl

/-- The wire carries preamble, SFD, frame and trailer. -/
theorem wireFrame_eq (data : List (BitVec 8)) :
    wireFrame data =
      errorFree (preambleBytes ++ data ++ trailer (crcOf data) data.length) := by
  rw [wireFrame, trailer, padded, fcsOf, crcOf, crcOf, crcFeed_append]
  simp only [List.append_assoc]

/-- What the registers say in each state. -/
def Settled (tx : EthMacTx) : Prop :=
  match tx.state with
  | .idle => tx.gmiiTxEn = false ∧ (tx.sAxisTready = true → tx.haveFirst = false)
  | .preamble =>
      tx.haveFirst = true ∧ tx.crcAccum = crcStart ∧ tx.frameEnded = false ∧
        tx.sAxisTready = false ∧ tx.count.toNat < preambleLen
  | .sfd =>
      tx.haveFirst = true ∧ tx.crcAccum = crcStart ∧ tx.frameEnded = false ∧
        tx.sAxisTready = false ∧ tx.gmiiTxEn = true
  | .data =>
      tx.gmiiTxEn = true ∧
        (tx.haveFirst = true →
          tx.dataCnt = 0 ∧ tx.crcAccum = crcStart ∧ tx.frameEnded = false) ∧
        (tx.frameEnded = true → tx.crcSaved = ~~~tx.crcAccum) ∧
        (tx.sAxisTready = true → tx.haveFirst = false ∧ tx.frameEnded = false)
  | .pad =>
      tx.gmiiTxEn = true ∧ tx.haveFirst = false ∧ tx.sAxisTready = false ∧
        tx.dataCnt.toNat < minFrame
  | .crc =>
      tx.gmiiTxEn = true ∧ tx.haveFirst = false ∧ tx.sAxisTready = false ∧
        tx.count.toNat < 4
  | .ifg => tx.haveFirst = false ∧ tx.sAxisTready = false

theorem settled_reset : reset.Settled := ⟨rfl, fun _ => rfl⟩

variable {tx : EthMacTx} {maxFrame : Nat} {i : EthMacTxIn}

theorem toNat_succ {w : Nat} {count : BitVec w} {bound : Nat} (hlt : count.toNat < bound)
    (hbound : bound < 2 ^ w) : (count + 1#w).toNat = count.toNat + 1 := by
  have hone : (1#w).toNat = 1 := Nat.mod_eq_of_lt (show 1 < 2 ^ w by omega)
  rw [BitVec.toNat_add_of_lt (by omega), hone]

theorem Settled.clkEdge (hsettled : tx.Settled) : (tx.clkEdge maxFrame i).Settled := by
  unfold EthMacTx.clkEdge
  cases hstate : tx.state with
  | idle =>
      simp only [idleEdge, cycleDefaults]
      split
      · split
        · simp [Settled, preambleLen]
        · simp [Settled, hstate]
      · rename_i hwaiting
        simp only [Bool.or_eq_true, not_or, Bool.not_eq_true] at hwaiting
        simp [Settled, hstate, hwaiting.1]
  | preamble =>
      simp only [Settled, hstate] at hsettled
      obtain ⟨hfirst, hcrc, hended, -, hcount⟩ := hsettled
      have hsucc := toNat_succ hcount (show preambleLen < 2 ^ 4 by decide)
      simp only [preambleEdge, cycleDefaults]
      split
      · simp [Settled, hfirst, hcrc, hended]
      · simp only [Settled, hfirst, hcrc, hended, hsucc, BitVec.ofNat_eq_ofNat, true_and]
        omega
  | sfd =>
      simp only [Settled, hstate] at hsettled
      obtain ⟨hfirst, hcrc, hended, -, hen⟩ := hsettled
      simp [sfdEdge, cycleDefaults, Settled, hfirst, hcrc, hended, hen]
  | data =>
      simp only [Settled, hstate] at hsettled
      obtain ⟨hen, hfirst, -, -⟩ := hsettled
      simp only [dataEdge]
      split
      · rename_i hended
        have hnone : tx.haveFirst = false := by
          by_contra hheld
          simp [hended] at hfirst
          exact hheld hfirst
        simp only [endedEdge, cycleDefaults]
        split
        · rename_i hshort
          have hsucc := toNat_succ (Nat.lt_trans hshort (Nat.lt_succ_self _))
            (show minFrame < 2 ^ 14 by decide)
          simp only [Settled, hen, hnone, hsucc, BitVec.ofNat_eq_ofNat, true_and]
          omega
        · split <;> simp [Settled, hen, hnone]
      · rename_i hended
        rw [Bool.not_eq_true] at hended
        split
        · simp only [byteEdge, cycleDefaults]
          split
          · simp [Settled, hstate, hen]
          · split <;> simp [Settled, hstate, hen, hended]
        · rename_i hnone
          rw [Bool.not_eq_true] at hnone
          split
          · simp only [byteEdge, cycleDefaults]
            split
            · simp [Settled, hstate, hen]
            · split <;> simp [Settled, hstate, hen, hended]
          · simp only [stallEdge, cycleDefaults]
            split <;> simp [Settled, hen, hended, hnone]
  | pad =>
      simp only [Settled, hstate] at hsettled
      obtain ⟨hen, hnone, -, hcount⟩ := hsettled
      have hsucc := toNat_succ hcount (show minFrame < 2 ^ 14 by decide)
      simp only [padEdge, cycleDefaults]
      split
      · simp [Settled, hen, hnone]
      · simp only [Settled, hstate, hen, hnone, hsucc, BitVec.ofNat_eq_ofNat, true_and]
        omega
  | crc =>
      simp only [Settled, hstate] at hsettled
      obtain ⟨hen, hnone, -, hcount⟩ := hsettled
      have hsucc := toNat_succ hcount (show 4 < 2 ^ 4 by decide)
      simp only [crcEdge, cycleDefaults]
      split
      · rename_i hzero
        simp [Settled, hstate, hen, hnone, hzero]
      · split
        · rename_i hone
          simp [Settled, hstate, hen, hnone, hone]
        · split
          · rename_i htwo
            simp [Settled, hstate, hen, hnone, htwo]
          · split
            · simp [Settled, hnone]
            · rename_i hzero hone htwo hthree
              simp only [← BitVec.toNat_inj] at hzero hone htwo hthree
              simp at hzero hone htwo hthree
              omega
  | ifg =>
      simp only [Settled, hstate] at hsettled
      simp only [ifgEdge, cycleDefaults]
      split <;> simp [Settled, hsettled.1]

/-! One cycle at a time. -/

/-- The check goes out its low byte first. -/
theorem lowBytes_crc (crc : BitVec 32) :
    lowBytes 4 crc = [crc.extractLsb' 0 8, crc.extractLsb' 8 8, crc.extractLsb' 16 8,
      crc.extractLsb' 24 8] := by
  simp only [lowBytes, ← BitVec.shiftRight_add, BitVec.setWidth_ushiftRight_eq_extractLsb]
  rw [BitVec.setWidth_eq_extractLsb' (by decide)]

theorem beat_eq_none : tx.beat = none ↔ tx.gmiiTxEn = false := by
  simp [beat]

/-- Preamble and SFD go out one byte a cycle, with the first byte held. -/
theorem leader_clkEdge (hsettled : tx.Settled) (hfirst : tx.haveFirst = true)
    (hdata : tx.state ≠ .data) :
    (tx.clkEdge maxFrame i).haveFirst = true ∧
      (tx.clkEdge maxFrame i).firstData = tx.firstData ∧
      (tx.clkEdge maxFrame i).firstLast = tx.firstLast ∧
      errorFree tx.leader =
        (tx.clkEdge maxFrame i).beat.toList ++
          errorFree (tx.clkEdge maxFrame i).leader := by
  unfold EthMacTx.clkEdge
  cases hstate : tx.state with
  | idle =>
      simp only [idleEdge, cycleDefaults, hfirst, Bool.true_or, if_true]
      split
      · simp [leader, hstate, beat, preambleBytes]
      · simp [leader, hstate, beat]
  | preamble =>
      simp only [Settled, hstate] at hsettled
      obtain ⟨-, -, -, -, hcount⟩ := hsettled
      have hsucc := toNat_succ hcount (show preambleLen < 2 ^ 4 by decide)
      have hleft : preambleLen - tx.count.toNat =
          preambleLen - (tx.count.toNat + 1) + 1 := by
        omega
      simp only [preambleEdge, cycleDefaults, hfirst, leader, hstate, hleft,
        List.replicate_succ]
      split
      · rename_i hlast
        simp [beat, hlast, show preambleLen - (preambleLen - 1 + 1) = 0 from rfl]
      · simp [beat, hsucc, -BitVec.toNat_add]
  | sfd =>
      simp only [Settled, hstate] at hsettled
      simp [sfdEdge, cycleDefaults, hfirst, leader, hstate, beat, hsettled]
  | data => exact absurd hstate hdata
  | pad => simp [Settled, hstate, hfirst] at hsettled
  | crc => simp [Settled, hstate, hfirst] at hsettled
  | ifg => simp [Settled, hstate, hfirst] at hsettled

/-- Padding and FCS go out one byte a cycle. -/
theorem endedEdge_remaining (hsettled : tx.Settled) (hstate : tx.state = .data)
    (hended : tx.frameEnded = true) :
    tx.endedEdge.ending = true ∧
      errorFree (trailer tx.crcAccum tx.dataCnt.toNat) =
        tx.endedEdge.beat.toList ++ errorFree tx.endedEdge.remaining := by
  simp only [Settled, hstate] at hsettled
  obtain ⟨hen, -, hsaved, -⟩ := hsettled
  simp only [endedEdge, cycleDefaults]
  split
  · rename_i hshort
    have hlt : tx.dataCnt.toNat < minFrame := Nat.lt_trans hshort (Nat.lt_succ_self _)
    have hsucc := toNat_succ hlt (show minFrame < 2 ^ 14 by decide)
    simp [ending, remaining, beat, hen, trailer_short hlt, hsucc, -BitVec.toNat_add]
  · split
    · rename_i hlast
      have hlt : tx.dataCnt.toNat < minFrame := by
        rw [hlast]
        decide
      have hfull : minFrame ≤ tx.dataCnt.toNat + 1 := by
        rw [hlast]
        decide
      rw [trailer_short hlt, trailer_long hfull]
      simp [ending, remaining, beat, hen]
    · rename_i hlong hfull
      rw [trailer_long (by omega), ← hsaved hended]
      simp [ending, remaining, beat, hen, lowBytes_crc]

theorem padEdge_remaining (hsettled : tx.Settled) (hstate : tx.state = .pad) :
    tx.padEdge.ending = true ∧
      errorFree (trailer tx.crcAccum tx.dataCnt.toNat) =
        tx.padEdge.beat.toList ++ errorFree tx.padEdge.remaining := by
  simp only [Settled, hstate] at hsettled
  obtain ⟨hen, -, -, hlt⟩ := hsettled
  have hsucc := toNat_succ hlt (show minFrame < 2 ^ 14 by decide)
  simp only [padEdge, cycleDefaults]
  split
  · rename_i hlast
    rw [trailer_short hlt, trailer_long (by omega)]
    simp [ending, remaining, beat, hen]
  · rw [trailer_short hlt]
    simp [ending, remaining, beat, hen, hstate, hsucc, -BitVec.toNat_add]

theorem crcEdge_remaining (hsettled : tx.Settled) (hstate : tx.state = .crc) :
    tx.crcEdge.ending = true ∧
      errorFree ((lowBytes 4 tx.crcSaved).drop tx.count.toNat) =
        tx.crcEdge.beat.toList ++ errorFree tx.crcEdge.remaining := by
  simp only [Settled, hstate] at hsettled
  obtain ⟨hen, -, -, hlt⟩ := hsettled
  have hcases : tx.count = 0 ∨ tx.count = 1 ∨ tx.count = 2 ∨ tx.count = 3 := by
    simp only [← BitVec.toNat_inj]
    simp
    omega
  simp only [crcEdge, cycleDefaults]
  rcases hcases with hcount | hcount | hcount | hcount <;>
    simp [hcount, ending, remaining, beat, hen, hstate, lowBytes_crc]

theorem byteEdge_gmiiTxEn (data : BitVec 8) (last : Bool) :
    (tx.byteEdge maxFrame data last).gmiiTxEn = tx.gmiiTxEn := by
  simp only [byteEdge, cycleDefaults]
  split
  · rfl
  · split <;> rfl

theorem dataEdge_gmiiTxEn : (tx.dataEdge maxFrame i).gmiiTxEn = tx.gmiiTxEn := by
  unfold dataEdge
  split
  · simp only [endedEdge, cycleDefaults]
    split
    · rfl
    · split <;> rfl
  · split
    · exact byteEdge_gmiiTxEn ..
    · split
      · exact byteEdge_gmiiTxEn ..
      · rfl

/-- `gmii_tx_en` falls in S_IFG only. -/
theorem gmiiTxEn_clkEdge (hsettled : tx.Settled) (hifg : tx.state ≠ .ifg)
    (hlow : (tx.clkEdge maxFrame i).gmiiTxEn = false) : tx.gmiiTxEn = false := by
  unfold EthMacTx.clkEdge at hlow
  cases hstate : tx.state with
  | idle =>
      simp only [Settled, hstate] at hsettled
      exact hsettled.1
  | preamble => simp [hstate, preambleEdge] at hlow
  | sfd => simpa [hstate, sfdEdge, cycleDefaults] using hlow
  | data => simpa [hstate, dataEdge_gmiiTxEn] using hlow
  | pad =>
      simp only [hstate, padEdge, cycleDefaults] at hlow
      split at hlow <;> exact hlow
  | crc =>
      simp only [hstate, crcEdge, cycleDefaults] at hlow
      split at hlow
      · exact hlow
      · split at hlow
        · exact hlow
        · split at hlow
          · exact hlow
          · split at hlow <;> exact hlow
  | ifg => exact absurd hstate hifg

/-- The last byte of a frame: what follows it is known. -/
theorem byteEdge_last (hstate : tx.state = .data) (hen : tx.gmiiTxEn = true)
    (data : BitVec 8) :
    (tx.byteEdge maxFrame data true).ending = true ∧
      (tx.byteEdge maxFrame data true).beat = some (data, false) ∧
      (tx.byteEdge maxFrame data true).remaining =
        trailer (crcStep tx.crcAccum data) (tx.dataCnt + 1).toNat := by
  simp [byteEdge, cycleDefaults, ending, remaining, beat, hstate, hen]

theorem Settled.ending_held (hsettled : tx.Settled) (hfirst : tx.haveFirst = true) :
    tx.ending = tx.firstLast := by
  cases hstate : tx.state <;> simp [Settled, hstate, hfirst] at hsettled <;>
    simp [ending, hstate, hfirst, hsettled]

theorem Settled.remaining_held (hsettled : tx.Settled) (hfirst : tx.haveFirst = true) :
    tx.remaining = tx.leader ++ tx.single := by
  cases hstate : tx.state <;> simp [Settled, hstate, hfirst] at hsettled <;>
    simp [remaining, leader, hstate, hsettled]

/-- Once the end is known the wire gets what is due, byte by byte. -/
theorem remaining_clkEdge (hsettled : tx.Settled) (hending : tx.ending = true)
    (hifg : tx.state ≠ .ifg) :
    (tx.clkEdge maxFrame i).ending = true ∧
      errorFree tx.remaining =
        (tx.clkEdge maxFrame i).beat.toList ++
          errorFree (tx.clkEdge maxFrame i).remaining := by
  by_cases hheld : tx.haveFirst = true ∧ tx.state ≠ .data
  · obtain ⟨hfirst, hdata⟩ := hheld
    obtain ⟨hfirst', hkept, hlast, hleader⟩ :=
      @leader_clkEdge tx maxFrame i hsettled hfirst hdata
    have hafter := @Settled.clkEdge tx maxFrame i hsettled
    rw [hafter.ending_held hfirst', hlast, ← hsettled.ending_held hfirst,
      hsettled.remaining_held hfirst, hafter.remaining_held hfirst', errorFree_append,
      errorFree_append, hleader, single, single, hkept, List.append_assoc]
    exact ⟨hending, rfl⟩
  · unfold EthMacTx.clkEdge
    cases hstate : tx.state with
    | idle => simp_all [ending]
    | preamble => simp_all [ending]
    | sfd => simp_all [ending]
    | data =>
        cases hended : tx.frameEnded with
        | true => simpa [dataEdge, remaining, hstate, hended] using
            endedEdge_remaining hsettled hstate hended
        | false =>
            simp only [ending, hstate, hended, Bool.false_or, Bool.and_eq_true] at hending
            obtain ⟨hfirst, hlast⟩ := hending
            simp only [Settled, hstate] at hsettled
            obtain ⟨hen, hheld, -, -⟩ := hsettled
            obtain ⟨hcnt, hcrc, -⟩ := hheld hfirst
            obtain ⟨hend, hbeat, hrest⟩ :=
              @byteEdge_last tx maxFrame hstate hen tx.firstData
            simp only [dataEdge, hended, hfirst, hlast, Bool.false_eq_true, if_false,
              if_true, hend, hbeat, hrest, hcnt, hcrc, true_and]
            simp [remaining, hstate, hended, single]
    | pad => simpa [remaining, hstate] using padEdge_remaining hsettled hstate
    | crc => simpa [remaining, hstate] using crcEdge_remaining hsettled hstate
    | ifg => exact absurd hstate hifg

/-! A byte from the source. -/

theorem Settled.ready_state (hsettled : tx.Settled) (hready : tx.sAxisTready = true) :
    tx.haveFirst = false ∧
      (tx.state = .idle ∨ tx.state = .data ∧ tx.frameEnded = false) := by
  cases hstate : tx.state <;> simp [Settled, hstate, hready] at hsettled <;>
    simp [hsettled]

theorem idle_taken (hstate : tx.state = .idle) (hnone : tx.haveFirst = false)
    (hready : tx.sAxisTready = true) (hvalid : i.sAxisTvalid = true) :
    (tx.clkEdge maxFrame i).haveFirst = true ∧
      (tx.clkEdge maxFrame i).firstData = i.sAxisTdata ∧
      (tx.clkEdge maxFrame i).firstLast = i.sAxisTlast ∧
      (tx.clkEdge maxFrame i).gmiiTxEn = false ∧
      (tx.clkEdge maxFrame i).leader = preambleBytes := by
  simp only [EthMacTx.clkEdge, hstate, idleEdge, cycleDefaults, hnone, hready, hvalid]
  cases i.txStartOk with
  | true => exact ⟨rfl, rfl, rfl, rfl, rfl⟩
  | false => exact ⟨rfl, rfl, rfl, rfl, by simp [leader]⟩

theorem data_taken (hstate : tx.state = .data) (hnone : tx.haveFirst = false)
    (hended : tx.frameEnded = false) (hvalid : i.sAxisTvalid = true) :
    tx.clkEdge maxFrame i = tx.byteEdge maxFrame i.sAxisTdata i.sAxisTlast := by
  simp [EthMacTx.clkEdge, hstate, dataEdge, hnone, hended, hvalid]

/-- A byte that is not the last, with room for another. -/
theorem byteEdge_more (hstate : tx.state = .data) (hen : tx.gmiiTxEn = true)
    (hended : tx.frameEnded = false) (hfits : tx.dataCnt.toNat + 1 < maxFrame)
    (data : BitVec 8) :
    (tx.byteEdge maxFrame data false).state = .data ∧
      (tx.byteEdge maxFrame data false).sAxisTready = true ∧
      (tx.byteEdge maxFrame data false).crcAccum = crcStep tx.crcAccum data ∧
      (tx.byteEdge maxFrame data false).dataCnt = tx.dataCnt + 1 ∧
      (tx.byteEdge maxFrame data false).beat = some (data, false) ∧
      (tx.byteEdge maxFrame data false).ending = false := by
  have hroom : ¬maxFrame ≤ tx.dataCnt.toNat + 1 := Nat.not_le.mpr hfits
  simp [byteEdge, cycleDefaults, hroom, hstate, hen, beat, ending, hended]

/-- The last byte of a frame ends its progress. -/
theorem inProgress_taken (hsettled : tx.Settled) (hready : tx.sAxisTready = true)
    (hvalid : i.sAxisTvalid = true) (hlast : i.sAxisTlast = true) :
    (tx.clkEdge maxFrame i).inProgress = false := by
  obtain ⟨hnone, hstate⟩ := hsettled.ready_state hready
  rcases hstate with hstate | ⟨hstate, hended⟩
  · obtain ⟨hfirst, -, hfirstLast, -, -⟩ :=
      @idle_taken tx maxFrame i hstate hnone hready hvalid
    rw [inProgress, hfirst, hfirstLast, hlast]
    rfl
  · rw [data_taken hstate hnone hended hvalid, hlast]
    simp [inProgress, byteEdge, cycleDefaults]

theorem Settled.ending_ready (hsettled : tx.Settled) (hready : tx.sAxisTready = true) :
    tx.ending = false := by
  obtain ⟨hnone, hstate⟩ := hsettled.ready_state hready
  rcases hstate with hstate | ⟨hstate, hended⟩
  · simp [ending, hstate, hnone]
  · simp [ending, hstate, hended, hnone]

theorem ending_taken (hsettled : tx.Settled) (hready : tx.sAxisTready = true)
    (hvalid : i.sAxisTvalid = true) (hlast : i.sAxisTlast = true) :
    (tx.clkEdge maxFrame i).ending = true := by
  obtain ⟨hnone, hstate⟩ := hsettled.ready_state hready
  rcases hstate with hstate | ⟨hstate, hended⟩
  · obtain ⟨hfirst, -, hfirstLast, -, -⟩ :=
      @idle_taken tx maxFrame i hstate hnone hready hvalid
    rw [hsettled.clkEdge.ending_held hfirst, hfirstLast, hlast]
  · simp only [Settled, hstate] at hsettled
    rw [data_taken hstate hnone hended hvalid, hlast]
    exact (byteEdge_last hstate hsettled.1 i.sAxisTdata).1

/-- Between frames the machine waits for a handshake. -/
theorem inProgress_clkEdge (hsettled : tx.Settled) (hprogress : tx.inProgress = false)
    (hquiet : (tx.sAxisTready && i.sAxisTvalid) = false) :
    (tx.clkEdge maxFrame i).inProgress = false := by
  cases hfirst : tx.haveFirst with
  | true =>
      have hlast : tx.firstLast = true := by
        simpa [inProgress, hfirst] using hprogress
      by_cases hdata : tx.state = .data
      · simp only [Settled, hdata] at hsettled
        have hended := (hsettled.2.1 hfirst).2.2
        simp [EthMacTx.clkEdge, hdata, dataEdge, hended, hfirst, hlast, inProgress,
          byteEdge, cycleDefaults]
      · obtain ⟨hfirst', -, hlast', -⟩ :=
          @leader_clkEdge tx maxFrame i hsettled hfirst hdata
        rw [inProgress, hfirst', hlast', hlast]
        rfl
  | false =>
      unfold EthMacTx.clkEdge
      cases hstate : tx.state with
      | idle =>
          have hwait : (i.sAxisTvalid && tx.sAxisTready) = false := by
            rwa [Bool.and_comm]
          simp [idleEdge, cycleDefaults, hfirst, hwait, inProgress, hstate]
      | preamble => simp [Settled, hstate, hfirst] at hsettled
      | sfd => simp [Settled, hstate, hfirst] at hsettled
      | data =>
          have hended : tx.frameEnded = true := by
            simpa [inProgress, hfirst, hstate] using hprogress
          simp only [dataEdge, hended, if_true, endedEdge, cycleDefaults]
          split
          · simp [inProgress, hfirst]
          · split <;> simp [inProgress, hfirst]
      | pad =>
          simp only [padEdge, cycleDefaults]
          split <;> simp [inProgress, hfirst, hstate]
      | crc =>
          simp only [crcEdge, cycleDefaults]
          split
          · simp [inProgress, hfirst, hstate]
          · split
            · simp [inProgress, hfirst, hstate]
            · split
              · simp [inProgress, hfirst, hstate]
              · split <;> simp [inProgress, hfirst, hstate]
      | ifg =>
          simp only [ifgEdge, cycleDefaults]
          split <;> simp [inProgress, hfirst]

/-- Nothing is due where nothing was and no byte came. -/
theorem ending_clkEdge (hsettled : tx.Settled) (hprogress : tx.inProgress = false)
    (hending : tx.ending = false)
    (hquiet : (tx.sAxisTready && i.sAxisTvalid) = false) :
    (tx.clkEdge maxFrame i).ending = false := by
  have hfirst : tx.haveFirst = false := by
    cases hfirst : tx.haveFirst with
    | false => rfl
    | true =>
        rw [hsettled.ending_held hfirst] at hending
        simp [inProgress, hfirst, hending] at hprogress
  unfold EthMacTx.clkEdge
  cases hstate : tx.state with
  | idle =>
      have hwait : (i.sAxisTvalid && tx.sAxisTready) = false := by
        rwa [Bool.and_comm]
      simp [idleEdge, cycleDefaults, hfirst, hwait, ending, hstate]
  | preamble => simp [Settled, hstate, hfirst] at hsettled
  | sfd => simp [Settled, hstate, hfirst] at hsettled
  | data =>
      simp only [inProgress, hfirst, hstate] at hprogress
      simp only [ending, hstate, hfirst] at hending
      simp_all
  | pad => simp [ending, hstate] at hending
  | crc => simp [ending, hstate] at hending
  | ifg =>
      simp only [ifgEdge, cycleDefaults]
      split <;> simp [ending, hfirst]

/-! The gap after a frame. -/

theorem clkEdge_ifg (hstate : tx.state = .ifg) : tx.clkEdge maxFrame i = tx.ifgEdge := by
  rw [EthMacTx.clkEdge, hstate]

/-- While `gmii_tx_en` is still high S_IFG has just begun. -/
theorem count_clkEdge (hstate : (tx.clkEdge maxFrame i).state = .ifg)
    (hen : (tx.clkEdge maxFrame i).gmiiTxEn = true) :
    (tx.clkEdge maxFrame i).count = 0 := by
  unfold EthMacTx.clkEdge at hstate hen ⊢
  cases hbefore : tx.state with
  | idle =>
      simp only [hbefore, idleEdge, cycleDefaults] at hstate
      split at hstate
      · split at hstate <;> simp_all
      · simp_all
  | preamble =>
      simp only [hbefore, preambleEdge, cycleDefaults] at hstate
      split at hstate <;> simp at hstate
  | sfd => simp [hbefore, sfdEdge] at hstate
  | data =>
      simp only [hbefore, dataEdge, endedEdge, byteEdge, stallEdge, cycleDefaults]
        at hstate ⊢
      split_ifs at hstate ⊢ <;> simp_all
  | pad =>
      simp only [hbefore, padEdge, cycleDefaults] at hstate
      split at hstate <;> simp_all
  | crc =>
      simp only [hbefore, crcEdge, cycleDefaults] at hstate ⊢
      split_ifs at hstate ⊢
      rfl
  | ifg => simp [hbefore, ifgEdge] at hen

/-- `gmii_tx_er` is high only with `gmii_tx_en`. -/
theorem gmiiTxEr_clkEdge (hsettled : tx.Settled)
    (hlow : (tx.clkEdge maxFrame i).gmiiTxEn = false) :
    (tx.clkEdge maxFrame i).gmiiTxEr = false := by
  unfold EthMacTx.clkEdge at hlow ⊢
  cases hbefore : tx.state with
  | idle =>
      simp only [idleEdge, cycleDefaults]
      split
      · split <;> rfl
      · rfl
  | preamble => rfl
  | sfd => rfl
  | data =>
      simp only [Settled, hbefore] at hsettled
      simp only [hbefore, dataEdge_gmiiTxEn, hsettled.1] at hlow
      simp at hlow
  | pad =>
      simp only [padEdge, cycleDefaults]
      split <;> rfl
  | crc =>
      simp only [crcEdge, cycleDefaults]
      split_ifs <;> rfl
  | ifg => rfl

/-! Back to S_IDLE when the source stays away. -/

/-- The cycles it takes at most. -/
def linger (tx : EthMacTx) : Nat :=
  match tx.state with
  | .idle => if tx.haveFirst then 85 else 0
  | .preamble => preambleLen - tx.count.toNat + 77
  | .sfd => 77
  | .data =>
      if tx.frameEnded then minFrame - tx.dataCnt.toNat + 15
      else if tx.haveFirst then 76
      else 8 - tx.stallCnt.toNat + 11
  | .pad => minFrame - tx.dataCnt.toNat + 14
  | .crc => 4 - tx.count.toNat + 10
  | .ifg => max (10 - tx.count.toNat) 1

theorem linger_le (tx : EthMacTx) : tx.linger ≤ 85 := by
  unfold linger preambleLen minFrame
  cases tx.state <;> grind

theorem idle_of_linger (hzero : tx.linger = 0) :
    tx.state = .idle ∧ tx.haveFirst = false := by
  cases hstate : tx.state <;> simp [linger, hstate] at hzero ⊢
  · exact hzero
  · split at hzero
    · omega
    · split at hzero <;> omega

theorem linger_clkEdge (hsettled : tx.Settled) (hvalid : i.sAxisTvalid = false)
    (hstart : i.txStartOk = true) :
    (tx.clkEdge maxFrame i).linger ≤ tx.linger - 1 := by
  unfold EthMacTx.clkEdge
  cases hstate : tx.state with
  | idle =>
      cases hfirst : tx.haveFirst <;>
        simp [idleEdge, cycleDefaults, hfirst, hvalid, hstart, linger, hstate, preambleLen]
  | preamble =>
      simp only [Settled, hstate] at hsettled
      obtain ⟨-, -, -, -, hcount⟩ := hsettled
      have hsucc := toNat_succ hcount (show preambleLen < 2 ^ 4 by decide)
      simp only [preambleEdge, cycleDefaults]
      split
      · simp only [linger, hstate]
        omega
      · simp only [linger, hstate, hsucc, BitVec.ofNat_eq_ofNat]
        omega
  | sfd =>
      simp only [Settled, hstate] at hsettled
      simp [sfdEdge, cycleDefaults, linger, hstate, hsettled]
  | data =>
      simp only [Settled, hstate] at hsettled
      obtain ⟨-, hheld, -, -⟩ := hsettled
      cases hended : tx.frameEnded with
      | true =>
          simp only [dataEdge, hended, if_true, endedEdge, cycleDefaults]
          split
          · rename_i hshort
            have hsucc := toNat_succ hshort (show minFrame - 1 < 2 ^ 14 by decide)
            simp only [linger, hstate, hended, hsucc, BitVec.ofNat_eq_ofNat, if_true]
            omega
          · split <;> simp [linger, hstate, hended]
      | false =>
          cases hfirst : tx.haveFirst with
          | true =>
              obtain ⟨hcnt, -, -⟩ := hheld hfirst
              simp only [dataEdge, hended, hfirst, byteEdge, cycleDefaults,
                Bool.false_eq_true, if_false, if_true]
              split
              · simp [linger, hstate, hended, hfirst, hcnt, minFrame]
              · split <;> simp [linger, hstate, hended, hfirst]
          | false =>
              simp only [dataEdge, hended, hfirst, hvalid, stallEdge, cycleDefaults,
                Bool.false_eq_true, if_false]
              by_cases hstall : 7 ≤ tx.stallCnt.toNat
              · simp [linger, hstate, hended, hfirst, hstall]
              · have hsucc := toNat_succ (Nat.lt_of_not_le hstall)
                  (show 7 < 2 ^ 4 by decide)
                simp only [linger, hstate, hended, hfirst, hstall, hsucc, if_false,
                  Bool.false_eq_true, BitVec.ofNat_eq_ofNat]
                omega
  | pad =>
      simp only [Settled, hstate] at hsettled
      obtain ⟨-, -, -, hcount⟩ := hsettled
      have hsucc := toNat_succ hcount (show minFrame < 2 ^ 14 by decide)
      simp only [padEdge, cycleDefaults]
      split
      · simp [linger, hstate]
        omega
      · simp only [linger, hstate, hsucc, BitVec.ofNat_eq_ofNat]
        omega
  | crc =>
      simp only [Settled, hstate] at hsettled
      obtain ⟨-, -, -, hcount⟩ := hsettled
      have hsucc := toNat_succ hcount (show 4 < 2 ^ 4 by decide)
      have hleft : 4 - (tx.count.toNat + 1) + 10 ≤ 4 - tx.count.toNat + 10 - 1 := by
        omega
      by_cases hthree : tx.count = 3
      · simp [crcEdge, cycleDefaults, linger, hthree, hstate]
      · simp only [crcEdge, cycleDefaults, hthree, if_false]
        split_ifs <;> simp only [linger, hsucc, hstate, BitVec.ofNat_eq_ofNat, hleft]
  | ifg =>
      simp only [Settled, hstate] at hsettled
      simp only [ifgEdge, cycleDefaults]
      by_cases hgap : ifgBytes - 3 ≤ tx.count.toNat
      · simp [linger, hgap, hsettled.1]
      · have hsucc := toNat_succ (Nat.lt_of_not_le hgap) (show ifgBytes - 3 < 2 ^ 4 by decide)
        simp only [linger, hstate, hgap, hsucc, BitVec.ofNat_eq_ofNat, if_false]
        unfold ifgBytes at hgap
        omega

end EthMacTx

end EmacZero
