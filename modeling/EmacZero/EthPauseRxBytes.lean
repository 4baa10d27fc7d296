/-
The bytes that `eth_pause_rx` makes of an envelope: in its nibble mode every nibble is
paired with the one before it until the SFD is found.
-/
import EmacZero.EthPauseRx
import EmacZero.NibbleFrames

namespace EmacZero

/-- The pairing of the nibbles of an envelope by `eth_pause_rx`. -/
structure OverlapPairs where
  algn : Bool
  half : Bool
  low : BitVec 4
  bytes : List (BitVec 8)
deriving Repr, DecidableEq

namespace OverlapPairs

def start : OverlapPairs := ⟨false, false, 0, []⟩

def sfd (pairs : OverlapPairs) (nibble : BitVec 4) : Bool :=
  !pairs.algn && pairs.half && pairs.low == 0x5 && nibble == 0xD

def add (pairs : OverlapPairs) (nibble : BitVec 4) : OverlapPairs where
  algn := pairs.sfd nibble || pairs.algn
  half := !pairs.sfd nibble && !(pairs.algn && pairs.half)
  low := nibble
  bytes := if pairs.half then pairs.bytes ++ [nibble ++ pairs.low] else pairs.bytes

/-- The bytes that have been made stay. -/
theorem bytes_foldl (nibbles : List (BitVec 4)) (pairs : OverlapPairs) :
    ∃ more, (nibbles.foldl add pairs).bytes = pairs.bytes ++ more := by
  induction nibbles generalizing pairs with
  | nil => exact ⟨[], (List.append_nil _).symm⟩
  | cons nibble rest ih =>
      obtain ⟨more, hmore⟩ := ih (pairs.add nibble)
      rw [List.foldl_cons, hmore, add]
      dsimp only
      split
      · exact ⟨(nibble ++ pairs.low) :: more, by rw [List.append_assoc]; rfl⟩
      · exact ⟨more, rfl⟩

/-- Behind the SFD nibbles pair in twos. -/
theorem bytes_aligned : ∀ (nibbles : List (BitVec 4)) (low : BitVec 4)
    (bytes : List (BitVec 8)),
    (nibbles.foldl add ⟨true, false, low, bytes⟩).bytes = bytes ++ pairNibbles nibbles
  | [], _, bytes => (List.append_nil bytes).symm
  | [_], _, bytes => (List.append_nil bytes).symm
  | first :: second :: rest, low, bytes => by
      have htwo : (first :: second :: rest).foldl add ⟨true, false, low, bytes⟩ =
          rest.foldl add ⟨true, false, second, bytes ++ [second ++ first]⟩ := rfl
      rw [htwo, bytes_aligned rest, List.append_assoc]
      rfl

/-- Behind a nibble 5, in the preamble. -/
theorem frameOf_behind_five (nibbles : List (BitVec 4)) {bytes : List (BitVec 8)}
    (hpre : ∀ byte ∈ bytes, byte = 0x55) :
    frameOf (nibbles.foldl add ⟨false, true, 0x5, bytes⟩).bytes = afterPreamble nibbles := by
  induction nibbles generalizing bytes with
  | nil => exact frameOf_of_preamble hpre
  | cons nibble rest ih =>
      rw [List.foldl_cons, afterPreamble]
      split
      · rename_i hfive
        have hnext : add ⟨false, true, 0x5, bytes⟩ nibble =
            ⟨false, true, 0x5, bytes ++ [0x55]⟩ := by
          simp [hfive, add, sfd]
        rw [hnext]
        apply ih
        intro byte hbyte
        rcases List.mem_append.mp hbyte with hbyte | hbyte
        · exact hpre byte hbyte
        · exact List.mem_singleton.mp hbyte
      · rename_i hfive
        split
        · rename_i hsfd
          have hnext : add ⟨false, true, 0x5, bytes⟩ nibble =
              ⟨true, false, 0xD, bytes ++ [0xD5]⟩ := by
            simp [hsfd, add, sfd]
          rw [hnext, bytes_aligned, List.append_assoc, frameOf_preamble hpre]
          rfl
        · rename_i hsfd
          obtain ⟨more, hmore⟩ := bytes_foldl rest (add ⟨false, true, 0x5, bytes⟩ nibble)
          have hbytes : (add ⟨false, true, 0x5, bytes⟩ nibble).bytes =
              bytes ++ [nibble ++ (0x5 : BitVec 4)] := rfl
          rw [hmore, hbytes, List.append_assoc, frameOf_preamble hpre]
          exact frameOf_astray (fun hbyte => hfive (append_eq_preamble.mp hbyte).1)
            (fun hbyte => hsfd (append_eq_sfd.mp hbyte).1) more

/-- The first nibble of an envelope makes no byte yet. -/
theorem frameOf_overlap (nibbles : List (BitVec 4)) :
    frameOf (nibbles.foldl add start).bytes = nibbleFrame nibbles := by
  cases nibbles with
  | nil => rfl
  | cons first rest =>
      have hfirst : add start first = ⟨false, true, first, []⟩ := rfl
      rw [List.foldl_cons, nibbleFrame, hfirst]
      split
      · rename_i hfive
        rw [hfive]
        exact frameOf_behind_five rest fun byte hbyte => absurd hbyte List.not_mem_nil
      · rename_i hfive
        cases rest with
        | nil => rfl
        | cons second rest =>
            obtain ⟨more, hmore⟩ := bytes_foldl rest (add ⟨false, true, first, []⟩ second)
            have hbytes : (add ⟨false, true, first, []⟩ second).bytes = [second ++ first] := rfl
            rw [List.foldl_cons, hmore, hbytes]
            exact frameOf_astray (fun hbyte => hfive (append_eq_preamble.mp hbyte).2)
              (fun hbyte => hfive (append_eq_sfd.mp hbyte).2) more

end OverlapPairs

/-- The byte strobes that an envelope makes, in one of the two modes. -/
def strobes (rxNibble : Bool) (envelope : List PausePins) : List (BitVec 8) :=
  if rxNibble then ((envelope.map PausePins.nibble).foldl OverlapPairs.add .start).bytes
  else (envelope.filter PausePins.rxCe).map PausePins.rxD

/-- The bytes behind the SFD of an envelope, if it has one. -/
def pauseBody (rxNibble : Bool) (envelope : List PausePins) : Option (List (BitVec 8)) :=
  if rxNibble then nibbleFrame (envelope.map PausePins.nibble)
  else frameOf ((envelope.filter PausePins.rxCe).map PausePins.rxD)

theorem frameOf_strobes (rxNibble : Bool) (envelope : List PausePins) :
    frameOf (strobes rxNibble envelope) = pauseBody rxNibble envelope := by
  cases rxNibble with
  | false => rfl
  | true => exact OverlapPairs.frameOf_overlap _

end EmacZero
