/-
The bytes that `mii_if` and `rgmii_if` make of an envelope of nibbles, each with its
error flag, against the frame that the envelope carries.
-/
import EmacZero.EthPauseRxBytes
import EmacZero.MiiIfRx

namespace EmacZero

/-- Nibbles in twos, the first D behind a 5 completing a byte wherever it comes; each byte
has the errors of its nibbles. -/
structure NibbleBytes where
  half : Bool
  low : BitVec 4
  erLow : Bool
  sfdSeen : Bool
  bytes : List RxByte
deriving Repr, DecidableEq

namespace NibbleBytes

def start : NibbleBytes := ⟨false, 0, false, false, []⟩

def sfd (pairs : NibbleBytes) (nibble : MiiRxIn) : Bool :=
  !pairs.sfdSeen && nibble.rxd == 0xD && pairs.low == 0x5

def whole (pairs : NibbleBytes) (nibble : MiiRxIn) : Bool := pairs.half || pairs.sfd nibble

def add (pairs : NibbleBytes) (nibble : MiiRxIn) : NibbleBytes where
  half := !pairs.whole nibble
  low := nibble.rxd
  erLow := nibble.er
  sfdSeen := pairs.sfd nibble || pairs.sfdSeen
  bytes :=
    if pairs.whole nibble then
      pairs.bytes ++ [(nibble.rxd ++ pairs.low, pairs.erLow || nibble.er)]
    else pairs.bytes

/-- The frame as it goes to the FIFO: its bytes, and the error of a nibble left over. -/
def commit (pairs : NibbleBytes) : List RxByte × Bool :=
  (pairs.bytes, pairs.half && pairs.erLow)

end NibbleBytes

def nibbleBytes (envelope : List MiiRxIn) : NibbleBytes := envelope.foldl .add .start

/-- What `eth_mac_rx` makes of a frame: the bytes behind its SFD, if it has one, and
whether any of its bytes carries an error. -/
def macVerdict (commit : List RxByte × Bool) : Option (List (BitVec 8) × Bool) :=
  (frameOf ((replay commit).map Prod.fst)).map fun body =>
    (body, (replay commit).any Prod.snd)

/-- What an envelope of nibbles carries: the bytes behind its SFD, if it has one, and
whether any of its nibbles carries an error. -/
def nibbleVerdict (envelope : List MiiRxIn) : Option (List (BitVec 8) × Bool) :=
  (nibbleFrame (envelope.map MiiRxIn.rxd)).map fun body =>
    (body, envelope.any MiiRxIn.er)

theorem nibbleBytes_concat (envelope : List MiiRxIn) (nibble : MiiRxIn) :
    nibbleBytes (envelope ++ [nibble]) = (nibbleBytes envelope).add nibble := by
  rw [nibbleBytes, List.foldl_concat]
  rfl

namespace NibbleBytes

theorem low_nibbleBytes (envelope : List MiiRxIn) :
    (nibbleBytes envelope).low = (envelope.getLast?.map MiiRxIn.rxd).getD 0 := by
  induction envelope using List.reverseRecOn with
  | nil => rfl
  | append_singleton envelope nibble ih =>
      rw [nibbleBytes_concat, List.getLast?_concat]
      rfl

/-- The SFD is found at the first D behind a 5. -/
theorem sfdSeen_iff (envelope : List MiiRxIn) :
    (nibbleBytes envelope).sfdSeen = true ↔ [0x5, 0xD] <:+: envelope.map MiiRxIn.rxd := by
  induction envelope using List.reverseRecOn with
  | nil => simp [nibbleBytes, start]
  | append_singleton envelope nibble ih =>
      have hsuffix : [0x5, 0xD] <:+ envelope.map MiiRxIn.rxd ++ [nibble.rxd] ↔
          (nibbleBytes envelope).low = 0x5 ∧ nibble.rxd = 0xD := by
        rw [low_nibbleBytes]
        rcases List.eq_nil_or_concat envelope with rfl | ⟨front, last, rfl⟩
        · simp [List.suffix_iff_eq_append]
        · rw [List.concat_eq_append, List.getLast?_concat, List.map_append, List.append_assoc]
          change [0x5, 0xD] <:+ front.map MiiRxIn.rxd ++ [last.rxd, nibble.rxd] ↔ _
          constructor
          · rintro ⟨rest, hrest⟩
            obtain ⟨-, htwo⟩ := List.append_inj' hrest rfl
            simp only [List.cons.injEq, and_true] at htwo
            exact ⟨htwo.1.symm, htwo.2.symm⟩
          · rintro ⟨hlow, hd⟩
            have hlow : last.rxd = 0x5 := hlow
            rw [hlow, hd]
            exact List.suffix_append _ _
      rw [nibbleBytes_concat, List.map_append, List.map_singleton, List.infix_concat_iff,
        hsuffix, ← ih, add, sfd]
      dsimp only
      cases (nibbleBytes envelope).sfdSeen <;> simp [and_comm]

/-- The bytes that have been made stay. -/
theorem bytes_foldl (nibbles : List MiiRxIn) (pairs : NibbleBytes) :
    ∃ more, (nibbles.foldl add pairs).bytes = pairs.bytes ++ more := by
  induction nibbles generalizing pairs with
  | nil => exact ⟨[], (List.append_nil _).symm⟩
  | cons nibble rest ih =>
      obtain ⟨more, hmore⟩ := ih (pairs.add nibble)
      rw [List.foldl_cons, hmore, add]
      dsimp only
      split
      · exact ⟨_ :: more, by rw [List.append_assoc]; rfl⟩
      · exact ⟨more, rfl⟩

/-- Behind the SFD nibbles pair in twos. -/
theorem bytes_aligned : ∀ (nibbles : List MiiRxIn) (low : BitVec 4) (erLow : Bool)
    (bytes : List RxByte),
    (nibbles.foldl add ⟨false, low, erLow, true, bytes⟩).bytes.map Prod.fst =
      bytes.map Prod.fst ++ pairNibbles (nibbles.map MiiRxIn.rxd)
  | [], _, _, bytes => (List.append_nil _).symm
  | [_], _, _, bytes => (List.append_nil _).symm
  | first :: second :: rest, low, erLow, bytes => by
      have htwo : (first :: second :: rest).foldl add ⟨false, low, erLow, true, bytes⟩ =
          rest.foldl add ⟨false, second.rxd, second.er, true,
            bytes ++ [(second.rxd ++ first.rxd, first.er || second.er)]⟩ := rfl
      rw [htwo, bytes_aligned rest, List.map_append, List.append_assoc]
      rfl

theorem map_preamble {pairs : NibbleBytes} (hpre : ∀ byte ∈ pairs.bytes, byte.1 = 0x55) :
    ∀ byte ∈ pairs.bytes.map Prod.fst, byte = 0x55 := by
  intro byte hbyte
  obtain ⟨pair, hpair, rfl⟩ := List.mem_map.mp hbyte
  exact hpre pair hpair

/-- A byte that is neither preamble nor SFD, and what follows. -/
theorem frameOf_behind_astray {pairs : NibbleBytes}
    (hpre : ∀ byte ∈ pairs.bytes, byte.1 = 0x55) {nibble : MiiRxIn}
    (hhalf : pairs.half = true) (hfive : ¬(nibble.rxd = 0x5 ∧ pairs.low = 0x5))
    (hsfd : ¬(nibble.rxd = 0xD ∧ pairs.low = 0x5)) (rest : List MiiRxIn) :
    frameOf ((rest.foldl add (pairs.add nibble)).bytes.map Prod.fst) = none := by
  obtain ⟨more, hmore⟩ := bytes_foldl rest (pairs.add nibble)
  have hwhole : pairs.whole nibble = true := by simp [whole, hhalf]
  rw [hmore, add, hwhole]
  dsimp only
  rw [if_pos rfl, List.append_assoc, List.map_append, frameOf_preamble (map_preamble hpre)]
  exact frameOf_astray (fun hbyte => hfive (append_eq_preamble.mp hbyte))
    (fun hbyte => hsfd (append_eq_sfd.mp hbyte)) _

/-- A low nibble other than 5 makes neither a preamble byte nor an SFD. -/
theorem frameOf_behind_other (nibbles : List MiiRxIn) {pairs : NibbleBytes}
    (hpre : ∀ byte ∈ pairs.bytes, byte.1 = 0x55) (hhalf : pairs.half = true)
    (hlow : pairs.low ≠ 0x5) :
    frameOf ((nibbles.foldl add pairs).bytes.map Prod.fst) = none := by
  cases nibbles with
  | nil => exact frameOf_of_preamble (map_preamble hpre)
  | cons nibble rest =>
      exact frameOf_behind_astray hpre hhalf (fun hfive => hlow hfive.2)
        (fun hsfd => hlow hsfd.2) rest

/-- Behind a nibble 5, in the preamble. -/
theorem frameOf_behind_five (nibbles : List MiiRxIn) {pairs : NibbleBytes}
    (hpre : ∀ byte ∈ pairs.bytes, byte.1 = 0x55) (hlow : pairs.low = 0x5)
    (hseen : pairs.sfdSeen = false) :
    frameOf ((nibbles.foldl add pairs).bytes.map Prod.fst) =
      afterPreamble (nibbles.map MiiRxIn.rxd) := by
  induction nibbles generalizing pairs with
  | nil => exact frameOf_of_preamble (map_preamble hpre)
  | cons nibble rest ih =>
      rw [List.foldl_cons, List.map_cons, afterPreamble]
      split
      · rename_i hfive
        have hsfd : pairs.sfd nibble = false := by simp [sfd, hfive]
        apply ih
        · intro byte hbyte
          simp only [add] at hbyte
          split at hbyte
          · rcases List.mem_append.mp hbyte with hbyte | hbyte
            · exact hpre byte hbyte
            · rw [List.mem_singleton.mp hbyte, hfive, hlow]
              rfl
          · exact hpre byte hbyte
        · exact hfive
        · simp [add, hsfd, hseen]
      · rename_i hfive
        split
        · rename_i hd
          have hsfd : pairs.sfd nibble = true := by simp [sfd, hseen, hd, hlow]
          have hadd : pairs.add nibble = ⟨false, nibble.rxd, nibble.er, true,
              pairs.bytes ++ [(nibble.rxd ++ pairs.low, pairs.erLow || nibble.er)]⟩ := by
            simp [add, whole, hsfd]
          rw [hadd, bytes_aligned, List.map_append, List.append_assoc,
            frameOf_preamble (map_preamble hpre), hd, hlow]
          rfl
        · rename_i hd
          cases hhalf : pairs.half with
          | true =>
              exact frameOf_behind_astray hpre hhalf (fun heq => hfive heq.1)
                (fun heq => hd heq.1) rest
          | false =>
              have hnot : (nibble.rxd == 0xD) = false := beq_eq_false_iff_ne.mpr hd
              have hwhole : pairs.whole nibble = false := by
                rw [whole, sfd, hhalf, hnot, Bool.and_false, Bool.false_and, Bool.or_false]
              apply frameOf_behind_other rest
              · simpa [add, hwhole] using hpre
              · simp [add, hwhole]
              · exact hfive

theorem frameOf_nibbleBytes (envelope : List MiiRxIn) :
    frameOf ((nibbleBytes envelope).bytes.map Prod.fst) =
      nibbleFrame (envelope.map MiiRxIn.rxd) := by
  cases envelope with
  | nil => rfl
  | cons first rest =>
      have hfirst : start.add first = ⟨true, first.rxd, first.er, false, []⟩ := by
        simp [start, add, whole, sfd]
      rw [nibbleBytes, List.foldl_cons, List.map_cons, nibbleFrame, hfirst]
      split
      · rename_i hfive
        exact frameOf_behind_five rest (by simp) hfive rfl
      · rename_i hfive
        exact frameOf_behind_other rest (by simp) rfl hfive

/-- The errors of the nibbles so far are in the bytes, or wait with a nibble left over. -/
theorem any_er (envelope : List MiiRxIn) :
    ((nibbleBytes envelope).bytes.any Prod.snd ||
        ((nibbleBytes envelope).half && (nibbleBytes envelope).erLow)) =
      envelope.any MiiRxIn.er ∧
    ((nibbleBytes envelope).half = false → (nibbleBytes envelope).erLow = true →
      (nibbleBytes envelope).bytes.any Prod.snd = true) := by
  induction envelope using List.reverseRecOn with
  | nil => exact ⟨rfl, fun _ hlow => by cases hlow⟩
  | append_singleton envelope nibble ih =>
      obtain ⟨hall, hkept⟩ := ih
      rw [nibbleBytes_concat, List.any_append, ← hall]
      generalize nibbleBytes envelope = pairs at hkept
      cases hwhole : pairs.whole nibble with
      | true =>
          have hbytes : (pairs.add nibble).bytes =
              pairs.bytes ++ [(nibble.rxd ++ pairs.low, pairs.erLow || nibble.er)] := by
            simp [add, hwhole]
          constructor
          · rw [hbytes, List.any_append]
            cases hhalf : pairs.half with
            | true => simp [add, hwhole, Bool.or_assoc]
            | false =>
                cases hlow : pairs.erLow with
                | false => simp [add, hwhole]
                | true => simp [add, hwhole, hkept hhalf hlow]
          · intro _ her
            have her : nibble.er = true := her
            simp [hbytes, her]
      | false =>
          have hhalf : pairs.half = false := by
            simp only [whole, Bool.or_eq_false_iff] at hwhole
            exact hwhole.1
          simp [add, hwhole, hhalf]

/-- What the receivers make of the words of an envelope is what it carries. -/
theorem macVerdict_commit (envelope : List MiiRxIn) :
    macVerdict (nibbleBytes envelope).commit = nibbleVerdict envelope := by
  rw [macVerdict, nibbleVerdict, replay, commit, map_fst_flagLast, frameOf_nibbleBytes]
  cases hframe : nibbleFrame (envelope.map MiiRxIn.rxd) with
  | none => rfl
  | some body =>
      have hne : (nibbleBytes envelope).bytes ≠ [] := by
        intro hnil
        rw [← frameOf_nibbleBytes, hnil] at hframe
        cases hframe
      rw [Option.map_some, Option.map_some, ← (any_er envelope).1]
      obtain ⟨front, last, hlast⟩ := (List.eq_nil_or_concat _).resolve_left hne
      rw [hlast, List.concat_eq_append, flagLast_concat]
      simp [List.any_append, Bool.or_assoc]

end NibbleBytes

end EmacZero
