/-
Frames between two stations: what the receiver accepts of an envelope that the
transmitter sends.
-/
import EmacZero.EthMacRxStream

namespace EmacZero

variable {params : EthMacRxParams}

/-- What a frame that is handed to a transmitter arrives as, if it is for the station at the
other end and not too long for it: padded. -/
def arrives (params : EthMacRxParams) (policy : RxPolicy) (data : List (BitVec 8)) :
    Option (List (BitVec 8)) :=
  let frame := padded data ++ fcsOf (padded data)
  if policy.admits (destination frame) && !overLimit params policy.jumbo frame then
    some (padded data)
  else none

theorem frameOf_wireFrame (data : List (BitVec 8)) :
    frameOf ((wireFrame data).map Prod.fst) = some (padded data ++ fcsOf (padded data)) := by
  have hbytes : (wireFrame data).map Prod.fst =
      List.replicate EthMacTx.preambleLen 0x55 ++ 0xD5 :: (padded data ++ fcsOf (padded data)) := by
    simp [wireFrame, errorFree, preambleBytes, Function.comp_def]
  rw [hbytes, frameOf_preamble fun byte hbyte => List.eq_of_mem_replicate hbyte]
  rfl

/-- The encoding of a frame is sound, and the frame arrives. -/
theorem soundFrame_wireFrame (policy : RxPolicy) (data : List (BitVec 8)) :
    soundFrame params policy (wireFrame data) = arrives params policy data := by
  have hlength : (padded data ++ fcsOf (padded data)).length = (padded data).length + 4 := by
    rw [List.length_append, length_fcsOf]
  have her : (wireFrame data).any Prod.snd = false := by
    rw [List.any_eq_false]
    intro beat hbeat
    obtain ⟨byte, -, rfl⟩ := List.mem_map.mp hbeat
    exact Bool.false_ne_true
  have hfcs : fcsOk (padded data ++ fcsOf (padded data)) = true := by
    rw [fcsOk, hlength, Nat.add_sub_cancel, List.take_left, List.drop_left, beq_self_eq_true]
  have hrunt : isRunt (padded data ++ fcsOf (padded data)) = false := by
    have hpadded := length_padded data
    simp only [isRunt, hlength, decide_eq_false_iff_not, EthMacTx.minFrame] at hpadded ⊢
    omega
  rw [soundFrame, frameOf_wireFrame, arrives]
  simp only [her, hfcs, hrunt, hlength, Nat.add_sub_cancel, List.take_left, Bool.not_false,
    Bool.true_and, Bool.and_true]

/-- Envelopes merged are frames merged. -/
theorem merge_map {α β : Type} (f : α → β) (order : List Bool) (first second : List α) :
    merge order (first.map f) (second.map f) = (merge order first second).map f := by
  induction order generalizing first second with
  | nil => rfl
  | cons chosen order ih =>
      cases chosen with
      | true => rw [merge, merge, ← List.map_take, ← List.map_drop, ih, List.map_append]
      | false => rw [merge, merge, ← List.map_take, ← List.map_drop, ih, List.map_append]

end EmacZero
