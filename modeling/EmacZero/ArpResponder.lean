/-
`arp_responder`: the frames that it answers, and how its capture index bears on long ones.
-/
import EmacZero.ClockedRun
import EmacZero.FrameLog
import EmacZero.IpDatagram
import EmacZero.NetBytes

namespace EmacZero

/-- The inputs of `arp_responder` in one cycle. -/
structure ArpIn where
  enable : Bool
  rxTdata : BitVec 8
  rxTvalid : Bool
  rxTlast : Bool
  rxTerror : Bool
  rxTsof : Bool
  txTready : Bool
deriving Repr, DecidableEq, Inhabited

inductive ArpState where
  | rxIdle | rxCap | txSend | txWait
deriving Repr, DecidableEq

structure ArpResponder where
  cap : BitVec 6 → BitVec 8
  capIdx : BitVec 6
  reply : BitVec 6 → BitVec 8
  txIdx : BitVec 6
  state : ArpState
  txTvalid : Bool
  arpReplySent : Bool

namespace ArpResponder

def reset : ArpResponder := ⟨fun _ => 0, 0, fun _ => 0, 0, .rxIdle, false, false⟩

section Edge

variable (our : NetOur) (arp : ArpResponder) (i : ArpIn)

def txTdata : BitVec 8 := arp.reply arp.txIdx

def txTlast : Bool := arp.txTvalid && arp.txIdx == 41

def isArpRequest : Bool :=
  arp.cap 12 == 0x08 && arp.cap 13 == 0x06 && arp.cap 20 == 0x00 && arp.cap 21 == 0x01 &&
    arp.cap 38 == our.ip.extractLsb' 24 8 && arp.cap 39 == our.ip.extractLsb' 16 8 &&
    arp.cap 40 == our.ip.extractLsb' 8 8 && arp.cap 41 == our.ip.extractLsb' 0 8

/-- The assignments to `reply[0]` to `reply[41]`. -/
def replyNext : List (BitVec 8) :=
  [arp.cap 22, arp.cap 23, arp.cap 24, arp.cap 25, arp.cap 26, arp.cap 27,
    our.mac.extractLsb' 40 8, our.mac.extractLsb' 32 8, our.mac.extractLsb' 24 8,
    our.mac.extractLsb' 16 8, our.mac.extractLsb' 8 8, our.mac.extractLsb' 0 8,
    0x08, 0x06, 0x00, 0x01, 0x08, 0x00, 0x06, 0x04, 0x00, 0x02,
    our.mac.extractLsb' 40 8, our.mac.extractLsb' 32 8, our.mac.extractLsb' 24 8,
    our.mac.extractLsb' 16 8, our.mac.extractLsb' 8 8, our.mac.extractLsb' 0 8,
    our.ip.extractLsb' 24 8, our.ip.extractLsb' 16 8, our.ip.extractLsb' 8 8,
    our.ip.extractLsb' 0 8,
    arp.cap 22, arp.cap 23, arp.cap 24, arp.cap 25, arp.cap 26, arp.cap 27,
    arp.cap 28, arp.cap 29, arp.cap 30, arp.cap 31]

/-- A rising edge of `clk`. -/
def clkEdge : ArpResponder :=
  match arp.state with
  | .rxIdle =>
      let next := { arp with txTvalid := false }
      if i.enable && i.rxTvalid && i.rxTsof then
        { next with
          cap := Function.update arp.cap 0 i.rxTdata
          capIdx := 1
          state := .rxCap }
      else next
  | .rxCap =>
      if i.rxTvalid then
        { arp with
          cap := if arp.capIdx < 42 then Function.update arp.cap arp.capIdx i.rxTdata
            else arp.cap
          capIdx := arp.capIdx + 1
          state :=
            if i.rxTlast then if !i.rxTerror && 41 ≤ arp.capIdx then .txWait else .rxIdle
            else .rxCap }
      else arp
  | .txWait =>
      if arp.isArpRequest our then
        { arp with
          reply := fun idx => (arp.replyNext our).getD idx.toNat 0
          txIdx := 0
          state := .txSend }
      else { arp with state := .rxIdle }
  | .txSend =>
      let next := { arp with txTvalid := true }
      if i.txTready && arp.txTvalid then
        if arp.txIdx = 41 then
          { next with txTvalid := false, arpReplySent := true, state := .rxIdle }
        else { next with txIdx := arp.txIdx + 1 }
      else next

end Edge

end ArpResponder

/-! The answer to a frame. -/

/-- The first 42 bytes are an ARP request for us. -/
def arpRequest (our : NetOur) (frame : List (BitVec 8)) : Bool :=
  wordAt frame 12 == 0x0806 && wordAt frame 20 == 1 && slice frame 38 42 == ipBytes our.ip

/-- The reply to the sender of a request. -/
def arpReply (our : NetOur) (frame : List (BitVec 8)) : List (BitVec 8) :=
  slice frame 22 28 ++ macBytes our.mac ++ [0x08, 0x06, 0x00, 0x01, 0x08, 0x00, 0x06, 0x04] ++
    [0x00, 0x02] ++ macBytes our.mac ++ ipBytes our.ip ++ slice frame 22 28 ++
    slice frame 28 32

def arpAnswer (our : NetOur) (frame : List (BitVec 8)) : Option (List (BitVec 8)) :=
  if 42 ≤ frame.length ∧ arpRequest our frame = true then some (arpReply our frame) else none

/-- What of a frame has come since the capture index was last 0. -/
def arpWindow (frame : List (BitVec 8)) : List (BitVec 8) :=
  frame.drop (64 * ((frame.length - 1) / 64))

/-- The responder, the frame that is arriving and whether it began while the responder was
idle and enabled, the replies that are owed and those that are out. -/
structure ArpBench where
  arp : ArpResponder
  current : List (BitVec 8)
  taken : Bool
  replies : List (List (BitVec 8))
  sent : FrameLog (BitVec 8)

namespace ArpBench

def start : ArpBench := ⟨.reset, [], false, [], .empty⟩

section Step

variable (our : NetOur) (bench : ArpBench) (i : ArpIn)

/-- `rx_tsof` marks a frame's first byte. -/
def drive : ArpIn := { i with rxTsof := bench.current.isEmpty }

def takenNow : Bool :=
  if bench.current.isEmpty then bench.arp.state == .rxIdle && i.enable else bench.taken

def arrived : List (BitVec 8) := bench.current ++ [i.rxTdata]

/-- The last byte of a frame that is to be judged. -/
def judges : Bool := i.rxTvalid && i.rxTlast && bench.takenNow i

def step : ArpBench where
  arp := bench.arp.clkEdge our (bench.drive i)
  current :=
    if i.rxTvalid then if i.rxTlast then [] else bench.arrived i else bench.current
  taken := if i.rxTvalid then bench.takenNow i else bench.taken
  replies :=
    if bench.judges i && !i.rxTerror then
      bench.replies ++ (arpAnswer our (bench.arrived i)).toList
    else bench.replies
  sent :=
    if bench.arp.txTvalid && i.txTready then
      bench.sent.add bench.arp.txTdata bench.arp.txTlast
    else bench.sent

/-- A frame that is judged has a second byte, and its last window is answered as the
frame itself. -/
def Judgeable : Prop :=
  bench.judges i = true →
    bench.current ≠ [] ∧
      (i.rxTerror = false →
        arpAnswer our (arpWindow (bench.arrived i)) = arpAnswer our (bench.arrived i))

instance : Decidable (bench.Judgeable our i) := inferInstanceAs (Decidable (_ → _))

end Step

end ArpBench

/-! The captured window. -/

/-- The bytes that have come since the capture index was last 0. -/
def capWindow (bytes : List (BitVec 8)) : List (BitVec 8) :=
  bytes.drop (64 * (bytes.length / 64))

/-- The first 42 of them are in the buffer. -/
def Captures (cap : BitVec 6 → BitVec 8) (window : List (BitVec 8)) : Prop :=
  ∀ index < window.length, index < 42 → cap (.ofNat 6 index) = byteAt window index

theorem length_capWindow (bytes : List (BitVec 8)) :
    (capWindow bytes).length = bytes.length % 64 := by
  rw [capWindow, List.length_drop]
  omega

theorem arpWindow_concat (bytes : List (BitVec 8)) (data : BitVec 8) :
    arpWindow (bytes ++ [data]) = capWindow bytes ++ [data] := by
  rw [arpWindow, List.length_append, List.length_singleton, Nat.add_sub_cancel,
    List.drop_append_of_le_length (by omega)]
  rfl

theorem capWindow_concat (bytes : List (BitVec 8)) (data : BitVec 8) :
    capWindow (bytes ++ [data]) =
      if bytes.length % 64 = 63 then [] else capWindow bytes ++ [data] := by
  have hlonger : (bytes ++ [data]).length = bytes.length + 1 := List.length_append
  split
  · apply List.eq_nil_of_length_eq_zero
    rw [length_capWindow]
    omega
  · have hsame : (bytes ++ [data]).length / 64 = bytes.length / 64 := by omega
    rw [capWindow, hsame, List.drop_append_of_le_length (by omega)]
    rfl

/-- One more byte, stored at the index if that is within the buffer. -/
theorem Captures.concat {cap : BitVec 6 → BitVec 8} {window : List (BitVec 8)}
    (hcaptures : Captures cap window) {idx : BitVec 6} (hidx : idx.toNat = window.length)
    (data : BitVec 8) :
    Captures (if idx < 42 then Function.update cap idx data else cap) (window ++ [data]) := by
  intro index hindex hin
  have hlt := idx.isLt
  rw [List.length_append, List.length_singleton] at hindex
  rw [byteAt_concat]
  by_cases hsame : index = window.length
  · have hat : BitVec.ofNat 6 index = idx := by
      rw [hsame, ← hidx, BitVec.ofNat_toNat, BitVec.setWidth_eq]
    have hbuffer : idx < 42 := by
      rw [BitVec.lt_def, hidx, ← hsame]
      exact hin
    rw [if_pos hsame, if_pos hbuffer, hat, Function.update_self]
  · have hother : BitVec.ofNat 6 index ≠ idx := by
      intro heq
      have htoNat := congrArg BitVec.toNat heq
      rw [BitVec.toNat_ofNat, hidx] at htoNat
      omega
    rw [if_neg hsame]
    have hkept := hcaptures index (by omega) hin
    split
    · rw [Function.update_of_ne hother]
      exact hkept
    · exact hkept

theorem Captures.nil (cap : BitVec 6 → BitVec 8) : Captures cap [] :=
  fun _ hindex => absurd hindex (Nat.not_lt_zero _)

theorem slice_eq_map {frame : List (BitVec 8)} {start stop : Nat} (hstop : stop ≤ frame.length) :
    slice frame start stop = (List.range' start (stop - start)).map (byteAt frame) := by
  apply List.ext_getElem
  · rw [length_slice, List.length_map, List.length_range', Nat.min_eq_left hstop]
  · intro index hleft hright
    rw [length_slice] at hleft
    simp only [slice, List.getElem_map, List.getElem_range', List.getElem_drop,
      List.getElem_take, Nat.one_mul]
    exact (List.getD_eq_getElem _ _ (by omega)).symm

section Answer

variable {our : NetOur} {arp : ArpResponder} {window : List (BitVec 8)}

/-- The buffer is tested as the window. -/
theorem isArpRequest_eq (hcaptures : Captures arp.cap window) (hlong : 42 ≤ window.length) :
    arp.isArpRequest our = arpRequest our window := by
  have hcap : ∀ index < 42, arp.cap (.ofNat 6 index) = byteAt window index :=
    fun index hin => hcaptures index (hin.trans_le hlong) hin
  have htarget : slice window 38 42 =
      [byteAt window 38, byteAt window 39, byteAt window 40, byteAt window 41] :=
    slice_eq_map hlong
  have htype := append_beq (byteAt window 12) (byteAt window 13) 0x08 0x06
  have hopcode := append_beq (byteAt window 20) (byteAt window 21) 0x00 0x01
  have hdecode : arpRequest our window =
      (([byteAt window 12, byteAt window 13] == [0x08, 0x06]) &&
        ([byteAt window 20, byteAt window 21] == [0x00, 0x01]) &&
          ([byteAt window 38, byteAt window 39, byteAt window 40, byteAt window 41] ==
            ipBytes our.ip)) := by
    rw [← htype, ← hopcode, ← htarget]
    rfl
  have h12 : arp.cap 12 = byteAt window 12 := hcap 12 (by decide)
  have h13 : arp.cap 13 = byteAt window 13 := hcap 13 (by decide)
  have h20 : arp.cap 20 = byteAt window 20 := hcap 20 (by decide)
  have h21 : arp.cap 21 = byteAt window 21 := hcap 21 (by decide)
  have h38 : arp.cap 38 = byteAt window 38 := hcap 38 (by decide)
  have h39 : arp.cap 39 = byteAt window 39 := hcap 39 (by decide)
  have h40 : arp.cap 40 = byteAt window 40 := hcap 40 (by decide)
  have h41 : arp.cap 41 = byteAt window 41 := hcap 41 (by decide)
  rw [hdecode, ArpResponder.isArpRequest, h12, h13, h20, h21, h38, h39, h40, h41]
  simp only [ipBytes, List.cons_beq_cons, beq_self_eq_true,
    Bool.and_true, Bool.and_assoc]

/-- The reply is built from the window. -/
theorem replyNext_eq (hcaptures : Captures arp.cap window) (hlong : 42 ≤ window.length) :
    arp.replyNext our = arpReply our window := by
  have hcap : ∀ index < 42, arp.cap (.ofNat 6 index) = byteAt window index :=
    fun index hin => hcaptures index (hin.trans_le hlong) hin
  have hmac : slice window 22 28 = [arp.cap 22, arp.cap 23, arp.cap 24, arp.cap 25, arp.cap 26,
      arp.cap 27] := by
    rw [slice_eq_map (by omega)]
    change [byteAt window 22, byteAt window 23, byteAt window 24, byteAt window 25,
      byteAt window 26, byteAt window 27] = _
    rw [← hcap 22 (by decide), ← hcap 23 (by decide), ← hcap 24 (by decide),
      ← hcap 25 (by decide), ← hcap 26 (by decide), ← hcap 27 (by decide)]
    rfl
  have hip : slice window 28 32 = [arp.cap 28, arp.cap 29, arp.cap 30, arp.cap 31] := by
    rw [slice_eq_map (by omega)]
    change [byteAt window 28, byteAt window 29, byteAt window 30, byteAt window 31] = _
    rw [← hcap 28 (by decide), ← hcap 29 (by decide), ← hcap 30 (by decide),
      ← hcap 31 (by decide)]
    rfl
  rw [arpReply, hmac, hip]
  rfl

theorem length_arpReply (hlong : 42 ≤ window.length) : (arpReply our window).length = 42 := by
  rw [arpReply]
  simp only [List.length_append, length_slice]
  rw [Nat.min_eq_left (by omega), Nat.min_eq_left (by omega)]
  rfl

end Answer

/-! Where the responder stands. -/

/-- The responder behind the bytes so far, by its state. -/
inductive ArpAt (our : NetOur) (bench : ArpBench) : Prop where
  | idle (hstate : bench.arp.state = .rxIdle) (hvalid : bench.arp.txTvalid = false)
      (htaken : bench.current ≠ [] → bench.taken = false)
      (hsent : bench.sent = ⟨bench.replies, []⟩)
  | cap (hstate : bench.arp.state = .rxCap) (hvalid : bench.arp.txTvalid = false)
      (htaken : bench.taken = true) (hcurrent : bench.current ≠ [])
      (hidx : bench.arp.capIdx.toNat = bench.current.length % 64)
      (hcap : Captures bench.arp.cap (capWindow bench.current))
      (hsent : bench.sent = ⟨bench.replies, []⟩)
  | wait (window : List (BitVec 8)) (hstate : bench.arp.state = .txWait)
      (hvalid : bench.arp.txTvalid = false)
      (htaken : bench.current ≠ [] → bench.taken = false)
      (hlong : 42 ≤ window.length) (hcap : Captures bench.arp.cap window)
      (hreplies : bench.replies = bench.sent.whole ++ (arpAnswer our window).toList)
      (hsent : bench.sent.part = [])
  | send (reply : List (BitVec 8)) (hstate : bench.arp.state = .txSend)
      (htaken : bench.current ≠ [] → bench.taken = false)
      (hlength : reply.length = 42) (hidx : bench.arp.txIdx.toNat < 42)
      (hreply : ∀ idx : BitVec 6, bench.arp.reply idx = reply.getD idx.toNat 0)
      (hreplies : bench.replies = bench.sent.whole ++ [reply])
      (hsent : bench.sent.part = reply.take bench.arp.txIdx.toNat)

namespace ArpBench

variable {our : NetOur} {bench : ArpBench} {i : ArpIn}

theorem arpAt_start (our : NetOur) : ArpAt our start :=
  .idle rfl rfl (fun hne => absurd rfl hne) rfl

/-- Handshakes that are left until a reply is out, with those spent on the way to it. -/
def left (bench : ArpBench) : Nat :=
  match bench.arp.state with
  | .txWait => 44
  | .txSend => if bench.arp.txTvalid then 42 - bench.arp.txIdx.toNat else 43
  | _ => 0

theorem left_le (bench : ArpBench) : bench.left ≤ 44 := by
  rw [left]
  split
  · exact Nat.le_refl _
  · split <;> omega
  · exact Nat.zero_le _

/-- A reply is out, or it is nearer by a cycle in which the receiver was ready. -/
def Nears (bench next : ArpBench) (ready : Bool) : Prop :=
  bench.sent.whole.length < next.sent.whole.length ∨
    next.sent.whole = bench.sent.whole ∧ next.left + ready.toNat ≤ bench.left

/-- A frame that did not begin while the responder was idle is not judged. -/
theorem quiet_of_busy (hbusy : bench.arp.state ≠ .rxIdle)
    (htaken : bench.current ≠ [] → bench.taken = false) :
    bench.takenNow i = false ∧ ((bench.step our i).current ≠ [] →
      (bench.step our i).taken = false) ∧ (bench.step our i).replies = bench.replies := by
  have hnow : bench.takenNow i = false := by
    rw [takenNow]
    cases hcurrent : bench.current with
    | nil => rw [beq_eq_false_iff_ne.mpr hbusy]; rfl
    | cons first rest => exact htaken (by rw [hcurrent]; exact List.cons_ne_nil _ _)
  refine ⟨hnow, ?_, ?_⟩
  · simp only [step, hnow]
    cases i.rxTvalid with
    | false => exact htaken
    | true => exact fun _ => rfl
  · simp only [step, judges, hnow, Bool.and_false, Bool.false_and, Bool.false_eq_true, if_false]

theorem sent_quiet (hvalid : bench.arp.txTvalid = false) :
    (bench.step our i).sent = bench.sent := by
  simp only [step, hvalid, Bool.false_and, Bool.false_eq_true, if_false]

/-- In `RX_IDLE` only a frame's first byte is looked at. -/
theorem idle_edge (hstate : bench.arp.state = .rxIdle)
    (htaken : bench.current ≠ [] → bench.taken = false) :
    (bench.step our i).arp =
      if i.rxTvalid && bench.takenNow i then
        { bench.arp with
          txTvalid := false
          cap := Function.update bench.arp.cap 0 i.rxTdata
          capIdx := 1
          state := .rxCap }
      else { bench.arp with txTvalid := false } := by
  have hopens : (i.enable && i.rxTvalid && bench.current.isEmpty) =
      (i.rxTvalid && bench.takenNow i) := by
    rw [takenNow, hstate]
    cases hcurrent : bench.current with
    | nil => exact (Bool.and_true _).trans (Bool.and_comm _ _)
    | cons first rest =>
        rw [htaken (by rw [hcurrent]; exact List.cons_ne_nil _ _)]
        exact (Bool.and_false _).trans (Bool.and_false _).symm
  rw [← hopens]
  simp only [step, ArpResponder.clkEdge, hstate, drive]

/-- In `RX_IDLE` a frame's first byte opens a capture. -/
theorem idle_step (hstate : bench.arp.state = .rxIdle) (hvalid : bench.arp.txTvalid = false)
    (htaken : bench.current ≠ [] → bench.taken = false)
    (hsent : bench.sent = ⟨bench.replies, []⟩) (hjudge : bench.Judgeable our i) :
    ArpAt our (bench.step our i) := by
  have hsent' : (bench.step our i).sent = bench.sent := sent_quiet hvalid
  have hedge := @idle_edge our bench i hstate htaken
  cases hnow : bench.takenNow i with
  | false =>
      have harp : (bench.step our i).arp = { bench.arp with txTvalid := false } := by
        rw [hedge, hnow, Bool.and_false]
        rfl
      have hreplies : (bench.step our i).replies = bench.replies := by
        simp only [step, judges, hnow, Bool.and_false, Bool.false_and, Bool.false_eq_true,
          if_false]
      refine .idle (by rw [harp]; exact hstate) (by rw [harp]) ?_
        (by rw [hsent', hreplies]; exact hsent)
      simp only [step, hnow]
      cases i.rxTvalid with
      | false => exact htaken
      | true => exact fun _ => rfl
  | true =>
      have hcurrent : bench.current = [] := by
        by_contra hne
        rw [takenNow, List.isEmpty_eq_false_iff.mpr hne, if_neg Bool.false_ne_true,
          htaken hne] at hnow
        exact nomatch hnow
      cases hbyte : i.rxTvalid with
      | false =>
          have harp : (bench.step our i).arp = { bench.arp with txTvalid := false } := by
            rw [hedge, hbyte]
            rfl
          have hsame : (bench.step our i).current = bench.current ∧
              (bench.step our i).taken = bench.taken ∧
              (bench.step our i).replies = bench.replies := by
            simp only [step, judges, hbyte, Bool.false_and, Bool.false_eq_true, if_false,
              and_self]
          obtain ⟨hsame, htakenSame, hreplies⟩ := hsame
          refine .idle (by rw [harp]; exact hstate) (by rw [harp]) ?_
            (by rw [hsent', hreplies]; exact hsent)
          rw [hsame, htakenSame]
          exact htaken
      | true =>
          have hmore : i.rxTlast = false := by
            by_contra hlast
            have hjudges : bench.judges i = true := by
              rw [judges, hbyte, hnow, Bool.eq_true_of_not_eq_false hlast]
              rfl
            exact (hjudge hjudges).1 hcurrent
          have harp : (bench.step our i).arp = { bench.arp with
              txTvalid := false
              cap := Function.update bench.arp.cap 0 i.rxTdata
              capIdx := 1
              state := .rxCap } := by
            rw [hedge, hbyte, hnow]
            rfl
          have hnext : (bench.step our i).current = [i.rxTdata] ∧
              (bench.step our i).taken = true ∧
              (bench.step our i).replies = bench.replies := by
            simp only [step, judges, arrived, hbyte, hmore, hnow, hcurrent, Bool.and_false,
              Bool.false_and, Bool.false_eq_true, if_false, if_true, List.nil_append, and_self]
          obtain ⟨hnextCurrent, hnextTaken, hreplies⟩ := hnext
          refine .cap (by rw [harp]) (by rw [harp]) hnextTaken
            (by rw [hnextCurrent]; exact List.cons_ne_nil _ _) (by rw [harp, hnextCurrent]; rfl)
            ?_ (by rw [hsent', hreplies]; exact hsent)
          have hfirst := (Captures.nil bench.arp.cap).concat
            (show (0 : BitVec 6).toNat = ([] : List (BitVec 8)).length from rfl) i.rxTdata
          rw [if_pos (by decide)] at hfirst
          have hwindow : capWindow [i.rxTdata] = [] ++ [i.rxTdata] := by simp [capWindow]
          rw [harp, hnextCurrent, hwindow]
          exact hfirst

/-- In `RX_CAP` a byte is stored, and the last one is judged. -/
theorem cap_step (hstate : bench.arp.state = .rxCap) (hvalid : bench.arp.txTvalid = false)
    (htaken : bench.taken = true) (hcurrent : bench.current ≠ [])
    (hidx : bench.arp.capIdx.toNat = bench.current.length % 64)
    (hcap : Captures bench.arp.cap (capWindow bench.current))
    (hsent : bench.sent = ⟨bench.replies, []⟩) (hjudge : bench.Judgeable our i) :
    ArpAt our (bench.step our i) := by
  have hsent' : (bench.step our i).sent = bench.sent := sent_quiet hvalid
  have hnow : bench.takenNow i = true := by
    rw [takenNow, List.isEmpty_eq_false_iff.mpr hcurrent]
    exact htaken
  have hwindow := length_capWindow bench.current
  have hstore := hcap.concat (hidx.trans hwindow.symm) i.rxTdata
  cases hbyte : i.rxTvalid with
  | false =>
      have hsame : (bench.step our i).arp = bench.arp ∧
          (bench.step our i).current = bench.current ∧
          (bench.step our i).taken = bench.taken ∧
          (bench.step our i).replies = bench.replies := by
        simp only [step, ArpResponder.clkEdge, hstate, drive, judges, hbyte, Bool.false_and,
          Bool.false_eq_true, if_false, and_self]
      obtain ⟨harp, hsame, htakenSame, hreplies⟩ := hsame
      exact .cap (by rw [harp]; exact hstate) (by rw [harp]; exact hvalid)
        (htakenSame.trans htaken) (by rwa [hsame]) (by rw [harp, hsame]; exact hidx)
        (by rw [harp, hsame]; exact hcap) (by rw [hsent', hreplies]; exact hsent)
  | true =>
      have harp : (bench.step our i).arp = { bench.arp with
          cap := if bench.arp.capIdx < 42 then
              Function.update bench.arp.cap bench.arp.capIdx i.rxTdata
            else bench.arp.cap
          capIdx := bench.arp.capIdx + 1
          state :=
            if i.rxTlast then
              if !i.rxTerror && 41 ≤ bench.arp.capIdx then .txWait else .rxIdle
            else .rxCap } := by
        simp only [step, ArpResponder.clkEdge, hstate, drive, hbyte, if_true]
      cases hlast : i.rxTlast with
      | false =>
          have hnext : (bench.step our i).current = bench.current ++ [i.rxTdata] ∧
              (bench.step our i).taken = true ∧
              (bench.step our i).replies = bench.replies := by
            simp only [step, judges, arrived, hbyte, hlast, hnow, Bool.and_false,
              Bool.false_and, Bool.false_eq_true, if_false, if_true, and_self]
          obtain ⟨hnextCurrent, hnextTaken, hreplies⟩ := hnext
          refine .cap (by rw [harp, hlast]; rfl) (by rw [harp]; exact hvalid) hnextTaken
            (by rw [hnextCurrent]; exact List.concat_ne_nil _ _) ?_ ?_
            (by rw [hsent', hreplies]; exact hsent)
          · rw [harp, hnextCurrent, List.length_append, List.length_singleton]
            change (bench.arp.capIdx.toNat + 1) % 64 = _
            omega
          · rw [harp, hnextCurrent, capWindow_concat]
            by_cases hround : bench.current.length % 64 = 63
            · rw [if_pos hround]
              exact Captures.nil _
            · rw [if_neg hround]
              exact hstore
      | true =>
          have hjudges : bench.judges i = true := by
            rw [judges, hbyte, hlast, hnow]
            rfl
          have hquiet : (bench.step our i).current = [] := by
            simp only [step, hbyte, hlast, if_true]
          have hreplies : (bench.step our i).replies =
              if i.rxTerror then bench.replies
              else bench.replies ++ (arpAnswer our (bench.arrived i)).toList := by
            simp only [step, hjudges, Bool.true_and]
            cases i.rxTerror <;> rfl
          have hend : (bench.step our i).current ≠ [] → (bench.step our i).taken = false :=
            fun hne => absurd hquiet hne
          cases herror : i.rxTerror with
          | true =>
              rw [herror, if_pos rfl] at hreplies
              exact .idle (by rw [harp, hlast, herror]; rfl) (by rw [harp]; exact hvalid) hend
                (by rw [hsent', hreplies]; exact hsent)
          | false =>
              rw [herror, if_neg Bool.false_ne_true, ← (hjudge hjudges).2 herror,
                arrived, arpWindow_concat] at hreplies
              have hlonger : (capWindow bench.current ++ [i.rxTdata]).length =
                  bench.current.length % 64 + 1 := by
                rw [List.length_append, hwindow]
                rfl
              have hwhole : 41 ≤ bench.arp.capIdx ↔
                  42 ≤ (capWindow bench.current ++ [i.rxTdata]).length := by
                rw [BitVec.le_def, hidx, hlonger]
                exact Nat.succ_le_succ_iff.symm
              by_cases hlong : 42 ≤ (capWindow bench.current ++ [i.rxTdata]).length
              · refine .wait _ ?_ (by rw [harp]; exact hvalid) hend hlong
                  (by rw [harp]; exact hstore) (by rw [hsent', hreplies, hsent])
                  (by rw [hsent', hsent])
                rw [harp, hlast, herror]
                simp only [Bool.not_false, Bool.true_and, hwhole.mpr hlong, decide_true, if_true]
              · have hnone : arpAnswer our (capWindow bench.current ++ [i.rxTdata]) = none :=
                  if_neg fun hboth => hlong hboth.1
                rw [hnone, Option.toList_none, List.append_nil] at hreplies
                refine .idle ?_ (by rw [harp]; exact hvalid) hend
                  (by rw [hsent', hreplies]; exact hsent)
                rw [harp, hlast, herror]
                simp only [Bool.not_false, Bool.true_and, mt hwhole.mp hlong, decide_false,
                  if_true, Bool.false_eq_true, if_false]

/-- In `TX_WAIT` a request gets its reply. -/
theorem wait_step {window : List (BitVec 8)} (hstate : bench.arp.state = .txWait)
    (hvalid : bench.arp.txTvalid = false) (htaken : bench.current ≠ [] → bench.taken = false)
    (hlong : 42 ≤ window.length) (hcap : Captures bench.arp.cap window)
    (hreplies : bench.replies = bench.sent.whole ++ (arpAnswer our window).toList)
    (hsent : bench.sent.part = []) :
    ArpAt our (bench.step our i) ∧ Nears bench (bench.step our i) i.txTready := by
  have hbusy : bench.arp.state ≠ .rxIdle := by
    rw [hstate]
    exact fun heq => nomatch heq
  obtain ⟨-, hend, hsame⟩ := @quiet_of_busy our bench i hbusy htaken
  have hsent' : (bench.step our i).sent = bench.sent := sent_quiet hvalid
  have harp : (bench.step our i).arp =
      if bench.arp.isArpRequest our then
        { bench.arp with
          reply := fun idx => (bench.arp.replyNext our).getD idx.toNat 0
          txIdx := 0
          state := .txSend }
      else { bench.arp with state := .rxIdle } := by
    simp only [step, ArpResponder.clkEdge, hstate]
  rw [isArpRequest_eq hcap hlong] at harp
  cases hrequest : arpRequest our window with
  | false =>
      have hnone : arpAnswer our window = none := if_neg fun hboth => by
        rw [hrequest] at hboth
        exact nomatch hboth.2
      rw [hnone, Option.toList_none, List.append_nil] at hreplies
      rw [hrequest, if_neg Bool.false_ne_true] at harp
      refine ⟨.idle (by rw [harp]) (by rw [harp]; exact hvalid) hend ?_,
        .inr ⟨congrArg FrameLog.whole hsent', ?_⟩⟩
      · rw [hsent', hsame, hreplies, ← hsent]
      · simp only [left, harp, hstate]
        exact (Nat.zero_add _).trans_le (i.txTready.toNat_le.trans (by decide))
  | true =>
      have hsome : arpAnswer our window = some (arpReply our window) := if_pos ⟨hlong, hrequest⟩
      rw [hsome, Option.toList_some] at hreplies
      rw [hrequest, if_pos rfl, replyNext_eq hcap hlong] at harp
      refine ⟨.send (arpReply our window) (by rw [harp]) hend (length_arpReply hlong)
          (by rw [harp]; exact Nat.zero_lt_succ 41) (by rw [harp]; exact fun _ => rfl)
          (by rw [hsent', hsame, hreplies]) (by rw [hsent', harp, hsent]; rfl),
        .inr ⟨congrArg FrameLog.whole hsent', ?_⟩⟩
      simp only [left, harp, hstate, hvalid, Bool.false_eq_true, if_false]
      exact Nat.add_le_add_left i.txTready.toNat_le 43

/-- In `TX_SEND` a byte goes with each handshake. -/
theorem send_step {reply : List (BitVec 8)} (hstate : bench.arp.state = .txSend)
    (htaken : bench.current ≠ [] → bench.taken = false) (hlength : reply.length = 42)
    (hidx : bench.arp.txIdx.toNat < 42)
    (hreply : ∀ idx : BitVec 6, bench.arp.reply idx = reply.getD idx.toNat 0)
    (hreplies : bench.replies = bench.sent.whole ++ [reply])
    (hsent : bench.sent.part = reply.take bench.arp.txIdx.toNat) :
    ArpAt our (bench.step our i) ∧ Nears bench (bench.step our i) i.txTready := by
  have hbusy : bench.arp.state ≠ .rxIdle := by
    rw [hstate]
    exact fun heq => nomatch heq
  obtain ⟨-, hend, hsame⟩ := @quiet_of_busy our bench i hbusy htaken
  cases hshake : i.txTready && bench.arp.txTvalid with
  | false =>
      have harp : (bench.step our i).arp = { bench.arp with txTvalid := true } := by
        simp only [step, ArpResponder.clkEdge, hstate, drive, hshake, Bool.false_eq_true,
          if_false]
      have hsent' : (bench.step our i).sent = bench.sent := by
        rw [Bool.and_comm] at hshake
        simp only [step, hshake, Bool.false_eq_true, if_false]
      refine ⟨.send reply (by rw [harp]; exact hstate) hend hlength (by rw [harp]; exact hidx)
          (by rw [harp]; exact hreply) (by rw [hsent', hsame, hreplies])
          (by rw [hsent', harp, hsent]),
        .inr ⟨congrArg FrameLog.whole hsent', ?_⟩⟩
      simp only [left, harp, hstate, if_true]
      cases htvalid : bench.arp.txTvalid with
      | false =>
          have hone := i.txTready.toNat_le
          simp only [Bool.false_eq_true, if_false]
          omega
      | true =>
          rw [htvalid, Bool.and_true] at hshake
          rw [hshake]
          exact Nat.le_refl _
  | true =>
      have htvalid : bench.arp.txTvalid = true := (Bool.and_eq_true_iff.mp hshake).2
      have hready : i.txTready = true := (Bool.and_eq_true_iff.mp hshake).1
      have hbyte : bench.sent.part ++ [bench.arp.txTdata] =
          reply.take (bench.arp.txIdx.toNat + 1) := by
        rw [hsent, ArpResponder.txTdata, hreply, List.getD_eq_getElem _ _ (by omega)]
        exact List.take_append_getElem (by omega)
      have hlast : bench.arp.txTlast = (bench.arp.txIdx == 41) := by
        rw [ArpResponder.txTlast, htvalid, Bool.true_and]
      have hsent' : (bench.step our i).sent =
          bench.sent.add bench.arp.txTdata (bench.arp.txIdx == 41) := by
        simp only [step, htvalid, hready, hlast, Bool.and_self, if_true]
      by_cases hover : bench.arp.txIdx = 41
      · have harp : (bench.step our i).arp =
            { bench.arp with txTvalid := false, arpReplySent := true, state := .rxIdle } := by
          simp only [step, ArpResponder.clkEdge, hstate, drive, hshake, if_true, if_pos hover]
        have hwhole : reply.take (bench.arp.txIdx.toNat + 1) = reply := by
          rw [hover]
          exact List.take_of_length_le hlength.le
        rw [hover, FrameLog.add, beq_self_eq_true, if_pos rfl, hbyte, hwhole] at hsent'
        refine ⟨.idle (by rw [harp]) (by rw [harp]) hend (by rw [hsent', hsame, hreplies]),
          .inl ?_⟩
        rw [hsent', List.length_append]
        exact Nat.lt_succ_self _
      · have harp : (bench.step our i).arp =
            { bench.arp with txTvalid := true, txIdx := bench.arp.txIdx + 1 } := by
          simp only [step, ArpResponder.clkEdge, hstate, drive, hshake, if_true, if_neg hover]
        have hne : bench.arp.txIdx.toNat ≠ 41 := fun heq => hover (BitVec.eq_of_toNat_eq heq)
        have hnext : (bench.arp.txIdx + 1).toNat = bench.arp.txIdx.toNat + 1 := by
          change (bench.arp.txIdx.toNat + 1) % 64 = _
          omega
        have hmore : (bench.step our i).sent =
            ⟨bench.sent.whole, reply.take (bench.arp.txIdx.toNat + 1)⟩ := by
          rw [hsent', beq_eq_false_iff_ne.mpr hover, FrameLog.add, hbyte]
          rfl
        refine ⟨.send reply (by rw [harp]; exact hstate) hend hlength ?_
            (by rw [harp]; exact hreply) (by rw [hmore, hsame, hreplies]) ?_,
          .inr ⟨by rw [hmore], ?_⟩⟩
        · rw [harp]
          change (bench.arp.txIdx + 1).toNat < 42
          omega
        · rw [hmore, harp]
          change _ = reply.take (bench.arp.txIdx + 1).toNat
          rw [hnext]
        · simp only [left, harp, hstate, htvalid, hready, hnext, if_true, Bool.toNat_true]
          omega

theorem arpAt_step (hat : ArpAt our bench) (hjudge : bench.Judgeable our i) :
    ArpAt our (bench.step our i) := by
  cases hat with
  | idle hstate hvalid htaken hsent => exact idle_step hstate hvalid htaken hsent hjudge
  | cap hstate hvalid htaken hcurrent hidx hcap hsent =>
      exact cap_step hstate hvalid htaken hcurrent hidx hcap hsent hjudge
  | wait window hstate hvalid htaken hlong hcap hreplies hsent =>
      exact (wait_step hstate hvalid htaken hlong hcap hreplies hsent).1
  | send reply hstate htaken hlength hidx hreply hreplies hsent =>
      exact (send_step hstate htaken hlength hidx hreply hreplies hsent).1

theorem arpAt_run (our : NetOur) {events : List ArpIn}
    (hjudge : Along (step our) (Judgeable our) start events) :
    ArpAt our (runFrom (step our) start events) :=
  invariant_along (fun _ _ hok hat => arpAt_step hat hok) (arpAt_start our) hjudge

/-- At most one reply is owed, and what has gone out of it is its beginning. -/
theorem owed_of_at (hat : ArpAt our bench) :
    ∃ owed, bench.replies = bench.sent.whole ++ owed ∧ owed.length ≤ 1 ∧
      bench.sent.part <+: owed.flatten := by
  cases hat with
  | idle hstate hvalid htaken hsent =>
      exact ⟨[], by rw [hsent, List.append_nil], Nat.zero_le 1,
        by rw [hsent]; exact List.nil_prefix⟩
  | cap hstate hvalid htaken hcurrent hidx hcap hsent =>
      exact ⟨[], by rw [hsent, List.append_nil], Nat.zero_le 1,
        by rw [hsent]; exact List.nil_prefix⟩
  | wait window hstate hvalid htaken hlong hcap hreplies hsent =>
      exact ⟨_, hreplies, Option.length_toList_le, by rw [hsent]; exact List.nil_prefix⟩
  | send reply hstate htaken hlength hidx hreply hreplies hsent =>
      refine ⟨_, hreplies, Nat.le_refl 1, ?_⟩
      rw [hsent, List.flatten_singleton]
      exact List.take_prefix _ _

/-- While a reply is owed, the responder is on the way to its end. -/
theorem nears_of_owed (hat : ArpAt our bench)
    (howed : bench.sent.whole.length < bench.replies.length) :
    0 < bench.left ∧ Nears bench (bench.step our i) i.txTready := by
  cases hat with
  | idle hstate hvalid htaken hsent =>
      rw [hsent] at howed
      exact absurd howed (Nat.lt_irrefl _)
  | cap hstate hvalid htaken hcurrent hidx hcap hsent =>
      rw [hsent] at howed
      exact absurd howed (Nat.lt_irrefl _)
  | wait window hstate hvalid htaken hlong hcap hreplies hsent =>
      refine ⟨?_, (wait_step hstate hvalid htaken hlong hcap hreplies hsent).2⟩
      rw [left, hstate]
      exact Nat.zero_lt_succ 43
  | send reply hstate htaken hlength hidx hreply hreplies hsent =>
      refine ⟨?_, (send_step hstate htaken hlength hidx hreply hreplies hsent).2⟩
      simp only [left, hstate]
      split <;> omega

theorem replies_step (our : NetOur) (bench : ArpBench) (i : ArpIn) :
    ∃ more : Option (List (BitVec 8)), (bench.step our i).replies =
      bench.replies ++ more.toList ∧ ∀ reply ∈ more, reply.length = 42 := by
  simp only [step]
  split
  · refine ⟨_, rfl, ?_⟩
    intro reply hreply
    rw [arpAnswer] at hreply
    split at hreply
    · rename_i hboth
      cases hreply
      exact length_arpReply hboth.1
    · exact nomatch hreply
  · exact ⟨none, (List.append_nil _).symm, fun _ hreply => nomatch hreply⟩

theorem length_reply_run (our : NetOur) (events : List ArpIn) :
    ∀ reply ∈ (runFrom (step our) start events).replies, reply.length = 42 := by
  have hstep : ∀ (bench : ArpBench) (i : ArpIn), (∀ reply ∈ bench.replies, reply.length = 42) →
      ∀ reply ∈ (bench.step our i).replies, reply.length = 42 := by
    intro bench i hold reply hreply
    obtain ⟨more, hreplies, hnew⟩ := replies_step our bench i
    rw [hreplies] at hreply
    rcases List.mem_append.mp hreply with hreply | hreply
    · exact hold reply hreply
    · exact hnew reply (Option.mem_toList.mp hreply)
  have hnone : ∀ reply ∈ start.replies, reply.length = 42 := by simp [start]
  exact invariant_runFrom hstep hnone events

theorem replies_grow (our : NetOur) (bench : ArpBench) (events : List ArpIn) :
    bench.replies <+: (runFrom (step our) bench events).replies := by
  have hstep : ∀ (next : ArpBench) (i : ArpIn), bench.replies <+: next.replies →
      bench.replies <+: (next.step our i).replies := by
    intro next i hprefix
    obtain ⟨more, hreplies, -⟩ := replies_step our next i
    rw [hreplies]
    exact hprefix.trans (List.prefix_append _ _)
  exact invariant_runFrom hstep (List.prefix_refl _) events

theorem length_whole_step (our : NetOur) (bench : ArpBench) (i : ArpIn) :
    bench.sent.whole.length ≤ (bench.step our i).sent.whole.length := by
  simp only [step, FrameLog.add]
  split
  · split
    · rw [List.length_append]
      exact Nat.le_add_right _ _
    · exact Nat.le_refl _
  · exact Nat.le_refl _

/-- A reply that is owed is out once the receiver has been ready in 44 cycles. -/
theorem replies_sent (our : NetOur) {first last : List ArpIn}
    (hjudge : Along (step our) (Judgeable our) start (first ++ last))
    (hready : 44 ≤ last.countP ArpIn.txTready) :
    (runFrom (step our) start first).replies <+:
      (runFrom (step our) start (first ++ last)).sent.whole := by
  obtain ⟨hfirst, hlast⟩ := along_append.mp hjudge
  have hat := arpAt_run our hfirst
  rw [runFrom_append]
  generalize runFrom (step our) start first = bench at hat hlast
  let goal : ArpBench → Prop := fun next => bench.replies.length ≤ next.sent.whole.length
  let waits : Nat → ArpBench → Prop := fun spare next =>
    ArpAt our next ∧ bench.replies.length ≤ next.replies.length ∧
      next.sent.whole.length < bench.replies.length ∧ next.left ≤ spare
  have hgoal : ∀ next i, Judgeable our next i → goal next → goal (next.step our i) :=
    fun next i _ hreached => hreached.trans (length_whole_step our next i)
  have hwaits : ∀ next i spare, Judgeable our next i → waits spare next →
      goal (next.step our i) ∨ waits (spare - i.txTready.toNat) (next.step our i) := by
    intro next i spare hok hleft
    obtain ⟨hat, hmore, howed, hspare⟩ := hleft
    have hmore' := hmore.trans (replies_grow our next [i]).length_le
    by_cases hreached : bench.replies.length ≤ (next.step our i).sent.whole.length
    · exact .inl hreached
    · refine .inr ⟨arpAt_step hat hok, hmore', Nat.lt_of_not_le hreached, ?_⟩
      obtain ⟨-, hgone | ⟨hsame, hnear⟩⟩ := @nears_of_owed our next i hat (by omega)
      · have hone := owed_of_at hat
        obtain ⟨owed, hreplies, hlength, -⟩ := hone
        have hall := congrArg List.length hreplies
        rw [List.length_append] at hall
        omega
      · omega
  have hdone : ∀ next, ¬ waits 0 next := by
    rintro next ⟨hat, hmore, howed, hnone⟩
    obtain ⟨hsome, -⟩ := @nears_of_owed our next default hat (by omega)
    omega
  have hstart : goal bench ∨ waits 44 bench := by
    by_cases hreached : bench.replies.length ≤ bench.sent.whole.length
    · exact .inl hreached
    · exact .inr ⟨hat, Nat.le_refl _, Nat.lt_of_not_le hreached, bench.left_le⟩
  have hout : goal (runFrom (step our) bench last) :=
    reached_along goal waits hgoal hwaits hdone hlast hstart hready
  obtain ⟨owed, hreplies, -, -⟩ := owed_of_at (invariant_along
    (fun _ _ hok hat => arpAt_step hat hok) hat hlast)
  have hprefix := replies_grow our bench last
  rw [hreplies] at hprefix
  exact List.prefix_of_prefix_length_le hprefix (List.prefix_append _ _) hout

/-- While every frame that is judged has a second byte and is answered by its last window as
by its beginning, the responder sends the replies to the frames that came, of 42 bytes each
and in their order, and a reply is out when the receiver has been ready for 44 cycles. -/
theorem arp_run (our : NetOur) {first last : List ArpIn}
    (hjudge : Along (step our) (Judgeable our) start (first ++ last)) :
    let earlier := runFrom (step our) start first
    let bench := runFrom (step our) start (first ++ last)
    (∃ owed, bench.replies = bench.sent.whole ++ owed ∧ owed.length ≤ 1 ∧
      bench.sent.part <+: owed.flatten) ∧
    (∀ reply ∈ bench.sent.whole, reply.length = 42) ∧
    (44 ≤ last.countP ArpIn.txTready → earlier.replies <+: bench.sent.whole) := by
  have howed := owed_of_at (arpAt_run our hjudge)
  refine ⟨howed, ?_, replies_sent our hjudge⟩
  obtain ⟨owed, hreplies, -, -⟩ := howed
  intro reply hreply
  refine length_reply_run our (first ++ last) reply ?_
  rw [hreplies]
  exact List.mem_append_left _ hreply

def boardOur : NetOur := ⟨0x020000000001, 0xC0A801C8⟩

/-- 192.168.1.10 asks for the board. -/
def boardRequest : List (BitVec 8) :=
  [0xFF, 0xFF, 0xFF, 0xFF, 0xFF, 0xFF, 0x02, 0x00, 0x00, 0x00, 0x00, 0x02, 0x08, 0x06,
    0x00, 0x01, 0x08, 0x00, 0x06, 0x04, 0x00, 0x01,
    0x02, 0x00, 0x00, 0x00, 0x00, 0x02, 0xC0, 0xA8, 0x01, 0x0A,
    0x00, 0x00, 0x00, 0x00, 0x00, 0x00, 0xC0, 0xA8, 0x01, 0xC8]

/-- A frame byte by byte. -/
def arpFrame : List (BitVec 8) → List ArpIn
  | [] => []
  | data :: rest => ⟨true, data, true, rest.isEmpty, false, false, true⟩ :: arpFrame rest

def arpReady : ArpIn := ⟨true, 0, false, false, false, false, true⟩

theorem arp_run_request :
    (runFrom (step boardOur) start (arpFrame boardRequest)).replies =
        [arpReply boardOur boardRequest] ∧
      [arpReply boardOur boardRequest] <+: (runFrom (step boardOur) start
        (arpFrame boardRequest ++ List.replicate 44 arpReady)).sent.whole := by
  have hreplies : (runFrom (step boardOur) start (arpFrame boardRequest)).replies =
      [arpReply boardOur boardRequest] := by decide +kernel
  have hruns := @arp_run boardOur (arpFrame boardRequest) (List.replicate 44 arpReady)
    (by decide +kernel)
  refine ⟨hreplies, ?_⟩
  rw [← hreplies]
  exact hruns.2.2 (by decide +kernel)

/-- The same request, padded to 65 bytes: the capture index is back at 0 when it ends, and
no reply goes out. -/
theorem arp_run_long :
    let padded := boardRequest ++ List.replicate 23 0
    (runFrom (step boardOur) start (arpFrame padded)).replies = [arpReply boardOur padded] ∧
      (runFrom (step boardOur) start (arpFrame padded)).arp.state = .rxIdle ∧
      (runFrom (step boardOur) start
        (arpFrame padded ++ List.replicate 44 arpReady)).sent = .empty := by
  decide +kernel

end ArpBench

end EmacZero
