/-
The reader of the `mii_if` receive path against the words it has taken: a frame
goes into the frame memory byte by byte, and once its EOF word is taken it is
replayed from there.
-/
import EmacZero.MiiIfRxPending

namespace EmacZero

universe u

variable {Q : Type u} {ports : FifoPorts RxWord Q} {depth lag : Nat}

namespace MiiRxBench

/-- A byte is loaded only into a frame memory with room for it. -/
def FitsMemory (ports : FifoPorts RxWord Q) (bench : MiiRxBench Q) :
    MiiRxEdge → Prop
  | .mii _ _ => True
  | .clk _ _ => bench.takes ports = true →
      (ports.rdData bench.rx.rxFifo).eof = false →
        bench.rx.rxLoadCount.toNat < 2 ^ 12

instance (bench : MiiRxBench Q) (edge : MiiRxEdge) :
    Decidable (bench.FitsMemory ports edge) :=
  match edge with
  | .mii _ _ => isTrue trivial
  | .clk _ _ => inferInstanceAs (Decidable (_ → _ → _))

/-- The memory holds these bytes from its first address on. -/
def Holds (mem : BitVec 12 → RxByte) (data : List RxByte) : Prop :=
  ∀ index < data.length, data[index]? = some (mem (BitVec.ofNat 12 index))

theorem holds_nil (mem : BitVec 12 → RxByte) : Holds mem [] := by
  intro index hindex
  simp at hindex

theorem Holds.concat {mem : BitVec 12 → RxByte} {data : List RxByte}
    (hholds : Holds mem data) (hroom : data.length < 2 ^ 12) (byte : RxByte) :
    Holds (Function.update mem (BitVec.ofNat 12 data.length) byte)
      (data ++ [byte]) := by
  intro index hindex
  rw [List.length_append, List.length_singleton] at hindex
  rcases Nat.lt_succ_iff_lt_or_eq.mp hindex with hold | rfl
  · have hne : BitVec.ofNat 12 index ≠ BitVec.ofNat 12 data.length := by
      rw [Ne, ofNat_eq_ofNat_iff hold.le (by omega)]
      exact hold.ne
    rw [List.getElem?_append_left hold, Function.update_of_ne hne]
    exact hholds index hold
  · simp

/-- These bytes of a frame have been loaded, the last one perhaps at the next
edge. -/
structure Loading (rx : MiiIfRx Q) (delivered : Envelopes RxByte)
    (frames : RxFrames) : Prop where
  closed : delivered.closed = frames.replays
  opened : delivered.opened = []
  count : rx.rxLoadCount.toNat = frames.part.length
  room : frames.part.length ≤ 2 ^ 12
  holds : Holds rx.replayDefaults.rxFrameMem frames.part

/-- A frame is in the frame memory, and nothing goes on into it. -/
structure Loaded (rx : MiiIfRx Q) (data : List RxByte) (err : Bool) : Prop where
  ne : data ≠ []
  len : rx.rxReplayLen.toNat = data.length
  room : data.length ≤ 2 ^ 12
  eofEr : rx.rxReplayEofEr = err
  memWrEn : rx.rxMemWrEn = false
  holds : Holds rx.rxFrameMem data

/-- Where the replay machine is with the frames it has taken.  While a frame is
sent the frame memory is read two bytes ahead. -/
inductive Replaying (rx : MiiIfRx Q) (delivered : Envelopes RxByte) :
    RxFrames → Prop
  | idle {past : List (List RxByte × Bool)}
      (hstate : rx.rxReplayState = .idle)
      (hall : delivered.all = RxFrames.replays ⟨past, []⟩) :
      Replaying rx delivered ⟨past, []⟩
  | load {frames : RxFrames} (hstate : rx.rxReplayState = .load)
      (hloading : Loading rx delivered frames) :
      Replaying rx delivered frames
  | prime {past : List (List RxByte × Bool)} {data : List RxByte} {err : Bool}
      (hstate : rx.rxReplayState = .prime) (hloaded : Loaded rx data err)
      (hclosed : delivered.closed = RxFrames.replays ⟨past, []⟩)
      (hopened : delivered.opened = []) :
      Replaying rx delivered ⟨past ++ [(data, err)], []⟩
  | wait {past : List (List RxByte × Bool)} {data : List RxByte} {err : Bool}
      (hstate : rx.rxReplayState = .wait) (hloaded : Loaded rx data err)
      (hclosed : delivered.closed = RxFrames.replays ⟨past, []⟩)
      (hopened : delivered.opened = [])
      (hindex : rx.rxReplayIndex = 0)
      (hdout : data[0]? = some rx.rxFrameMemDoutR) :
      Replaying rx delivered ⟨past ++ [(data, err)], []⟩
  | send {past : List (List RxByte × Bool)} {data : List RxByte} {err : Bool}
      (index : Nat)
      (hstate : rx.rxReplayState = .send) (hloaded : Loaded rx data err)
      (hclosed : delivered.closed = RxFrames.replays ⟨past, []⟩)
      (hopened : delivered.opened = data.take index)
      (hindex : rx.rxReplayIndex.toNat = index)
      (hdata : data[index]? = some rx.rxMemRdData)
      (hdout : index + 1 < data.length →
        data[index + 1]? = some rx.rxFrameMemDoutR)
      (haddr : index + 2 < data.length → rx.rxMemRdAddr.toNat = index + 2) :
      Replaying rx delivered ⟨past ++ [(data, err)], []⟩

section Clk

variable {rx : MiiIfRx Q} {delivered : Envelopes RxByte} {frames : RxFrames}

/-- What a `clk` edge leaves alone while a frame is replayed. -/
theorem Loaded.of_step {next : MiiIfRx Q} {data : List RxByte} {err : Bool}
    (hloaded : Loaded rx data err)
    (hlen : next.rxReplayLen = rx.rxReplayLen)
    (heofEr : next.rxReplayEofEr = rx.rxReplayEofEr)
    (hmemWrEn : next.rxMemWrEn = false)
    (hmem : next.rxFrameMem = rx.replayDefaults.rxFrameMem) :
    Loaded next data err where
  ne := hloaded.ne
  len := hlen ▸ hloaded.len
  room := hloaded.room
  eofEr := heofEr.trans hloaded.eofEr
  memWrEn := hmemWrEn
  holds := by
    rw [hmem, MiiIfRx.frameMem_of_not_wrEn hloaded.memWrEn]
    exact hloaded.holds

variable {bench : MiiRxBench Q}

/-- An edge at which the receive outputs are quiet closes the envelope. -/
theorem delivered_quiet (hdv : (bench.rx.replayStep ports).gmiiRxDv = false)
    (skew : Skew) (late : Bool) :
    (bench.step ports (.clk skew late)).delivered =
      bench.delivered.observe none := by
  simp [step, MiiIfRx.gmiiRxOut, MiiIfRx.clkEdge, hdv]

theorem delivered_idle (hdv : (bench.rx.replayStep ports).gmiiRxDv = false)
    (hopened : bench.delivered.opened = []) (skew : Skew) (late : Bool) :
    (bench.step ports (.clk skew late)).delivered = bench.delivered := by
  rw [delivered_quiet hdv, Envelopes.observe]
  simp [hopened]

theorem idle_clk {past : List (List RxByte × Bool)}
    (hstate : bench.rx.rxReplayState = .idle)
    (hall : bench.delivered.all = RxFrames.replays ⟨past, []⟩) (skew : Skew)
    (late : Bool) :
    Replaying (bench.step ports (.clk skew late)).rx
      (bench.step ports (.clk skew late)).delivered ⟨past, []⟩ := by
  have hnext := @MiiIfRx.replayStep_idle _ ports _ hstate
  have hquiet : (bench.step ports (.clk skew late)).delivered =
      bench.delivered.observe none :=
    delivered_quiet (by simp [hnext]) skew late
  have hclosed : (bench.step ports (.clk skew late)).delivered.closed =
      RxFrames.replays ⟨past, []⟩ := by
    rw [hquiet, Envelopes.observe_none_closed, hall]
  have hopened : (bench.step ports (.clk skew late)).delivered.opened = [] := by
    rw [hquiet, Envelopes.observe_none_opened]
  by_cases hready : bench.rx.rxFramePendingSys && bench.rx.rxRdWordValid ports
  · refine .load ?_ ⟨hclosed, hopened, ?_, Nat.zero_le _, holds_nil _⟩
    · simp [step, MiiIfRx.clkEdge, hnext, hready]
    · simp [step, MiiIfRx.clkEdge, hnext]
  · refine .idle ?_ ((Envelopes.all_of_idle hopened).trans hclosed)
    simp [step, MiiIfRx.clkEdge, hnext, hready]

/-- An edge at which no word is taken. -/
theorem Loading.rest {frames : RxFrames}
    (hloading : Loading bench.rx bench.delivered frames)
    (hstate : bench.rx.rxReplayState = .load)
    (htakes : bench.takes ports = false) (skew : Skew) (late : Bool) :
    Replaying (bench.step ports (.clk skew late)).rx
      (bench.step ports (.clk skew late)).delivered frames := by
  have hnext : bench.rx.replayStep ports =
      { bench.rx.replayDefaults with rxLoadWait := false } := by
    cases hwait : bench.rx.rxLoadWait with
    | true => exact MiiIfRx.replayStep_loadWait hstate hwait
    | false =>
        have hvalid : bench.rx.rxRdWordValid ports = false := by
          simpa [takes, hstate, hwait] using htakes
        rw [MiiIfRx.replayStep_loadEmpty hstate hwait hvalid, ← hwait]
        rfl
  rw [delivered_idle (by simp [hnext]) hloading.opened]
  refine .load ?_ ⟨hloading.closed, hloading.opened, ?_, hloading.room, ?_⟩
  · simp [step, MiiIfRx.clkEdge, hnext, hstate]
  · simp [step, MiiIfRx.clkEdge, hnext, hloading.count]
  · rw [MiiIfRx.frameMem_of_not_wrEn] <;>
      simp [step, MiiIfRx.clkEdge, hnext, hloading.holds]

theorem Loading.byte {frames : RxFrames}
    (hloading : Loading bench.rx bench.delivered frames)
    (htakes : bench.takes ports = true)
    (hbyte : (ports.rdData bench.rx.rxFifo).eof = false) (skew : Skew)
    (late : Bool) (hfits : bench.FitsMemory ports (.clk skew late)) :
    Replaying (bench.step ports (.clk skew late)).rx
      (bench.step ports (.clk skew late)).delivered
      (frames.add (ports.rdData bench.rx.rxFifo)) := by
  obtain ⟨hstate, hwait, hvalid⟩ := of_takes htakes
  have hnext := MiiIfRx.replayStep_loadByte hstate hwait hvalid hbyte
  have hspace : frames.part.length < 2 ^ 12 :=
    hloading.count ▸ hfits htakes hbyte
  have haddr : bench.rx.rxLoadCount.setWidth 12 =
      BitVec.ofNat 12 frames.part.length := by
    rw [← hloading.count, BitVec.ofNat_toNat]
  rw [delivered_idle (by simp [hnext]) hloading.opened, RxFrames.add_byte _ hbyte]
  refine .load ?_ ⟨hloading.closed, hloading.opened, ?_, ?_, ?_⟩
  · simp [step, MiiIfRx.clkEdge, hnext, hstate]
  · have hone : (1 : BitVec 16).toNat = 1 := rfl
    simp only [step, MiiIfRx.clkEdge, hnext, BitVec.toNat_add, hone,
      hloading.count, List.length_append, List.length_singleton]
    omega
  · simpa using hspace
  · rw [MiiIfRx.frameMem_of_wrEn]
    · simp only [step, MiiIfRx.clkEdge, hnext, haddr]
      exact hloading.holds.concat hspace _
    · simp [step, MiiIfRx.clkEdge, hnext]

theorem Loading.eof {frames : RxFrames}
    (hloading : Loading bench.rx bench.delivered frames)
    (htakes : bench.takes ports = true)
    (heof : (ports.rdData bench.rx.rxFifo).eof = true) (skew : Skew)
    (late : Bool) :
    Replaying (bench.step ports (.clk skew late)).rx
      (bench.step ports (.clk skew late)).delivered
      (frames.add (ports.rdData bench.rx.rxFifo)) := by
  obtain ⟨hstate, hwait, hvalid⟩ := of_takes htakes
  have hnext := MiiIfRx.replayStep_loadEof hstate hwait hvalid heof
  rw [delivered_idle (by simp [hnext]) hloading.opened, RxFrames.add_eof _ heof]
  by_cases hnil : frames.part = []
  · have hzero : bench.rx.rxLoadCount = 0 :=
      BitVec.eq_of_toNat_eq (by simp [hloading.count, hnil])
    rw [hnil]
    refine .idle ?_ ?_
    · simp [step, MiiIfRx.clkEdge, hnext, hzero]
    · rw [Envelopes.all_of_idle hloading.opened, hloading.closed,
        RxFrames.replays_empty]
      rfl
  · have hsome : bench.rx.rxLoadCount ≠ 0 := by
      intro hzero
      have hcount := hloading.count
      rw [hzero] at hcount
      exact hnil (List.eq_nil_of_length_eq_zero hcount.symm)
    refine .prime ?_ ⟨hnil, ?_, hloading.room, ?_, ?_, ?_⟩ hloading.closed
      hloading.opened
    · simpa [step, MiiIfRx.clkEdge, hnext] using hsome
    · simp [step, MiiIfRx.clkEdge, hnext, hloading.count]
    · simp [step, MiiIfRx.clkEdge, hnext]
    · simp [step, MiiIfRx.clkEdge, hnext]
    · simp only [step, MiiIfRx.clkEdge, hnext]
      exact hloading.holds

section Send

variable {past : List (List RxByte × Bool)} {data : List RxByte} {err : Bool}

theorem Loaded.prime_clk (hloaded : Loaded bench.rx data err)
    (hstate : bench.rx.rxReplayState = .prime)
    (hclosed : bench.delivered.closed = RxFrames.replays ⟨past, []⟩)
    (hopened : bench.delivered.opened = []) (skew : Skew) (late : Bool) :
    Replaying (bench.step ports (.clk skew late)).rx
      (bench.step ports (.clk skew late)).delivered
      ⟨past ++ [(data, err)], []⟩ := by
  have hnext := @MiiIfRx.replayStep_prime _ ports _ hstate
  have hpos := List.length_pos_iff.mpr hloaded.ne
  rw [delivered_idle (by simp [hnext]) hopened]
  refine .wait ?_ (hloaded.of_step ?_ ?_ ?_ ?_) hclosed hopened ?_ ?_
  · simp [step, MiiIfRx.clkEdge, hnext]
  · simp [step, MiiIfRx.clkEdge, hnext]
  · simp [step, MiiIfRx.clkEdge, hnext]
  · simp [step, MiiIfRx.clkEdge, hnext]
  · simp [step, MiiIfRx.clkEdge, hnext]
  · simp [step, MiiIfRx.clkEdge, hnext]
  · have hread : bench.rx.rxMemRdEn = true := by
      simp [MiiIfRx.rxMemRdEn, hstate]
    simp only [step, MiiIfRx.clkEdge, hnext]
    rw [MiiIfRx.frameMemDoutR_of_rdEn hread, MiiIfRx.rxMemRdAddrReg, hstate]
    exact hloaded.holds 0 hpos

theorem Loaded.wait_clk (hloaded : Loaded bench.rx data err)
    (hstate : bench.rx.rxReplayState = .wait)
    (hclosed : bench.delivered.closed = RxFrames.replays ⟨past, []⟩)
    (hopened : bench.delivered.opened = [])
    (hindex : bench.rx.rxReplayIndex = 0)
    (hdout : data[0]? = some bench.rx.rxFrameMemDoutR) (skew : Skew)
    (late : Bool) :
    Replaying (bench.step ports (.clk skew late)).rx
      (bench.step ports (.clk skew late)).delivered
      ⟨past ++ [(data, err)], []⟩ := by
  have hnext := @MiiIfRx.replayStep_wait _ ports _ hstate
  have hpos := List.length_pos_iff.mpr hloaded.ne
  have hlen : (1 < bench.rx.rxReplayLen) ↔ 1 < data.length := by
    rw [BitVec.lt_def, hloaded.len]
    rfl
  rw [delivered_idle (by simp [hnext]) hopened]
  refine .send 0 ?_ (hloaded.of_step ?_ ?_ ?_ ?_) hclosed
    (by simpa using hopened) ?_ ?_ ?_ ?_
  · simp [step, MiiIfRx.clkEdge, hnext]
  · simp [step, MiiIfRx.clkEdge, hnext]
  · simp [step, MiiIfRx.clkEdge, hnext]
  · simp [step, MiiIfRx.clkEdge, hnext]
  · simp [step, MiiIfRx.clkEdge, hnext]
  · simp [step, MiiIfRx.clkEdge, hnext, hindex]
  · simp [step, MiiIfRx.clkEdge, hnext, hdout]
  · intro hmore
    have hread : bench.rx.rxMemRdEn = true := by
      simpa [MiiIfRx.rxMemRdEn, hstate] using hlen.mpr hmore
    simp only [step, MiiIfRx.clkEdge, hnext]
    rw [MiiIfRx.frameMemDoutR_of_rdEn hread, MiiIfRx.rxMemRdAddrReg, hstate]
    exact hloaded.holds 1 hmore
  · intro hmore
    have hone := hlen.mpr (by omega)
    simp only [step, MiiIfRx.clkEdge, hnext, if_pos hone]
    rfl

theorem Loaded.sendMore_clk (hloaded : Loaded bench.rx data err) {index : Nat}
    (hstate : bench.rx.rxReplayState = .send)
    (hmore : index + 1 < data.length)
    (hclosed : bench.delivered.closed = RxFrames.replays ⟨past, []⟩)
    (hopened : bench.delivered.opened = data.take index)
    (hindex : bench.rx.rxReplayIndex.toNat = index)
    (hdata : data[index]? = some bench.rx.rxMemRdData)
    (hdout : data[index + 1]? = some bench.rx.rxFrameMemDoutR)
    (haddr : index + 2 < data.length →
      bench.rx.rxMemRdAddr.toNat = index + 2) (skew : Skew) (late : Bool) :
    Replaying (bench.step ports (.clk skew late)).rx
      (bench.step ports (.clk skew late)).delivered
      ⟨past ++ [(data, err)], []⟩ := by
  have hshort : bench.rx.rxReplayIndex.toNat + 1 <
      bench.rx.rxReplayLen.toNat := by rwa [hindex, hloaded.len]
  have hnext := @MiiIfRx.replayStep_sendMore _ ports _ hstate hshort
  have hahead : (bench.rx.rxReplayIndex + 2 < bench.rx.rxReplayLen) ↔
      index + 2 < data.length := by
    have htwo : (2 : BitVec 16).toNat = 2 := rfl
    have hroom := hloaded.room
    rw [BitVec.lt_def, BitVec.toNat_add, htwo, hindex, hloaded.len,
      Nat.mod_eq_of_lt (by omega)]
  have hdelivered : (bench.step ports (.clk skew late)).delivered =
      bench.delivered.observe (some bench.rx.rxMemRdData) := by
    simp [step, MiiIfRx.gmiiRxOut, MiiIfRx.clkEdge, hnext]
  rw [hdelivered]
  refine .send (index + 1) ?_ (hloaded.of_step ?_ ?_ ?_ ?_) hclosed ?_ ?_ ?_
    ?_ ?_
  · simp [step, MiiIfRx.clkEdge, hnext]
  · simp [step, MiiIfRx.clkEdge, hnext]
  · simp [step, MiiIfRx.clkEdge, hnext]
  · simp [step, MiiIfRx.clkEdge, hnext]
  · simp [step, MiiIfRx.clkEdge, hnext]
  · rw [Envelopes.observe_some_opened, hopened, List.take_add_one, hdata]
    rfl
  · simp only [step, MiiIfRx.clkEdge, hnext]
    rw [MiiIfRx.index_add_one (Nat.lt_of_succ_lt hshort), hindex]
  · simp [step, MiiIfRx.clkEdge, hnext, hdout]
  · intro hread
    have hrdEn : bench.rx.rxMemRdEn = true := by
      simpa [MiiIfRx.rxMemRdEn, hstate] using hahead.mpr hread
    simp only [step, MiiIfRx.clkEdge, hnext]
    rw [MiiIfRx.frameMemDoutR_of_rdEn hrdEn, MiiIfRx.rxMemRdAddrReg, hstate]
    have hbyte := hloaded.holds (index + 2) hread
    rw [← haddr hread, BitVec.ofNat_toNat, haddr hread] at hbyte
    exact hbyte
  · intro hread
    have hone : (1 : BitVec 16).toNat = 1 := rfl
    have hroom := hloaded.room
    simp only [step, MiiIfRx.clkEdge, hnext, if_pos (hahead.mpr (by omega))]
    rw [BitVec.toNat_add, hone, haddr (by omega)]
    omega

theorem Loaded.sendLast_clk (hloaded : Loaded bench.rx data err) {index : Nat}
    (hstate : bench.rx.rxReplayState = .send)
    (hlast : index + 1 = data.length)
    (hclosed : bench.delivered.closed = RxFrames.replays ⟨past, []⟩)
    (hopened : bench.delivered.opened = data.take index)
    (hindex : bench.rx.rxReplayIndex.toNat = index)
    (hdata : data[index]? = some bench.rx.rxMemRdData) (skew : Skew)
    (late : Bool) :
    Replaying (bench.step ports (.clk skew late)).rx
      (bench.step ports (.clk skew late)).delivered
      ⟨past ++ [(data, err)], []⟩ := by
  have hend : bench.rx.rxReplayIndex.toNat + 1 =
      bench.rx.rxReplayLen.toNat := by rwa [hindex, hloaded.len]
  have hnext := @MiiIfRx.replayStep_sendLast _ ports _ hstate hend
  have hbytes : data = data.take index ++ [bench.rx.rxMemRdData] := by
    conv_lhs => rw [← @List.take_length _ data, ← hlast, List.take_add_one,
      hdata, Option.toList_some]
  have hdelivered : (bench.step ports (.clk skew late)).delivered =
      bench.delivered.observe
        (some (bench.rx.rxMemRdData.1, bench.rx.rxMemRdData.2 || err)) := by
    simp [step, MiiIfRx.gmiiRxOut, MiiIfRx.clkEdge, hnext, hloaded.eofEr]
  have hopened' : (bench.step ports (.clk skew late)).delivered.opened =
      flagLast data err := by
    rw [hdelivered, Envelopes.observe_some_opened, hopened]
    conv_rhs => rw [hbytes]
    rw [flagLast_concat]
  have hclosed' : (bench.step ports (.clk skew late)).delivered.closed =
      RxFrames.replays ⟨past, []⟩ := by
    rw [hdelivered, Envelopes.observe_some_closed, hclosed]
  refine .idle ?_ ?_
  · simp [step, MiiIfRx.clkEdge, hnext]
  · rw [Envelopes.all_of_busy, hopened', hclosed', RxFrames.replays_concat
      hloaded.ne]
    rw [hopened']
    exact flagLast_ne_nil hloaded.ne err

end Send

theorem Replaying.clk {frames : RxFrames}
    (hreplaying : Replaying bench.rx bench.delivered frames) (skew : Skew)
    (late : Bool) (hfits : bench.FitsMemory ports (.clk skew late)) :
    Replaying (bench.step ports (.clk skew late)).rx
      (bench.step ports (.clk skew late)).delivered
      (if bench.takes ports then frames.add (ports.rdData bench.rx.rxFifo)
      else frames) := by
  cases hreplaying with
  | idle hstate hall =>
      rw [if_neg (by simp [takes, hstate])]
      exact idle_clk hstate hall skew late
  | load hstate hloading =>
      cases htakes : bench.takes ports with
      | false => exact hloading.rest hstate htakes skew late
      | true =>
          cases heof : (ports.rdData bench.rx.rxFifo).eof with
          | false => exact hloading.byte htakes heof skew late hfits
          | true => exact hloading.eof htakes heof skew late
  | prime hstate hloaded hclosed hopened =>
      rw [if_neg (by simp [takes, hstate])]
      exact hloaded.prime_clk hstate hclosed hopened skew late
  | wait hstate hloaded hclosed hopened hindex hdout =>
      rw [if_neg (by simp [takes, hstate])]
      exact hloaded.wait_clk hstate hclosed hopened hindex hdout skew late
  | send index hstate hloaded hclosed hopened hindex hdata hdout haddr =>
      rw [if_neg (by simp [takes, hstate])]
      have hlt := (List.getElem?_eq_some_iff.mp hdata).1
      rcases hlt.nat_succ_le.eq_or_lt with hlast | hmore
      · exact hloaded.sendLast_clk hstate hlast hclosed hopened hindex hdata
          skew late
      · exact hloaded.sendMore_clk hstate hmore hclosed hopened hindex hdata
          (hdout hmore) haddr skew late

theorem Replaying.mii {frames : RxFrames}
    (hreplaying : Replaying bench.rx bench.delivered frames) (pins : MiiRxIn)
    (skew : Skew) :
    Replaying (bench.step ports (.mii pins skew)).rx
      (bench.step ports (.mii pins skew)).delivered frames := by
  cases hreplaying with
  | idle hstate hall => exact .idle hstate hall
  | load hstate hloading =>
      exact .load hstate ⟨hloading.closed, hloading.opened, hloading.count,
        hloading.room, hloading.holds⟩
  | prime hstate hloaded hclosed hopened =>
      exact .prime hstate ⟨hloaded.ne, hloaded.len, hloaded.room,
        hloaded.eofEr, hloaded.memWrEn, hloaded.holds⟩ hclosed hopened
  | wait hstate hloaded hclosed hopened hindex hdout =>
      exact .wait hstate ⟨hloaded.ne, hloaded.len, hloaded.room,
        hloaded.eofEr, hloaded.memWrEn, hloaded.holds⟩ hclosed hopened hindex
        hdout
  | send index hstate hloaded hclosed hopened hindex hdata hdout haddr =>
      exact .send index hstate ⟨hloaded.ne, hloaded.len, hloaded.room,
        hloaded.eofEr, hloaded.memWrEn, hloaded.holds⟩ hclosed hopened hindex
        hdata hdout haddr

end Clk

section Run

variable {laws : BoundedFifo ports depth lag}

/-- The reader has replayed, or is about to replay, what it has taken. -/
structure Reads (laws : BoundedFifo ports depth lag) (bench : MiiRxBench Q) :
    Prop where
  tracks : ∃ shown, Tracks laws bench shown
  replaying : Replaying bench.rx bench.delivered
    (framesOf (bench.accepted.take bench.taken))

theorem reads_start (laws : BoundedFifo ports depth lag) {fifo : Q}
    (hfifo : laws.Views fifo .empty) (mem : BitVec 12 → RxByte)
    (dout : RxByte) : Reads laws (start fifo mem dout) :=
  ⟨⟨_, tracks_start laws hfifo mem dout⟩, .idle rfl rfl⟩

theorem Reads.step (bench : MiiRxBench Q) (edge : MiiRxEdge)
    (hfits : bench.FitsMemory ports edge) (hreads : Reads laws bench) :
    Reads laws (bench.step ports edge) := by
  obtain ⟨shown, htracks⟩ := hreads.tracks
  cases edge with
  | mii pins skew =>
      obtain ⟨shown', -, -, hnext⟩ := htracks.mii pins skew
      have hsame : (bench.step ports (.mii pins skew)).accepted.take
          bench.taken = bench.accepted.take bench.taken := by
        simp only [MiiRxBench.step]
        split
        · rw [List.take_append_of_le_length htracks.taken_le]
        · rfl
      refine ⟨⟨shown', hnext⟩, ?_⟩
      have hreplaying : Replaying (bench.step ports (.mii pins skew)).rx
          (bench.step ports (.mii pins skew)).delivered _ :=
        hreads.replaying.mii pins skew
      rw [← hsame] at hreplaying
      exact hreplaying
  | clk skew late =>
      obtain ⟨shown', -, -, hnext⟩ := htracks.clk skew late
      refine ⟨⟨shown', hnext⟩, ?_⟩
      have hreplaying := hreads.replaying.clk skew late hfits
      rw [htracks.taken_clk]
      change Replaying _ _ (framesOf (bench.accepted.take _))
      cases htakes : bench.takes ports with
      | false =>
          rw [htakes] at hreplaying
          exact hreplaying
      | true =>
          rw [htakes, if_pos rfl] at hreplaying
          rw [Bool.toNat_true, List.take_add_one, htracks.taken_word htakes,
            Option.toList_some, framesOf_concat]
          exact hreplaying

/-- A FIFO that has never taken more words than the frame memory holds does
not overrun it. -/
theorem Reads.fits {bench : MiiRxBench Q} (hreads : Reads laws bench)
    (hshort : bench.accepted.length ≤ 2 ^ 12) (edge : MiiRxEdge) :
    bench.FitsMemory ports edge := by
  obtain ⟨shown, htracks⟩ := hreads.tracks
  cases edge with
  | mii pins skew => trivial
  | clk skew late =>
      intro htakes _
      obtain ⟨hstate, hfree, hlt⟩ := htracks.takes_iff.mp htakes
      have hshown := laws.shown_le htracks.fifo 0
      have hpart := length_part_framesOf_le
        (bench.accepted.take bench.taken)
      rw [List.length_take, taken, hfree] at hpart
      have hcount : bench.rx.rxLoadCount.toNat =
          (framesOf (bench.accepted.take bench.taken)).part.length := by
        have hreplaying := hreads.replaying
        generalize framesOf (bench.accepted.take bench.taken) = frames
          at hreplaying
        cases hreplaying with
        | load hstate hloading => exact hloading.count
        | idle hother => simp [hstate] at hother
        | prime hother => simp [hstate] at hother
        | wait hother => simp [hstate] at hother
        | send index hother => simp [hstate] at hother
      rw [hcount, taken, hfree]
      dsimp only at hshown
      simp only [Bool.toNat_false, Nat.add_zero] at hpart ⊢
      omega

/-- Of the frames that have been taken, all but the last have been replayed. -/
theorem Replaying.replayed {bench : MiiRxBench Q} {frames : RxFrames}
    (hreplaying : Replaying bench.rx bench.delivered frames) :
    frames.replays.dropLast <+: bench.delivered.closed := by
  cases hreplaying with
  | idle hstate hall =>
      rw [← hall]
      by_cases hidle : bench.delivered.opened = []
      · rw [Envelopes.all_of_idle hidle]
        exact List.dropLast_prefix _
      · rw [Envelopes.all_of_busy hidle, List.dropLast_concat]
  | load hstate hloading =>
      rw [hloading.closed]
      exact List.dropLast_prefix _
  | prime hstate hloaded hclosed =>
      rw [RxFrames.replays_concat hloaded.ne, List.dropLast_concat, hclosed]
  | wait hstate hloaded hclosed =>
      rw [RxFrames.replays_concat hloaded.ne, List.dropLast_concat, hclosed]
  | send index hstate hloaded hclosed =>
      rw [RxFrames.replays_concat hloaded.ne, List.dropLast_concat, hclosed]

end Run

end MiiRxBench

end EmacZero
