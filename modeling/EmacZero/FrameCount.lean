/-
The committed-frame counter that several of the clock crossings use: frames are
counted in binary and Gray code where they are written, the Gray code crosses
in three flip-flops, and the reader compares it with its own count of the
frames it is done with.
-/
import EmacZero.ClockCrossing
import EmacZero.GrayCode

namespace EmacZero

variable {width : Nat}

structure FrameCount (width : Nat) where
  wrCountBin : BitVec width
  wrCountGray : Launched (BitVec width)
  wrCountS1 : BitVec width
  wrCountS2 : BitVec width
  wrCountS3 : BitVec width
  rdCountBin : BitVec width

namespace FrameCount

def reset : FrameCount width where
  wrCountBin := 0
  wrCountGray := .rest 0
  wrCountS1 := 0
  wrCountS2 := 0
  wrCountS3 := 0
  rdCountBin := 0

/-- An edge of the writer's clock. -/
def wrEdge (count : FrameCount width) (commit : Bool) : FrameCount width :=
  if commit then
    { count with
      wrCountBin := count.wrCountBin + 1
      wrCountGray := count.wrCountGray.drive (grayEncode (count.wrCountBin + 1)) }
  else count

/-- An edge of the reader's clock. -/
def rdEdge (count : FrameCount width) (done late : Bool) : FrameCount width :=
  { count with
    wrCountGray := count.wrCountGray.settle
    wrCountS1 := count.wrCountGray.sample late
    wrCountS2 := count.wrCountS1
    wrCountS3 := count.wrCountS2
    rdCountBin := if done then count.rdCountBin + 1 else count.rdCountBin }

/-- The reader's copy of the count of committed frames. -/
def wrCountSeen (count : FrameCount width) : BitVec width :=
  grayDecode count.wrCountS3

/-- A committed frame is left. -/
def pending (count : FrameCount width) : Bool :=
  count.wrCountSeen != count.rdCountBin

/-- The Gray code of a count. -/
def grayOf (width count : Nat) : BitVec width :=
  grayEncode (BitVec.ofNat width count)

/-- The registers hold these counts, as far as their width goes. -/
structure Tracks (count : FrameCount width) (seen : SeenCount) (retired : Nat) :
    Prop where
  wrCountBin : count.wrCountBin = BitVec.ofNat width seen.committed.now
  wrCountGray : count.wrCountGray = seen.committed.map (grayOf width)
  wrCountS1 : count.wrCountS1 = grayOf width seen.seen1
  wrCountS2 : count.wrCountS2 = grayOf width seen.seen2
  wrCountS3 : count.wrCountS3 = grayOf width seen.seen3
  rdCountBin : count.rdCountBin = BitVec.ofNat width retired

section Counts

variable {count : FrameCount width} {seen : SeenCount} {retired : Nat}

theorem tracks_reset : Tracks (reset : FrameCount width) .zero 0 := by
  have hzero : grayOf width 0 = 0 := by simp [grayOf, grayEncode]
  constructor <;> simp [reset, Launched.map_rest, hzero]

theorem Tracks.commit (htracks : count.Tracks seen retired) :
    (count.wrEdge true).Tracks seen.advance retired := by
  have hbin := htracks.wrCountBin
  constructor <;>
    simp [wrEdge, hbin, htracks.wrCountGray, htracks.wrCountS1,
      htracks.wrCountS2, htracks.wrCountS3, htracks.rdCountBin, grayOf,
      Launched.map_drive, BitVec.ofNat_add]

theorem Tracks.rdEdge (htracks : count.Tracks seen retired)
    (done late : Bool) :
    (count.rdEdge done late).Tracks (seen.clock late)
      (retired + done.toNat) := by
  constructor
  case rdCountBin =>
    cases done <;> simp [FrameCount.rdEdge, htracks.rdCountBin, BitVec.ofNat_add]
  all_goals
    simp [FrameCount.rdEdge, htracks.wrCountBin, htracks.wrCountGray,
      htracks.wrCountS1, htracks.wrCountS2, Launched.map_settle,
      Launched.map_sample]

theorem Tracks.wrCountSeen_eq (htracks : count.Tracks seen retired) :
    count.wrCountSeen = BitVec.ofNat width seen.seen3 := by
  rw [wrCountSeen, htracks.wrCountS3, grayOf, grayDecode_grayEncode]

/-- With less than a turn of frames between them, the counters tell whether a
frame is left. -/
theorem Tracks.pending_iff (htracks : count.Tracks seen retired)
    (hle : retired ≤ seen.seen3) (hlt : seen.seen3 < retired + 2 ^ width) :
    count.pending = true ↔ retired < seen.seen3 := by
  rw [pending, bne_iff_ne, htracks.wrCountSeen_eq, htracks.rdCountBin, ne_comm,
    Ne, ofNat_eq_ofNat_iff hle hlt]
  omega

end Counts

end FrameCount

end EmacZero
