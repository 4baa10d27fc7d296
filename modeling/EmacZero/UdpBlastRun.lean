/-
Runs of `udp_blast`: the frames that it begins come out one after the other, whatever the
receiver's stalls are.
-/
import EmacZero.UdpBlastSend

namespace EmacZero

universe u

theorem UdpBlast.starts_of_busy {params : UdpBlastParams} {blast : UdpBlast} {i : UdpBlastIn}
    (hbusy : blast.tx.txState ≠ .idle) : blast.starts params i = false := by
  rw [UdpBlast.starts, beq_eq_false_iff_ne.mpr hbusy]
  rfl

namespace UdpBlastBench

variable {params : UdpBlastParams} {bench : UdpBlastBench} {i : UdpBlastIn}

/-- Nothing is being sent, or the last frame begun. -/
inductive Phase (bench : UdpBlastBench) : Prop
  | resting (hresting : BlastResting bench.blast.tx)
  | sending (before : List BlastFrame) (frame : BlastFrame)
      (hstarted : bench.started = before ++ [frame]) (hheld : bench.held = frame.target)
      (hwalking : BlastWalking frame bench.blast.tx)

/-- What a cycle can do. -/
inductive Turn (params : UdpBlastParams) (bench : UdpBlastBench) (i : UdpBlastIn) : Prop
  | rests (hresting : BlastResting bench.blast.tx) (hstarts : bench.blast.starts params i = false)
      (hstarted : (bench.step params i).started = bench.started)
      (hnext : BlastResting (bench.step params i).blast.tx)
  | begins (hresting : BlastResting bench.blast.tx) (hstarts : bench.blast.starts params i = true)
      (hsized : 14 ≤ i.payloadSize.toNat)
      (hstarted : (bench.step params i).started = bench.started ++ [bench.blast.begins i])
      (hnext : BlastWalking (bench.blast.begins i) (bench.step params i).blast.tx)
      (hplace : (bench.step params i).blast.tx.place = 0)
  | walks (before : List BlastFrame) (frame : BlastFrame)
      (hframe : bench.started = before ++ [frame]) (htarget : i.target = frame.target)
      (hwalking : BlastWalking frame bench.blast.tx)
      (hstarted : (bench.step params i).started = bench.started)
      (hnext : BlastWalking frame (bench.step params i).blast.tx)
      (hplace : (bench.step params i).blast.tx.place =
        if bench.blast.srcReady i then bench.blast.tx.place + 1 else bench.blast.tx.place)
      (hends : bench.blast.ends i = false)
  | ends (before : List BlastFrame) (frame : BlastFrame)
      (hframe : bench.started = before ++ [frame]) (htarget : i.target = frame.target)
      (hwalking : BlastWalking frame bench.blast.tx)
      (hstarted : (bench.step params i).started = bench.started)
      (htaken : bench.blast.srcReady i = true)
      (hlast : bench.blast.tx.place + 1 = 42 + frame.size.toNat)
      (hnext : BlastResting (bench.step params i).blast.tx)
      (hends : bench.blast.ends i = true)

theorem Phase.turn (hphase : bench.Phase) (hsteady : bench.Steady params i) :
    Turn params bench i := by
  cases hphase with
  | resting hresting =>
      cases hstarts : bench.blast.starts params i with
      | false =>
          exact .rests hresting hstarts (if_neg (by rw [hstarts]; exact Bool.false_ne_true))
            (UdpBlast.rest_resting hresting hstarts)
      | true =>
          have hsized := hsteady.1 hstarts
          obtain ⟨hnext, hplace⟩ := UdpBlast.begin_walking hresting hstarts hsized
          exact .begins hresting hstarts hsized (if_pos hstarts) hnext hplace
  | sending before frame hframe hheld hwalking =>
      have htarget : i.target = frame.target := (hsteady.2 hwalking.busy).trans hheld
      have hstarted : (bench.step params i).started = bench.started :=
        if_neg (by rw [UdpBlast.starts_of_busy hwalking.busy]; exact Bool.false_ne_true)
      cases htaken : bench.blast.srcReady i with
      | false =>
          obtain ⟨hnext, hplace⟩ := UdpBlast.stall_walking hwalking htaken
          refine .walks before frame hframe htarget hwalking hstarted hnext ?_
            (UdpBlast.not_ends hwalking (.inl htaken))
          rw [htaken, if_neg Bool.false_ne_true]
          exact hplace
      | true =>
          by_cases hlast : bench.blast.tx.place + 1 = 42 + frame.size.toNat
          · obtain ⟨hnext, hends⟩ := UdpBlast.last_resting hwalking htaken hlast
            exact .ends before frame hframe htarget hwalking hstarted htaken hlast hnext hends
          · obtain ⟨hnext, hplace⟩ := UdpBlast.taken_walking hwalking htaken hlast
            refine .walks before frame hframe htarget hwalking hstarted hnext ?_
              (UdpBlast.not_ends hwalking (.inr hlast))
            rw [htaken, if_pos rfl]
            exact hplace

theorem Turn.phase (hturn : Turn params bench i) : (bench.step params i).Phase := by
  cases hturn with
  | rests hresting hstarts hstarted hnext => exact .resting hnext
  | begins hresting hstarts hsized hstarted hnext hplace =>
      exact .sending _ _ hstarted rfl hnext
  | walks before frame hframe htarget hwalking hstarted hnext hplace hends =>
      exact .sending before frame (hstarted.trans hframe) htarget hnext
  | ends before frame hframe htarget hwalking hstarted htaken hlast hnext hends =>
      exact .resting hnext

/-- Between frames, when none begins. -/
theorem Turn.stay (hturn : Turn params bench i) (hidle : bench.blast.tx.txState = .idle)
    (hstarts : bench.blast.starts params i = false) :
    (bench.step params i).blast.tx.txState = .idle := by
  cases hturn with
  | rests hresting hstarts' hstarted hnext => exact hnext.idle
  | begins hresting hstarts' hsized hstarted hnext hplace =>
      exact absurd (hstarts.symm.trans hstarts') Bool.false_ne_true
  | walks before frame hframe htarget hwalking hstarted hnext hplace hends =>
      exact absurd hidle hwalking.busy
  | ends before frame hframe htarget hwalking hstarted htaken hlast hnext hends =>
      exact absurd hidle hwalking.busy

/-- A frame begins. -/
theorem Turn.opens (hturn : Turn params bench i) (hidle : bench.blast.tx.txState = .idle)
    (hstarts : bench.blast.starts params i = true) :
    (bench.step params i).started = bench.started ++ [bench.blast.begins i] ∧
      BlastWalking (bench.blast.begins i) (bench.step params i).blast.tx ∧
      (bench.step params i).blast.tx.place = 0 := by
  cases hturn with
  | rests hresting hstarts' hstarted hnext =>
      exact absurd (hstarts'.symm.trans hstarts) Bool.false_ne_true
  | begins hresting hstarts' hsized hstarted hnext hplace => exact ⟨hstarted, hnext, hplace⟩
  | walks before frame hframe htarget hwalking hstarted hnext hplace hends =>
      exact absurd hidle hwalking.busy
  | ends before frame hframe htarget hwalking hstarted htaken hlast hnext hends =>
      exact absurd hidle hwalking.busy

/-- Within a frame: it goes on, or its last byte is taken. -/
theorem Turn.goes (hturn : Turn params bench i) (hbusy : bench.blast.tx.txState ≠ .idle) :
    (bench.step params i).started = bench.started ∧
      ((∃ frame, BlastWalking frame bench.blast.tx ∧
          BlastWalking frame (bench.step params i).blast.tx ∧
          (bench.step params i).blast.tx.place =
            (if bench.blast.srcReady i then bench.blast.tx.place + 1 else bench.blast.tx.place) ∧
          bench.blast.ends i = false) ∨
        (55 ≤ bench.blast.tx.place ∧ (bench.step params i).blast.tx.txState = .idle ∧
          bench.blast.ends i = true)) := by
  cases hturn with
  | rests hresting hstarts' hstarted hnext => exact absurd hresting.idle hbusy
  | begins hresting hstarts' hsized hstarted hnext hplace => exact absurd hresting.idle hbusy
  | walks before frame hframe htarget hwalking hstarted hnext hplace hends =>
      exact ⟨hstarted, .inl ⟨frame, hwalking, hnext, hplace, hends⟩⟩
  | ends before frame hframe htarget hwalking hstarted htaken hlast hnext hends =>
      have hsized := hwalking.sized
      exact ⟨hstarted, .inr ⟨by omega, hnext.idle, hends⟩⟩

section Sender

variable {τ : Type u} {fits : τ → BitVec 8 → Prop} {template : BlastFrame → List τ}

/-- The generator as a sender of frames, each after a template. -/
def sender (template : BlastFrame → List τ) (bench : UdpBlastBench) :
    FrameSender τ (BitVec 8) where
  started := bench.started.map template
  rest :=
    if bench.blast.tx.txState = .idle then []
    else (bench.started.getLast?.elim [] template).drop bench.blast.tx.place
  slice := bench.blast.slice
  sent := bench.sent

theorem rest_idle (hidle : bench.blast.tx.txState = .idle) :
    (sender template bench).rest = [] := if_pos hidle

theorem rest_busy (hbusy : bench.blast.tx.txState ≠ .idle) {before : List BlastFrame}
    {frame : BlastFrame} (hstarted : bench.started = before ++ [frame]) :
    (sender template bench).rest = (template frame).drop bench.blast.tx.place := by
  rw [sender, if_neg hbusy, hstarted, List.getLast?_concat]
  rfl

/-- The template has a word for each byte of its frame, and the word for the byte that is
being sent fits it. -/
structure Fits (fits : τ → BitVec 8 → Prop) (template : BlastFrame → List τ)
    (bench : UdpBlastBench) : Prop where
  length : ∀ frame : BlastFrame, 14 ≤ frame.size.toNat →
    (template frame).length = 42 + frame.size.toNat
  data : ∀ before frame, bench.started = before ++ [frame] → bench.blast.tx.txState ≠ .idle →
    ∀ (place : Nat) (hplace : place < (template frame).length),
      fits (template frame)[place] ((frame.bytes bench.blast.cnt.seqCnt).getD place 0)

/-- A cycle of a frame, by what is left of it afterwards. -/
theorem moves_walking (hfits : bench.Fits fits template) {before : List BlastFrame}
    {frame : BlastFrame} (hframe : bench.started = before ++ [frame])
    (htarget : i.target = frame.target) (hwalking : BlastWalking frame bench.blast.tx)
    (hstarted : (bench.step params i).started = bench.started)
    (hnext : (sender template (bench.step params i)).rest = (template frame).drop
      (if bench.blast.srcReady i then bench.blast.tx.place + 1 else bench.blast.tx.place)) :
    FrameSender.Moves fits (sender template bench) (sender template (bench.step params i))
      i.txReady := by
  have hlength := hfits.length frame hwalking.sized
  have hplace : bench.blast.tx.place < (template frame).length := by
    rw [hlength]
    exact hwalking.place_lt
  have hdata := hfits.data before frame hframe hwalking.busy _ hplace
  rw [← UdpBlast.txDataMux_eq hwalking htarget] at hdata
  have hlast : bench.blast.tx.srcLast =
      (bench.blast.tx.place + 1 == (template frame).length) := by
    rw [Bool.eq_iff_iff, hwalking.last, beq_iff_eq, hlength]
  exact @FrameSender.moves_within _ _ _ _ _ _ (bench.blast.offer i) _ _ hplace
    (rest_busy hwalking.busy hframe) hwalking.valid hlast hdata rfl rfl
    (congrArg (List.map template) hstarted) hnext

theorem Turn.moves (hturn : Turn params bench i) (hfits : bench.Fits fits template) :
    FrameSender.Moves fits (sender template bench) (sender template (bench.step params i))
      i.txReady := by
  cases hturn with
  | rests hresting hstarts hstarted hnext =>
      exact .idle (bench.blast.offer i) (rest_idle hresting.idle) hresting.valid rfl rfl
        (.inl ⟨rest_idle hnext.idle, congrArg (List.map template) hstarted⟩)
  | begins hresting hstarts hsized hstarted hnext hplace =>
      have hrest := @rest_busy _ τ template hnext.busy _ _ hstarted
      rw [hplace, List.drop_zero] at hrest
      refine .idle (bench.blast.offer i) (rest_idle hresting.idle) hresting.valid rfl rfl
        (.inr ⟨?_, ?_⟩)
      · rw [hrest, ← List.length_pos_iff, hfits.length _ hsized]
        exact Nat.lt_of_lt_of_le (Nat.succ_pos 41) (Nat.le_add_right _ _)
      · rw [hrest]
        exact (congrArg (List.map template) hstarted).trans List.map_append
  | walks before frame hframe htarget hwalking hstarted hnext hplace hends =>
      refine moves_walking hfits hframe htarget hwalking hstarted ?_
      rw [rest_busy hnext.busy (hstarted.trans hframe), hplace]
  | ends before frame hframe htarget hwalking hstarted htaken hlast hnext hends =>
      refine moves_walking hfits hframe htarget hwalking hstarted ?_
      rw [rest_idle hnext.idle, if_pos htaken, List.drop_of_length_le]
      rw [hfits.length frame hwalking.sized, hlast]

end Sender

end UdpBlastBench

/-! The sequence number of a frame goes back to 0 when `enable` rises during the frame. -/

/-- A byte with the sequence number of the frame, or with 0. -/
def sequenced (pair : BitVec 8 × BitVec 8) (data : BitVec 8) : Prop :=
  data = pair.1 ∨ data = pair.2

/-- The frame with its sequence number beside the frame with 0. -/
def BlastFrame.template (frame : BlastFrame) : List (BitVec 8 × BitVec 8) :=
  (frame.bytes frame.seq).zip (frame.bytes 0)

/-- What has come out is the datagram that was begun. -/
structure BlastSends (frame : BlastFrame) (out : List (BitVec 8)) : Prop where
  length : out.length = 42 + frame.size.toNat
  carries : CarriesUdp frame.target.our frame.target.dstMac frame.target.dstIp
    frame.target.srcPort frame.target.dstPort (out.drop 42) out
  bytes : List.Forall₂ sequenced frame.template out

namespace BlastFrame

variable {frame : BlastFrame} {out : List (BitVec 8)}

theorem length_template (hsize : 14 ≤ frame.size.toNat) :
    frame.template.length = 42 + frame.size.toNat := by
  have hsize' : 12 ≤ frame.size.toNat := by omega
  rw [template, List.length_zip, length_bytes hsize', length_bytes hsize', Nat.min_self]

/-- The headers of the frame, whatever its sequence number is. -/
def headers (frame : BlastFrame) : List (BitVec 8) :=
  udpHeaders frame.target.our frame.id frame.target.dstMac frame.target.dstIp
    frame.target.srcPort frame.target.dstPort frame.size.toNat

theorem bytes_eq (hsize : 14 ≤ frame.size.toNat) (seq : BitVec 32) :
    frame.bytes seq = frame.headers ++ frame.payload seq := by
  rw [bytes, udpFrame, length_payload (by omega), headers]

theorem template_take (hsize : 14 ≤ frame.size.toNat) :
    frame.template.take 42 = frame.headers.map fun data => (data, data) := by
  have hself : frame.headers.zip frame.headers = frame.headers.map fun data => (data, data) := by
    rw [← List.zip_map', List.map_id']
  rw [template, bytes_eq hsize, bytes_eq hsize, List.zip_append rfl, hself]
  exact List.take_left' rfl

theorem sequenced_self {bytes out : List (BitVec 8)}
    (hbytes : List.Forall₂ sequenced (bytes.map fun data => (data, data)) out) : out = bytes := by
  rw [List.forall₂_map_left_iff] at hbytes
  induction hbytes with
  | nil => rfl
  | cons hdata hrest ih => rw [ih, hdata.elim (fun heq => heq) (fun heq => heq)]

theorem sends_of_sequenced (hsize : 14 ≤ frame.size.toNat)
    (hbytes : List.Forall₂ sequenced frame.template out) : BlastSends frame out := by
  have hlength : out.length = 42 + frame.size.toNat := by
    rw [← hbytes.length_eq, length_template hsize]
  have hrest : (out.drop 42).length = frame.size.toNat := by
    rw [List.length_drop, hlength, Nat.add_sub_cancel_left]
  have hhead : out.take 42 = frame.headers := by
    have hbegin := List.forall₂_take 42 hbytes
    rw [template_take hsize] at hbegin
    exact sequenced_self hbegin
  have hout : out = udpFrame frame.target.our frame.id frame.target.dstMac frame.target.dstIp
      frame.target.srcPort frame.target.dstPort (out.drop 42) := by
    rw [udpFrame, hrest, ← headers, ← hhead, List.take_append_drop]
  have hshort : (out.drop 42).length ≤ 65507 := by
    have hlt := frame.size.isLt
    omega
  have hcarries := @udpFrame_carries frame.target.our frame.id frame.target.dstMac
    frame.target.dstIp frame.target.srcPort frame.target.dstPort _ hshort
  rw [← hout] at hcarries
  exact ⟨hlength, hcarries, hbytes⟩

end BlastFrame

namespace UdpBlastBench

variable {params : UdpBlastParams} {bench : UdpBlastBench} {i : UdpBlastIn}

/-- The state of a run: where the generator is, which sequence number its frame has, and what
is out. -/
structure Holds (bench : UdpBlastBench) : Prop where
  phase : bench.Phase
  sized : ∀ frame ∈ bench.started, 14 ≤ frame.size.toNat
  seq : ∀ before frame, bench.started = before ++ [frame] → bench.blast.tx.txState ≠ .idle →
    bench.blast.cnt.seqCnt = frame.seq ∨ bench.blast.cnt.seqCnt = 0
  frames : (sender BlastFrame.template bench).Holds sequenced

theorem holds_start : start.Holds where
  phase := .resting ⟨rfl, rfl, rfl⟩
  sized := fun _ hmem => absurd hmem List.not_mem_nil
  seq := fun _ _ _ hbusy => absurd rfl hbusy
  frames := ⟨fun _ => ⟨rfl, .nil⟩, fun hne => absurd rfl hne⟩

theorem Holds.fits (hholds : bench.Holds) : bench.Fits sequenced BlastFrame.template where
  length := fun _ hsize => BlastFrame.length_template hsize
  data := by
    intro before frame hstarted hbusy place hplace
    have hsize : 12 ≤ frame.size.toNat := by
      have hmem : frame ∈ bench.started := by
        rw [hstarted]
        exact List.mem_append_right _ (List.mem_singleton.mpr rfl)
      exact (Nat.le_add_left 12 2).trans (hholds.sized frame hmem)
    have hlt : ∀ seq, place < (frame.bytes seq).length := by
      intro seq
      rw [BlastFrame.template, List.length_zip, BlastFrame.length_bytes hsize,
        BlastFrame.length_bytes hsize, Nat.min_self] at hplace
      rw [BlastFrame.length_bytes hsize]
      exact hplace
    rw [List.getD_eq_getElem _ _ (hlt _)]
    simp only [BlastFrame.template, List.getElem_zip, sequenced]
    rcases hholds.seq before frame hstarted hbusy with hseq | hseq
    · simp only [hseq, true_or]
    · simp only [hseq, or_true]

/-- The sequence number of a frame stays, or goes back to 0. -/
theorem seq_step (hholds : bench.Holds) (hturn : Turn params bench i) (before : List BlastFrame)
    (frame : BlastFrame) (hstarted' : (bench.step params i).started = before ++ [frame])
    (hbusy : (bench.step params i).blast.tx.txState ≠ .idle) :
    (bench.step params i).blast.cnt.seqCnt = frame.seq ∨
      (bench.step params i).blast.cnt.seqCnt = 0 := by
  have hseq : (bench.step params i).blast.cnt.seqCnt =
      if bench.blast.ends i then bench.blast.cnt.seqCnt + 1
      else if bench.blast.enableRises i then 0
      else bench.blast.cnt.seqCnt := rfl
  cases hturn with
  | rests hresting hstarts hstarted hnext => exact absurd hnext.idle hbusy
  | begins hresting hstarts hsized hstarted hnext hplace =>
      rw [hstarted] at hstarted'
      have hframe := (List.append_inj' hstarted' rfl).2
      rw [UdpBlast.ends_of_idle hresting.idle, if_neg Bool.false_ne_true] at hseq
      rw [← List.singleton_inj.mp hframe]
      exact .inl hseq
  | walks before' frame' hframe htarget hwalking hstarted hnext hplace hends =>
      rw [hstarted] at hstarted'
      rw [hends, if_neg Bool.false_ne_true] at hseq
      rw [hseq]
      split
      · exact .inr rfl
      · exact hholds.seq before frame hstarted' hwalking.busy
  | ends before' frame' hframe htarget hwalking hstarted htaken hlast hnext hends =>
      exact absurd hnext.idle hbusy

theorem sized_step (hholds : bench.Holds) (hsteady : bench.Steady params i) :
    ∀ frame ∈ (bench.step params i).started, 14 ≤ frame.size.toNat := by
  intro frame hmem
  rw [step] at hmem
  simp only at hmem
  split at hmem
  · rename_i hstarts
    rcases List.mem_append.mp hmem with hmem | hmem
    · exact hholds.sized frame hmem
    · rw [List.mem_singleton.mp hmem]
      exact hsteady.1 hstarts
  · exact hholds.sized frame hmem

theorem holds_step (hholds : bench.Holds) (hsteady : bench.Steady params i) :
    (bench.step params i).Holds := by
  have hturn := hholds.phase.turn hsteady
  exact ⟨hturn.phase, sized_step hholds hsteady, seq_step hholds hturn,
    hholds.frames.moves (hturn.moves hholds.fits)⟩

/-- The frames that are out are whole datagrams. -/
theorem sends_done {done : List BlastFrame} {whole : List (List (BitVec 8))}
    (hsized : ∀ frame ∈ done, 14 ≤ frame.size.toNat)
    (hwhole : List.Forall₂ (List.Forall₂ sequenced) (done.map BlastFrame.template) whole) :
    List.Forall₂ BlastSends done whole := by
  rw [List.forall₂_map_left_iff] at hwhole
  induction hwhole with
  | nil => exact .nil
  | cons hframe hrest ih =>
      exact .cons (BlastFrame.sends_of_sequenced (hsized _ List.mem_cons_self) hframe)
        (ih fun frame hmem => hsized frame (List.mem_cons_of_mem _ hmem))

theorem rest_le (hholds : bench.Holds) {limit : Nat}
    (hlimit : ∀ frame ∈ bench.started, frame.size.toNat ≤ limit) :
    (sender BlastFrame.template bench).rest.length ≤ 42 + limit := by
  cases hholds.phase with
  | resting hresting =>
      rw [rest_idle hresting.idle]
      exact Nat.zero_le _
  | sending before frame hstarted hheld hwalking =>
      have hmem : frame ∈ bench.started := by
        rw [hstarted]
        exact List.mem_append_right _ (List.mem_singleton.mpr rfl)
      have hsize := hlimit frame hmem
      rw [rest_busy hwalking.busy hstarted, List.length_drop,
        BlastFrame.length_template hwalking.sized]
      omega

/-- While each frame is begun with at least 14 bytes of payload and the addresses and ports
stay, what comes out is the frames begun, one after the other and each once, and a frame is
out when the receiver has been ready often enough. -/
theorem udpBlast_run (params : UdpBlastParams) {first last : List UdpBlastIn}
    (hsteady : Along (step params) (Steady params) start (first ++ last)) :
    let earlier := runFrom (step params) start first
    let bench := runFrom (step params) start (first ++ last)
    (∃ done owed part, bench.started = done ++ owed ∧
      List.Forall₂ BlastSends done bench.sent.whole ∧
      List.Forall₂ sequenced part bench.sent.part ∧
      part <+: (owed.map BlastFrame.template).headD []) ∧
    ∀ limit, (∀ frame ∈ earlier.started, frame.size.toNat ≤ limit) →
      43 + limit ≤ last.countP UdpBlastIn.txReady →
      earlier.started.length ≤ bench.sent.whole.length := by
  have hstep : ∀ (bench : UdpBlastBench) (i : UdpBlastIn), bench.Steady params i →
      bench.Holds → (bench.step params i).Holds := fun _ _ hok hholds => holds_step hholds hok
  have hholds := invariant_along hstep holds_start hsteady
  refine ⟨?_, fun limit hlimit henough => ?_⟩
  · obtain ⟨done, owed, part, hstarted, hwhole, hpart, hbegin⟩ := hholds.frames.out
    obtain ⟨first, rest, hsplit, hfirst, hrest⟩ := List.map_eq_append_iff.mp hstarted
    rw [← hfirst] at hwhole
    rw [← hrest] at hbegin
    refine ⟨first, rest, part, hsplit, sends_done (fun frame hmem => ?_) hwhole, hpart, hbegin⟩
    exact hholds.sized frame (by rw [hsplit]; exact List.mem_append_left _ hmem)
  · obtain ⟨hfirst, hlast⟩ := along_append.mp hsteady
    have hbefore := invariant_along hstep holds_start hfirst
    have hrest := rest_le hbefore hlimit
    have hcount : (runFrom (step params) start first).started.length =
      (sender BlastFrame.template (runFrom (step params) start first)).started.length :=
        (List.length_map _).symm
    rw [runFrom_append, hcount]
    exact FrameSender.sent_along (sender BlastFrame.template) UdpBlastIn.txReady hstep
      (fun _ _ hok hholds => (hholds.phase.turn hok).moves hholds.fits) hlast hbefore
      hbefore.frames (Nat.le_refl _) (by omega)

def blastTarget : BlastTarget :=
  ⟨⟨0x020000000001, 0x0A000001⟩, 0x020000000002, 0x0A000002, 5001, 5001⟩

def blastCycle (enable txReady : Bool) : UdpBlastIn := ⟨blastTarget, 14, enable, 3, txReady⟩

/-- `enable` falls and rises during the frame, and the receiver stalls on its last bytes. -/
theorem udpBlast_run_stall :
    let first := [blastCycle true true, blastCycle false true, blastCycle true false]
    let last := List.replicate 53 (blastCycle true true) ++
      List.replicate 9 (blastCycle false false) ++ List.replicate 4 (blastCycle false true)
    let bench := runFrom (step ⟨0, 125⟩) start (first ++ last)
    1 ≤ bench.sent.whole.length ∧
      (∃ done owed part, bench.started = done ++ owed ∧
        List.Forall₂ BlastSends done bench.sent.whole ∧
        List.Forall₂ sequenced part bench.sent.part ∧
        part <+: (owed.map BlastFrame.template).headD []) := by
  intro first last bench
  have hsteady : Along (step ⟨0, 125⟩) (Steady ⟨0, 125⟩) start (first ++ last) := by
    decide +kernel
  obtain ⟨hframes, hout⟩ := udpBlast_run ⟨0, 125⟩ hsteady
  have hbegun : (runFrom (step ⟨0, 125⟩) start first).started.length = 1 := by decide +kernel
  have hlimit : ∀ frame ∈ (runFrom (step ⟨0, 125⟩) start first).started,
      frame.size.toNat ≤ 14 := by decide +kernel
  exact ⟨hbegun.symm.le.trans (hout 14 hlimit (by decide +kernel)), hframes⟩

end UdpBlastBench

end EmacZero
