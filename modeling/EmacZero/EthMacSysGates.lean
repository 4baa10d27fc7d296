/-
The gates of `eth_mac_sys`: `CTRL[0]` opens and shuts the transmit stream, `CTRL[1]`
the receive stream, each between two frames only.
-/
import Mathlib.Data.List.Chain
import EmacZero.EthMacRxDelivery

namespace EmacZero

universe u

/-- `tx_en_eff` and `tx_mid`, or `rx_en_eff` and `rx_mid`. -/
structure EnGate where
  enEff : Bool
  mid : Bool
deriving Repr, DecidableEq

namespace EnGate

def reset (txrxEnAtReset : Bool) : EnGate := ⟨txrxEnAtReset, false⟩

section Edge

variable (gate : EnGate) (handshake tlast hold cfgEn : Bool)

/-- `tx_mid_next`, `rx_mid_next` -/
def midNext : Bool := if handshake then !tlast else gate.mid

def clkEdge : EnGate where
  enEff := if !gate.midNext handshake tlast && !hold then cfgEn else gate.enEff
  mid := gate.midNext handshake tlast

end Edge

end EnGate

/-- The words end in the middle of a frame. -/
def partWay {W : Type u} (tlast : W → Bool) (words : List W) : Bool :=
  words.getLast?.any fun word => !tlast word

theorem partWay_concat {W : Type u} (tlast : W → Bool) (words : List W) (word : W) :
    partWay tlast (words ++ [word]) = !tlast word := by
  simp [partWay]

/-- A gate in a run of frames: it stays while a word is held or a frame is part-way, and
takes the enable bit otherwise. -/
theorem EnGate.enEff_clkEdge (gate : EnGate) {handshake tlast hold cfgEn : Bool} :
    (gate.clkEdge handshake tlast hold cfgEn).enEff =
      if gate.midNext handshake tlast = false ∧ hold = false then cfgEn else gate.enEff := by
  cases hmid : gate.midNext handshake tlast <;> cases hhold : hold <;>
    simp [EnGate.clkEdge, hmid]

/-! The transmit side. -/

/-- What the source offers, what the inserter and the framer answer, and `CTRL[0]`. -/
structure SysTxIn where
  sAxisTdata : BitVec 8
  sAxisTvalid : Bool
  sAxisTlast : Bool
  csumSTready : Bool
  userTxTready : Bool
  cfgTxEn : Bool
deriving Repr, DecidableEq

/-- The gate, the bytes that the source has handed over and those that the core has
taken, each with its TLAST. -/
structure TxGateBench where
  gate : EnGate
  accepted : List (BitVec 8 × Bool)
  passed : List (BitVec 8 × Bool)
deriving Repr, DecidableEq

namespace TxGateBench

def start (txrxEnAtReset : Bool) : TxGateBench := ⟨.reset txrxEnAtReset, [], []⟩

section Edge

variable (txCsumOffload : Bool) (bench : TxGateBench) (i : SysTxIn)

/-- The core takes bytes through the inserter, if there is one. -/
def coreTready : Bool := if txCsumOffload then i.csumSTready else i.userTxTready

def sAxisTvalidGated : Bool := i.sAxisTvalid && bench.gate.enEff

def sAxisTready : Bool := coreTready txCsumOffload i && bench.gate.enEff

def txHold : Bool :=
  i.sAxisTvalid && bench.gate.enEff && !bench.sAxisTready txCsumOffload i

def step : TxGateBench where
  gate := bench.gate.clkEdge (i.sAxisTvalid && bench.sAxisTready txCsumOffload i)
    i.sAxisTlast (bench.txHold txCsumOffload i) i.cfgTxEn
  accepted :=
    if i.sAxisTvalid && bench.sAxisTready txCsumOffload i then
      bench.accepted ++ [(i.sAxisTdata, i.sAxisTlast)]
    else bench.accepted
  passed :=
    if bench.sAxisTvalidGated i && coreTready txCsumOffload i then
      bench.passed ++ [(i.sAxisTdata, i.sAxisTlast)]
    else bench.passed

/-- The frames of the source reach the core whole or not at all. -/
structure Atomic : Prop where
  /-- What the source hands over is what the core takes. -/
  same : bench.passed = bench.accepted
  /-- A frame that has begun is not stopped: the core and the source see each other. -/
  through : partWay Prod.snd bench.accepted = true → ∀ i,
    bench.sAxisTvalidGated i = i.sAxisTvalid ∧
      bench.sAxisTready txCsumOffload i = coreTready txCsumOffload i
  /-- While the gate is shut neither sees the other. -/
  shut : bench.gate.enEff = false → ∀ i,
    bench.sAxisTvalidGated i = false ∧ bench.sAxisTready txCsumOffload i = false
  /-- A byte on offer to the core stays there for as long as the source offers it. -/
  offered : ∀ i, bench.sAxisTvalidGated i = true → coreTready txCsumOffload i = false →
    ∀ next, (bench.step txCsumOffload i).sAxisTvalidGated next = next.sAxisTvalid
  /-- The gate moves between two frames, and there it follows the enable bit. -/
  boundary : ∀ i, bench.txHold txCsumOffload i = false →
    partWay Prod.snd (bench.step txCsumOffload i).accepted = false →
    (bench.step txCsumOffload i).gate.enEff = i.cfgTxEn
  settled : ∀ i, (bench.step txCsumOffload i).gate.enEff ≠ bench.gate.enEff →
    partWay Prod.snd (bench.step txCsumOffload i).accepted = false

end Edge

/-- What the registers of the gate know. -/
structure Tracks (bench : TxGateBench) : Prop where
  same : bench.passed = bench.accepted
  mid : bench.gate.mid = partWay Prod.snd bench.accepted
  opened : bench.gate.mid = true → bench.gate.enEff = true

variable {bench : TxGateBench} {txCsumOffload : Bool}

/-- The gate's record of a frame part-way is that of the bytes handed over. -/
theorem midNext_step (htracks : bench.Tracks) (i : SysTxIn) :
    bench.gate.midNext (i.sAxisTvalid && bench.sAxisTready txCsumOffload i) i.sAxisTlast =
      partWay Prod.snd (bench.step txCsumOffload i).accepted := by
  cases htaken : i.sAxisTvalid && bench.sAxisTready txCsumOffload i with
  | false => simp [EnGate.midNext, step, htaken, htracks.mid]
  | true => simp [EnGate.midNext, step, htaken, partWay_concat]

/-- A byte is handed over only through an open gate. -/
theorem enEff_of_taken {i : SysTxIn}
    (htaken : (i.sAxisTvalid && bench.sAxisTready txCsumOffload i) = true) :
    bench.gate.enEff = true := by
  simp only [sAxisTready, Bool.and_eq_true] at htaken
  exact htaken.2.2

theorem Tracks.step (htracks : bench.Tracks) (i : SysTxIn) :
    (bench.step txCsumOffload i).Tracks := by
  have hsame : (i.sAxisTvalid && bench.sAxisTready txCsumOffload i) =
      (bench.sAxisTvalidGated i && coreTready txCsumOffload i) := by
    rw [sAxisTready, sAxisTvalidGated, Bool.and_assoc, Bool.and_comm bench.gate.enEff]
  constructor
  · change (if _ then _ else _) = if _ then _ else _
    rw [hsame, htracks.same]
  · exact midNext_step htracks i
  · intro hmid
    have hnext : (bench.step txCsumOffload i).gate.enEff = bench.gate.enEff := by
      have hstay : bench.gate.midNext
          (i.sAxisTvalid && bench.sAxisTready txCsumOffload i) i.sAxisTlast = true := hmid
      exact bench.gate.enEff_clkEdge.trans (if_neg (by simp [hstay]))
    rw [hnext]
    cases htaken : i.sAxisTvalid && bench.sAxisTready txCsumOffload i with
    | true => exact enEff_of_taken htaken
    | false =>
        apply htracks.opened
        change bench.gate.midNext _ _ = true at hmid
        rwa [htaken] at hmid

theorem Tracks.atomic (htracks : bench.Tracks) : bench.Atomic txCsumOffload where
  same := htracks.same
  through hpart i := by
    rw [← htracks.mid] at hpart
    simp [sAxisTvalidGated, sAxisTready, htracks.opened hpart]
  shut hshut i := by simp [sAxisTvalidGated, sAxisTready, hshut]
  offered i hvalid hstall next := by
    simp only [sAxisTvalidGated, Bool.and_eq_true] at hvalid
    have hhold : bench.txHold txCsumOffload i = true := by
      simp [txHold, sAxisTready, hvalid.1, hvalid.2, hstall]
    have hstays : (bench.step txCsumOffload i).gate.enEff = bench.gate.enEff :=
      bench.gate.enEff_clkEdge.trans (if_neg (by simp [hhold]))
    simp [sAxisTvalidGated, hstays, hvalid.2]
  boundary i hhold hwhole := by
    rw [← midNext_step htracks i] at hwhole
    exact bench.gate.enEff_clkEdge.trans (if_pos ⟨hwhole, hhold⟩)
  settled i hmoved := by
    rw [← midNext_step htracks i]
    apply Bool.eq_false_iff.mpr
    intro hmid
    exact hmoved (bench.gate.enEff_clkEdge.trans (if_neg (by simp [hmid])))

theorem tracks_start (txrxEnAtReset : Bool) : (start txrxEnAtReset).Tracks where
  same := rfl
  mid := rfl
  opened hmid := by cases hmid

theorem atomic_cycles (txCsumOffload txrxEnAtReset : Bool) (cycles : List SysTxIn) :
    (runFrom (step txCsumOffload) (start txrxEnAtReset) cycles).Atomic txCsumOffload :=
  (invariant_runFrom (fun _ i htracks => htracks.step i) (tracks_start txrxEnAtReset)
    cycles).atomic

end TxGateBench

/-! The receive side. -/

/-- The output register keeps a word that is not taken. -/
theorem SyncFifo.doutR_clkEdge {W : Type u} {addrWidth : Nat} {fifo : SyncFifo W addrWidth}
    (hvalid : fifo.doutValidR = true) (wrEn : Bool) (wrData : W) :
    (fifo.clkEdge wrEn wrData false).doutValidR = true ∧
      (fifo.clkEdge wrEn wrData false).doutR = fifo.doutR := by
  simp [SyncFifo.clkEdge, SyncFifo.issueRead, SyncFifo.pop, hvalid]

theorem WellFormed.not_last {frame : List MacWord} (hframe : WellFormed frame) :
    ∀ word ∈ frame.dropLast, word.last = false := by
  obtain ⟨front, word, rfl, -, hfront⟩ := hframe.last
  rwa [List.dropLast_concat]

/-- The pins of the receiver, `m_axis_tready` of the consumer among them, and `CTRL[1]`. -/
structure SysRxIn where
  pins : EthMacRxIn
  cfgRxEn : Bool
deriving Repr, DecidableEq

/-- The receiver behind its gate; the words of its own stream, each with the gate as it
was then; and the words that the consumer has taken. -/
structure RxGateBench (params : EthMacRxParams) where
  mac : MacRxBench params
  gate : EnGate
  routed : List (MacWord × Bool)
  delivered : List MacWord

namespace RxGateBench

variable {params : EthMacRxParams}

def start (mem : BitVec params.axisFifoAddrWidth → MacWord) (doutR : MacWord)
    (txrxEnAtReset : Bool) : RxGateBench params :=
  ⟨.start mem doutR, .reset txrxEnAtReset, [], []⟩

section Edge

variable (bench : RxGateBench params) (i : SysRxIn)

/-- `m_axis_tready_mac` -/
def mAxisTreadyMac : Bool := if bench.gate.enEff then i.pins.mAxisTready else true

/-- The pins as the receiver has them. -/
def macPins : EthMacRxIn := { i.pins with mAxisTready := bench.mAxisTreadyMac i }

/-- `m_axis_tvalid_mac` -/
def mAxisTvalidMac : Bool := bench.mac.rx.fifo.doutValidR

def mAxisTvalid : Bool := bench.mAxisTvalidMac && bench.gate.enEff

/-- `m_axis_tdata`, `m_axis_tlast`, `m_axis_terror` and `m_axis_tsof` -/
def mAxisWord : MacWord := bench.mac.rx.fifo.doutR

def rxHold : Bool := bench.mAxisTvalidMac && bench.gate.enEff && !i.pins.mAxisTready

def step : RxGateBench params where
  mac := bench.mac.step (bench.macPins i)
  gate := bench.gate.clkEdge (bench.mAxisTvalidMac && bench.mAxisTreadyMac i)
    bench.mAxisWord.last (bench.rxHold i) i.cfgRxEn
  routed :=
    if bench.mAxisTvalidMac && bench.mAxisTreadyMac i then
      bench.routed ++ [(bench.mAxisWord, bench.gate.enEff)]
    else bench.routed
  delivered :=
    if bench.mAxisTvalid && i.pins.mAxisTready then bench.delivered ++ [bench.mAxisWord]
    else bench.delivered

end Edge

/-- The words of a frame, delivered or drained. -/
def routes (frame : List MacWord × Bool) : List (MacWord × Bool) :=
  frame.1.map fun word => (word, frame.2)

/-- The frames of the receiver's stream reach the consumer whole or not at all. -/
structure Atomic (bench : RxGateBench params) : Prop where
  /-- Every frame of the stream goes one way, to the consumer or to the drain. -/
  whole : ∃ (frames : List (List MacWord × Bool)) (part : List MacWord × Bool),
    bench.routed = frames.flatMap routes ++ routes part ∧
    (∀ frame ∈ frames, WellFormed frame.1) ∧ Begins part.1
  stream : bench.mac.taken = bench.routed.map Prod.fst
  delivered : bench.delivered = (bench.routed.filter Prod.snd).map Prod.fst
  framed : Framed bench.delivered
  /-- A word on offer stays. -/
  offered : ∀ i, bench.mAxisTvalid = true → i.pins.mAxisTready = false →
    (bench.step i).mAxisTvalid = true ∧ (bench.step i).mAxisWord = bench.mAxisWord
  /-- The gate moves between two frames, and there it follows the enable bit. -/
  boundary : ∀ i, bench.rxHold i = false →
    partWay MacWord.last (bench.step i).mac.taken = false →
    (bench.step i).gate.enEff = i.cfgRxEn
  settled : ∀ i, (bench.step i).gate.enEff ≠ bench.gate.enEff →
    partWay MacWord.last (bench.step i).mac.taken = false

/-- What the registers of the gate know, and what the gate does to two words in a row. -/
structure Tracks (bench : RxGateBench params) : Prop where
  stream : bench.mac.taken = bench.routed.map Prod.fst
  delivered : bench.delivered = (bench.routed.filter Prod.snd).map Prod.fst
  mid : bench.gate.mid = partWay MacWord.last bench.mac.taken
  chain : bench.routed.IsChain fun word next => word.1.last = false → next.2 = word.2
  latest : bench.gate.mid = true → ∀ word ∈ bench.routed.getLast?,
    bench.gate.enEff = word.2

variable {bench : RxGateBench params}

/-- The receiver hands a word over when the gate takes it. -/
theorem mAxisTaken_macPins (bench : RxGateBench params) (i : SysRxIn) :
    bench.mac.rx.mAxisTaken (bench.macPins i) =
      (bench.mAxisTvalidMac && bench.mAxisTreadyMac i) := rfl

theorem taken_step (bench : RxGateBench params) (i : SysRxIn) :
    (bench.step i).mac.taken =
      if bench.mAxisTvalidMac && bench.mAxisTreadyMac i then
        bench.mac.taken ++ [bench.mAxisWord]
      else bench.mac.taken := rfl

theorem midNext_step (htracks : bench.Tracks) (i : SysRxIn) :
    bench.gate.midNext (bench.mAxisTvalidMac && bench.mAxisTreadyMac i)
        bench.mAxisWord.last =
      partWay MacWord.last (bench.step i).mac.taken := by
  rw [taken_step]
  cases htaken : bench.mAxisTvalidMac && bench.mAxisTreadyMac i with
  | false => simp [EnGate.midNext, htracks.mid]
  | true => simp [EnGate.midNext, partWay_concat]

/-- The consumer takes what the receiver hands over through an open gate. -/
theorem delivered_step (htracks : bench.Tracks) (i : SysRxIn) :
    (bench.step i).delivered = ((bench.step i).routed.filter Prod.snd).map Prod.fst := by
  cases hen : bench.gate.enEff <;> cases hvalid : bench.mAxisTvalidMac <;>
    cases hready : i.pins.mAxisTready <;>
    simp [step, mAxisTvalid, mAxisTreadyMac, hen, hvalid, hready, htracks.delivered]

theorem Tracks.step (htracks : bench.Tracks) (i : SysRxIn) : (bench.step i).Tracks := by
  have hmid := midNext_step htracks i
  have hpart := htracks.mid
  rw [htracks.stream, partWay, List.getLast?_map] at hpart
  refine ⟨?_, delivered_step htracks i, hmid, ?_, ?_⟩
  · rw [taken_step]
    dsimp only [RxGateBench.step]
    split
    · rw [htracks.stream, List.map_append]
      rfl
    · exact htracks.stream
  · dsimp only [RxGateBench.step]
    split
    · apply htracks.chain.append (List.isChain_singleton _)
      intro word hword next hnext hmore
      obtain rfl := Option.some.inj hnext
      apply htracks.latest _ word hword
      rw [hpart, hword]
      simp [hmore]
    · exact htracks.chain
  · intro hgoes word hword
    have hstays : (bench.step i).gate.enEff = bench.gate.enEff := by
      have hgoes' : bench.gate.midNext (bench.mAxisTvalidMac && bench.mAxisTreadyMac i)
          bench.mAxisWord.last = true := hgoes
      exact bench.gate.enEff_clkEdge.trans (if_neg (by simp [hgoes']))
    rw [hstays]
    cases htaken : bench.mAxisTvalidMac && bench.mAxisTreadyMac i with
    | true =>
        simp only [RxGateBench.step, htaken, if_true, List.getLast?_concat,
          Option.mem_some_iff] at hword
        rw [← hword]
    | false =>
        simp only [RxGateBench.step, htaken, Bool.false_eq_true, if_false] at hword
        apply htracks.latest _ word hword
        change bench.gate.midNext _ _ = true at hgoes
        rwa [htaken] at hgoes

/-- Words of one frame go one way. -/
theorem uniform_of_chain {words : List (MacWord × Bool)}
    (hchain : words.IsChain fun word next => word.1.last = false → next.2 = word.2)
    (hmore : ∀ word ∈ (words.map Prod.fst).dropLast, word.last = false) :
    ∃ way, words = routes (words.map Prod.fst, way) := by
  induction words with
  | nil => exact ⟨true, rfl⟩
  | cons first rest ih =>
      cases rest with
      | nil => exact ⟨first.2, rfl⟩
      | cons second rest =>
          rw [List.map_cons, List.map_cons, List.dropLast_cons_cons] at hmore
          obtain ⟨hsame, hrest⟩ := List.isChain_cons_cons.mp hchain
          obtain ⟨way, hway⟩ := ih hrest fun word hword =>
            hmore word (List.mem_cons_of_mem _ hword)
          have hsecond : second.2 = way := congrArg Prod.snd (List.cons.inj hway).1
          have hfirst : first.2 = way :=
            (hsame (hmore first.1 List.mem_cons_self)).symm.trans hsecond
          refine ⟨way, ?_⟩
          rw [List.map_cons, routes, List.map_cons, ← hfirst]
          rw [← hfirst] at hway
          exact congrArg (first :: ·) hway

/-- Whole frames, and the beginning of one more, go one way each. -/
theorem whole_of_chain {words : List (MacWord × Bool)}
    (hchain : words.IsChain fun word next => word.1.last = false → next.2 = word.2)
    (hframed : Framed (words.map Prod.fst)) :
    ∃ (frames : List (List MacWord × Bool)) (part : List MacWord × Bool),
      words = frames.flatMap routes ++ routes part ∧
      (∀ frame ∈ frames, WellFormed frame.1) ∧ Begins part.1 := by
  obtain ⟨frames, part, hsplit, hwell, hpart⟩ := hframed
  induction frames generalizing words with
  | nil =>
      have hmap : words.map Prod.fst = part := hsplit
      obtain ⟨way, hway⟩ := uniform_of_chain hchain fun word hword =>
        hpart.last word (hmap ▸ List.dropLast_subset _ hword)
      exact ⟨[], (part, way), by rw [← hmap]; exact hway, by simp, hpart⟩
  | cons frame frames ih =>
      rw [List.flatten_cons, List.append_assoc] at hsplit
      obtain ⟨here, rest, rfl, hhere, hrest⟩ := List.map_eq_append_iff.mp hsplit
      have hframe := hwell frame List.mem_cons_self
      obtain ⟨way, hway⟩ := uniform_of_chain hchain.left_of_append fun word hword =>
        hframe.not_last word (hhere ▸ hword)
      obtain ⟨others, last, hothers, hwells, hlast⟩ := ih hchain.right_of_append hrest
        fun other hother => hwell other (List.mem_cons_of_mem _ hother)
      refine ⟨(frame, way) :: others, last, ?_, ?_, hlast⟩
      · rw [List.flatMap_cons, List.append_assoc, ← hothers, ← hhere]
        exact congrArg (· ++ rest) hway
      · intro other hother
        rcases List.mem_cons.mp hother with rfl | hother
        · exact hframe
        · exact hwells other hother

theorem filter_routes (frame : List MacWord × Bool) :
    ((routes frame).filter Prod.snd).map Prod.fst = if frame.2 then frame.1 else [] := by
  obtain ⟨words, way⟩ := frame
  cases way with
  | false => simp [routes]
  | true => simp [routes, List.filter_map, Function.comp_def]

theorem filter_frames (frames : List (List MacWord × Bool)) :
    ((frames.flatMap routes).filter Prod.snd).map Prod.fst =
      ((frames.filter Prod.snd).map Prod.fst).flatten := by
  induction frames with
  | nil => rfl
  | cons frame frames ih =>
      rw [List.flatMap_cons, List.filter_append, List.map_append, filter_routes, ih]
      cases hway : frame.2 <;> simp [hway]

/-- What is delivered of whole frames is whole frames. -/
theorem framed_filter {words : List (MacWord × Bool)}
    {frames : List (List MacWord × Bool)} {part : List MacWord × Bool}
    (hwords : words = frames.flatMap routes ++ routes part)
    (hwell : ∀ frame ∈ frames, WellFormed frame.1) (hpart : Begins part.1) :
    Framed ((words.filter Prod.snd).map Prod.fst) := by
  refine ⟨(frames.filter Prod.snd).map Prod.fst, if part.2 then part.1 else [], ?_, ?_, ?_⟩
  · rw [hwords, List.filter_append, List.map_append, filter_frames, filter_routes]
  · intro frame hframe
    obtain ⟨routed, hrouted, rfl⟩ := List.mem_map.mp hframe
    exact hwell routed (List.mem_of_mem_filter hrouted)
  · split
    · exact hpart
    · exact begins_nil

theorem Tracks.atomic (htracks : bench.Tracks) (hframed : Framed bench.mac.taken) :
    bench.Atomic := by
  obtain ⟨frames, part, hrouted, hwell, hpart⟩ :=
    whole_of_chain htracks.chain (htracks.stream ▸ hframed)
  refine ⟨⟨frames, part, hrouted, hwell, hpart⟩, htracks.stream, htracks.delivered, ?_, ?_,
    ?_, ?_⟩
  · rw [htracks.delivered]
    exact framed_filter hrouted hwell hpart
  · intro i hvalid hstall
    simp only [mAxisTvalid, Bool.and_eq_true] at hvalid
    obtain ⟨hmac, hopen⟩ := hvalid
    have hhold : bench.rxHold i = true := by simp [rxHold, hmac, hopen, hstall]
    have hstays : (bench.step i).gate.enEff = bench.gate.enEff :=
      bench.gate.enEff_clkEdge.trans (if_neg (by simp [hhold]))
    have hready : (bench.macPins i).mAxisTready = false := by
      simp [macPins, mAxisTreadyMac, hopen, hstall]
    obtain ⟨hvalid, hword⟩ := SyncFifo.doutR_clkEdge hmac bench.mac.rx.pushEnR
      bench.mac.rx.pushR
    rw [← hready] at hvalid hword
    refine ⟨?_, hword⟩
    rw [mAxisTvalid, hstays, hopen, Bool.and_true]
    exact hvalid
  · intro i hhold hwhole
    rw [← midNext_step htracks i] at hwhole
    exact bench.gate.enEff_clkEdge.trans (if_pos ⟨hwhole, hhold⟩)
  · intro i hmoved
    rw [← midNext_step htracks i]
    apply Bool.eq_false_iff.mpr
    intro hmid
    exact hmoved (bench.gate.enEff_clkEdge.trans (if_neg (by simp [hmid])))

theorem tracks_start (mem : BitVec params.axisFifoAddrWidth → MacWord) (doutR : MacWord)
    (txrxEnAtReset : Bool) : (start mem doutR txrxEnAtReset).Tracks where
  stream := rfl
  delivered := rfl
  mid := rfl
  chain := List.IsChain.nil
  latest hmid := by cases hmid

/-- The receiver runs on the pins that its gate leaves it. -/
theorem mac_run (bench : RxGateBench params) (cycles : List SysRxIn) :
    ∃ pins, (runFrom step bench cycles).mac = runFrom MacRxBench.step bench.mac pins := by
  induction cycles generalizing bench with
  | nil => exact ⟨[], rfl⟩
  | cons i rest ih =>
      obtain ⟨pins, hpins⟩ := ih (bench.step i)
      exact ⟨bench.macPins i :: pins, hpins⟩

theorem atomic_cycles (haddr : 2 ≤ params.axisFifoAddrWidth)
    (mem : BitVec params.axisFifoAddrWidth → MacWord) (doutR : MacWord)
    (txrxEnAtReset : Bool) (cycles : List SysRxIn) :
    (runFrom step (start mem doutR txrxEnAtReset) cycles).Atomic := by
  apply (invariant_runFrom (fun _ i htracks => htracks.step i)
    (tracks_start mem doutR txrxEnAtReset) cycles).atomic
  obtain ⟨pins, hpins⟩ := mac_run (start mem doutR txrxEnAtReset) cycles
  rw [hpins]
  exact (MacRxBench.framed_run haddr mem doutR pins).2.1

end RxGateBench

/-- The frames of both directions pass the gates whole or not at all, however the enable
bits, the sources and the sinks move. -/
theorem gates_run {params : EthMacRxParams} (haddr : 2 ≤ params.axisFifoAddrWidth)
    (txCsumOffload txrxEnAtReset : Bool) (txCycles : List SysTxIn)
    (mem : BitVec params.axisFifoAddrWidth → MacWord) (doutR : MacWord)
    (rxCycles : List SysRxIn) :
    (runFrom (TxGateBench.step txCsumOffload) (TxGateBench.start txrxEnAtReset)
        txCycles).Atomic txCsumOffload ∧
      (runFrom RxGateBench.step (RxGateBench.start mem doutR txrxEnAtReset)
        rxCycles).Atomic :=
  ⟨TxGateBench.atomic_cycles txCsumOffload txrxEnAtReset txCycles,
    RxGateBench.atomic_cycles haddr mem doutR txrxEnAtReset rxCycles⟩

/-- TX is disabled while a frame of three bytes is handed over; another frame is offered behind
it. -/
def disabledTx : List SysTxIn :=
  [⟨0x11, true, false, true, true, true⟩, ⟨0x22, true, false, true, true, false⟩,
    ⟨0x33, true, true, true, true, false⟩, ⟨0x44, true, true, true, true, false⟩]

/-- The bytes of a broadcast frame. -/
def broadcastBytes (count : Nat) (cfgRxEn : Bool) : List SysRxIn :=
  ((0x55 : BitVec 8) :: 0xD5 :: List.replicate count 0xFF).map fun data =>
    ⟨wirePins true data, cfgRxEn⟩

/-- RX is disabled while a frame is taken, with the consumer stalling; another frame follows. -/
def disabledRx : List SysRxIn :=
  broadcastBytes 20 true ++ List.replicate 4 ⟨quietPins false, false⟩ ++
    broadcastBytes 12 false ++ List.replicate 30 ⟨quietPins true, false⟩

theorem gates_run_disabled :
    let params : EthMacRxParams := ⟨false, 11, 1518, 9018, false, by decide, by decide⟩
    let tx := runFrom (TxGateBench.step true) (.start true) disabledTx
    let rx : RxGateBench params :=
      runFrom RxGateBench.step (.start (fun _ => plainWord 0) (plainWord 0) true) disabledRx
    (tx.Atomic true ∧ rx.Atomic) ∧
      tx.passed = [(0x11, false), (0x22, false), (0x33, true)] ∧
      rx.delivered.length = 16 ∧ rx.routed.length = 24 :=
  ⟨gates_run (by decide) true true disabledTx _ _ disabledRx, by decide +kernel⟩

end EmacZero
