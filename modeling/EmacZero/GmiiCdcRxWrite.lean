/-
The write side of the `gmii_cdc` receive path.  A ledger follows each received
frame through the overflow policy: the bytes of it that were kept, whether its
EOF word got a slot, and what the other side will make of it.
-/
import EmacZero.AsyncFifoRefinement
import EmacZero.Envelopes
import EmacZero.GmiiCdcRx
import EmacZero.PacketQueue

namespace EmacZero

/-- The bytes of a received envelope: its cycles with `gmii_rx_ce_in`. -/
def bytesOf (frame : List GmiiRxIn) : List RxByte :=
  frame.filterMap fun beat => if beat.ce then some (beat.rxd, beat.er) else none

/-- `rx_er` came on a cycle of the envelope that carries no byte. -/
def strayError (frame : List GmiiRxIn) : Bool :=
  frame.any fun beat => !beat.ce && beat.er

theorem bytesOf_concat (frame : List GmiiRxIn) (beat : GmiiRxIn) :
    bytesOf (frame ++ [beat]) =
      bytesOf frame ++ if beat.ce then [(beat.rxd, beat.er)] else [] := by
  cases hce : beat.ce <;> simp [bytesOf, hce]

theorem strayError_concat (frame : List GmiiRxIn) (beat : GmiiRxIn) :
    strayError (frame ++ [beat]) =
      (strayError frame || (!beat.ce && beat.er)) := by
  simp [strayError]

/-- What the `sys_clk` side may make of a received frame: nothing; its bytes,
the last one marked if `rx_er` came between bytes; or a proper prefix of its
bytes with the last one marked. -/
def Replays (frame : List GmiiRxIn) (image : List RxByte) : Prop :=
  image = [] ∨ image = flagLast (bytesOf frame) (strayError frame) ∨
    ∃ count < (bytesOf frame).length,
      image = flagLast ((bytesOf frame).take count) true

/-- A frame in the FIFO: its kept bytes, then the EOF word. -/
def frameWords (commit : List RxByte × Bool) : List RxWord :=
  commit.1.map dataWord ++ [⟨true, commit.2, 0⟩]

/-- The parity of a count: what the frame toggle shows of it. -/
def oddCount (count : Nat) : Bool := count % 2 == 1

@[simp] theorem oddCount_add_one (count : Nat) :
    oddCount (count + 1) = !oddCount count := by
  simp only [oddCount]
  rcases Nat.mod_two_eq_zero_or_one count with hmod | hmod <;>
    simp [Nat.add_mod, hmod]

/-- `passed` frames have gone through the write stage, `cur` are the bytes of
the next one that have, and `kept` those of them that were accepted. -/
structure RxLedger where
  passed : List (List GmiiRxIn)
  cur : List RxByte
  kept : List RxByte
  commits : List (List RxByte × Bool)
  images : List (List RxByte)

def RxLedger.empty : RxLedger := ⟨[], [], [], [], []⟩

namespace GmiiCdcRx

variable {addrWidth : Nat} {ramStyle : RamStyle}

/-- The FIFO contents against the ledger, with the two overflow flags. -/
structure StoreSide
    (packet : PacketQueue RxWord (2 ^ addrWidth) ramStyle.staged)
    (drop room : Bool) (ledger : RxLedger) : Prop where
  frames : packet.frames = ledger.commits.map frameWords
  opened : packet.opened = ledger.kept.map dataWord
  kept : ledger.kept <+: ledger.cur
  drop : drop = decide (ledger.kept ≠ ledger.cur)
  dataRoom : room = true →
    packet.queue.words.length + 2 ≤ packet.queue.taken.second + 2 ^ addrWidth
  eofRoom : ledger.kept ≠ [] →
    packet.queue.words.length + 1 ≤ packet.queue.taken.second + 2 ^ addrWidth
  images : List.Forall₂ Replays ledger.passed ledger.images
  shown : shown ledger.images = shown (ledger.commits.map replay)

/-- The word registered at the last edge is the next one of the frame that the
ledger follows. -/
def Staged (rx : GmiiCdcRx addrWidth ramStyle) (received : Envelopes GmiiRxIn)
    (ledger : RxLedger) : Prop :=
  match rx.rxWrEn, rx.rxWrData.eof with
  | false, _ =>
      received.closed = ledger.passed ∧ bytesOf received.opened = ledger.cur
  | true, false =>
      received.closed = ledger.passed ∧
        bytesOf received.opened =
          ledger.cur ++ [(rx.rxWrData.data, rx.rxWrData.err)]
  | true, true =>
      received.opened = [] ∧
        ∃ frame, received.closed = ledger.passed ++ [frame] ∧
          bytesOf frame = ledger.cur ∧ strayError frame = rx.rxWrData.err

/-- At most the last closed envelope has not reached the write stage. -/
theorem Staged.closed_eq {rx : GmiiCdcRx addrWidth ramStyle}
    {received : Envelopes GmiiRxIn} {ledger : RxLedger}
    (hstaged : Staged rx received ledger) :
    ∃ behind, received.closed = ledger.passed ++ behind := by
  unfold Staged at hstaged
  split at hstaged
  · exact ⟨[], by simp [hstaged.1]⟩
  · exact ⟨[], by simp [hstaged.1]⟩
  · obtain ⟨-, frame, hclosed, -⟩ := hstaged
    exact ⟨[frame], hclosed⟩

/-- The write side of the receive path. -/
structure WriteSide (rx : GmiiCdcRx addrWidth ramStyle)
    (received : Envelopes GmiiRxIn)
    (packet : PacketQueue RxWord (2 ^ addrWidth) ramStyle.staged)
    (ledger : RxLedger) : Prop where
  fifo : rx.rxFifo.Refines packet.queue
  toggle : rx.rxFrameToggle = packet.committed.map oddCount
  store : StoreSide packet rx.rxDrop rx.rxDataRoom ledger
  staged : Staged rx received ledger
  dv : rx.rxDvD1 = !received.opened.isEmpty
  noce : rx.rxErNoce = strayError received.opened

theorem writeSide_reset (mem : BitVec addrWidth → RxWord) (headQ : RxWord)
    (haddr : 2 ≤ addrWidth) :
    WriteSide (reset mem headQ : GmiiCdcRx addrWidth ramStyle) .unseen .empty
      .empty := by
  have hpow : 2 ^ 2 ≤ 2 ^ addrWidth := Nat.pow_le_pow_right (by decide) haddr
  refine ⟨AsyncFifo.refines_reset mem headQ, rfl, ?_, ⟨rfl, rfl⟩, rfl, rfl⟩
  refine ⟨rfl, rfl, List.prefix_rfl, rfl, fun _ => ?_, fun _ => ?_,
    .nil, rfl⟩
  · change 0 + 2 ≤ 0 + 2 ^ addrWidth
    omega
  · change 0 + 1 ≤ 0 + 2 ^ addrWidth
    omega

section Write

variable {rx : GmiiCdcRx addrWidth ramStyle} {received : Envelopes GmiiRxIn}
variable {packet : PacketQueue RxWord (2 ^ addrWidth) ramStyle.staged}
variable {ledger : RxLedger}

/-- The store after an edge that found the FIFO's occupancy low enough. -/
theorem room_after_wrEdge (haddr : 2 ≤ addrWidth)
    (hfifo : rx.rxFifo.Refines packet.queue) (hroom : rx.rxHasRoom = true)
    (offer : Bool) (word : RxWord) (last : Bool) (skew : Skew) :
    (packet.wrEdge offer word last skew).queue.words.length + 2 ≤
      (packet.wrEdge offer word last skew).queue.taken.second +
        2 ^ addrWidth := by
  have hpow : 2 ^ 2 ≤ 2 ^ addrWidth := Nat.pow_le_pow_right (by decide) haddr
  have hdepth : (BitVec.ofNat (addrWidth + 1) (2 ^ addrWidth) - 2).toNat =
      2 ^ addrWidth - 2 := by
    have htwo : (2 : BitVec (addrWidth + 1)) = BitVec.ofNat (addrWidth + 1) 2 := rfl
    rw [htwo, toNat_ofNat_sub_ofNat (by omega) (by rw [Nat.pow_succ]; omega)]
  have hcount : packet.queue.words.length - packet.queue.taken.second <
      2 ^ addrWidth - 2 := by
    rw [rxHasRoom, decide_eq_true_eq, BitVec.lt_def, hfifo.wrDataCount_toNat,
      hdepth] at hroom
    exact hroom
  have hlate := packet.queue.taken.second_le_clock skew
  have hgrow := packet.queue.wrEdge_length_le word skew offer
  simp only [PacketQueue.wrEdge_queue, CrossingQueue.wrEdge_taken]
  omega

/-- Moving on without a word leaves the store as it was. -/
theorem StoreSide.keep (haddr : 2 ≤ addrWidth)
    (hfifo : rx.rxFifo.Refines packet.queue)
    (hstore : StoreSide packet rx.rxDrop rx.rxDataRoom ledger)
    (word : RxWord) (last : Bool) (skew : Skew) :
    StoreSide (packet.wrEdge false word last skew) rx.rxDrop rx.rxHasRoom
      ledger where
  frames := by simp [PacketQueue.wrEdge_frames, hstore.frames]
  opened := by simp [PacketQueue.wrEdge_opened, hstore.opened]
  kept := hstore.kept
  drop := hstore.drop
  dataRoom := fun hroom => room_after_wrEdge haddr hfifo hroom _ _ _ _
  eofRoom := fun hkept => by
    have hroom := hstore.eofRoom hkept
    have hlate := packet.queue.taken.second_le_clock skew
    simp only [PacketQueue.wrEdge_queue, CrossingQueue.wrEdge_taken,
      CrossingQueue.wrEdge_words_of_idle]
    omega
  images := hstore.images
  shown := hstore.shown

/-- A data word is accepted: the EOF word still has its slot. -/
theorem StoreSide.accept_data (haddr : 2 ≤ addrWidth)
    (hfifo : rx.rxFifo.Refines packet.queue)
    (hstore : StoreSide packet rx.rxDrop rx.rxDataRoom ledger)
    (hroom : rx.rxDataRoom = true) (hdrop : rx.rxDrop = false)
    (byte : RxByte) (skew : Skew) :
    StoreSide (packet.wrEdge true (dataWord byte) false skew) false
      rx.rxHasRoom
      { ledger with
        cur := ledger.cur ++ [byte]
        kept := ledger.kept ++ [byte] } := by
  have hslots := hstore.dataRoom hroom
  have hfull : ¬ packet.queue.Full := by
    intro hfull
    rw [CrossingQueue.Full] at hfull
    omega
  have haccept : packet.accepts true = true := by
    simp [PacketQueue.accepts, hfull]
  have hwhole : ledger.kept = ledger.cur := by
    simpa [hdrop] using hstore.drop
  have hlate := packet.queue.taken.second_le_clock skew
  exact
    { frames := by simp [PacketQueue.wrEdge_frames, hstore.frames]
      opened := by
        simp [PacketQueue.wrEdge_opened, haccept, hstore.opened]
      kept := by rw [hwhole]
      drop := by simp [hwhole]
      dataRoom := fun hroom' => room_after_wrEdge haddr hfifo hroom' _ _ _ _
      eofRoom := fun _ => by
        simp only [PacketQueue.wrEdge_queue, CrossingQueue.wrEdge_taken,
          CrossingQueue.wrEdge_words_of_room _ _ _ hfull, List.length_append,
          List.length_singleton]
        omega
      images := hstore.images
      shown := hstore.shown }

/-- A data word is refused: from here on the frame is a proper prefix. -/
theorem StoreSide.refuse_data (haddr : 2 ≤ addrWidth)
    (hfifo : rx.rxFifo.Refines packet.queue)
    (hstore : StoreSide packet rx.rxDrop rx.rxDataRoom ledger)
    (byte : RxByte) (word : RxWord) (last : Bool) (skew : Skew) :
    StoreSide (packet.wrEdge false word last skew) true rx.rxHasRoom
      { ledger with cur := ledger.cur ++ [byte] } := by
  have hkeep := hstore.keep haddr hfifo word last skew
  have hshort : ledger.kept ≠ ledger.cur ++ [byte] := by
    intro heq
    have hle := hstore.kept.length_le
    simp [heq] at hle
  exact
    { frames := hkeep.frames
      opened := hkeep.opened
      kept := hstore.kept.trans (List.prefix_append _ _)
      drop := by simp [hshort]
      dataRoom := hkeep.dataRoom
      eofRoom := hkeep.eofRoom
      images := hkeep.images
      shown := hkeep.shown }

/-- The frame that ends replays as its kept bytes, marked if any is missing. -/
theorem StoreSide.replays
    (hstore : StoreSide packet rx.rxDrop rx.rxDataRoom ledger)
    {frame : List GmiiRxIn} (hbytes : bytesOf frame = ledger.cur) :
    Replays frame
      (flagLast ledger.kept (rx.rxDrop || strayError frame)) := by
  by_cases hwhole : ledger.kept = ledger.cur
  · have hdrop : rx.rxDrop = false := by simp [hstore.drop, hwhole]
    right; left
    rw [hdrop, Bool.false_or, hbytes, hwhole]
  · have hdrop : rx.rxDrop = true := by simp [hstore.drop, hwhole]
    right; right
    refine ⟨ledger.kept.length, ?_, ?_⟩
    · rw [hbytes]
      refine lt_of_le_of_ne hstore.kept.length_le fun hlength => hwhole ?_
      exact hstore.kept.eq_of_length hlength
    · rw [hdrop, Bool.true_or, hbytes,
        ← List.prefix_iff_eq_take.mp hstore.kept]

/-- The EOF word is accepted and commits the frame. -/
theorem StoreSide.accept_eof (haddr : 2 ≤ addrWidth)
    (hfifo : rx.rxFifo.Refines packet.queue)
    (hstore : StoreSide packet rx.rxDrop rx.rxDataRoom ledger)
    {frame : List GmiiRxIn} (hbytes : bytesOf frame = ledger.cur)
    (hfull : ¬ packet.queue.Full) (skew : Skew) :
    let err := rx.rxDrop || strayError frame
    StoreSide (packet.wrEdge true ⟨true, err, 0⟩ true skew) false rx.rxHasRoom
      { passed := ledger.passed ++ [frame]
        cur := []
        kept := []
        commits := ledger.commits ++ [(ledger.kept, err)]
        images := ledger.images ++ [flagLast ledger.kept err] } := by
  intro err
  have haccept : packet.accepts true = true := by
    simp [PacketQueue.accepts, hfull]
  exact
    { frames := by
        simp [PacketQueue.wrEdge_frames, haccept, hstore.frames, hstore.opened,
          frameWords]
      opened := by simp [PacketQueue.wrEdge_opened, haccept]
      kept := List.prefix_rfl
      drop := rfl
      dataRoom := fun hroom => room_after_wrEdge haddr hfifo hroom _ _ _ _
      eofRoom := fun hkept => absurd rfl hkept
      images := List.rel_append hstore.images
        (.cons (hstore.replays hbytes) .nil)
      shown := by simp [hstore.shown, replay] }

/-- The EOF word is refused: none of the frame's bytes was kept. -/
theorem StoreSide.refuse_eof (haddr : 2 ≤ addrWidth)
    (hfifo : rx.rxFifo.Refines packet.queue)
    (hstore : StoreSide packet rx.rxDrop rx.rxDataRoom ledger)
    (frame : List GmiiRxIn) (hfull : packet.queue.Full) (word : RxWord)
    (last : Bool) (skew : Skew) :
    StoreSide (packet.wrEdge false word last skew) false rx.rxHasRoom
      { ledger with
        passed := ledger.passed ++ [frame]
        cur := []
        images := ledger.images ++ [[]] } := by
  have hkeep := hstore.keep haddr hfifo word last skew
  have hnone : ledger.kept = [] := by
    by_contra hkept
    have hroom := hstore.eofRoom hkept
    rw [CrossingQueue.Full] at hfull
    omega
  exact
    { frames := hkeep.frames
      opened := hkeep.opened
      kept := by simp [hnone]
      drop := by simp [hnone]
      dataRoom := hkeep.dataRoom
      eofRoom := hkeep.eofRoom
      images := List.rel_append hstore.images
        (.cons (Or.inl rfl) .nil)
      shown := by simp [hstore.shown] }

/-- What the overflow policy accepts, the FIFO does not refuse. -/
theorem WriteSide.accepts_eq (haddr : 1 ≤ addrWidth)
    (hside : WriteSide rx received packet ledger) :
    packet.accepts rx.rxWrAccept = rx.rxWrAccept := by
  cases haccept : rx.rxWrAccept with
  | false => rfl
  | true =>
      have hfull : ¬ packet.queue.Full := by
        cases heof : rx.rxWrData.eof with
        | true =>
            rw [← hside.fifo.wrFull_iff haddr]
            simp_all [rxWrAccept, rxWrIsEof]
        | false =>
            have hroom : rx.rxDataRoom = true := by
              simp_all [rxWrAccept, rxWrIsEof]
            have hslots := hside.store.dataRoom hroom
            rw [CrossingQueue.Full]
            omega
      simp [PacketQueue.accepts, hfull]

/-- The write stage takes the registered word; the ledger then covers every
beat received so far. -/
theorem WriteSide.write (haddr : 2 ≤ addrWidth)
    (hside : WriteSide rx received packet ledger) (gmii : GmiiRxIn)
    (skew : Skew) :
    ∃ next, StoreSide
        (packet.wrEdge rx.rxWrAccept rx.rxFifoDin rx.rxWrIsEof skew)
        (rx.mediaEdge gmii skew).rxDrop rx.rxHasRoom next ∧
      received.closed = next.passed ∧ bytesOf received.opened = next.cur ∧
      ledger.commits <+: next.commits := by
  have hfifo := hside.fifo
  have hstore := hside.store
  have hstaged := hside.staged
  have hfull : rx.rxFifo.wrFull = decide packet.queue.Full :=
    hfifo.wrFull_eq (Nat.le_of_succ_le haddr)
  cases hen : rx.rxWrEn with
  | false =>
      simp only [Staged, hen] at hstaged
      have haccept : rx.rxWrAccept = false := by simp [rxWrAccept, hen]
      have hdrop : (rx.mediaEdge gmii skew).rxDrop = rx.rxDrop := by
        simp [mediaEdge, rxDataRefuse, hen]
      rw [haccept, hdrop]
      exact ⟨ledger, hstore.keep haddr hfifo _ _ _, hstaged.1, hstaged.2,
        List.prefix_rfl⟩
  | true =>
      cases heof : rx.rxWrData.eof with
      | false =>
          simp only [Staged, hen, heof] at hstaged
          cases haccept : rx.rxWrAccept with
          | true =>
              have hroom : rx.rxDataRoom = true ∧ rx.rxDrop = false := by
                simpa [rxWrAccept, rxWrIsEof, hen, heof] using haccept
              have hdrop : (rx.mediaEdge gmii skew).rxDrop = false := by
                simp [mediaEdge, rxDataRefuse, hen, haccept, hroom.2]
              have hword : rx.rxFifoDin =
                  dataWord (rx.rxWrData.data, rx.rxWrData.err) := by
                rw [rxFifoDin, rxWrIsEof, heof]
                exact eq_dataWord heof
              rw [hdrop, hword, rxWrIsEof, heof]
              exact ⟨_, hstore.accept_data haddr hfifo hroom.1 hroom.2 _ skew,
                hstaged.1, hstaged.2, List.prefix_rfl⟩
          | false =>
              have hdrop : (rx.mediaEdge gmii skew).rxDrop = true := by
                simp [mediaEdge, rxDataRefuse, rxWrIsEof, hen, heof, haccept]
              rw [hdrop]
              exact ⟨_, hstore.refuse_data haddr hfifo _ _ _ skew,
                hstaged.1, hstaged.2, List.prefix_rfl⟩
      | true =>
          simp only [Staged, hen, heof] at hstaged
          obtain ⟨hidle, frame, hclosed, hbytes, herr⟩ := hstaged
          have haccept : rx.rxWrAccept = !rx.rxFifo.wrFull := by
            simp [rxWrAccept, rxWrIsEof, hen, heof]
          have hdrop : (rx.mediaEdge gmii skew).rxDrop = false := by
            simp [mediaEdge, rxWrIsEof, hen, heof]
          have hword : rx.rxFifoDin =
              ⟨true, rx.rxDrop || strayError frame, 0⟩ := by
            simp [rxFifoDin, rxWrIsEof, rxDataRefuse, heof, herr]
          rw [haccept, hdrop, hfull]
          by_cases hroom : packet.queue.Full
          · rw [decide_eq_true hroom, Bool.not_true]
            exact ⟨_, hstore.refuse_eof haddr hfifo frame hroom _ _ skew,
              hclosed, by simp [hidle, bytesOf], List.prefix_rfl⟩
          · rw [decide_eq_false hroom, Bool.not_false, hword, rxWrIsEof, heof]
            exact ⟨_, hstore.accept_eof haddr hfifo hbytes hroom skew, hclosed,
              by simp [hidle, bytesOf], List.prefix_append _ _⟩

/-- The beat that comes with the edge is registered for the next one. -/
theorem WriteSide.stage (hside : WriteSide rx received packet ledger)
    {next : RxLedger} (hclosed : received.closed = next.passed)
    (hcur : bytesOf received.opened = next.cur) (gmii : GmiiRxIn)
    (skew : Skew) :
    Staged (rx.mediaEdge gmii skew)
      (received.observe (if gmii.dv then some gmii else none)) next := by
  have hdv := hside.dv
  have hnoce := hside.noce
  cases hin : gmii.dv with
  | true =>
      cases hce : gmii.ce with
      | true =>
          simp [Staged, mediaEdge, hin, hce, hclosed, bytesOf_concat, hcur]
      | false =>
          simp [Staged, mediaEdge, hin, hce, hclosed, bytesOf_concat, hcur]
  | false =>
      by_cases hidle : received.opened = []
      · have hd1 : rx.rxDvD1 = false := by simp [hdv, hidle]
        have hall : received.all = received.closed := Envelopes.all_of_idle hidle
        simp [Staged, mediaEdge, hin, hd1, hall, hclosed, ← hcur, hidle]
      · have hd1 : rx.rxDvD1 = true := by simp [hdv, hidle]
        have hall := Envelopes.all_of_busy hidle
        simp [Staged, mediaEdge, hin, hd1, hall, hclosed, hcur, hnoce]

/-- A media edge keeps the write side, and only appends to the ledger. -/
theorem WriteSide.mediaEdge (haddr : 2 ≤ addrWidth)
    (hside : WriteSide rx received packet ledger) (gmii : GmiiRxIn)
    (skew : Skew) :
    ∃ next, WriteSide (rx.mediaEdge gmii skew)
        (received.observe (if gmii.dv then some gmii else none))
        (packet.wrEdge rx.rxWrAccept rx.rxFifoDin rx.rxWrIsEof skew) next ∧
      ledger.commits <+: next.commits := by
  obtain ⟨next, hstore, hclosed, hcur, hgrow⟩ := hside.write haddr gmii skew
  have hone : 1 ≤ addrWidth := Nat.le_of_succ_le haddr
  refine ⟨next, ⟨?_, ?_, hstore, hside.stage hclosed hcur gmii skew, ?_, ?_⟩,
    hgrow⟩
  · rw [PacketQueue.wrEdge_queue]
    exact hside.fifo.wrEdge hone rx.rxWrAccept rx.rxFifoDin skew
  · simp only [PacketQueue.wrEdge_committed, hside.accepts_eq hone,
      GmiiCdcRx.mediaEdge, hside.toggle]
    by_cases hcommit : (rx.rxWrAccept && rx.rxWrIsEof) = true
    · rw [if_pos hcommit, if_pos hcommit, Launched.map_drive, oddCount_add_one,
        Launched.map_now]
    · rw [if_neg hcommit, if_neg hcommit]
  · cases hin : gmii.dv <;> simp [GmiiCdcRx.mediaEdge, hin]
  · have hdv := hside.dv
    have hnoce := hside.noce
    cases hin : gmii.dv with
    | true =>
        cases hstray : !gmii.ce && gmii.er <;>
          simp [GmiiCdcRx.mediaEdge, hin, hnoce, strayError_concat, hstray]
    | false =>
        by_cases hidle : received.opened = []
        · simp [GmiiCdcRx.mediaEdge, hin, hdv, hidle, hnoce, strayError]
        · simp [GmiiCdcRx.mediaEdge, hin, hdv, hidle, strayError]

/-- An edge of `sys_clk` takes words out and leaves the write side alone. -/
theorem WriteSide.sysEdge (hside : WriteSide rx received packet ledger)
    (skew : Skew) (late : Bool) :
    WriteSide (rx.sysEdge skew late) received
      (packet.rdEdge rx.rxRdEn skew late) ledger where
  fifo := hside.fifo.rdEdge rx.rxRdEn skew
  toggle := by
    rw [GmiiCdcRx.sysEdge, PacketQueue.rdEdge_committed, hside.toggle,
      Launched.map_settle]
  store :=
    have hsecond : (packet.rdEdge rx.rxRdEn skew late).queue.taken.second =
        packet.queue.taken.second := by
      rw [PacketQueue.rdEdge_queue, CrossingQueue.rdEdge_taken]
      cases packet.queue.takes rx.rxRdEn <;> rfl
    { hside.store with
      dataRoom := fun hroom => hsecond ▸ hside.store.dataRoom hroom
      eofRoom := fun hkept => hsecond ▸ hside.store.eofRoom hkept }
  staged := hside.staged
  dv := hside.dv
  noce := hside.noce

end Write

end GmiiCdcRx

end EmacZero
