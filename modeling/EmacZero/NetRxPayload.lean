/-
The payload bytes in `net_rx`, and the verdict on the header that comes up behind the
first of them.
-/
import EmacZero.NetRxSteps

namespace EmacZero

open NetFrame NetBeats NetMessage NetRx

variable {rx : NetRx} {beats : List NetRxIn} {shown : List NetRxOut} {i : NetRxIn}

/-- A counted byte, or one past the total length. -/
structure CountsByte (rx : NetRx) (i : NetRxIn) (next : NetRx) : Prop where
  rem : next.rem = rx.remNext
  plSum : next.plSum = if rx.rem ≠ 0 then rx.plSum + rx.plWord i else rx.plSum
  plOdd : next.plOdd = if rx.rem ≠ 0 then !rx.plOdd else rx.plOdd
  hdrChk : next.hdrChk = rx.hdrChk
  ipHdrBytes : next.ipHdrBytes = rx.ipHdrBytes
  hdrSum : next.hdrSum = rx.hdrSum

theorem counts (hfin : rx.fin = false) (hpay : rx.inPayload = true) :
    CountsByte rx i (rx.count i rx.release) := by
  rw [release_of_not_fin hfin, count, hpay, Bool.true_and]
  by_cases hrem : rx.rem ≠ 0
  · rw [if_pos (bne_iff_ne.mpr hrem)]
    constructor
    · rw [remNext, if_pos hrem]
    · rw [if_pos hrem]
    · rw [if_pos hrem]
    · rfl
    · rfl
    · rfl
  · have hzero : rx.rem = 0 := not_not.mp hrem
    rw [hzero, if_neg (by decide)]
    constructor
    · rw [remNext, if_neg hrem, ← hzero]
    · rw [if_neg hrem]
    · rw [if_neg hrem]
    · rfl
    · rfl
    · rfl

/-- What a payload beat does besides counting. -/
structure PayloadByte (rx : NetRx) (i : NetRxIn) (icmp : Bool) (next : NetRx) : Prop where
  counts : CountsByte rx i next
  holdV : next.holdV = (rx.holdV || rx.rem != 0)
  holdD : next.holdD = if rx.rem ≠ 0 then i.tdata else rx.holdD
  outs : next.outs = if rx.rem ≠ 0 ∧ rx.holdV then [⟨icmp, rx.holdD, false, false⟩] else []

/-- A byte of a message takes the place of the one held, which has gone out. -/
theorem dataByte {icmp : Bool} {passed : NetRx} (hcounts : CountsByte rx i passed)
    (hholdV : passed.holdV = rx.holdV) (hholdD : passed.holdD = rx.holdD)
    (houts : passed.outs =
      if rx.rem ≠ 0 ∧ rx.holdV then [⟨icmp, rx.holdD, false, false⟩] else []) :
    PayloadByte rx i icmp (rx.hold i passed) ∧ (rx.hold i passed).state = passed.state := by
  rw [hold]
  by_cases hrem : rx.rem ≠ 0
  · rw [if_pos hrem]
    refine ⟨⟨⟨hcounts.rem, hcounts.plSum, hcounts.plOdd, hcounts.hdrChk,
      hcounts.ipHdrBytes, hcounts.hdrSum⟩, ?_, ?_, houts⟩, rfl⟩
    · rw [bne_iff_ne.mpr hrem, Bool.or_true]
    · rw [if_pos hrem]
  · rw [if_neg hrem]
    refine ⟨⟨hcounts, ?_, ?_, houts⟩, rfl⟩
    · rw [hholdV, not_not.mp hrem]
      exact (Bool.or_false _).symm
    · rw [hholdD, if_neg hrem]

/-- What the count and the release leave to the parser. -/
theorem base_payload (hfin : rx.fin = false) (i : NetRxIn) :
    (rx.count i rx.release).state = rx.state ∧ (rx.count i rx.release).holdV = rx.holdV ∧
      (rx.count i rx.release).holdD = rx.holdD ∧
      (rx.count i rx.release).icmpValid = false ∧ (rx.count i rx.release).udpValid = false ∧
      (rx.count i rx.release).icmpLast = false ∧ (rx.count i rx.release).udpLast = false ∧
      (rx.count i rx.release).icmpErr = false ∧ (rx.count i rx.release).udpErr = false := by
  rw [release_of_not_fin hfin, count]
  split <;> exact ⟨rfl, rfl, rfl, rfl, rfl, rfl, rfl, rfl, rfl⟩

theorem icmpByte (hfin : rx.fin = false) (hstate : rx.state = .icmpData) :
    PayloadByte rx i true (rx.afterBeat i) ∧ (rx.afterBeat i).state = .icmpData := by
  have hpay : rx.inPayload = true := by
    rw [inPayload, hstate]
    rfl
  obtain ⟨hbase, hholdV, hholdD, hiv, huv, hil, -, hie, -⟩ := base_payload hfin i
  have hcounts := @counts rx i hfin hpay
  rw [afterBeat, parse, hstate]
  by_cases hshows : rx.rem ≠ 0 ∧ rx.holdV
  · simp only [if_pos hshows]
    have hbyte := @dataByte rx i true { rx.count i rx.release with
      icmpData := rx.holdD, icmpValid := true } ⟨hcounts.rem, hcounts.plSum, hcounts.plOdd,
        hcounts.hdrChk, hcounts.ipHdrBytes, hcounts.hdrSum⟩ hholdV hholdD
      (by rw [if_pos hshows]; simp [outs, huv, hil, hie])
    exact ⟨hbyte.1, hbyte.2.trans (hbase.trans hstate)⟩
  · simp only [if_neg hshows]
    have hbyte := @dataByte rx i true (rx.count i rx.release) hcounts hholdV hholdD
      (by rw [if_neg hshows]; simp [outs, hiv, huv])
    exact ⟨hbyte.1, hbyte.2.trans (hbase.trans hstate)⟩

theorem udpByte (hfin : rx.fin = false) (hstate : rx.state = .udpData) :
    PayloadByte rx i false (rx.afterBeat i) ∧ (rx.afterBeat i).state = .udpData := by
  have hpay : rx.inPayload = true := by
    rw [inPayload, hstate]
    rfl
  obtain ⟨hbase, hholdV, hholdD, hiv, huv, -, hul, -, hue⟩ := base_payload hfin i
  have hcounts := @counts rx i hfin hpay
  rw [afterBeat, parse, hstate]
  by_cases hshows : rx.rem ≠ 0 ∧ rx.holdV
  · simp only [if_pos hshows]
    have hbyte := @dataByte rx i false { rx.count i rx.release with
      udpData := rx.holdD, udpValid := true } ⟨hcounts.rem, hcounts.plSum, hcounts.plOdd,
        hcounts.hdrChk, hcounts.ipHdrBytes, hcounts.hdrSum⟩ hholdV hholdD
      (by rw [if_pos hshows]; simp [outs, hiv, hul, hue])
    exact ⟨hbyte.1, hbyte.2.trans (hbase.trans hstate)⟩
  · simp only [if_neg hshows]
    have hbyte := @dataByte rx i false (rx.count i rx.release) hcounts hholdV hholdD
      (by rw [if_neg hshows]; simp [outs, hiv, huv])
    exact ⟨hbyte.1, hbyte.2.trans (hbase.trans hstate)⟩

/-- A byte of the UDP header: the message is still empty. -/
theorem udpHdrByte (hfin : rx.fin = false) (hstate : rx.state = .udpHdr) :
    CountsByte rx i (rx.afterBeat i) ∧
      (rx.afterBeat i).state = (if rx.byteCnt = 7 then .udpData else .udpHdr) ∧
      (rx.afterBeat i).byteCnt = (if rx.byteCnt = 7 then 0 else rx.byteCnt + 1) ∧
      (rx.afterBeat i).holdV = rx.holdV ∧ (rx.afterBeat i).outs = [] := by
  have hpay : rx.inPayload = true := by
    rw [inPayload, hstate]
    rfl
  obtain ⟨hbase, hholdV, hholdD, hiv, huv, -, -, -, -⟩ := base_payload hfin i
  have hcounts := @counts rx i hfin hpay
  rw [afterBeat, parse, hstate]
  refine ⟨⟨hcounts.rem, hcounts.plSum, hcounts.plOdd, hcounts.hdrChk, hcounts.ipHdrBytes,
    hcounts.hdrSum⟩, rfl, rfl, hholdV, ?_⟩
  simp [outs, hiv, huv]

/-! The payload of a frame with one more byte. -/

section Body

variable {bytes : List (BitVec 8)} {data : BitVec 8}

theorem length_body (bytes : List (BitVec 8)) :
    (body bytes).length = min (14 + total bytes) bytes.length - hdrEnd bytes :=
  length_slice _ _ _

theorem body_concat (hlong : 18 ≤ bytes.length) (hend : hdrEnd bytes ≤ bytes.length) :
    body (bytes ++ [data]) =
      if bytes.length < 14 + total bytes then body bytes ++ [data] else body bytes := by
  rw [body, hdrEnd_append (by omega), total_append hlong, slice_concat _ _ hend]
  rfl

theorem payload_concat (hlong : 24 ≤ bytes.length) (hend : hdrEnd bytes ≤ bytes.length) :
    payload (bytes ++ [data]) =
      if bytes.length < 14 + total bytes ∧ (proto bytes = 1 ∨ hdrEnd bytes + 8 ≤ bytes.length)
      then payload bytes ++ [data] else payload bytes := by
  have hlength := length_body bytes
  rw [payload, payload, proto_append hlong, body_concat (by omega) hend]
  by_cases hicmp : proto bytes = 1
  · rw [if_pos hicmp, if_pos hicmp]
    simp only [hicmp, true_or, and_true]
  · rw [if_neg hicmp, if_neg hicmp]
    simp only [hicmp, false_or]
    by_cases hin : bytes.length < 14 + total bytes
    · rw [if_pos hin]
      by_cases hpast : hdrEnd bytes + 8 ≤ bytes.length
      · rw [if_pos ⟨hin, hpast⟩, List.drop_append_of_le_length (by omega)]
      · rw [if_neg fun hboth => hpast hboth.2, List.drop_of_length_le (by simp; omega),
          List.drop_of_length_le (by omega)]
    · rw [if_neg hin, if_neg fun hboth => hin hboth.1]

end Body

theorem InPayload.room (hin : InPayload rx beats shown) :
    ihl (bytes beats) + 8 ≤ total (bytes beats) := by
  have hlengthOk := hin.accepted.length
  rw [lengthOk, Bool.and_eq_true, decide_eq_true_iff] at hlengthOk
  exact hlengthOk.1

/-- Some of the payload is still to come. -/
theorem InPayload.rem_iff (hin : InPayload rx beats shown) :
    rx.rem ≠ 0 ↔ beats.length < 14 + total (bytes beats) := by
  have hwhole := hin.accepted.whole
  have hroom := hin.room
  have hlength := length_body (bytes beats)
  have hrem := hin.rem
  have hbytes := length_bytes beats
  rw [hdrEnd] at hlength hwhole
  have hzero : rx.rem = 0 ↔ rx.rem.toNat = 0 := BitVec.toNat_inj.symm
  rw [Ne, hzero]
  omega

theorem remNext_toNat (rx : NetRx) : rx.remNext.toNat = rx.rem.toNat - 1 := by
  rw [remNext]
  split
  · rename_i hrem
    have hpos : rx.rem.toNat ≠ 0 := fun heq => hrem (BitVec.eq_of_toNat_eq heq)
    exact BitVec.toNat_sub_of_le (BitVec.le_def.mpr (Nat.one_le_iff_ne_zero.mpr hpos))
  · rename_i hrem
    rw [not_not.mp hrem]
    rfl

/-- The counters with one more byte. -/
theorem InPayload.counts (hin : InPayload rx beats shown) {next : NetRx}
    (hcounts : CountsByte rx i next) :
    next.rem.toNat + (body (bytes (beats ++ [i]))).length =
        total (bytes (beats ++ [i])) - ihl (bytes (beats ++ [i])) ∧
      next.plSum.toNat = wordSum (body (bytes (beats ++ [i]))) ∧
      next.plOdd = ((body (bytes (beats ++ [i]))).length % 2 == 1) := by
  have hlong := hin.accepted.long
  have hwhole := hin.accepted.whole
  have hbytes := length_bytes beats
  have hiff := hin.rem_iff
  have hremNext := remNext_toNat rx
  rw [hcounts.rem, hcounts.plSum, hcounts.plOdd, bytes_concat, total_append (by omega),
    ihl_append (by omega), body_concat (by omega) hwhole, hbytes]
  by_cases hrem : rx.rem ≠ 0
  · rw [if_pos (hiff.mp hrem), if_pos hrem, if_pos hrem]
    have hpos : rx.rem.toNat ≠ 0 := fun heq => hrem (BitVec.eq_of_toNat_eq heq)
    have hsum := hin.rem
    have htotal := (wordAt (bytes beats) 16).isLt
    rw [List.length_append, List.length_singleton]
    refine ⟨by omega, ?_, ?_⟩
    · apply toNat_add_wordOf hin.plSum hin.plOdd
      rw [total] at hsum
      omega
    · rw [hin.plOdd]
      rcases Nat.mod_two_eq_zero_or_one (body (bytes beats)).length with heven | hodd
      · rw [heven, Nat.add_mod, heven]
        rfl
      · rw [hodd, Nat.add_mod, hodd]
        rfl
  · rw [if_neg fun hlt => hrem (hiff.mpr hlt), if_neg hrem, if_neg hrem, hremNext,
      not_not.mp hrem]
    refine ⟨?_, hin.plSum, hin.plOdd⟩
    have hsum := hin.rem
    rw [not_not.mp hrem] at hsum
    exact hsum

theorem Holds.payloadByte {icmp : Bool} {message : List (BitVec 8)}
    (hholds : Holds rx icmp message shown) {next : NetRx} (hbyte : PayloadByte rx i icmp next) :
    Holds next icmp (if rx.rem ≠ 0 then message ++ [i.tdata] else message)
      (shown ++ next.outs) := by
  by_cases hrem : rx.rem ≠ 0
  · have hholdV := hbyte.holdV
    have hholdD := hbyte.holdD
    have houts := hbyte.outs
    rw [bne_iff_ne.mpr hrem, Bool.or_true] at hholdV
    rw [if_pos hrem] at hholdD
    simp only [hrem, ne_eq, not_false_eq_true, true_and] at houts
    rw [if_pos hrem]
    exact hholds.byte hholdV hholdD houts
  · have hholdV := hbyte.holdV
    have hholdD := hbyte.holdD
    have houts := hbyte.outs
    rw [not_not.mp hrem] at hholdV
    rw [if_neg hrem] at hholdD
    rw [if_neg fun hboth => hrem hboth.1] at houts
    rw [if_neg hrem, houts, List.append_nil]
    exact
      { holdV := hholdV.trans ((Bool.or_false _).trans hholds.holdV)
        holdD := fun data hdata => hholdD.trans (hholds.holdD data hdata)
        shown := hholds.shown }

/-- A beat of the payload, from what it does to the state and to the message. -/
theorem InPayload.next (hin : InPayload rx beats shown) {next : NetRx}
    {shown' : List NetRxOut} (hcounts : CountsByte rx i next)
    (hstate : next.state =
      if proto (bytes beats) = 1 then .icmpData
      else if beats.length + 1 < hdrEnd (bytes beats) + 8 then .udpHdr
      else .udpData)
    (hcnt : next.state = .udpHdr → next.byteCnt = rx.byteCnt + 1 ∧ rx.state = .udpHdr)
    (hholds : Holds next (proto (bytes beats) == 1) (payload (bytes (beats ++ [i]))) shown') :
    InPayload next (beats ++ [i]) shown' := by
  have hlong := hin.accepted.long
  have hbytes := length_bytes beats
  have hlonger := length_concat beats i
  have hproto : proto (bytes (beats ++ [i])) = proto (bytes beats) := by
    rw [bytes_concat, proto_append (by omega)]
  have hend : hdrEnd (bytes (beats ++ [i])) = hdrEnd (bytes beats) := by
    rw [bytes_concat, hdrEnd_append (by omega)]
  obtain ⟨hrem, hplSum, hplOdd⟩ := hin.counts hcounts
  exact
    { accepted := hin.accepted.append [i]
      state := by rw [hproto, hend, hlonger, hstate]
      byteCnt := by
        intro hudp
        obtain ⟨hnext, hstate'⟩ := hcnt hudp
        have hcount := hin.byteCnt hstate'
        rw [hudp] at hstate
        have hwithin : beats.length + 1 < hdrEnd (bytes beats) + 8 := by
          by_contra hpast
          rw [if_neg hpast] at hstate
          split at hstate <;> cases hstate
        rw [hnext, toNat_count_add_one (by omega), hend, hlonger]
        omega
      rem := hrem
      plSum := hplSum
      plOdd := hplOdd
      holds := by rwa [hproto] }

/-- The payload once the message has begun. -/
theorem InPayload.payload_data (hin : InPayload rx beats shown)
    (hbegun : proto (bytes beats) = 1 ∨ hdrEnd (bytes beats) + 8 ≤ beats.length)
    (i : NetRxIn) :
    payload (bytes (beats ++ [i])) =
      if rx.rem ≠ 0 then payload (bytes beats) ++ [i.tdata] else payload (bytes beats) := by
  have hlong := hin.accepted.long
  have hbytes := length_bytes beats
  have hiff := hin.rem_iff
  rw [bytes_concat, payload_concat (by omega) hin.accepted.whole, hbytes]
  by_cases hrem : rx.rem ≠ 0
  · rw [if_pos hrem, if_pos ⟨hiff.mp hrem, hbegun⟩]
  · rw [if_neg hrem, if_neg fun hboth => hrem (hiff.mpr hboth.1)]

theorem payload_short {bytes : List (BitVec 8)} (hudp : proto bytes ≠ 1)
    (hshort : bytes.length ≤ hdrEnd bytes + 8) : payload bytes = [] := by
  have hlength := length_body bytes
  rw [payload, if_neg hudp, List.drop_of_length_le (by omega)]

/-- A beat in the payload. -/
theorem InPayload.step (hfin : rx.fin = false) (hin : InPayload rx beats shown) :
    InPayload (rx.afterBeat i) (beats ++ [i]) (shown ++ (rx.afterBeat i).outs) ∧
      CountsByte rx i (rx.afterBeat i) := by
  have hstate := hin.state
  by_cases hicmp : proto (bytes beats) = 1
  · rw [if_pos hicmp] at hstate
    obtain ⟨hbyte, hnext⟩ := @icmpByte rx i hfin hstate
    refine ⟨hin.next hbyte.counts ?_ ?_ ?_, hbyte.counts⟩
    · rw [hnext, if_pos hicmp]
    · rw [hnext]
      exact fun heq => nomatch heq
    · rw [hin.payload_data (Or.inl hicmp), hicmp]
      have hholds := hin.holds
      rw [hicmp] at hholds
      exact hholds.payloadByte hbyte
  rw [if_neg hicmp] at hstate
  have hproto : (proto (bytes beats) == 1) = false := beq_eq_false_iff_ne.mpr hicmp
  by_cases hheader : beats.length < hdrEnd (bytes beats) + 8
  · rw [if_pos hheader] at hstate
    have hcount := hin.byteCnt hstate
    have hlong := hin.accepted.long
    have hbytes := length_bytes beats
    have hlonger := length_concat beats i
    have hbytes' := length_bytes (beats ++ [i])
    have hproto' : proto (bytes (beats ++ [i])) = proto (bytes beats) := by
      rw [bytes_concat, proto_append (by omega)]
    have hend : hdrEnd (bytes (beats ++ [i])) = hdrEnd (bytes beats) := by
      rw [bytes_concat, hdrEnd_append (by omega)]
    have hlast : rx.byteCnt = 7 ↔ beats.length + 1 = hdrEnd (bytes beats) + 8 := by
      rw [← BitVec.toNat_inj]
      change _ = 7 ↔ _
      omega
    obtain ⟨hcounts, hnext, hcnt, hholdV, houts⟩ := @udpHdrByte rx i hfin hstate
    refine ⟨hin.next hcounts ?_ ?_ ?_, hcounts⟩
    · rw [hnext, if_neg hicmp]
      by_cases hseven : rx.byteCnt = 7
      · have heq := hlast.mp hseven
        rw [if_pos hseven, if_neg (by omega)]
      · have hne : beats.length + 1 ≠ hdrEnd (bytes beats) + 8 := fun heq =>
          hseven (hlast.mpr heq)
        rw [if_neg hseven, if_pos (by omega)]
    · intro hstill
      rw [hnext] at hstill
      by_cases hseven : rx.byteCnt = 7
      · rw [if_pos hseven] at hstill
        exact nomatch hstill
      · exact ⟨by rw [hcnt, if_neg hseven], hstate⟩
    · have hempty : payload (bytes beats) = [] := payload_short hicmp (by omega)
      have hempty' : payload (bytes (beats ++ [i])) = [] :=
        payload_short (by rwa [hproto']) (by omega)
      have hholds := hin.holds
      rw [hempty] at hholds
      rw [hempty', houts, List.append_nil]
      exact ⟨hholdV.trans hholds.holdV, fun _ hmem => (nomatch hmem), hholds.shown⟩
  · rw [if_neg hheader] at hstate
    obtain ⟨hbyte, hnext⟩ := @udpByte rx i hfin hstate
    refine ⟨hin.next hbyte.counts ?_ ?_ ?_, hbyte.counts⟩
    · rw [hnext, if_neg hicmp, if_neg (by omega)]
    · rw [hnext]
      exact fun heq => nomatch heq
    · rw [hin.payload_data (Or.inr (by omega)), hproto]
      have hholds := hin.holds
      rw [hproto] at hholds
      exact hholds.payloadByte hbyte

/-! The verdict on the header. -/

theorem toNat_foldOnce (sum : BitVec 32) :
    ((sum.extractLsb' 0 16).setWidth 32 + (sum.extractLsb' 16 16).setWidth 32).toNat =
      foldCarry 16 sum.toNat := by
  have hsum := sum.isLt
  have hlow : sum.toNat % 2 ^ 16 < 2 ^ 16 := Nat.mod_lt _ (by decide)
  have hhigh : sum.toNat / 2 ^ 16 < 2 ^ 16 := by omega
  simp only [BitVec.toNat_add, BitVec.toNat_setWidth, BitVec.extractLsb'_toNat,
    Nat.shiftRight_eq_div_pow, Nat.pow_zero, Nat.div_one, foldCarry]
  rw [Nat.mod_eq_of_lt hhigh, Nat.mod_eq_of_lt (hlow.trans (by decide)),
    Nat.mod_eq_of_lt (hhigh.trans (by decide)), Nat.mod_eq_of_lt]
  omega

theorem toNat_fold (sum : BitVec 32) : (fold sum).toNat = onesFold 16 sum.toNat := by
  have htwice := @foldCarry_twice 16 (by decide) sum.toNat sum.isLt
  have hle := @onesFold_le 16 (by decide) sum.toNat
  rw [fold, BitVec.extractLsb'_toNat, toNat_foldOnce, toNat_foldOnce, htwice]
  exact Nat.mod_eq_of_lt (Nat.lt_succ_of_le hle)

theorem fold_eq_iff {sum : BitVec 32} {bytes : List (BitVec 8)}
    (hsum : sum.toNat = wordSum bytes) :
    fold sum = 0xFFFF ↔ onesFold 16 (wordSum bytes) = 65535 := by
  rw [← BitVec.toNat_inj, toNat_fold, hsum]
  rfl

theorem InPayload.inPayload (hin : InPayload rx beats shown) : rx.inPayload = true := by
  rw [NetRx.inPayload, hin.state]
  split
  · rfl
  · split <;> rfl

/-- At most one byte of the payload has come, so nothing is out. -/
theorem InPayload.shown_nil (hin : InPayload rx beats shown)
    (hshort : beats.length ≤ hdrEnd (bytes beats) + 1) : shown = [] := by
  have hbytes := length_bytes beats
  have hlength := length_body (bytes beats)
  have hpayload : (payload (bytes beats)).length ≤ 1 := by
    rw [payload]
    split
    · omega
    · rw [List.length_drop]
      omega
  have hdrop : (payload (bytes beats)).dropLast = [] := by
    rw [List.dropLast_eq_take, Nat.sub_eq_zero_of_le hpayload, List.take_zero]
  rw [hin.holds.shown, opening, hdrop]
  rfl

theorem verdict_of_not_due (hchk : rx.hdrChk = false) (next : NetRx) :
    rx.verdict i next = next := by
  rw [verdict, hchk]
  rfl

/-- The header of a frame whose payload has begun is judged: good, or the frame is
refused and nothing of it has come out. -/
theorem InPayload.judged (hpay : InPayload rx beats shown) (hjudged : Judged rx beats)
    {more : List NetRxIn} (hmore : more.length ≤ 1) {next : NetRx} {shown' : List NetRxOut}
    (hin : InPayload next (beats ++ more) shown') (i : NetRxIn) (other : NetRx) :
    (headerOk (bytes (beats ++ more)) = true ∧
        (rx.verdict i other = other ∧ rx.hdrChk = false ∨
          rx.verdict i other = { other with hdrChk := false })) ∨
      Refused (beats ++ more) ∧ shown' = [] ∧
        rx.verdict i other = { other with
          hdrChk := false
          holdV := false
          fin := false
          state := if i.tvalid && i.tlast then other.state else .drop } := by
  have hlong := hpay.accepted.long
  have hwhole := hpay.accepted.whole
  have hbytes := length_bytes beats
  have hheaderOk : headerOk (bytes (beats ++ more)) = headerOk (bytes beats) := by
    rw [bytes_append, headerOk_append (by omega) hwhole]
  rw [Judged, if_pos hpay.inPayload] at hjudged
  rcases hjudged with ⟨hdue, hend, hsum⟩ | ⟨hquiet, hok⟩
  · have hiff := fold_eq_iff hsum
    by_cases hfold : fold rx.hdrSum = 0xFFFF
    · refine Or.inl ⟨?_, Or.inr ?_⟩
      · rw [hheaderOk, headerOk, hiff.mp hfold]
        rfl
      · rw [verdict, hdue, if_pos rfl, if_neg (not_not.mpr hfold)]
    · have hbad : headerOk (bytes beats) = false :=
        beq_eq_false_iff_ne.mpr fun hones => hfold (hiff.mpr hones)
      have hrefused : Refused beats :=
        refused_header hpay.accepted.version hend.ge (Or.inr (Or.inl hbad))
      refine Or.inr ⟨hrefused.append more, hin.shown_nil ?_, ?_⟩
      · rw [bytes_append, hdrEnd_append (by omega), List.length_append]
        omega
      · rw [verdict, hdue, if_pos rfl, if_pos hfold]
  · exact Or.inl ⟨hheaderOk.trans hok, Or.inl ⟨verdict_of_not_due hquiet other, hquiet⟩⟩

/-! The last byte. -/

theorem outs_release_fin (hfin : rx.fin = true) :
    rx.release.outs =
      if rx.holdV then
        [⟨rx.finIcmp, rx.holdD, true,
          rx.finErr || (rx.finIcmp && fold rx.plSum != 0xFFFF)⟩]
      else [] := by
  rw [release, hfin, if_pos rfl]
  cases hholdV : rx.holdV with
  | false => rfl
  | true =>
      cases hicmp : rx.finIcmp with
      | false => simp [outs]
      | true => simp [outs]

/-- What is released completes the message. -/
theorem InPayload.complete (hin : InPayload rx beats shown)
    (hok : headerOk (bytes beats) = true) {other : NetRx} (hfin : other.fin = true)
    (hholdV : other.holdV = rx.holdV) (hholdD : other.holdD = rx.holdD)
    (hplSum : other.plSum = rx.plSum) (herr : other.finErr = (error beats || rx.rem != 0))
    (hicmp : other.finIcmp = (proto (bytes beats) == 1)) :
    shown ++ other.release.outs = (delivered beats).elim [] NetMessage.stream := by
  have hbytes := length_bytes beats
  have hsound : sound (bytes beats) = !(payload (bytes beats)).isEmpty := by
    rw [sound, hin.accepted.type, hin.accepted.version, hin.accepted.length, hok]
    exact Bool.true_and _
  have hmissing : (rx.rem != 0) = decide ((bytes beats).length < 14 + total (bytes beats)) := by
    rw [Bool.eq_iff_iff, bne_iff_ne, decide_eq_true_iff, hbytes]
    exact hin.rem_iff
  have hsum : (fold rx.plSum != 0xFFFF) = !icmpOk (bytes beats) := by
    rw [Bool.eq_iff_iff, bne_iff_ne, Bool.not_eq_true', icmpOk, beq_eq_false_iff_ne]
    exact not_congr (fold_eq_iff hin.plSum)
  have hours : toUs (ourIp beats) (dstTaken beats) = true := hin.accepted.dst
  have hheld := hin.holds.holdV
  have hdata := hin.holds.holdD
  rw [outs_release_fin hfin, hholdV, hholdD, hplSum, herr, hicmp, hmissing, hsum,
    hin.holds.shown, hheld, delivered, hsound, hours]
  cases hpayload : payload (bytes beats) using List.reverseRec with
  | nil => rfl
  | append_singleton before last =>
      rw [hpayload] at hdata
      have hlast : (before ++ [last]).getLast? = some last := List.getLast?_concat
      have hmore : (before ++ [last]).isEmpty = false := by
        cases before <;> rfl
      rw [hdata last (by rw [hlast]; rfl), hmore]
      simp only [Bool.not_false, Bool.and_true, if_true, Option.elim_some,
        NetMessage.stream, NetFrame.message, hpayload, hlast]
      rfl

end EmacZero
