/-
`emz_set_rx_mode` of the Linux driver against the address filter of `eth_mac_rx`:
the multicast hash table it programs, through the registers of `axilite_regs`.
-/
import EmacZero.AxiliteIrq
import EmacZero.AxiliteWrites
import EmacZero.MacEnvelopes

namespace EmacZero

/-- The `ETH_ALEN` bytes of an address, in the order of the wire. -/
structure EthAddr where
  bytes : List (BitVec 8)
  length_bytes : bytes.length = 6
deriving Repr, DecidableEq

def EthAddr.mac (addr : EthAddr) : BitVec 48 := destination addr.bytes

/-- What `emz_set_rx_mode` reads of `struct net_device`: `IFF_PROMISC`, `IFF_ALLMULTI`
and the multicast list. -/
structure RxMode where
  promisc : Bool
  allmulti : Bool
  mcAddrs : List EthAddr
deriving Repr, DecidableEq

/-- `v` of `emz_mcast_hash`: the address in one word, its first byte on top. -/
def addrWord (bytes : List (BitVec 8)) : BitVec 64 :=
  bytes.foldl (fun v byte => v <<< 8 ||| byte.setWidth 64) 0

/-- `emz_mcast_hash` -/
def emzMcastHash (addr : EthAddr) : BitVec 32 :=
  (List.range 8).foldl
    (fun h i => h ^^^ ((addrWord addr.bytes >>> (6 * i)) &&& 0x3F).setWidth 32) 0

/-- `BIT_ULL` -/
def bitUll (index : BitVec 32) : BitVec 64 := (1 : BitVec 64) <<< index.toNat

/-- `hash` of `emz_set_rx_mode`. -/
def emzHash (mode : RxMode) : BitVec 64 :=
  if mode.allmulti then BitVec.allOnes 64
  else mode.mcAddrs.foldl (fun hash addr => hash ||| bitUll (emzMcastHash addr)) 0

def emzCtrl : BitVec 8 := 0x04
def emzMcastLo : BitVec 8 := 0x44
def emzMcastHi : BitVec 8 := 0x48
def emzCtrlPromisc : BitVec 32 := 0x00000004

section Driver

variable (params : AxiliteParams) (status : CsrStatus) (file : CsrFile)

/-- `emz_rd` -/
def emzRd (reg : BitVec 8) : BitVec 32 :=
  match csrOf reg with
  | some csr => file.read params status csr
  | none => 0

/-- `emz_wr`: a write of all four byte lanes. -/
def emzWr (reg : BitVec 8) (val : BitVec 32) : CsrFile :=
  match csrOf reg with
  | some csr => file.write params csr val 0xF status.mdioBusy
  | none => file

/-- `emz_ctrl_update` -/
def emzCtrlUpdate (clr set : BitVec 32) : CsrFile :=
  emzWr params status file emzCtrl ((emzRd params status file emzCtrl &&& ~~~clr) ||| set)

/-- `has_mcast_hash`, as the probe finds it out: whether `MCAST_LO` keeps a 1. -/
def emzHasMcastHash : Bool :=
  emzRd params status (emzWr params status file emzMcastLo 1) emzMcastLo == 1

/-- `emz_set_rx_mode` -/
def emzSetRxMode (hasMcastHash : Bool) (mode : RxMode) : CsrFile :=
  let hash := emzHash mode
  let filed :=
    if hasMcastHash then
      emzWr params status
        (emzWr params status file emzMcastLo (hash.setWidth 32)) emzMcastHi
        ((hash >>> 32).setWidth 32)
    else file
  -- no hash filter in this build: multicast needs the filter off
  let promisc := mode.promisc || (!hasMcastHash && hash != 0)
  emzCtrlUpdate params status filed emzCtrlPromisc (if promisc then emzCtrlPromisc else 0)

end Driver

/-- `cfg_mcast_hash_table` of `axilite_regs`. -/
def cfgMcastHashTable (params : AxiliteParams) (file : CsrFile) : BitVec 64 :=
  if params.mcastHashFilter then file.mcastHi ++ file.mcastLo else 0

/-- `cfg_promisc` of `axilite_regs`. -/
def cfgPromisc (file : CsrFile) : Bool := file.ctrl.getLsbD 2

/-- The last alternative of `mac_pass_now`. -/
def throughTable (params : EthMacRxParams) (pins : EthMacRxIn) (mac : BitVec 48) : Bool :=
  params.mcastHashFilter && mac.getLsbD 40 && mac != broadcastMac &&
    pins.mcastHashTable.getLsbD (mcastHashIdx mac).toNat

section Hash

theorem getLsbD_shiftMac (mac : BitVec 48) (data : BitVec 8) {index : Nat}
    (hindex : index < 48) :
    (shiftMac mac data).getLsbD index =
      if index < 8 then data.getLsbD index else mac.getLsbD (index - 8) := by
  rw [shiftMac, BitVec.getLsbD_append, BitVec.getLsbD_extractLsb']
  by_cases hlow : index < 8
  · rw [if_pos hlow, if_pos hlow]
  · rw [if_neg hlow, if_neg hlow, Nat.zero_add, decide_eq_true (by omega), Bool.true_and]

theorem getLsbD_addrWord_concat (front : List (BitVec 8)) (data : BitVec 8) {index : Nat}
    (hindex : index < 64) :
    (addrWord (front ++ [data])).getLsbD index =
      if index < 8 then data.getLsbD index
      else (addrWord front).getLsbD (index - 8) := by
  rw [addrWord, List.foldl_append, ← addrWord]
  simp only [List.foldl_cons, List.foldl_nil, BitVec.getLsbD_or, BitVec.getLsbD_shiftLeft,
    BitVec.getLsbD_setWidth, hindex, decide_true, Bool.true_and]
  by_cases hlow : index < 8
  · simp [hlow]
  · simp [hlow, BitVec.getLsbD_of_ge data index (Nat.le_of_not_lt hlow)]

theorem getLsbD_addrWord_high (front : List (BitVec 8)) {index : Nat}
    (hhigh : 8 * front.length ≤ index) : (addrWord front).getLsbD index = false := by
  induction front using List.reverseRecOn generalizing index with
  | nil => simp [addrWord]
  | append_singleton front data ih =>
      rw [List.length_append, List.length_singleton] at hhigh
      by_cases hindex : index < 64
      · rw [getLsbD_addrWord_concat front data hindex, if_neg (by omega)]
        exact ih (by omega)
      · exact BitVec.getLsbD_of_ge _ _ (Nat.le_of_not_lt hindex)

/-- Both sides put an address together alike. -/
theorem getLsbD_addrWord {front : List (BitVec 8)} (hshort : front.length ≤ 6)
    {index : Nat} (hindex : index < 64) :
    (addrWord front).getLsbD index = (destination front).getLsbD index := by
  induction front using List.reverseRecOn generalizing index with
  | nil => simp [addrWord, destination]
  | append_singleton front data ih =>
      rw [List.length_append, List.length_singleton] at hshort
      rw [getLsbD_addrWord_concat front data hindex, destination_concat_short (by omega)]
      by_cases hmac : index < 48
      · rw [getLsbD_shiftMac _ _ hmac, ih (by omega) (by omega)]
      · rw [if_neg (by omega), getLsbD_addrWord_high front (by omega)]
        exact (BitVec.getLsbD_of_ge _ _ (Nat.le_of_not_lt hmac)).symm

/-- The slice of the address that one turn of the loop takes. -/
theorem addrWord_slice (addr : EthAddr) {slice : Nat} (hslice : slice < 8) :
    ((addrWord addr.bytes >>> (6 * slice)) &&& 0x3F).setWidth 32 =
      (addr.mac.extractLsb' (6 * slice) 6).setWidth 32 := by
  apply BitVec.eq_of_getLsbD_eq
  intro index hindex
  have hmask : (0x3F : BitVec 64).getLsbD index = decide (index < 6) := by
    rw [show (0x3F : BitVec 64) = (BitVec.allOnes 6).setWidth 64 from rfl,
      BitVec.getLsbD_setWidth, BitVec.getLsbD_allOnes, decide_eq_true (by omega),
      Bool.true_and]
  simp only [BitVec.getLsbD_setWidth, BitVec.getLsbD_and, BitVec.getLsbD_ushiftRight, hmask,
    BitVec.getLsbD_extractLsb', hindex, decide_true, Bool.true_and]
  by_cases hlow : index < 6
  · rw [getLsbD_addrWord addr.length_bytes.le (by omega), EthAddr.mac]
    simp [hlow]
  · simp [hlow]

/-- The driver and the filter hash an address alike. -/
theorem emzMcastHash_eq (addr : EthAddr) :
    emzMcastHash addr = (mcastHashIdx addr.mac).setWidth 32 := by
  have hfold : emzMcastHash addr =
      (List.range 8).foldl
        (fun h i => h ^^^ (addr.mac.extractLsb' (6 * i) 6).setWidth 32) 0 := by
    apply List.foldl_ext
    intro h i hi
    rw [addrWord_slice addr (List.mem_range.mp hi)]
  rw [hfold, mcastHashIdx]
  simp only [List.range, List.range.loop, List.foldl_cons, List.foldl_nil, BitVec.setWidth_xor,
    show (0 : BitVec 32) = 0#32 from rfl, BitVec.zero_xor]

theorem getLsbD_bitUll (bit : BitVec 32) {index : Nat} (hindex : index < 64) :
    (bitUll bit).getLsbD index = decide (bit.toNat = index) := by
  rw [bitUll, BitVec.getLsbD_shiftLeft, Bool.eq_iff_iff, decide_eq_true_iff]
  simp only [hindex, decide_true, Bool.true_and, Bool.and_eq_true, Bool.not_eq_true',
    decide_eq_false_iff_not]
  constructor
  · rintro ⟨hge, hbit⟩
    have hzero : index - bit.toNat = 0 := by
      by_contra hne
      simp [BitVec.getLsbD_one, hne] at hbit
    omega
  · rintro rfl
    simp

/-- A bit of the table is set for each hash that occurs in the list. -/
theorem getLsbD_foldl_bitUll (addrs : List EthAddr) (start : BitVec 64) {index : Nat}
    (hindex : index < 64) :
    (addrs.foldl (fun hash addr => hash ||| bitUll (emzMcastHash addr)) start).getLsbD index =
      true ↔
      start.getLsbD index = true ∨
        ∃ addr ∈ addrs, (emzMcastHash addr).toNat = index := by
  induction addrs generalizing start with
  | nil => simp
  | cons addr rest ih =>
      rw [List.foldl_cons, ih, BitVec.getLsbD_or, getLsbD_bitUll _ hindex, Bool.or_eq_true,
        decide_eq_true_iff, or_assoc]
      simp

/-- The bit that the filter looks up is set exactly if the list holds an address of
the same hash, or every multicast frame is wanted. -/
theorem getLsbD_emzHash (mode : RxMode) (mac : BitVec 48) :
    (emzHash mode).getLsbD (mcastHashIdx mac).toNat = true ↔
      mode.allmulti = true ∨
        ∃ addr ∈ mode.mcAddrs, emzMcastHash addr = (mcastHashIdx mac).setWidth 32 := by
  have hlt := (mcastHashIdx mac).isLt
  have hsame : ∀ addr : EthAddr, (emzMcastHash addr).toNat = (mcastHashIdx mac).toNat ↔
      emzMcastHash addr = (mcastHashIdx mac).setWidth 32 := by
    intro addr
    rw [← BitVec.toNat_inj, BitVec.toNat_setWidth, Nat.mod_eq_of_lt (by omega)]
  rw [emzHash]
  cases mode.allmulti with
  | true =>
      rw [if_pos rfl, BitVec.getLsbD_allOnes, decide_eq_true (by omega)]
      simp
  | false =>
      rw [if_neg Bool.false_ne_true, getLsbD_foldl_bitUll _ _ hlt]
      simp [hsame]

end Hash

section Registers

variable {params : AxiliteParams} (status : CsrStatus) (file : CsrFile)

theorem strbMerge_full (oldVal newVal : BitVec 32) : strbMerge oldVal newVal 0xF = newVal := by
  apply BitVec.eq_of_getLsbD_eq
  intro bit hbit
  have hlanes : ∀ lane < 4, (0xF : BitVec 4).getLsbD lane = true := by decide
  rw [getLsbD_strbMerge oldVal newVal 0xF hbit, hlanes _ (by omega), if_pos rfl]

theorem emzWr_mcastLo (hfilter : params.mcastHashFilter = true) (val : BitVec 32) :
    emzWr params status file emzMcastLo val = { file with mcastLo := val } := by
  change file.write params .mcastLo val 0xF status.mdioBusy = _
  rw [CsrFile.write, if_pos hfilter, strbMerge_full]

theorem emzWr_mcastHi (hfilter : params.mcastHashFilter = true) (val : BitVec 32) :
    emzWr params status file emzMcastHi val = { file with mcastHi := val } := by
  change file.write params .mcastHi val 0xF status.mdioBusy = _
  rw [CsrFile.write, if_pos hfilter, strbMerge_full]

theorem emzCtrlUpdate_eq (clr set : BitVec 32) :
    emzCtrlUpdate params status file clr set =
      { file with ctrl := ((file.ctrl.setWidth 32 &&& ~~~clr) ||| set).setWidth 10 } := by
  change file.write params .ctrl
    ((file.read params status .ctrl &&& ~~~clr) ||| set) 0xF status.mdioBusy = _
  rw [CsrFile.write, strbMerge_full, CsrFile.read]

/-- The probe finds the filter exactly in the builds that have it. -/
theorem emzHasMcastHash_eq : emzHasMcastHash params status file = params.mcastHashFilter := by
  cases hfilter : params.mcastHashFilter with
  | true =>
      rw [emzHasMcastHash, emzWr_mcastLo status file hfilter]
      change ((if params.mcastHashFilter then (1 : BitVec 32) else 0) == 1) = true
      rw [hfilter]
      rfl
  | false =>
      change ((if params.mcastHashFilter then _ else (0 : BitVec 32)) == 1) = false
      rw [hfilter]
      rfl

variable {mode : RxMode}

/-- The two registers hold the halves of the hash. -/
theorem emzSetRxMode_eq (hfilter : params.mcastHashFilter = true) :
    emzSetRxMode params status file true mode =
      { file with
        mcastLo := (emzHash mode).setWidth 32
        mcastHi := (emzHash mode >>> 32).setWidth 32
        ctrl := ((file.ctrl.setWidth 32 &&& ~~~emzCtrlPromisc) |||
          if mode.promisc then emzCtrlPromisc else 0).setWidth 10 } := by
  rw [emzSetRxMode, if_pos rfl, emzCtrlUpdate_eq, emzWr_mcastLo status file hfilter,
    emzWr_mcastHi status _ hfilter]
  simp

/-- `upper_32_bits` and `lower_32_bits` put together again. -/
theorem append_halves (hash : BitVec 64) :
    ((hash >>> 32).setWidth 32 ++ hash.setWidth 32 : BitVec 64) = hash := by
  apply BitVec.eq_of_getLsbD_eq
  intro index hindex
  rw [BitVec.getLsbD_append]
  by_cases hlow : index < 32
  · rw [if_pos hlow, BitVec.getLsbD_setWidth, decide_eq_true hlow, Bool.true_and]
  · rw [if_neg hlow, BitVec.getLsbD_setWidth, BitVec.getLsbD_ushiftRight,
      decide_eq_true (by omega), Bool.true_and, Nat.add_sub_cancel' (Nat.le_of_not_lt hlow)]

theorem cfgMcastHashTable_set (hfilter : params.mcastHashFilter = true) :
    cfgMcastHashTable params (emzSetRxMode params status file true mode) = emzHash mode := by
  rw [emzSetRxMode_eq status file hfilter, cfgMcastHashTable, if_pos hfilter]
  exact append_halves (emzHash mode)

theorem cfgPromisc_set (hfilter : params.mcastHashFilter = true) :
    cfgPromisc (emzSetRxMode params status file true mode) = mode.promisc := by
  rw [emzSetRxMode_eq status file hfilter, cfgPromisc]
  cases mode.promisc <;> simp [emzCtrlPromisc]

/-- A bit of the table is in the first register or in the second. -/
theorem getLsbD_cfgMcastHashTable (hfilter : params.mcastHashFilter = true) (index : Nat) :
    (cfgMcastHashTable params file).getLsbD index =
      if index < 32 then file.mcastLo.getLsbD index else file.mcastHi.getLsbD (index - 32) := by
  rw [cfgMcastHashTable, if_pos hfilter, BitVec.getLsbD_append]

end Registers

section Filter

variable {params : EthMacRxParams} {pins : EthMacRxIn}

/-- The alternatives of the filter, the table last. -/
theorem filterPasses_iff {mac : BitVec 48} :
    filterPasses params pins mac = true ↔
      mac = pins.ourMac ∨ mac = broadcastMac ∨ pins.promisc = true ∨
        pins.passthrough = true ∨ throughTable params pins mac = true := by
  rw [filterPasses, throughTable]
  by_cases hbroadcast : mac = broadcastMac
  · simp [hbroadcast]
  · simp [hbroadcast, or_assoc]

theorem macPassNow_iff {rx : EthMacRx params} :
    rx.macPassNow pins = true ↔ filterPasses params pins (rx.macChk pins) = true := by
  rw [filterPasses_iff, EthMacRx.macPassNow, throughTable]
  simp [or_assoc]

end Filter

/-- The driver's hash is the filter's.  In a build with the filter it puts the bit of
each listed address where the receiver looks that hash up.  So every frame to a listed
multicast address is accepted, and through the table exactly those with the I/G bit
set, broadcast excepted, that have the hash of a listed address, or all of them under
`IFF_ALLMULTI`. -/
theorem programmed_filter {params : AxiliteParams} {rxParams : EthMacRxParams}
    (hfilter : params.mcastHashFilter = true) (hrxFilter : rxParams.mcastHashFilter = true)
    (status : CsrStatus) (probed file : CsrFile) (mode : RxMode) {pins : EthMacRxIn} :
    let after := emzSetRxMode params status file (emzHasMcastHash params status probed) mode
    pins.mcastHashTable = cfgMcastHashTable params after →
    (∀ addr, emzMcastHash addr = (mcastHashIdx addr.mac).setWidth 32) ∧
    (∀ mac : BitVec 48, pins.mcastHashTable.getLsbD (mcastHashIdx mac).toNat =
      if (mcastHashIdx mac).toNat < 32 then after.mcastLo.getLsbD (mcastHashIdx mac).toNat
      else after.mcastHi.getLsbD ((mcastHashIdx mac).toNat - 32)) ∧
    (∀ mac, throughTable rxParams pins mac = true ↔
      mac.getLsbD 40 = true ∧ mac ≠ broadcastMac ∧
        (mode.allmulti = true ∨
          ∃ addr ∈ mode.mcAddrs, emzMcastHash addr = (mcastHashIdx mac).setWidth 32)) ∧
    (∀ rx : EthMacRx rxParams, rx.macPassNow pins = true ↔
      rx.macChk pins = pins.ourMac ∨ rx.macChk pins = broadcastMac ∨ pins.promisc = true ∨
        pins.passthrough = true ∨ throughTable rxParams pins (rx.macChk pins) = true) ∧
    (∀ (frame : List RxBeat) (room : Bool), frame[5]? = some ⟨pins, room⟩ →
      (∃ addr ∈ mode.mcAddrs, addr.mac = destination (bytes frame) ∧
        addr.mac.getLsbD 40 = true) →
      forStation rxParams frame = true) ∧
    cfgPromisc after = mode.promisc := by
  intro after htable
  have hafter : after = emzSetRxMode params status file true mode := by
    simp only [after, emzHasMcastHash_eq, hfilter]
  have hhash : pins.mcastHashTable = emzHash mode := by
    rw [htable, hafter, cfgMcastHashTable_set status file hfilter]
  have hthrough : ∀ mac, throughTable rxParams pins mac = true ↔
      mac.getLsbD 40 = true ∧ mac ≠ broadcastMac ∧
        (mode.allmulti = true ∨
          ∃ addr ∈ mode.mcAddrs, emzMcastHash addr = (mcastHashIdx mac).setWidth 32) := by
    intro mac
    rw [throughTable, hrxFilter, hhash, Bool.and_eq_true, getLsbD_emzHash]
    simp [and_assoc]
  refine ⟨emzMcastHash_eq, ?_, hthrough, ?_, ?_, ?_⟩
  · intro mac
    rw [htable, getLsbD_cfgMcastHashTable after hfilter]
  · intro rx
    rw [macPassNow_iff, filterPasses_iff]
  · rintro frame room hsixth ⟨addr, haddr, hmac, hgroup⟩
    rw [forStation, hsixth]
    apply filterPasses_iff.mpr
    by_cases hbroadcast : destination (bytes frame) = broadcastMac
    · exact Or.inr (Or.inl hbroadcast)
    · refine Or.inr (Or.inr (Or.inr (Or.inr ((hthrough _).mpr ?_))))
      rw [← hmac] at hbroadcast ⊢
      exact ⟨hgroup, hbroadcast, Or.inr ⟨addr, haddr, emzMcastHash_eq addr⟩⟩
  · rw [hafter, cfgPromisc_set status file hfilter]

def mcastParams : AxiliteParams := ⟨8, true, false, false, 9018, true⟩

def mcastRxParams : EthMacRxParams := ⟨true, 4, 1522, 9022, false, by decide, by decide⟩

/-- A receiver's inputs once the driver has programmed a mode. -/
def mcastPins (mode : RxMode) (data : BitVec 8) : EthMacRxIn where
  gmiiRxd := data
  gmiiRxDv := true
  gmiiRxEr := false
  ourMac := 0x020000000001
  promisc := false
  passthrough := false
  jumboEn := false
  rxCsumEn := false
  mcastHashTable :=
    cfgMcastHashTable mcastParams
      (emzSetRxMode mcastParams (IrqBench.quietStatus false) (.reset mcastParams)
        (emzHasMcastHash mcastParams (IrqBench.quietStatus false) (.reset mcastParams)) mode)
  mAxisTready := true

/-- A multicast address of hash 0, like broadcast. -/
def zeroHashAddr : EthAddr := ⟨[0x01, 0x00, 0x00, 0x00, 0x00, 0x10], rfl⟩

def listedMode : RxMode := ⟨false, false, [zeroHashAddr]⟩

def allmultiMode : RxMode := ⟨false, true, []⟩

/-- A frame to a listed address is accepted. -/
theorem programmed_filter_listed :
    forStation mcastRxParams
      (zeroHashAddr.bytes.map fun data => ⟨mcastPins listedMode data, true⟩) = true :=
  (@programmed_filter mcastParams mcastRxParams rfl rfl (IrqBench.quietStatus false)
    (.reset mcastParams) (.reset mcastParams) listedMode (mcastPins listedMode 0x10)
    rfl).2.2.2.2.1 _ true rfl ⟨zeroHashAddr, by decide, by decide +kernel, by decide +kernel⟩

/-- Under `IFF_ALLMULTI` no listed address is needed, and a listed address of the same
hash does not bring a broadcast frame through the table. -/
theorem programmed_filter_beside :
    ¬ (throughTable mcastRxParams (mcastPins allmultiMode 0) 0x01005E000001 = true ↔
      (0x01005E000001 : BitVec 48).getLsbD 40 = true ∧
        ∃ addr ∈ allmultiMode.mcAddrs,
          emzMcastHash addr = (mcastHashIdx 0x01005E000001).setWidth 32) ∧
    ¬ (throughTable mcastRxParams (mcastPins listedMode 0) broadcastMac = true ↔
      broadcastMac.getLsbD 40 = true ∧
        ∃ addr ∈ listedMode.mcAddrs,
          emzMcastHash addr = (mcastHashIdx broadcastMac).setWidth 32) := by
  decide +kernel

end EmacZero
