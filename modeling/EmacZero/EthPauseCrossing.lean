/-
The time of a PAUSE frame on its way from the receive clock to the timer: the toggle
goes through three flops, and the time itself is read as it stands.
-/
import EmacZero.ClockCrossing
import EmacZero.EthPause
import EmacZero.EthPauseRxRun

namespace EmacZero

/-- One edge of `clk`: what its flops catch late, bit by bit of the time, and the inputs
of the timer. -/
structure PauseClkIn where
  late : Bool
  torn : BitVec 16
  cfgSpeed : BitVec 2
  cfgPauseRxEn : Bool
  statClr : Bool
deriving Repr, DecidableEq

/-- An edge of `rx_clk` or of `clk`. -/
inductive PauseEdge where
  | rx (pins : PausePins)
  | clk (i : PauseClkIn)
deriving Repr, DecidableEq

/-- A flip of the toggle as `clk` has seen it, with what the timer has loaded. -/
structure PauseSeen where
  enabled : Bool
  loaded : Option (BitVec 16)
deriving Repr, DecidableEq

/-- Receiver and timer, what crosses between them, the bytes or nibbles received since
the last flip, the envelopes at whose end the toggle has flipped and the flips seen. -/
structure PauseCrossing where
  rxb : PauseRxBench
  tgl : Launched Bool
  quanta : Launched (BitVec 16)
  timer : EthPauseTimer
  received : Nat
  frames : List (List PausePins)
  seen : List PauseSeen
deriving Repr, DecidableEq

/-- What an edge catches of a word that may be changing. -/
def Launched.catch {w : Nat} (reg : Launched (BitVec w)) (torn : BitVec w) : BitVec w :=
  (reg.now &&& ~~~torn) ||| (reg.before &&& torn)

theorem Launched.catch_settled {w : Nat} {reg : Launched (BitVec w)}
    (hsettled : reg.before = reg.now) (torn : BitVec w) : reg.catch torn = reg.now := by
  apply BitVec.eq_of_getLsbD_eq
  intro bit hbit
  rw [Launched.catch, hsettled, BitVec.getLsbD_or, BitVec.getLsbD_and, BitVec.getLsbD_and,
    BitVec.getLsbD_not, decide_eq_true hbit]
  cases reg.now.getLsbD bit <;> cases torn.getLsbD bit <;> rfl

/-- Bytes of an envelope on the pins; nibbles in nibble mode. -/
def pinsOf (rxNibble : Bool) (envelope : List PausePins) : Nat :=
  if rxNibble then envelope.length else (envelope.filter PausePins.rxCe).length

def byteTimes (rxNibble : Bool) (count : Nat) : Nat := if rxNibble then count / 2 else count

/-- The bytes of a frame, and its SFD, have taken as many byte times. -/
theorem length_le_byteTimes {rxNibble : Bool} {envelope : List PausePins}
    {body : List (BitVec 8)} (hbody : pauseBody rxNibble envelope = some body) :
    body.length + 1 ≤ byteTimes rxNibble (pinsOf rxNibble envelope) := by
  cases rxNibble with
  | false =>
      have hlength := length_frameOf hbody
      rw [List.length_map] at hlength
      exact hlength
  | true =>
      have hlength := length_nibbleFrame hbody
      rw [List.length_map] at hlength
      change body.length + 1 ≤ envelope.length / 2
      omega

theorem byteTimes_mono (rxNibble : Bool) {fewer more : Nat} (hle : fewer ≤ more) :
    byteTimes rxNibble fewer ≤ byteTimes rxNibble more := by
  cases rxNibble with
  | false => exact hle
  | true => exact Nat.div_le_div_right hle

namespace PauseCrossing

def start : PauseCrossing :=
  ⟨.start, .rest false, .rest 0, .reset, 0, [], []⟩

section Edge

variable (rxNibble : Bool) (params : EthPauseParams) (bench : PauseCrossing)

/-- A byte, or nibble, is in the byte stage. -/
def received? (rx : EthPauseRx) : Bool := if rxNibble then rx.dvD1 else rx.bStb

def timerIn (i : PauseClkIn) : PauseRxIn where
  cfgSpeed := i.cfgSpeed
  cfgPauseRxEn := i.cfgPauseRxEn
  rxPauseTgl := bench.tgl.sample i.late
  rxPauseQuanta := bench.quanta.catch i.torn
  statClr := i.statClr

/-- The toggle flips at this edge of `rx_clk`. -/
def flips (pins : PausePins) : Bool :=
  (bench.rxb.step rxNibble pins).rx.pauseTgl != bench.rxb.rx.pauseTgl

def step : PauseEdge → PauseCrossing
  | .rx pins =>
      { bench with
        rxb := bench.rxb.step rxNibble pins
        tgl := bench.tgl.drive (bench.rxb.step rxNibble pins).rx.pauseTgl
        quanta := bench.quanta.drive (bench.rxb.step rxNibble pins).rx.pauseQuanta
        received :=
          if bench.flips rxNibble pins then 0
          else bench.received + (received? rxNibble bench.rxb.rx).toNat
        frames :=
          if bench.flips rxNibble pins then bench.frames ++ bench.rxb.ended.toList
          else bench.frames }
  | .clk i =>
      { bench with
        tgl := bench.tgl.settle
        quanta := bench.quanta.settle
        timer := bench.timer.clkEdge params (bench.timerIn i)
        seen :=
          if bench.timer.prxEvt then
            bench.seen ++
              [⟨i.cfgPauseRxEn,
                if bench.timer.pauseLoad (bench.timerIn i) then
                  some (bench.timer.clkEdge params (bench.timerIn i)).pauseRemaining
                else none⟩]
          else bench.seen }

/-- A flip is seen before more than 17 byte times have been received behind it. -/
def Timely (bench : PauseCrossing) : PauseEdge → Prop
  | .rx _ => bench.tgl.now ≠ bench.timer.prxTglS3 →
      byteTimes rxNibble (bench.received + (received? rxNibble bench.rxb.rx).toNat) ≤ 17
  | .clk _ => True

instance (bench : PauseCrossing) (edge : PauseEdge) :
    Decidable (bench.Timely rxNibble edge) :=
  match edge with
  | .rx _ => inferInstanceAs (Decidable (_ → _))
  | .clk _ => inferInstanceAs (Decidable True)

/-- A flip, seen, loads the time of the frame it stands for, if the timer is enabled. -/
def Loads (envelope : List PausePins) (seen : PauseSeen) : Prop :=
  ∃ body, ValidPause rxNibble envelope body ∧
    seen.loaded = if seen.enabled then some (pauseTime body) else none

/-- Every flip is seen once, all but perhaps the last, and loads the time of its frame. -/
structure LoadsOnce : Prop where
  once : bench.frames.length =
    bench.seen.length + if bench.tgl.now = bench.timer.prxTglS3 then 0 else 1
  loads : List.Forall₂ (Loads rxNibble) (bench.frames.take bench.seen.length) bench.seen

/-- The flips on their way through the flops: none, or one that has not changed the time
yet. -/
inductive Linked : Prop where
  | idle (hfirst : bench.timer.prxTglS1 = bench.tgl.now)
      (hsecond : bench.timer.prxTglS2 = bench.tgl.now)
      (hthird : bench.timer.prxTglS3 = bench.tgl.now)
      (hbefore : bench.tgl.before = bench.tgl.now)
      (hloads : List.Forall₂ (Loads rxNibble) bench.frames bench.seen)
  | pending (earlier : List (List PausePins)) (envelope : List PausePins)
      (body : List (BitVec 8)) (hframes : bench.frames = earlier ++ [envelope])
      (hloads : List.Forall₂ (Loads rxNibble) earlier bench.seen)
      (hvalid : ValidPause rxNibble envelope body)
      (hnow : bench.quanta.now = pauseTime body)
      (hsettled : bench.quanta.before = bench.quanta.now)
      (hthird : bench.timer.prxTglS3 = !bench.tgl.now)
      (hstage : bench.timer.prxTglS1 = (!bench.tgl.now) ∧
          bench.timer.prxTglS2 = (!bench.tgl.now) ∨
        bench.timer.prxTglS1 = bench.tgl.now ∧ bench.tgl.before = bench.tgl.now)

structure Crosses : Prop where
  follows : bench.rxb.Follows rxNibble
  tgl : bench.tgl.now = bench.rxb.rx.pauseTgl
  quanta : bench.quanta.now = bench.rxb.rx.pauseQuanta
  during : pinsOf rxNibble bench.rxb.opened ≤
    bench.received + (received? rxNibble bench.rxb.rx).toNat
  after : ∀ envelope ∈ bench.rxb.ended, pinsOf rxNibble envelope ≤ bench.received
  linked : bench.Linked rxNibble

end Edge

variable {rxNibble : Bool} {params : EthPauseParams} {bench : PauseCrossing}

/-- The time changes only behind seventeen bytes of a frame. -/
theorem quanta_changes {rxb : PauseRxBench} (hfollows : rxb.Follows rxNibble)
    {pins : PausePins}
    (hchanges : (rxb.step rxNibble pins).rx.pauseQuanta ≠ rxb.rx.pauseQuanta) :
    ∃ body, pauseBody rxNibble rxb.opened = some body ∧ 17 ≤ body.length := by
  have hstep : (rxb.step rxNibble pins).rx.pauseQuanta = rxb.rx.nextParser.pauseQuanta := rfl
  rw [hstep] at hchanges
  have hstb : rxb.rx.bStb = true := by
    by_contra hquiet
    apply hchanges
    simp only [EthPauseRx.nextParser, EthPauseRx.rxBody, Bool.eq_false_iff.mpr hquiet,
      Bool.false_and, Bool.false_eq_true, if_false]
    split <;> rfl
  cases hended : rxb.ended with
  | some envelope =>
      rw [(hfollows.after envelope hended).2.1] at hstb
      cases hstb
  | none =>
      obtain ⟨bytes, hbytes, hparsed⟩ := hfollows.during hended
      have hend : rxb.rx.bEnd = false := by rw [hfollows.bEnd, hended]; rfl
      obtain ⟨-, -, hquanta, -⟩ := @clkEdge_strobe rxb.rx rxNibble pins hstb hend
      have hbyte : rxb.rx.parseByte.pauseQuanta ≠ rxb.rx.pauseQuanta := hquanta ▸ hchanges
      rw [PauseRxBench.strobed, if_pos hstb] at hbytes
      cases hparsed with
      | idle hnil hstate => simp [EthPauseRx.parseByte, hstate] at hbyte
      | preamble hne hpre hstate => simp [EthPauseRx.parseByte, hstate] at hbyte
      | drain hbad hfails hstate => simp [EthPauseRx.parseByte, hstate] at hbyte
      | frame body hbody hon =>
          refine ⟨body ++ [rxb.rx.bD], ?_, ?_⟩
          · rw [← frameOf_strobes, hbytes]
            exact frameOf_append_some hbody _
          · rw [parseByte_pauseQuanta hon.place] at hbyte
            rw [List.length_append, List.length_singleton]
            by_contra hshort
            rw [if_neg (by omega), if_neg (by omega)] at hbyte
            exact hbyte rfl

/-- A pin that is received now is in the byte stage then. -/
theorem pinsOf_step (rxb : PauseRxBench) {pins : PausePins} (hdv : pins.rxDv = true) :
    pinsOf rxNibble (rxb.opened ++ [pins]) =
      pinsOf rxNibble rxb.opened +
        (received? rxNibble (rxb.step rxNibble pins).rx).toNat := by
  cases rxNibble with
  | false =>
      cases hce : pins.rxCe <;>
        simp [pinsOf, received?, PauseRxBench.step, EthPauseRx.clkEdge,
          EthPauseRx.nextByteStage, hdv, hce]
  | true =>
      simp [pinsOf, received?, PauseRxBench.step, EthPauseRx.clkEdge,
        EthPauseRx.nextByteStage, hdv]

theorem pinsOf_nil : pinsOf rxNibble [] = 0 := by cases rxNibble <;> rfl

/-- The envelope under way has been received since the last flip, but for the pins in
the byte stage. -/
theorem during_step (hcrosses : bench.Crosses rxNibble) (pins : PausePins)
    {received : Nat} (hreceived : bench.rxb.ended = none →
      bench.received + (received? rxNibble bench.rxb.rx).toNat ≤ received) :
    pinsOf rxNibble (bench.rxb.step rxNibble pins).opened ≤
        received + (received? rxNibble (bench.rxb.step rxNibble pins).rx).toNat ∧
      ∀ envelope ∈ (bench.rxb.step rxNibble pins).ended,
        pinsOf rxNibble envelope ≤ received := by
  have hopened : pinsOf rxNibble bench.rxb.opened ≤ received := by
    cases hended : bench.rxb.ended with
    | none => exact hcrosses.during.trans (hreceived hended)
    | some envelope =>
        rw [(hcrosses.follows.after envelope hended).1, pinsOf_nil]
        exact Nat.zero_le received
  cases hdv : pins.rxDv with
  | true =>
      have hnext : (bench.rxb.step rxNibble pins).opened = bench.rxb.opened ++ [pins] :=
        if_pos hdv
      constructor
      · rw [hnext, pinsOf_step bench.rxb hdv]
        exact Nat.add_le_add_right hopened _
      · intro envelope hended
        simp [PauseRxBench.step, hdv] at hended
  | false =>
      have hnext : (bench.rxb.step rxNibble pins).opened = [] := by
        simp [PauseRxBench.step, hdv]
      constructor
      · rw [hnext, pinsOf_nil]
        exact Nat.zero_le _
      · intro envelope hended
        simp only [PauseRxBench.step, hdv, Bool.false_or] at hended
        split at hended
        · cases hended
        · rw [← Option.some.inj hended]
          exact hopened

/-- While a flip is on its way neither the toggle nor the time changes. -/
theorem still_of_timely (hcrosses : bench.Crosses rxNibble) {pins : PausePins}
    (htimely : bench.Timely rxNibble (.rx pins))
    (hpending : bench.tgl.now ≠ bench.timer.prxTglS3) :
    bench.flips rxNibble pins = false ∧
      (bench.rxb.step rxNibble pins).rx.pauseQuanta = bench.rxb.rx.pauseQuanta := by
  have hfew := htimely hpending
  constructor
  · rw [flips, bne_eq_false_iff_eq]
    by_contra hflips
    obtain ⟨envelope, hended, body, hvalid⟩ :=
      (hcrosses.follows.recognises.flips pins).mp hflips
    have hlength := length_le_byteTimes hvalid.found
    have hlong := hvalid.pause.long
    have hless := hcrosses.after envelope hended
    have hmono := byteTimes_mono rxNibble (hless.trans (Nat.le_add_right bench.received
      (received? rxNibble bench.rxb.rx).toNat))
    omega
  · by_contra hchanges
    obtain ⟨body, hbody, hlong⟩ := quanta_changes hcrosses.follows hchanges
    have hlength := length_le_byteTimes hbody
    have hmono := byteTimes_mono rxNibble hcrosses.during
    omega

/-- A flip is launched when the one before it has been seen. -/
theorem linked_flip (hcrosses : bench.Crosses rxNibble) {pins : PausePins}
    (htimely : bench.Timely rxNibble (.rx pins)) (hflips : bench.flips rxNibble pins = true) :
    (bench.step rxNibble params (.rx pins)).Linked rxNibble := by
  have hseen : bench.tgl.now = bench.timer.prxTglS3 := by
    by_contra hpending
    rw [(still_of_timely hcrosses htimely hpending).1] at hflips
    cases hflips
  have hmoves : (bench.rxb.step rxNibble pins).rx.pauseTgl = !bench.tgl.now := by
    rw [hcrosses.tgl]
    exact Bool.eq_not.mpr (bne_iff_ne.mp hflips)
  obtain ⟨envelope, hended, body, hvalid⟩ :=
    (hcrosses.follows.recognises.flips pins).mp (bne_iff_ne.mp hflips)
  have htime := hcrosses.follows.recognises.quanta pins envelope hended body hvalid
  have hkept : (bench.rxb.step rxNibble pins).rx.pauseQuanta = bench.rxb.rx.pauseQuanta := by
    by_contra hchanges
    obtain ⟨other, hother, -⟩ := quanta_changes hcrosses.follows hchanges
    rw [(hcrosses.follows.after envelope hended).1] at hother
    cases rxNibble <;> cases hother
  have hframes : (bench.step rxNibble params (.rx pins)).frames =
      bench.frames ++ [envelope] := by
    simp only [step, hflips, if_true]
    rw [Option.mem_def.mp hended]
    rfl
  cases hcrosses.linked with
  | idle hfirst hsecond hthird hbefore hloads =>
      refine Linked.pending bench.frames envelope body hframes hloads hvalid htime ?_ ?_ ?_
      · exact (hcrosses.quanta.trans hkept.symm)
      · change bench.timer.prxTglS3 = !_
        simp [step, hmoves, hthird]
      · left
        change bench.timer.prxTglS1 = (!_) ∧ bench.timer.prxTglS2 = !_
        simp [step, hmoves, hfirst, hsecond]
  | pending earlier last time hlast hloads hgood hnow hsettled hthird hstage =>
      rw [hthird] at hseen
      cases hnow' : bench.tgl.now <;> rw [hnow'] at hseen <;> cases hseen

theorem linked_rx (hcrosses : bench.Crosses rxNibble) {pins : PausePins}
    (htimely : bench.Timely rxNibble (.rx pins)) :
    (bench.step rxNibble params (.rx pins)).Linked rxNibble := by
  cases hflips : bench.flips rxNibble pins with
  | true => exact linked_flip hcrosses htimely hflips
  | false =>
      have hstays : (bench.rxb.step rxNibble pins).rx.pauseTgl = bench.tgl.now := by
        rw [hcrosses.tgl]
        exact bne_eq_false_iff_eq.mp hflips
      have hframes : (bench.step rxNibble params (.rx pins)).frames = bench.frames := by
        simp [step, hflips]
      cases hcrosses.linked with
      | idle hfirst hsecond hthird hbefore hloads =>
          apply Linked.idle
          · exact hfirst.trans hstays.symm
          · exact hsecond.trans hstays.symm
          · exact hthird.trans hstays.symm
          · exact hstays.symm
          · rw [hframes]
            exact hloads
      | pending earlier envelope body hlast hloads hvalid hnow hsettled hthird hstage =>
          have hpending : bench.tgl.now ≠ bench.timer.prxTglS3 := by
            rw [hthird]
            exact (Bool.not_ne_self _).symm
          have hkept := (still_of_timely hcrosses htimely hpending).2
          have htime : (bench.step rxNibble params (.rx pins)).quanta.now =
              bench.quanta.now := hkept.trans hcrosses.quanta.symm
          refine Linked.pending earlier envelope body (hframes.trans hlast) hloads hvalid
            (htime.trans hnow) htime.symm ?_ ?_
          · change bench.timer.prxTglS3 = !_
            rw [hthird]
            exact congrArg _ hstays.symm
          · rcases hstage with ⟨hfirst, hsecond⟩ | ⟨hfirst, -⟩
            · left
              change bench.timer.prxTglS1 = (!_) ∧ bench.timer.prxTglS2 = !_
              rw [hfirst, hsecond]
              exact ⟨congrArg _ hstays.symm, congrArg _ hstays.symm⟩
            · exact Or.inr ⟨hfirst.trans hstays.symm, hstays.symm⟩

theorem linked_clk (hcrosses : bench.Crosses rxNibble) (i : PauseClkIn) :
    (bench.step rxNibble params (.clk i)).Linked rxNibble := by
  cases hcrosses.linked with
  | idle hfirst hsecond hthird hbefore hloads =>
      have hquiet : bench.timer.prxEvt = false := by
        rw [EthPauseTimer.prxEvt, hsecond, hthird, Bool.xor_self]
      apply Linked.idle
      · change bench.tgl.sample i.late = bench.tgl.now
        rcases bench.tgl.sample_eq_or i.late with hold | hnew
        · exact hold.trans hbefore
        · exact hnew
      · exact hfirst
      · exact hsecond
      · rfl
      · simp only [step, hquiet, Bool.false_eq_true, if_false]
        exact hloads
  | pending earlier envelope body hlast hloads hvalid hnow hsettled hthird hstage =>
      -- the flip has not come to the last two flops
      have hwaits (hquiet : bench.timer.prxEvt = false)
          (hsecond : bench.timer.prxTglS2 = !bench.tgl.now)
          (hnext : (bench.step rxNibble params (.clk i)).timer.prxTglS1 =
              (!bench.tgl.now) ∧ bench.timer.prxTglS1 = (!bench.tgl.now) ∨
            (bench.step rxNibble params (.clk i)).timer.prxTglS1 = bench.tgl.now) :
          (bench.step rxNibble params (.clk i)).Linked rxNibble := by
        refine Linked.pending earlier envelope body hlast ?_ hvalid hnow rfl hsecond ?_
        · simp only [step, hquiet, Bool.false_eq_true, if_false]
          exact hloads
        · rcases hnext with ⟨hfirst, hnow⟩ | hfirst
          · exact Or.inl ⟨hfirst, hnow⟩
          · exact Or.inr ⟨hfirst, rfl⟩
      rcases hstage with ⟨hfirst, hsecond⟩ | ⟨hfirst, hbefore⟩
      · apply hwaits _ hsecond
        · rcases Bool.eq_or_eq_not (bench.tgl.sample i.late) bench.tgl.now with hnew | hold
          · exact Or.inr hnew
          · exact Or.inl ⟨hold, hfirst⟩
        · rw [EthPauseTimer.prxEvt, hsecond, hthird, Bool.xor_self]
      · have hsample : bench.tgl.sample i.late = bench.tgl.now := by
          rcases bench.tgl.sample_eq_or i.late with hold | hnew
          · exact hold.trans hbefore
          · exact hnew
        rcases Bool.eq_or_eq_not bench.timer.prxTglS2 bench.tgl.now with hsecond | hsecond
        · have hevent : bench.timer.prxEvt = true := by
            rw [EthPauseTimer.prxEvt, hsecond, hthird]
            cases bench.tgl.now <;> rfl
          apply Linked.idle hsample hfirst hsecond rfl
          have hframes : (bench.step rxNibble params (.clk i)).frames =
              earlier ++ [envelope] := hlast
          rw [hframes]
          simp only [step, hevent, if_true]
          refine List.rel_append hloads
            (List.Forall₂.cons ⟨body, hvalid, ?_⟩ List.Forall₂.nil)
          cases hen : i.cfgPauseRxEn with
          | false => simp [EthPauseTimer.pauseLoad, timerIn, hen]
          | true =>
              have hload : bench.timer.pauseLoad (bench.timerIn i) = true := by
                simp [EthPauseTimer.pauseLoad, timerIn, hen, hevent]
              have htime : (bench.timer.clkEdge params (bench.timerIn i)).pauseRemaining =
                  bench.quanta.catch i.torn := by
                simp [EthPauseTimer.clkEdge, hload]
                rfl
              rw [if_pos rfl, if_pos hload, htime, Launched.catch_settled hsettled, hnow]
        · apply hwaits _ hsecond (Or.inr hsample)
          rw [EthPauseTimer.prxEvt, hsecond, hthird, Bool.xor_self]

theorem Crosses.step (hcrosses : bench.Crosses rxNibble) {edge : PauseEdge}
    (htimely : bench.Timely rxNibble edge) :
    (bench.step rxNibble params edge).Crosses rxNibble := by
  cases edge with
  | clk i =>
      exact ⟨hcrosses.follows, hcrosses.tgl, hcrosses.quanta, hcrosses.during,
        hcrosses.after, linked_clk hcrosses i⟩
  | rx pins =>
      have hreceived : bench.rxb.ended = none →
          bench.received + (received? rxNibble bench.rxb.rx).toNat ≤
            (bench.step rxNibble params (.rx pins)).received := by
        intro hnone
        have hflips : bench.flips rxNibble pins = false := by
          rw [flips, bne_eq_false_iff_eq]
          by_contra hflips
          obtain ⟨envelope, hended, -⟩ :=
            (hcrosses.follows.recognises.flips pins).mp hflips
          rw [hnone] at hended
          cases hended
        simp [PauseCrossing.step, hflips]
      obtain ⟨hduring, hafter⟩ := during_step hcrosses pins hreceived
      exact ⟨hcrosses.follows.step pins, rfl, rfl, hduring, hafter,
        linked_rx hcrosses htimely⟩

theorem crosses_start : start.Crosses rxNibble where
  follows := PauseRxBench.follows_start
  tgl := rfl
  quanta := rfl
  during := by cases rxNibble <;> decide
  after envelope hended := by cases hended
  linked := Linked.idle rfl rfl rfl rfl List.Forall₂.nil

theorem Linked.loadsOnce (hlinked : bench.Linked rxNibble) : bench.LoadsOnce rxNibble := by
  cases hlinked with
  | idle hfirst hsecond hthird hbefore hloads =>
      have hlength := hloads.length_eq
      constructor
      · rw [if_pos hthird.symm, hlength, Nat.add_zero]
      · rw [← hlength, List.take_length]
        exact hloads
  | pending earlier envelope body hframes hloads hvalid hnow hsettled hthird hstage =>
      have hlength := hloads.length_eq
      constructor
      · rw [if_neg (by rw [hthird]; exact (Bool.not_ne_self _).symm), hframes, ← hlength]
        exact List.length_append
      · rw [hframes, ← hlength, List.take_left]
        exact hloads

/-- When `clk` sees every flip in time, the timer loads once for every flip, and loads the
time of the frame that has caused it. -/
theorem loads_run (rxNibble : Bool) (params : EthPauseParams) {edges : List PauseEdge}
    (htimely : Along (step rxNibble params) (Timely rxNibble) start edges) :
    (runFrom (step rxNibble params) start edges).LoadsOnce rxNibble :=
  (invariant_along (fun _ _ htimely hcrosses => hcrosses.step htimely) crosses_start
    htimely).linked.loadsOnce

/-- A PAUSE frame on the wire, byte by byte. -/
def pauseWire (quanta : BitVec 16) : List PauseEdge :=
  (List.replicate 7 0x55 ++ 0xD5 :: pauseFrame 0x020000000001 quanta ++
      fcsOf (pauseFrame 0x020000000001 quanta)).map fun byte => .rx ⟨byte, true, false, true⟩

/-- Two PAUSE frames, each with time to be seen, and everything caught late. -/
def pausedTwice : List PauseEdge :=
  let behind : List PauseEdge := List.replicate 2 (.rx ⟨0, false, false, false⟩) ++
    List.replicate 4 (.clk ⟨true, 0xFFFF, 0, true, false⟩)
  pauseWire 0x1234 ++ behind ++ pauseWire 0 ++ behind

theorem loads_run_twice :
    (runFrom (step false ⟨64, 640, 6400⟩) start pausedTwice).LoadsOnce false :=
  loads_run false ⟨64, 640, 6400⟩ (by decide +kernel)

example : (runFrom (step false ⟨64, 640, 6400⟩) start pausedTwice).seen =
    [⟨true, some 0x1234⟩, ⟨true, some 0⟩] := by
  decide +kernel

end PauseCrossing

end EmacZero
