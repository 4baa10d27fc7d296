/-
The management interface over whole runs: each GO that is taken becomes one transaction,
whatever else is written in the meantime.
-/
import EmacZero.ClockedRun
import EmacZero.MdioWire

namespace EmacZero

variable {params : AxiliteParams}

/-! What a write does to the GO. -/

section Writes

variable {divider : MdcDivider} {sys : MdioSys params} {i : MdioSysIn params}

theorem mdioGo_clkEdge :
    (sys.clkEdge divider i).regs.pulses.mdioGo = (sys.goWritten && !sys.busyR) := by
  change (sys.regs.nextPulses (sys.status i)).mdioGo = _
  rw [AxiliteRegs.nextPulses, MdioSys.goWritten]
  cases sys.regs.executes with
  | false => rfl
  | true =>
      cases sys.regs.wrCsr with
      | none => rfl
      | some csr => cases csr <;> rfl

theorem mdioCmdDropped_clkEdge :
    (sys.clkEdge divider i).regs.file.mdioCmdDropped =
      if sys.goWritten then sys.busyR else sys.regs.file.mdioCmdDropped := by
  change (sys.regs.nextFile (sys.status i)).mdioCmdDropped = _
  rw [AxiliteRegs.nextFile, MdioSys.goWritten]
  cases sys.regs.executes with
  | false => rfl
  | true =>
      cases sys.regs.wrCsr with
      | none => rfl
      | some csr =>
          cases csr with
          | mcastLo | mcastHi | pauseCtrl =>
              simp only [if_true, CsrFile.write]
              split <;> rfl
          | _ => rfl

/-- The cycle after a write has none. -/
theorem executes_after (hexecutes : sys.regs.executes = true) :
    (sys.clkEdge divider i).regs.executes = false := by
  have hfree : sys.regs.bvalid = false := by
    rw [AxiliteRegs.executes, Bool.and_eq_true] at hexecutes
    exact Bool.not_eq_true' _ |>.mp hexecutes.2
  have hresponse : (sys.clkEdge divider i).regs.bvalid = true := by
    change (if sys.regs.bTake i.bus then false else if sys.regs.executes then true
      else sys.regs.bvalid) = true
    rw [AxiliteRegs.bTake, hfree, hexecutes]
    rfl
  rw [AxiliteRegs.executes, hresponse, Bool.not_true, Bool.and_false]

theorem executes_of_goWritten (hgo : sys.goWritten = true) : sys.regs.executes = true := by
  rw [MdioSys.goWritten, Bool.and_eq_true, Bool.and_eq_true] at hgo
  exact hgo.1.1

end Writes

/-! Before and after a transaction. -/

section Idle

variable {divider : MdcDivider} {master : MdioMaster} {log : MdioLog} {cmdValid : Bool}
  {cmd : MdioCmd} {mdioI : Bool}

/-- A master without a command. -/
theorem MdioMaster.clkEdge_idle (hidle : master.state = .idle) :
    master.clkEdge divider false cmd mdioI =
      { master with
        cmdDone := false
        mdcDiv := (master.clkEdge divider false cmd mdioI).mdcDiv
        mdc := (master.clkEdge divider false cmd mdioI).mdc
        mdioISampled := (master.clkEdge divider false cmd mdioI).mdioISampled } := by
  simp only [MdioMaster.clkEdge, MdioMaster.coreEdge, if_pos hidle, Bool.false_eq_true, if_false]

theorem clkEdge_accept (hidle : master.state = .idle) :
    master.clkEdge divider true cmd mdioI =
      { master.accept cmd with
        mdcDiv := (master.clkEdge divider true cmd mdioI).mdcDiv
        mdc := (master.clkEdge divider true cmd mdioI).mdc
        mdioISampled := (master.clkEdge divider true cmd mdioI).mdioISampled } := by
  simp only [MdioMaster.clkEdge, MdioMaster.coreEdge, if_pos hidle, if_true]

theorem place_accept (hidle : master.state = .idle) :
    (master.clkEdge divider true cmd mdioI).place = 0 := by
  rw [clkEdge_accept hidle]
  rfl

/-- The master takes a command. -/
theorem sending_accept (hidle : master.state = .idle) (hoe : master.mdioOe = false)
    (hdone : master.cmdDone = false) {rises : Bool}
    (hrises : rises = (!master.mdc && (master.clkEdge divider true cmd mdioI).mdc)) :
    MdioSending (MdioLog.note ⟨cmd, [], [], []⟩ master rises mdioI)
      (master.clkEdge divider true cmd mdioI) rises.toNat
      (master.clkEdge divider true cmd mdioI).mdc.toNat := by
  have hedge := @clkEdge_accept divider master cmd mdioI hidle
  have hplace := @place_accept divider master cmd mdioI hidle
  have hpin : master.pin = none := by
    rw [MdioMaster.pin, hoe]
    rfl
  have hahead : (master.clkEdge divider true cmd mdioI).ahead =
      (master.clkEdge divider true cmd mdioI).mdc.toNat := by
    rw [MdioMaster.ahead, hplace]
    cases (master.clkEdge divider true cmd mdioI).mdc <;> rfl
  have hnote : MdioLog.note ⟨cmd, [], [], []⟩ master rises mdioI =
      ⟨cmd, List.replicate rises.toNat none, List.replicate rises.toNat mdioI, []⟩ := by
    rw [MdioLog.note, hdone, hpin]
    cases rises <;> rfl
  have hfirst : MdioWalking cmd (master.accept cmd) :=
    ⟨Nat.succ_pos 31, rfl, rfl, rfl, rfl, rfl, rfl, fun _ => (BitVec.shiftLeft_zero _).symm, rfl⟩
  have hwalking := hfirst.ticks (master.clkEdge divider true cmd mdioI).mdcDiv
    (master.clkEdge divider true cmd mdioI).mdc
    (master.clkEdge divider true cmd mdioI).mdioISampled
  rw [← hedge] at hwalking
  rw [hnote]
  refine ⟨hwalking, rfl, rises.toNat_le, Bool.toNat_le _, hahead.symm.le, ?_, ?_,
    fun _ => ⟨fun _ hlate => ?_, fun hstate => ?_, fun hstate => ?_⟩⟩
  · rw [hahead, List.drop_of_length_le (by rw [List.length_range]), List.map_nil, List.append_nil]
  · rw [List.length_replicate, List.length_replicate]
  · rw [hplace] at hlate
    exact absurd hlate (by decide)
  · rw [hedge] at hstate
    cases hstate
  · rw [hedge] at hstate
    cases hstate

theorem MdioCmd.length_wire {lead ones rest : Nat} :
    (cmd.wire lead ones rest).length = lead + ones + 32 + rest := by
  simp only [wire, List.length_append, List.length_replicate, length_frame]

/-- After a transaction the wire is released. -/
theorem MdioLog.Shaped.note {lead ones rest : Nat} (hshaped : log.Shaped lead ones rest)
    (hoe : master.mdioOe = false) (rises : Bool) :
    (log.note master rises mdioI).Shaped lead ones (rest + rises.toNat) := by
  have hpin : master.pin = none := by
    rw [MdioMaster.pin, hoe]
    rfl
  cases rises with
  | false => exact ⟨hshaped.lead_le, hshaped.ones_le, hshaped.seen, hshaped.heard⟩
  | true =>
      refine ⟨hshaped.lead_le, hshaped.ones_le, ?_, ?_⟩
      · change log.seen ++ [master.pin] = log.cmd.wire lead ones (rest + 1)
        rw [hshaped.seen, hpin, MdioCmd.wire, MdioCmd.wire, List.replicate_succ',
          List.append_assoc _ (List.replicate rest none)]
      · change (log.heard ++ [mdioI]).length = (log.seen ++ [master.pin]).length
        rw [List.length_append, List.length_append, hshaped.heard]
        rfl

/-- What has come in stays. -/
theorem MdioLog.Shaped.gives_note {lead ones rest : Nat} {answer : BitVec 16}
    (hshaped : log.Shaped lead ones rest) (hgives : log.Gives lead ones answer) (rises : Bool) :
    (log.note master rises mdioI).Gives lead ones answer := by
  intro hdrives
  cases rises with
  | false => exact hgives hdrives
  | true =>
      have hlength := hshaped.heard
      rw [hshaped.seen, MdioCmd.length_wire] at hlength
      change answer = wireWord (((log.heard ++ [mdioI]).drop (lead + ones + 16)).take 16)
      rw [List.drop_append_of_le_length (by omega),
        List.take_append_of_le_length (by rw [List.length_drop]; omega)]
      exact hgives hdrives

theorem MdioLog.Finished.note (hfinished : log.Finished) (hoe : master.mdioOe = false)
    (hdone : master.cmdDone = false) (rises : Bool) :
    (log.note master rises mdioI).Finished := by
  obtain ⟨lead, ones, rest, answer, hshaped, hanswers, hgives⟩ := hfinished
  refine ⟨lead, ones, rest + rises.toNat, answer, hshaped.note hoe rises, ?_,
    hshaped.gives_note hgives rises⟩
  rw [MdioLog.note, hdone]
  exact hanswers

end Idle

/-! The bench. -/

namespace MdioBench

variable (divider : MdcDivider)

/-- Between two commands, or before the first. -/
structure Resting (bench : MdioBench params) : Prop where
  idle : bench.sys.master.state = .idle
  oe : bench.sys.master.mdioOe = false
  quiet : bench.sys.master.cmdDone = false
  go : bench.sys.regs.pulses.mdioGo = false
  busyR : bench.sys.busyR = false
  finished : ∀ log ∈ bench.current, log.Finished

/-- A GO is on its way to the master. -/
structure Asked (bench : MdioBench params) : Prop where
  idle : bench.sys.master.state = .idle
  oe : bench.sys.master.mdioOe = false
  quiet : bench.sys.master.cmdDone = false
  go : bench.sys.regs.pulses.mdioGo = true
  executes : bench.sys.regs.executes = false
  current : bench.current = some ⟨bench.sys.regs.file.mdio, [], [], []⟩

/-- A transaction is on the wire. -/
structure Sending (bench : MdioBench params) : Prop where
  go : bench.sys.regs.pulses.mdioGo = false
  busyR : bench.sys.busyR = true
  sending : ∃ log lead skip, bench.current = some log ∧
    MdioSending log bench.sys.master lead skip

/-- A transaction is over, which the master reports. -/
structure Reporting (bench : MdioBench params) : Prop where
  idle : bench.sys.master.state = .idle
  oe : bench.sys.master.mdioOe = false
  report : bench.sys.master.cmdDone = true
  go : bench.sys.regs.pulses.mdioGo = false
  busyR : bench.sys.busyR = true
  shaped : ∃ log lead ones rest, bench.current = some log ∧ log.answers = [] ∧
    log.Shaped lead ones rest ∧ log.Gives lead ones bench.sys.master.cmdRdata

/-- What holds of every run. -/
structure Turn (bench : MdioBench params) : Prop where
  ticking : Ticking divider bench.sys.master
  phase : bench.Resting ∨ bench.Asked ∨ bench.Sending ∨ bench.Reporting
  past : ∀ log ∈ bench.past, log.Finished
  taken : bench.past.length + bench.current.toList.length = bench.goes.count true
  dropped : bench.sys.regs.file.mdioCmdDropped = (bench.goes.getLast? == some false)

section Step

variable {divider : MdcDivider} {bench : MdioBench params} {i : MdioSysIn params}

theorem step_busy (hprogress : bench.inProgress = true) :
    bench.step divider i =
      ⟨bench.sys.clkEdge divider i, bench.past, bench.noted divider i,
        if bench.sys.goWritten then bench.goes ++ [false] else bench.goes⟩ := by
  rw [step, hprogress]
  cases bench.sys.goWritten <;> rfl

theorem step_quiet (hno : bench.sys.goWritten = false) :
    bench.step divider i =
      ⟨bench.sys.clkEdge divider i, bench.past, bench.noted divider i, bench.goes⟩ := by
  rw [step, hno]
  rfl

theorem step_taken (hgo : bench.sys.goWritten = true) (hfree : bench.inProgress = false) :
    bench.step divider i =
      ⟨bench.sys.clkEdge divider i, bench.past ++ (bench.noted divider i).toList,
        some ⟨(bench.sys.clkEdge divider i).regs.file.mdio, [], [], []⟩,
        bench.goes ++ [true]⟩ := by
  rw [step, hgo, hfree]
  rfl

theorem inProgress_of_current {log : MdioLog} (hcurrent : bench.current = some log)
    (hanswers : log.answers = []) : bench.inProgress = true := by
  rw [inProgress, hcurrent, Option.any_some, hanswers]
  rfl

theorem noted_of_current {log : MdioLog} (hticking : Ticking divider bench.sys.master)
    (hcurrent : bench.current = some log) :
    bench.noted divider i =
      some (log.note bench.sys.master (bench.sys.master.mdcRising divider) i.mdioI) := by
  have hrises : bench.rises divider i = bench.sys.master.mdcRising divider := rises_iff hticking
  rw [noted, hcurrent, hrises]
  rfl

theorem inProgress_of_finished (hfinished : ∀ log ∈ bench.current, log.Finished) :
    bench.inProgress = false := by
  rw [inProgress]
  cases hcurrent : bench.current with
  | none => rfl
  | some log =>
      obtain ⟨_, _, _, answer, -, hanswers, -⟩ := hfinished log hcurrent
      rw [Option.any_some, hanswers]
      rfl

theorem busyR_clkEdge :
    (bench.sys.clkEdge divider i).busyR =
      if bench.sys.regs.pulses.mdioGo then true
      else if bench.sys.master.cmdDone then false else bench.sys.busyR := rfl

theorem master_clkEdge :
    (bench.sys.clkEdge divider i).master =
      bench.sys.master.clkEdge divider bench.sys.regs.pulses.mdioGo bench.sys.regs.file.mdio
        i.mdioI := rfl

/-- Without a GO an idle master releases the wire and reports nothing. -/
theorem idle_clkEdge (hidle : bench.sys.master.state = .idle)
    (hoe : bench.sys.master.mdioOe = false) (hgo : bench.sys.regs.pulses.mdioGo = false) :
    (bench.sys.clkEdge divider i).master.state = .idle ∧
      (bench.sys.clkEdge divider i).master.mdioOe = false ∧
      (bench.sys.clkEdge divider i).master.cmdDone = false := by
  have hedge := @MdioMaster.clkEdge_idle divider bench.sys.master bench.sys.regs.file.mdio i.mdioI
    hidle
  rw [master_clkEdge, hgo, hedge]
  exact ⟨hidle, hoe, rfl⟩

/-- While nothing goes on, the last command stays finished. -/
theorem Resting.noted_finished (hresting : bench.Resting) :
    ∀ log ∈ bench.noted divider i, log.Finished := by
  intro log hlog
  obtain ⟨before, hbefore, rfl⟩ := Option.map_eq_some_iff.mp hlog
  exact (hresting.finished before hbefore).note hresting.oe hresting.quiet _

theorem Resting.step (hresting : bench.Resting) :
    if bench.sys.goWritten then (bench.step divider i).Asked
    else (bench.step divider i).Resting := by
  obtain ⟨hidle, hoe, hquiet⟩ :=
    @idle_clkEdge params divider bench i hresting.idle hresting.oe hresting.go
  have hgo := @mdioGo_clkEdge params divider bench.sys i
  rw [hresting.busyR] at hgo
  cases hwritten : bench.sys.goWritten with
  | true =>
      rw [if_pos rfl, step_taken hwritten (inProgress_of_finished hresting.finished)]
      rw [hwritten] at hgo
      exact ⟨hidle, hoe, hquiet, hgo, executes_after (executes_of_goWritten hwritten), rfl⟩
  | false =>
      rw [if_neg Bool.false_ne_true, step_quiet hwritten]
      rw [hwritten] at hgo
      refine ⟨hidle, hoe, hquiet, hgo, ?_, hresting.noted_finished⟩
      change (bench.sys.clkEdge divider i).busyR = false
      rw [busyR_clkEdge, hresting.go, hresting.quiet]
      exact hresting.busyR

theorem Asked.not_written (hasked : bench.Asked) : bench.sys.goWritten = false := by
  rw [MdioSys.goWritten, hasked.executes]
  rfl

/-- The transaction begins. -/
theorem Asked.step (hasked : bench.Asked) (hticking : Ticking divider bench.sys.master) :
    (bench.step divider i).Sending := by
  have hnoted := @noted_of_current params divider bench i _ hticking hasked.current
  have hgo := @mdioGo_clkEdge params divider bench.sys i
  rw [hasked.not_written] at hgo
  have hmaster := @master_clkEdge params divider bench i
  rw [hasked.go] at hmaster
  have hrises : bench.sys.master.mdcRising divider = (!bench.sys.master.mdc &&
      (bench.sys.master.clkEdge divider true bench.sys.regs.file.mdio i.mdioI).mdc) :=
    (rises_iff hticking).symm
  have hsending := sending_accept hasked.idle hasked.oe hasked.quiet hrises
  rw [← hmaster] at hsending
  rw [step_quiet hasked.not_written, hnoted]
  refine ⟨hgo, ?_, _, _, _, rfl, hsending⟩
  change (bench.sys.clkEdge divider i).busyR = true
  rw [busyR_clkEdge, hasked.go]
  rfl

/-- The transaction goes on, or ends. -/
theorem Sending.step (hsending : bench.Sending) (hticking : Ticking divider bench.sys.master) :
    (bench.step divider i).Sending ∨ (bench.step divider i).Reporting := by
  obtain ⟨log, lead, skip, hcurrent, hlog⟩ := hsending.sending
  have hnoted := @noted_of_current params divider bench i _ hticking hcurrent
  have hgo := @mdioGo_clkEdge params divider bench.sys i
  rw [hsending.busyR, Bool.not_true, Bool.and_false] at hgo
  have hmaster := @master_clkEdge params divider bench i
  have hbusyR : (bench.sys.clkEdge divider i).busyR = true := by
    rw [busyR_clkEdge, hsending.go, hlog.walking.quiet]
    exact hsending.busyR
  rw [step_busy (inProgress_of_current hcurrent hlog.answers), hnoted]
  cases hfalling : bench.sys.master.mdcFalling divider with
  | true =>
      have hlow := (@mdc_of_falling divider bench.sys.master bench.sys.regs.pulses.mdioGo
        bench.sys.regs.file.mdio i.mdioI hticking hfalling).2.1
      rw [hlow]
      by_cases hlast : bench.sys.master.state = .done
      · obtain ⟨hshaped, hgives, hnote, hidle, hoe, hdone, hrdata⟩ :=
          @sending_last divider bench.sys.master log lead skip bench.sys.regs.pulses.mdioGo
            bench.sys.regs.file.mdio i.mdioI hticking hlog hfalling hlast
        rw [← hmaster] at hidle hoe hdone hrdata
        rw [hnote]
        rw [← hrdata] at hgives
        exact .inr ⟨hidle, hoe, hdone, hgo, hbusyR, log, lead, _, _, rfl, hlog.answers, hshaped,
          hgives⟩
      · have hnext := @sending_fall divider bench.sys.master log lead skip
          bench.sys.regs.pulses.mdioGo bench.sys.regs.file.mdio i.mdioI hticking hlog hfalling hlast
        rw [← hmaster] at hnext
        exact .inl ⟨hgo, hbusyR, _, lead, skip, rfl, hnext⟩
  | false =>
      left
      cases hrising : bench.sys.master.mdcRising divider with
      | true =>
          have hnext := @sending_rise divider bench.sys.master log lead skip
            bench.sys.regs.pulses.mdioGo bench.sys.regs.file.mdio i.mdioI hticking hlog hrising
          rw [← hmaster] at hnext
          exact ⟨hgo, hbusyR, _, lead, skip, rfl, hnext⟩
      | false =>
          have hnext := @sending_quiet divider bench.sys.master log lead skip
            bench.sys.regs.pulses.mdioGo bench.sys.regs.file.mdio i.mdioI hlog hfalling hrising
          rw [← hmaster] at hnext
          exact ⟨hgo, hbusyR, _, lead, skip, rfl, hnext⟩

/-- The answer is there, once. -/
theorem Reporting.step (hreporting : bench.Reporting)
    (hticking : Ticking divider bench.sys.master) : (bench.step divider i).Resting := by
  obtain ⟨log, lead, ones, rest, hcurrent, hanswers, hshaped, hgives⟩ := hreporting.shaped
  have hnoted := @noted_of_current params divider bench i _ hticking hcurrent
  have hgo := @mdioGo_clkEdge params divider bench.sys i
  rw [hreporting.busyR, Bool.not_true, Bool.and_false] at hgo
  obtain ⟨hidle, hoe, hquiet⟩ :=
    @idle_clkEdge params divider bench i hreporting.idle hreporting.oe hreporting.go
  have hbusyR : (bench.sys.clkEdge divider i).busyR = false := by
    rw [busyR_clkEdge, hreporting.go, hreporting.report]
    rfl
  rw [step_busy (inProgress_of_current hcurrent hanswers), hnoted]
  refine ⟨hidle, hoe, hquiet, hgo, hbusyR, fun later hlater => ?_⟩
  obtain rfl := Option.some.inj hlater
  refine ⟨lead, ones, _, bench.sys.master.cmdRdata, hshaped.note hreporting.oe _, ?_,
    hshaped.gives_note hgives _⟩
  rw [MdioLog.note, hreporting.report, hanswers]
  rfl

theorem length_noted : (bench.noted divider i).toList.length = bench.current.toList.length := by
  rw [noted]
  cases bench.current <;> rfl

theorem sys_step : (bench.step divider i).sys = bench.sys.clkEdge divider i := by
  rw [MdioBench.step]
  split
  · split <;> rfl
  · rfl

theorem Turn.start : Turn divider (start : MdioBench params) := by
  have hfour := divider.four_le
  refine ⟨⟨Nat.lt_of_lt_of_le (Nat.succ_pos 3) hfour, (decide_eq_false (Nat.not_lt_zero _)).symm⟩,
    .inl ⟨rfl, rfl, rfl, rfl, rfl, ?_⟩, ?_, rfl, rfl⟩
  · rintro log ⟨⟩
  · rintro log ⟨⟩

/-- While a command is in progress a GO is only counted and flagged. -/
theorem Turn.busy (hturn : Turn divider bench) (hprogress : bench.inProgress = true)
    (hbusyR : bench.sys.goWritten = true → bench.sys.busyR = true)
    (hphase : (bench.step divider i).Resting ∨ (bench.step divider i).Asked ∨
      (bench.step divider i).Sending ∨ (bench.step divider i).Reporting) :
    Turn divider (bench.step divider i) := by
  have hdropped := @mdioCmdDropped_clkEdge params divider bench.sys i
  refine ⟨?_, hphase, ?_, ?_, ?_⟩
  · rw [sys_step]
    exact ticking_step hturn.ticking
  all_goals rw [step_busy hprogress]
  · exact hturn.past
  · change bench.past.length + (bench.noted divider i).toList.length = List.count true _
    rw [length_noted, hturn.taken]
    split
    · rw [List.count_append]
      rfl
    · rfl
  · change (bench.sys.clkEdge divider i).regs.file.mdioCmdDropped = (List.getLast? _ == some false)
    rw [hdropped]
    split
    · rw [List.getLast?_concat, hbusyR ‹_›]
      rfl
    · exact hturn.dropped

theorem Turn.step (hturn : Turn divider bench) : Turn divider (bench.step divider i) := by
  have hticking := hturn.ticking
  rcases hturn.phase with hresting | hasked | hsending | hreporting
  · have hnext := @Resting.step params divider bench i hresting
    have hfree := inProgress_of_finished hresting.finished
    have hdropped := @mdioCmdDropped_clkEdge params divider bench.sys i
    have hnoted := @Resting.noted_finished params divider bench i hresting
    cases hwritten : bench.sys.goWritten with
    | true =>
        rw [hwritten, if_pos rfl] at hnext
        rw [hwritten, if_pos rfl, hresting.busyR] at hdropped
        refine ⟨?_, .inr (.inl hnext), ?_, ?_, ?_⟩
        · rw [sys_step]
          exact ticking_step hticking
        all_goals rw [step_taken hwritten hfree]
        · intro log hlog
          rcases List.mem_append.mp hlog with hlog | hlog
          · exact hturn.past log hlog
          · exact hnoted log (Option.mem_toList.mp hlog)
        · change (bench.past ++ (bench.noted divider i).toList).length + 1 =
            List.count true (bench.goes ++ [true])
          rw [List.length_append, length_noted, hturn.taken, List.count_append]
          rfl
        · change (bench.sys.clkEdge divider i).regs.file.mdioCmdDropped =
            ((bench.goes ++ [true]).getLast? == some false)
          rw [hdropped, List.getLast?_concat]
          rfl
    | false =>
        rw [hwritten, if_neg Bool.false_ne_true] at hnext hdropped
        refine ⟨?_, .inl hnext, ?_, ?_, ?_⟩
        · rw [sys_step]
          exact ticking_step hticking
        all_goals rw [step_quiet hwritten]
        · exact hturn.past
        · change bench.past.length + (bench.noted divider i).toList.length = _
          rw [length_noted]
          exact hturn.taken
        · exact hdropped.trans hturn.dropped
  · refine hturn.busy (inProgress_of_current hasked.current rfl) (fun hwritten => ?_)
      (.inr (.inr (.inl (hasked.step hticking))))
    exact absurd (hasked.not_written.symm.trans hwritten) Bool.false_ne_true
  · obtain ⟨log, lead, skip, hcurrent, hlog⟩ := hsending.sending
    exact hturn.busy (inProgress_of_current hcurrent hlog.answers) (fun _ => hsending.busyR)
      (.inr (.inr (hsending.step hticking)))
  · obtain ⟨log, lead, ones, rest, hcurrent, hanswers, -⟩ := hreporting.shaped
    exact hturn.busy (inProgress_of_current hcurrent hanswers) (fun _ => hreporting.busyR)
      (.inl (hreporting.step hticking))

end Step

end MdioBench

/-! Every transaction comes to its end. -/

/-- The cycles that a transaction still takes, and the one that reports it. -/
def MdioMaster.left (divider : MdcDivider) (cmd : MdioCmd) (master : MdioMaster) : Nat :=
  (cmd.stop - master.place) * divider.period + (divider.period - master.mdcDiv.toNat) + 1

theorem MdioMaster.left_step {divider : MdcDivider} {cmd other : MdioCmd} {master : MdioMaster}
    {cmdValid mdioI : Bool} (hticking : Ticking divider master)
    (hwalking : MdioWalking cmd master)
    (hmore : ¬ (master.mdcFalling divider = true ∧ master.state = .done)) :
    (master.clkEdge divider cmdValid other mdioI).left divider cmd + 1 ≤
      master.left divider cmd := by
  have hbound := hticking.bound
  have hdiv := @mdcDiv_step divider master cmdValid other mdioI hticking
  rw [left, left, hdiv]
  cases hfalling : master.mdcFalling divider with
  | true =>
      have hend := mdcFalling_iff.mp hfalling
      obtain ⟨hnext, hplace⟩ := hwalking.fall fun hdone => hmore ⟨hfalling, hdone⟩
      have hle := hnext.place_le
      have hthere : (master.clkEdge divider cmdValid other mdioI).place = master.place + 1 := by
        rw [clkEdge_falls hwalking.busy hfalling, ← hplace]
        rfl
      rw [hplace] at hle
      have hturns : cmd.stop - master.place = cmd.stop - (master.place + 1) + 1 := by omega
      rw [hthere, hturns, Nat.add_mul, if_pos rfl]
      omega
  | false =>
      have hthere : (master.clkEdge divider cmdValid other mdioI).place = master.place := by
        rw [clkEdge_between hwalking.busy hfalling]
        rfl
      have hnot : master.mdcDiv.toNat + 1 ≠ divider.period := by
        rw [← Bool.not_eq_true, mdcFalling_iff] at hfalling
        exact hfalling
      rw [hthere, if_neg Bool.false_ne_true]
      omega

namespace MdioBench

section Progress

variable {divider : MdcDivider} {bench : MdioBench params} {i : MdioSysIn params}

/-- The last command is answered within so many cycles. -/
def Waits (divider : MdcDivider) (left : Nat) (bench : MdioBench params) : Prop :=
  bench.Asked ∧ 66 * divider.period + 2 ≤ left ∨
    bench.Sending ∧ (∀ log ∈ bench.current, bench.sys.master.left divider log.cmd ≤ left) ∨
    bench.Reporting ∧ 1 ≤ left

theorem waits_step (hticking : Ticking divider bench.sys.master) {left : Nat}
    (hwaits : Waits divider left bench) :
    (bench.step divider i).Resting ∨ Waits divider (left - 1) (bench.step divider i) := by
  rcases hwaits with ⟨hasked, henough⟩ | ⟨hsending, henough⟩ | ⟨hreporting, -⟩
  · refine .inr (.inr (.inl ⟨hasked.step hticking, fun log _ => ?_⟩))
    have hplace : (bench.step divider i).sys.master.place = 0 := by
      rw [sys_step, master_clkEdge, hasked.go]
      exact place_accept hasked.idle
    have hturns : log.cmd.stop * divider.period ≤ 65 * divider.period :=
      Nat.mul_le_mul_right divider.period log.cmd.stop_le
    rw [MdioMaster.left, hplace, Nat.sub_zero]
    omega
  · obtain ⟨log, lead, skip, hcurrent, hlog⟩ := hsending.sending
    have hnext : (bench.step divider i).current = some
        (log.note bench.sys.master (bench.sys.master.mdcRising divider) i.mdioI) := by
      rw [step_busy (inProgress_of_current hcurrent hlog.answers)]
      exact noted_of_current hticking hcurrent
    have hleft := henough log hcurrent
    rcases @Sending.step params divider bench i hsending hticking with hsending' | hreporting
    · refine .inr (.inr (.inl ⟨hsending', fun later hlater => ?_⟩))
      obtain rfl := Option.some.inj (hnext.symm.trans hlater)
      have hmore : ¬ (bench.sys.master.mdcFalling divider = true ∧
          bench.sys.master.state = .done) := by
        rintro ⟨hfalling, hlast⟩
        obtain ⟨_, _, _, -, hbusy⟩ := hsending'.sending
        refine hbusy.walking.busy ?_
        rw [sys_step]
        exact (sending_last hticking hlog hfalling hlast).2.2.2.1
      have hnearer := @MdioMaster.left_step divider log.cmd bench.sys.regs.file.mdio
        bench.sys.master bench.sys.regs.pulses.mdioGo i.mdioI hticking hlog.walking hmore
      rw [sys_step, master_clkEdge]
      change MdioMaster.left divider log.cmd _ ≤ left - 1
      omega
    · refine .inr (.inr (.inr ⟨hreporting, ?_⟩))
      have hbound := hticking.bound
      rw [MdioMaster.left] at hleft
      omega
  · exact .inl (hreporting.step hticking)

theorem finished_answered {log : MdioLog} (hfinished : log.Finished) :
    (!log.answers.isEmpty) = true := by
  obtain ⟨_, _, _, answer, -, hanswers, -⟩ := hfinished
  rw [hanswers]
  rfl

/-- Nothing is owed between two commands. -/
theorem Turn.answered_resting (hturn : Turn divider bench) (hresting : bench.Resting) :
    bench.answered = bench.goes.count true := by
  rw [answered, ← hturn.taken, ← List.length_append, List.countP_eq_length]
  intro log hlog
  rcases List.mem_append.mp hlog with hlog | hlog
  · exact finished_answered (hturn.past log hlog)
  · exact finished_answered (hresting.finished log (Option.mem_toList.mp hlog))

/-- What is taken stays taken, and what is answered stays answered. -/
theorem goes_step : bench.goes.count true ≤ (bench.step divider i).goes.count true := by
  rw [MdioBench.step]
  split
  · split
    all_goals exact (List.sublist_append_left _ _).count_le true
  · exact le_rfl

/-- A cycle takes no answer back. -/
theorem answers_note {log : MdioLog} {master : MdioMaster} {rises mdioI : Bool}
    (hanswered : (!log.answers.isEmpty) = true) :
    (!(log.note master rises mdioI).answers.isEmpty) = true := by
  rw [MdioLog.note]
  cases master.cmdDone with
  | false => exact hanswered
  | true =>
      change (!(log.answers ++ [master.cmdRdata]).isEmpty) = true
      cases log.answers <;> rfl

theorem answered_step : bench.answered ≤ (bench.step divider i).answered := by
  have hnoted : bench.current.toList.countP (fun log => !log.answers.isEmpty) ≤
      (bench.noted divider i).toList.countP fun log => !log.answers.isEmpty := by
    rw [noted]
    cases bench.current with
    | none => exact le_rfl
    | some log =>
        change List.countP _ [log] ≤ List.countP _ [log.note _ _ _]
        rw [List.countP_singleton, List.countP_singleton]
        split
        · rw [if_pos (answers_note ‹_›)]
        · exact Nat.zero_le _
  rw [answered, answered, List.countP_append, MdioBench.step]
  split
  · split
    · rw [List.countP_append]
      exact Nat.add_le_add_left hnoted _
    · rw [List.countP_append, List.countP_append]
      exact (Nat.add_le_add_left hnoted _).trans (Nat.le_add_right _ _)
  · rw [List.countP_append]
    exact Nat.add_le_add_left hnoted _

/-- Each command that has been taken is answered in time. -/
theorem answered_after (hturn : Turn divider bench) (last : List (MdioSysIn params))
    (henough : 66 * divider.period + 2 ≤ last.length) :
    bench.goes.count true ≤
      (runFrom (fun bench i => bench.step divider i) bench last).answered := by
  let goal (later : MdioBench params) : Prop := bench.goes.count true ≤ later.answered
  let waits (left : Nat) (later : MdioBench params) : Prop :=
    Turn divider later ∧ bench.goes.count true ≤ later.goes.count true ∧
      Waits divider left later
  have hgoal (later : MdioBench params) (i : MdioSysIn params) (_ : True) (hreached : goal later) :
      goal (later.step divider i) := hreached.trans answered_step
  have hwaits (later : MdioBench params) (i : MdioSysIn params) (left : Nat) (_ : True)
      (hwaits : waits left later) :
      goal (later.step divider i) ∨ waits (left - true.toNat) (later.step divider i) := by
    obtain ⟨hlater, hcount, hleft⟩ := hwaits
    have hnext := @Turn.step params divider later i hlater
    have hmore := hcount.trans (@goes_step params divider later i)
    rcases @waits_step params divider later i hlater.ticking left hleft with hresting | hleft
    · left
      change _ ≤ _
      rw [hnext.answered_resting hresting]
      exact hmore
    · exact .inr ⟨hnext, hmore, hleft⟩
  have hdone (later : MdioBench params) : ¬ waits 0 later := by
    rintro ⟨-, -, ⟨-, hleft⟩ | ⟨hsending, hleft⟩ | ⟨-, hleft⟩⟩
    · omega
    · obtain ⟨log, -, -, hcurrent, -⟩ := hsending.sending
      have hnone := hleft log hcurrent
      rw [MdioMaster.left] at hnone
      omega
    · omega
  have hstart : goal bench ∨ waits (66 * divider.period + 2) bench := by
    rcases hturn.phase with hresting | hasked | hsending | hreporting
    · exact .inl (hturn.answered_resting hresting).symm.le
    · exact .inr ⟨hturn, le_rfl, .inl ⟨hasked, le_rfl⟩⟩
    · refine .inr ⟨hturn, le_rfl, .inr (.inl ⟨hsending, fun log _ => ?_⟩)⟩
      have hturns : (log.cmd.stop - bench.sys.master.place) * divider.period ≤
          65 * divider.period :=
        Nat.mul_le_mul_right divider.period ((Nat.sub_le _ _).trans log.cmd.stop_le)
      rw [MdioMaster.left]
      omega
    · exact .inr ⟨hturn, le_rfl, .inr (.inr ⟨hreporting, by omega⟩)⟩
  have hcount : 66 * divider.period + 2 ≤ last.countP fun _ => true := by
    rw [List.countP_true]
    exact henough
  exact reached_along goal waits hgoal hwaits hdone
    (along_of_forall (fun _ _ => trivial) bench last) hstart hcount

end Progress

section Run

variable {divider : MdcDivider} {bench : MdioBench params}

theorem Turn.current (hturn : Turn divider bench) :
    ∀ log ∈ bench.current, log.Underway ∨ log.Finished := by
  intro log hlog
  rcases hturn.phase with hresting | hasked | hsending | hreporting
  · exact .inr (hresting.finished log hlog)
  · obtain rfl := Option.some.inj (hasked.current.symm.trans hlog)
    exact .inl ⟨rfl, 0, 32, 0, Nat.zero_le 1, le_rfl, List.nil_prefix⟩
  · obtain ⟨later, lead, skip, hcurrent, hlater⟩ := hsending.sending
    obtain rfl := Option.some.inj (hcurrent.symm.trans hlog)
    exact .inl hlater.underway
  · obtain ⟨later, lead, ones, rest, hcurrent, hanswers, hshaped, -⟩ := hreporting.shaped
    obtain rfl := Option.some.inj (hcurrent.symm.trans hlog)
    refine .inl ⟨hanswers, lead, ones, rest, hshaped.lead_le, hshaped.ones_le, ?_⟩
    rw [hshaped.seen]

/-- Without a command the wire is released. -/
theorem Turn.released (hturn : Turn divider bench) (hfree : bench.inProgress = false) :
    bench.sys.master.pin = none := by
  rcases hturn.phase with hresting | hasked | hsending | hreporting
  · rw [MdioMaster.pin, hresting.oe]
    rfl
  · have hprogress := inProgress_of_current hasked.current rfl
    exact absurd (hfree.symm.trans hprogress) Bool.false_ne_true
  · obtain ⟨log, lead, skip, hcurrent, hlog⟩ := hsending.sending
    have hprogress := inProgress_of_current hcurrent hlog.answers
    exact absurd (hfree.symm.trans hprogress) Bool.false_ne_true
  · obtain ⟨log, lead, ones, rest, hcurrent, hanswers, -⟩ := hreporting.shaped
    have hprogress := inProgress_of_current hcurrent hanswers
    exact absurd (hfree.symm.trans hprogress) Bool.false_ne_true

end Run

variable (divider : MdcDivider)

/-- Over every run of register writes and of bits on the wire: each GO that is taken makes
one transaction, which shows its frame, gives one answer and gives it in time; a GO that
comes during one is dropped and flagged, until the next that is taken.  Without a command
nothing is driven. -/
theorem mdio_run (events : List (MdioSysIn params)) :
    let bench := runFrom (fun bench i => bench.step divider i) (start : MdioBench params) events
    (∀ log ∈ bench.past, log.Finished) ∧
      (∀ log ∈ bench.current, log.Underway ∨ log.Finished) ∧
      bench.past.length + bench.current.toList.length = bench.goes.count true ∧
      bench.sys.regs.file.mdioCmdDropped = (bench.goes.getLast? == some false) ∧
      (bench.inProgress = false → bench.sys.master.pin = none) ∧
      ∀ last, 66 * divider.period + 2 ≤ last.length →
        bench.goes.count true ≤
          (runFrom (fun bench i => bench.step divider i) bench last).answered := by
  intro bench
  have hturn : Turn divider bench :=
    invariant_runFrom (fun _ _ hturn => hturn.step) Turn.start events
  exact ⟨hturn.past, hturn.current, hturn.taken, hturn.dropped, hturn.released,
    fun last => answered_after hturn last⟩

end MdioBench

end EmacZero
