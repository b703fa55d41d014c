import WordMachine.Proofs.ContinuousExecution

namespace WordMachine.Debugger

/-- The calls that can execute an instruction. -/
inductive Call where
  | step
  | tick
  | run
deriving DecidableEq

namespace Session

def call (session : Session) : Call → Session
  | .step => session.step
  | .tick => session.tick
  | .run => session.run

/-- A call executes an instruction when the machine has counted it. -/
def Executes (session : Session) (call : Call) : Prop :=
  (session.call call).machine.steps ≠ session.machine.steps

instance (session : Session) (call : Call) : Decidable (session.Executes call) :=
  inferInstanceAs (Decidable (_ ≠ _))

variable {session : Session} {call : Call} {cause : Fault}

/-- The last of several faults is kept. -/
theorem lastFaultOf_append {before after : List Event}
    (last : ∀ later, Event.fault later ∉ after) :
    lastFaultOf (before ++ Event.fault cause :: after) = some cause := by
  have silent : after.filterMap Event.fault? = [] :=
    List.getLast?_eq_none_iff.mp (lastFaultOf_eq_none_iff.mpr last)
  have faults : (before ++ Event.fault cause :: after).filterMap Event.fault? =
      before.filterMap Event.fault? ++ [cause] := by
    have here : Event.fault? (.fault cause) = some cause := rfl
    rw [List.filterMap_append, List.filterMap_cons_some here, silent]
  rw [lastFaultOf, faults, List.getLast?_append, List.getLast?_singleton, Option.some_or]

/-- A halted machine is not stepped. -/
theorem step_machine_of_halted (halted : session.machine.phase = .halted) :
    session.step.machine = session.machine := by
  simp [step, Machine.isHalted, halted]

/-- A step that reports faults pauses the session, and its status names the last of them. -/
theorem step_of_fault (going : session.machine.phase ≠ .halted)
    (faulty : lastFaultOf session.machine.step.events = some cause) :
    session.step.machine = session.machine.step.value.1 ∧ session.step.running = false ∧
      session.step.status = .fault session.address cause ∧ session.step.lastFault = some cause := by
  have running : ¬ session.machine.isHalted = true := by
    simpa [Machine.isHalted] using going
  simp [step, if_neg running, faulty, address]

/-- A call that executes an instruction is a step, after which a run starts the ticks. -/
theorem Executes.call_eq (executes : session.Executes call) :
    session.machine.phase ≠ .halted ∧
      session.call call =
        if call = .run then { session.step with running := true, status := .running }
        else session.step := by
  have moved : (session.call call).machine ≠ session.machine :=
    fun same => executes (congrArg Machine.steps same)
  have going (stepped : (session.call call).machine = session.step.machine) :
      session.machine.phase ≠ .halted :=
    fun halted => moved (stepped.trans (step_machine_of_halted halted))
  cases call with
  | step => exact ⟨going rfl, rfl⟩
  | tick =>
      have running : session.running = true := by
        by_contra paused
        apply moved
        rw [Session.call, tick_of_paused (by simpa using paused)]
      have free : ¬ Blocked session.machine session.breakpoints := by
        intro blocked
        obtain ⟨status, ticked⟩ := tick_of_blocked running blocked
        apply moved
        rw [Session.call, ticked]
      have ticked : session.call .tick = session.step := tick_of_free running free
      exact ⟨going (by rw [ticked]), ticked⟩
  | run =>
      have here : session.address ∈ session.breakpoints := by
        by_contra off
        apply moved
        rw [Session.call, run_of_off off]
      have ran : session.call .run = { session.step with running := true, status := .running } := by
        rw [Session.call, run, if_pos here]
      exact ⟨going (by rw [ran]), ran⟩

/-- A call that executes a faulty instruction pauses the session exactly when it is no run. -/
theorem faulty_call_pauses_iff (session : Session) (call : Call) {before after : List Event}
    {cause : Fault} (executes : session.Executes call)
    (reported : session.machine.step.events = before ++ .fault cause :: after)
    (last : ∀ later, Event.fault later ∉ after) :
    (session.call call).machine = session.machine.step.value.1 ∧
      ((session.call call).running = false ∧
          (session.call call).status.message =
            s!"Error at PC={String.ofList (Text.address session.address)}: {cause.message}" ↔
        call ≠ .run) ∧
      (call = .run →
        (session.call call).running = true ∧ (session.call call).status = .running ∧
          (session.call call).lastFault = some cause) := by
  obtain ⟨going, called⟩ := executes.call_eq
  have faulty : lastFaultOf session.machine.step.events = some cause := by
    rw [reported]
    exact lastFaultOf_append last
  obtain ⟨machine, paused, status, lastFault⟩ := step_of_fault going faulty
  rw [called]
  by_cases run : call = .run
  · rw [if_pos run]
    exact ⟨machine, ⟨fun pauses => Bool.noConfusion pauses.1, fun other => absurd run other⟩,
      fun _ => ⟨rfl, rfl, lastFault⟩⟩
  · rw [if_neg run]
    refine ⟨machine, ?_, ?_⟩
    · constructor
      · intro _
        exact run
      · intro _
        exact ⟨paused, congrArg Status.message status⟩
    · intro same
      exact absurd same run

/-- A tick onto an instruction that names a missing register pauses with the fault. -/
theorem faulty_call_pauses_iff_stray_register :
    ∃ (session : Session) (pc : Word),
      (create (assemble "MOV %7, #1\nHLT" 8).program ⟨8, 4, 256⟩ 0).map run = .ok session ∧
      session.Executes .tick ∧
      session.machine.step.events =
        [.fault (.memory (.addressOutOfRange "register" 7 4)), .step pc] ∧
      (session.call .tick).running = false ∧
      (session.call .tick).status.message =
        "Error at PC=000: memory error: register address 7 out of range (capacity 4)" := by
  have pauses (session : Session) (pc : Word) (executes : session.Executes .tick)
      (reported : session.machine.step.events =
        [.fault (.memory (.addressOutOfRange "register" 7 4)), .step pc]) :=
    (@faulty_call_pauses_iff session .tick [] [.step pc] _ executes reported (by simp)).2.1.mpr
      (by decide)
  refine ⟨_, Word.ofNat 8 3, rfl, by decide +kernel, by decide +kernel, ?_, ?_⟩
  · exact (pauses _ (Word.ofNat 8 3) (by decide +kernel) (by decide +kernel)).1
  · exact (pauses _ (Word.ofNat 8 3) (by decide +kernel) (by decide +kernel)).2.trans
      (by decide +kernel)

/-- A run from a breakpoint on that instruction hides the fault and goes on. -/
theorem run_from_faulty_breakpoint_goes_on :
    ∃ (session : Session) (pc : Word),
      (create (assemble "MOV %7, #1\nHLT" 8).program ⟨8, 4, 256⟩ 0).map toggleBreakpoint =
        .ok session ∧
      session.Executes .run ∧
      session.machine.step.events =
        [.fault (.memory (.addressOutOfRange "register" 7 4)), .step pc] ∧
      (session.call .run).running = true ∧
      (session.call .run).status.message = "Running..." :=
  ⟨_, Word.ofNat 8 3, rfl, by decide +kernel, by decide +kernel, by decide +kernel,
    by decide +kernel⟩

end Session

end WordMachine.Debugger
