import WordMachine.Proofs.FaultyCalls
import WordMachine.Proofs.ResetHistories

namespace WordMachine

namespace Machine

variable (machine : Machine) (limit : Nat)

/-- The step limit has no part in loading. -/
theorem loadWords_withStepLimit (address : Word) (words : List Word) :
    (machine.withStepLimit limit).loadWords address words =
      ⟨(machine.loadWords address words).value.withStepLimit limit,
        (machine.loadWords address words).events⟩ := by
  induction words generalizing machine address with
  | nil => rfl
  | cons word rest ih =>
      have here : (machine.withStepLimit limit).writeRam address word =
          ⟨(machine.writeRam address word).value.withStepLimit limit,
            (machine.writeRam address word).events⟩ := rfl
      rw [loadWords, here]
      apply Traced.ext
      · rw [Traced.value_bind, ih]
        rfl
      · rw [Traced.events_bind, ih]
        rfl

/-- Loading does not look at the step limit. -/
theorem load_withStepLimit (bits : List Bool) (address : Nat) :
    (machine.withStepLimit limit).load bits address =
      ⟨(machine.load bits address).value.withStepLimit limit,
        (machine.load bits address).events⟩ := by
  have same : (machine.withStepLimit limit).addressWord address = machine.addressWord address := rfl
  rw [load, load, same]
  cases machine.addressWord address with
  | error cause => rfl
  | ok start => exact machine.loadWords_withStepLimit limit start _

end Machine

namespace Debugger

/-- What a user does with a session, where the last three change its machine directly. -/
inductive Interaction where
  | call (call : Call)
  | toggleBreakpoint
  | reset
  | setPc (pc : Word)
  | changeRam (change : Change)
  | setStepLimit (limit : Nat)
deriving DecidableEq

/-- In a paused session these interactions give no status. -/
def Interaction.isQuiet : Interaction → Bool
  | .call .tick | .setPc _ | .changeRam _ | .setStepLimit _ => true
  | .call .step | .call .run | .toggleBreakpoint | .reset => false

namespace Session

def after (session : Session) : Interaction → Session
  | .call call => session.call call
  | .toggleBreakpoint => session.toggleBreakpoint
  | .reset => session.reset
  | .setPc pc => { session with machine := session.machine.withPc pc }
  | .changeRam change =>
      let machine := session.machine
      { session with machine := { machine with ram := machine.ram.after change } }
  | .setStepLimit limit => { session with machine := session.machine.withStepLimit limit }

def afterAll (session : Session) (interactions : List Interaction) : Session :=
  interactions.foldl after session

variable {session : Session} {program : Program} {architecture : Architecture} {start : Nat}

/-- The session debugs this program on a machine of this architecture. -/
structure Serves (session : Session) (program : Program) (architecture : Architecture)
    (start : Nat) : Prop where
  program_eq : session.program = program
  start_eq : session.start = start
  memoryScroll_eq : session.memoryScroll = 0
  fitted : session.machine.FittedTo architecture

section Interactions

/-- A halted session only says so. -/
theorem step_of_halted (halted : session.machine.phase = .halted) :
    session.step =
      { session with status := .alreadyHalted session.machine.steps, running := false } := by
  simp [step, Machine.isHalted, halted]

/-- A step keeps the program and the start. -/
theorem Serves.step (serves : session.Serves program architecture start) :
    session.step.Serves program architecture start := by
  obtain ⟨sameProgram, sameStart, sameScroll, fitted⟩ := serves
  by_cases halted : session.machine.phase = .halted
  · rw [step_of_halted halted]
    exact ⟨sameProgram, sameStart, sameScroll, fitted⟩
  · obtain ⟨status, stepped⟩ := step_of_not_halted halted
    rw [stepped]
    exact ⟨sameProgram, sameStart, sameScroll, (Machine.fittedTo_lasting _).step fitted⟩

/-- A tick keeps the program and the start. -/
theorem Serves.tick (serves : session.Serves program architecture start) :
    session.tick.Serves program architecture start := by
  by_cases running : session.running = true
  · by_cases blocked : Blocked session.machine session.breakpoints
    · obtain ⟨status, ticked⟩ := tick_of_blocked running blocked
      rw [ticked]
      exact ⟨serves.program_eq, serves.start_eq, serves.memoryScroll_eq, serves.fitted⟩
    · rw [tick_of_free running blocked]
      exact serves.step
  · rw [tick_of_paused (by simpa using running)]
    exact serves

/-- A run keeps the program and the start. -/
theorem Serves.run (serves : session.Serves program architecture start) :
    session.run.Serves program architecture start := by
  have begins {next : Session} (ready : next.Serves program architecture start) :
      { next with running := true, status := .running }.Serves program architecture start :=
    ⟨ready.program_eq, ready.start_eq, ready.memoryScroll_eq, ready.fitted⟩
  unfold Session.run
  split
  · exact begins serves.step
  · exact begins serves

/-- A reset keeps the program and the start. -/
theorem Serves.reset (serves : session.Serves program architecture start) :
    session.reset.Serves program architecture start := by
  have lasting := Machine.fittedTo_lasting architecture
  have cleared := lasting.reset serves.fitted true
  have loaded := lasting.load cleared session.program.bits session.start
  exact ⟨serves.program_eq, serves.start_eq, serves.memoryScroll_eq, loaded.withControl rfl⟩

/-- Every interaction keeps the program, the start and the shape of the machine. -/
theorem Serves.after (serves : session.Serves program architecture start)
    (interaction : Interaction) :
    (session.after interaction).Serves program architecture start := by
  have changed {machine : Machine} (fitted : machine.FittedTo architecture) :
      { session with machine := machine }.Serves program architecture start :=
    ⟨serves.program_eq, serves.start_eq, serves.memoryScroll_eq, fitted⟩
  cases interaction with
  | call call =>
      cases call with
      | step => exact serves.step
      | tick => exact serves.tick
      | run => exact serves.run
  | toggleBreakpoint =>
      simp only [Session.after, toggleBreakpoint]
      split <;> exact ⟨serves.program_eq, serves.start_eq, serves.memoryScroll_eq, serves.fitted⟩
  | reset => exact serves.reset
  | setPc pc => exact changed (serves.fitted.withControl rfl)
  | changeRam change => exact changed (serves.fitted.change .ram change)
  | setStepLimit limit => exact changed (serves.fitted.perform (.setStepLimit limit))

/-- A sequence of interactions keeps the program and the start. -/
theorem Serves.afterAll (serves : session.Serves program architecture start)
    (interactions : List Interaction) :
    (session.afterAll interactions).Serves program architecture start := by
  induction interactions generalizing session with
  | nil => exact serves
  | cons interaction rest ih => exact ih (serves.after interaction)

end Interactions

section Opening

/-- A new session holds its program and stands at its start. -/
def opening (program : Program) (architecture : Architecture) (start : Nat) : Session :=
  let loaded := ((Machine.build architecture).load program.bits start).value
  { machine := loaded.withPc (Word.ofNat architecture.bits start)
    program := program
    start := start
    breakpoints := ∅
    running := false
    status := .ready
    memoryScroll := 0
    output := #[]
    lastFault := none }

/-- A new session serves its program. -/
theorem opening_serves (program : Program) (architecture : Architecture) (start : Nat) :
    (opening program architecture start).Serves program architecture start := by
  have lasting := Machine.fittedTo_lasting architecture
  have loaded := lasting.load (Machine.build_fitted architecture) program.bits start
  exact ⟨rfl, rfl, rfl, loaded.withControl rfl⟩

/-- A reset restores everything but the breakpoints and the step limit. -/
theorem Serves.reset_eq (serves : session.Serves program architecture start) :
    session.reset =
      let opened := opening program architecture start
      { opened with
        machine := opened.machine.withStepLimit session.machine.stepLimit
        breakpoints := session.breakpoints
        status := .reset } := by
  have lasting := Machine.fittedTo_lasting architecture
  have loaded := lasting.load (Machine.build_fitted architecture) program.bits start
  have width : ((Machine.build architecture).load program.bits start).value.width =
      architecture.bits := congrArg Architecture.bits loaded.architecture_eq
  obtain ⟨rfl, rfl, scroll, fitted⟩ := serves
  rw [Session.reset, fitted.reset_true, Machine.load_withStepLimit, scroll, opening, ← width]
  rfl

/-- A session is opened on every valid architecture. -/
theorem create_eq_ok (program : Program) (start : Nat) (valid : architecture.validate = .ok ()) :
    create program architecture start = .ok (opening program architecture start) := by
  have blank : Serves ⟨.build architecture, program, start, ∅, false, .ready, 0, #[], none⟩
      program architecture start :=
    ⟨rfl, rfl, rfl, Machine.build_fitted architecture⟩
  have limit : (opening program architecture start).machine.withStepLimit
      (Machine.build architecture).stepLimit = (opening program architecture start).machine :=
    congrArg
      (fun loaded : Traced Machine => loaded.value.withPc (Word.ofNat architecture.bits start))
      ((Machine.build architecture).load_withStepLimit (Machine.build architecture).stepLimit
        program.bits start).symm
  have restored := blank.reset_eq
  simp only [limit] at restored
  rw [create, Machine.create_of_valid valid]
  exact congrArg (fun session : Session => Except.ok { session with status := .ready }) restored

end Opening

section Statuses

variable (status : Status) {interaction : Interaction}

/-- An interaction that is not quiet gives a status and does not look at the one before. -/
theorem after_withStatus (loud : interaction.isQuiet = false) :
    { session with status := status }.after interaction = session.after interaction := by
  have stepped : { session with status := status }.step = session.step := by
    by_cases halted : session.machine.phase = .halted
    · have same := @step_of_halted { session with status := status } halted
      rw [step_of_halted halted, same]
    · simp only [step, Machine.isHalted, beq_iff_eq, halted, if_false]
  cases interaction with
  | call call =>
      cases call with
      | tick => cases loud
      | step => exact stepped
      | run =>
          have same : { session with status := status }.address = session.address := rfl
          simp only [after, Session.call, run, stepped, same]
          split <;> rfl
  | toggleBreakpoint => rfl
  | reset => rfl
  | setPc _ | changeRam _ | setStepLimit _ => cases loud

/-- In a paused session a quiet interaction leaves the status and everything that it does to the
rest alone. -/
theorem after_of_quiet (paused : session.running = false) (quiet : interaction.isQuiet = true) :
    { session with status := status }.after interaction =
        { session.after interaction with status := status } ∧
      (session.after interaction).running = false ∧
      (session.after interaction).status = session.status := by
  cases interaction with
  | call call =>
      cases call with
      | tick =>
          have same := @tick_of_paused { session with status := status } paused
          simp only [after, Session.call, tick_of_paused paused, same]
          exact ⟨trivial, paused, trivial⟩
      | step | run => cases quiet
  | toggleBreakpoint | reset => cases quiet
  | setPc _ | changeRam _ | setStepLimit _ => exact ⟨rfl, paused, rfl⟩

/-- Quiet interactions do not look at the status. -/
theorem afterAll_of_quiet {interactions : List Interaction} (paused : session.running = false)
    (quiet : interactions.all Interaction.isQuiet = true) :
    { session with status := status }.afterAll interactions =
        { session.afterAll interactions with status := status } ∧
      (session.afterAll interactions).status = session.status := by
  induction interactions generalizing session with
  | nil => exact ⟨rfl, rfl⟩
  | cons interaction rest ih =>
      rw [List.all_cons, Bool.and_eq_true] at quiet
      obtain ⟨here, stillPaused, kept⟩ := after_of_quiet status paused quiet.1
      obtain ⟨later, same⟩ := ih stillPaused quiet.2
      constructor
      · rw [afterAll, List.foldl_cons, here]
        exact later
      · exact same.trans kept

/-- The first interaction that gives a status makes up for a difference in the status. -/
theorem afterAll_of_not_quiet {interactions : List Interaction} (paused : session.running = false)
    (loud : interactions.all Interaction.isQuiet = false) :
    { session with status := status }.afterAll interactions = session.afterAll interactions := by
  induction interactions generalizing session with
  | nil => cases loud
  | cons interaction rest ih =>
      rw [afterAll, List.foldl_cons]
      cases quiet : interaction.isQuiet with
      | false =>
          rw [after_withStatus status quiet]
          rfl
      | true =>
          rw [List.all_cons, quiet, Bool.true_and] at loud
          obtain ⟨here, stillPaused, _⟩ := after_of_quiet status paused quiet
          rw [here]
          exact ih stillPaused loud

end Statuses

/-- A reset leaves a session like a new one apart from its breakpoints, step limit and status. -/
theorem reset_restores_opening (program : Program) {architecture : Architecture} (start : Nat)
    (valid : architecture.validate = .ok ()) (past future : List Interaction) :
    ∃ fresh : Session,
      create program architecture start = .ok fresh ∧
      let used := fresh.afterAll past
      let renewed : Session :=
        { fresh with
          machine := fresh.machine.withStepLimit used.machine.stepLimit
          breakpoints := used.breakpoints }
      used.reset = { renewed with status := .reset } ∧
        renewed.status = .ready ∧
        (future.all Interaction.isQuiet = true →
          used.reset.afterAll future = { renewed.afterAll future with status := .reset } ∧
            (renewed.afterAll future).status = .ready) ∧
        (future.all Interaction.isQuiet = false →
          used.reset.afterAll future = renewed.afterAll future) := by
  refine ⟨opening program architecture start, create_eq_ok program start valid, ?_⟩
  intro used renewed
  have serves := (opening_serves program architecture start).afterAll past
  have restored : used.reset = { renewed with status := .reset } := serves.reset_eq
  have paused : renewed.running = false := rfl
  rw [restored]
  refine ⟨rfl, rfl, ?_, afterAll_of_not_quiet .reset paused⟩
  intro quiet
  exact afterAll_of_quiet .reset paused quiet

/-- A session that stepped, overwrote its program and lost its way runs like a new one. -/
theorem reset_restores_opening_overwritten :
    (⟨8, 4, 256⟩ : Architecture).validate = .ok () ∧
    ∃ fresh : Session,
      create (assemble "MOV %0, #1\nOUT %0\nHLT" 8).program ⟨8, 4, 256⟩ 0 = .ok fresh ∧
      (let used := fresh.afterAll [.call .step, .toggleBreakpoint, .setStepLimit 3, .call .step,
        .changeRam (.writeAt 0 (Word.ofNat 8 255)), .setPc (Word.ofNat 8 9)]
      used.breakpoints.toList = [3] ∧
        used.output.toList = [Word.ofNat 8 1] ∧
        used.reset.output = #[] ∧
        used.reset.afterAll [.call .run, .call .tick] =
          { fresh with
            machine := fresh.machine.withStepLimit 3
            breakpoints := used.breakpoints }.afterAll [.call .run, .call .tick]) := by
  have valid : (⟨8, 4, 256⟩ : Architecture).validate = .ok () := rfl
  obtain ⟨fresh, created, restored, _, _, later⟩ :=
    reset_restores_opening (assemble "MOV %0, #1\nOUT %0\nHLT" 8).program 0 valid
      [.call .step, .toggleBreakpoint, .setStepLimit 3, .call .step,
        .changeRam (.writeAt 0 (Word.ofNat 8 255)), .setPc (Word.ofNat 8 9)]
      [.call .run, .call .tick]
  obtain rfl := Except.ok.inj created
  refine ⟨valid, _, created, by decide +kernel, by decide +kernel, ?_, ?_⟩
  · exact congrArg Session.output restored
  · exact later rfl

/-- A tick of a paused session gives no status, so the status of the reset stays. -/
theorem tick_keeps_reset_status :
    ∃ fresh : Session,
      create (assemble "HLT" 8).program ⟨8, 4, 256⟩ 0 = .ok fresh ∧
      fresh.reset.breakpoints = fresh.breakpoints ∧
      fresh.reset.machine.stepLimit = fresh.machine.stepLimit ∧
      (fresh.reset.after (.call .tick)).status.message = "Reset. Ready." ∧
      (fresh.after (.call .tick)).status.message =
        "Ready. Press 's' to step, 'r' to run, 'q' to quit." :=
  ⟨_, rfl, rfl, by decide +kernel, by decide +kernel, by decide +kernel⟩

end Session

end Debugger

end WordMachine
