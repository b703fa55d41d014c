import WordMachine.Machine.Listeners
import WordMachine.Proofs.Outputs
import WordMachine.Proofs.Success

namespace WordMachine

/-- A memory answers for an address in range that is not wider than a cell. -/
def Memory.Answers (memory : Memory) (address : Word) : Prop :=
  address.width ≤ memory.width ∧ address.unsigned < memory.capacity

instance (memory : Memory) (address : Word) : Decidable (memory.Answers address) :=
  inferInstanceAs (Decidable (_ ∧ _))

/-- A cell that answers is read. -/
theorem Memory.read_of_answers {memory : Memory} {address : Word}
    (answers : memory.Answers address) :
    memory.read address = .ok (memory.cell address.unsigned) := by
  obtain ⟨narrow, inRange⟩ := answers
  simp [read, addressOf, checkRange, Nat.not_lt.mpr narrow, inRange, bind, Except.bind, pure,
    Except.pure]

/-- An address that names no cell fails. -/
theorem Memory.read_of_not_answers {memory : Memory} {address : Word}
    (unanswered : ¬ memory.Answers address) : ∃ cause, memory.read address = .error cause := by
  cases result : memory.read address with
  | error cause => exact ⟨cause, rfl⟩
  | ok word =>
      refine absurd ?_ unanswered
      obtain ⟨index, found, _⟩ := bind_eq_ok_iff.mp result
      unfold addressOf checkRange at found
      split at found
      · cases found
      · rename_i narrow
        obtain ⟨_, checked, _⟩ := bind_eq_ok_iff.mp found
        split at checked
        · rename_i inRange
          exact ⟨Nat.le_of_not_lt narrow, inRange⟩
        · cases checked

namespace Machine

/-- The memory that a cell lies in. -/
def memoryOf (machine : Machine) : Cell → Memory
  | .register => machine.registers
  | .memory => machine.ram

/-- The word behind the opcode is the address of the cell that an output instruction names. -/
def operandWord (machine : Machine) : Word := (machine.readRam machine.pc.increment).value

/-- An output instruction shows the word in its cell, and zero when there is no such cell. -/
def shownWord (machine : Machine) (cell : Cell) : Word :=
  if (machine.memoryOf cell).Answers machine.operandWord then
    (machine.memoryOf cell).cell machine.operandWord.unsigned
  else Word.zero machine.width

/-- The word that the next step shows, if it executes an output instruction. -/
def shown? (machine : Machine) : Option Word :=
  match machine.step.value.2 with
  | some (.out cell) => some (machine.shownWord cell)
  | _ => none

/-- The events of a step, of which the last one tells the program counter after it. -/
inductive StepEvents (machine : Machine) : Option Opcode → List Event → Prop
  | unknown (causes : List MemoryError) :
      StepEvents machine none
        (memoryFaults causes ++
          [.fault (.unknownOpcode (machine.readRam machine.pc).value.unsigned
            machine.pc.unsigned), .step machine.step.value.1.pc])
  | silent (causes : List MemoryError) {opcode : Opcode} (silent : ∀ cell, opcode ≠ .out cell) :
      StepEvents machine (some opcode)
        (memoryFaults causes ++ [.step machine.step.value.1.pc])
  | shown (causes : List MemoryError) {cell : Cell}
      (reported : ¬ (machine.memoryOf cell).Answers machine.operandWord →
        ∃ cause, (machine.memoryOf cell).read machine.operandWord = .error cause ∧
          causes.getLast? = some cause) :
      StepEvents machine (some (.out cell))
        (memoryFaults causes ++ [.out (machine.shownWord cell), .step machine.step.value.1.pc])

/-- The operand of an output names a cell of its memory. -/
theorem fetchValue_cell (machine : Machine) (cell : Cell) (operand : Word) :
    machine.fetchValue cell.mode operand =
      readOr machine.width ((machine.memoryOf cell).read operand) := by
  cases cell <;> rfl

/-- A known opcode reports what its parts report, and then the program counter. -/
theorem step_events_known {machine : Machine} {opcode : Opcode}
    (known : Opcode.ofWord? (machine.readRam machine.pc).value = some opcode) :
    machine.step.events =
      (machine.readRam machine.pc).events ++ ((machine.fetched.fetchOperands opcode).events ++
        ((machine.fetched.execute (machine.fetched.fetchOperands opcode).value).events ++
          [.step machine.step.value.1.pc])) := by
  rw [step_known known]
  simp only [step, Traced.events_bind, known]
  rfl

/-- An unknown opcode is reported before the program counter. -/
theorem step_events_unknown {machine : Machine}
    (unknown : Opcode.ofWord? (machine.readRam machine.pc).value = none) :
    machine.step.events =
      (machine.readRam machine.pc).events ++
        [.fault (.unknownOpcode (machine.readRam machine.pc).value.unsigned
          machine.pc.unsigned), .step machine.step.value.1.pc] := by
  rw [step_unknown unknown]
  simp only [step, Traced.events_bind, unknown]
  rfl

/-- A cell that does not answer is reported. -/
theorem fetchValue_reported (machine : Machine) (cell : Cell) (operand : Word) :
    ∃ causes, (machine.fetchValue cell.mode operand).events = memoryFaults causes ∧
      (¬ (machine.memoryOf cell).Answers operand →
        ∃ cause, (machine.memoryOf cell).read operand = .error cause ∧
          causes.getLast? = some cause) := by
  rw [fetchValue_cell]
  by_cases answers : (machine.memoryOf cell).Answers operand
  · rw [Memory.read_of_answers answers]
    exact ⟨[], rfl, fun unanswered => absurd answers unanswered⟩
  · obtain ⟨cause, failed⟩ := Memory.read_of_not_answers answers
    rw [failed]
    exact ⟨[cause], rfl, fun _ => ⟨cause, rfl, rfl⟩⟩

/-- An output shows the word that its operand names. -/
theorem fetchValue_shown (machine : Machine) (cell : Cell) :
    (machine.fetchValue cell.mode machine.operandWord).value = machine.shownWord cell := by
  rw [fetchValue_cell, shownWord]
  split
  · rename_i answers
    rw [Memory.read_of_answers answers]
    rfl
  · rename_i unanswered
    obtain ⟨cause, failed⟩ := Memory.read_of_not_answers unanswered
    rw [failed]
    rfl

theorem fetchOperands_opcode (machine : Machine) (opcode : Opcode) :
    (machine.fetchOperands opcode).value.opcode = opcode := by
  unfold fetchOperands
  split <;> rfl

/-- An output instruction reads its cell and puts the word out. -/
theorem execute_out_events (machine : Machine) (cell : Cell) (first second : Word) :
    (machine.execute ⟨.out cell, first, second⟩).events =
      (machine.fetchValue cell.mode first).events ++
        [.out (machine.fetchValue cell.mode first).value] := rfl

/-- An output reports its faults before its word. -/
theorem step_out_events {machine : Machine} {cell : Cell}
    (known : Opcode.ofWord? (machine.readRam machine.pc).value = some (.out cell)) :
    machine.step.events =
      ((machine.readRam machine.pc).events ++ (machine.readRam machine.pc.increment).events) ++
        ((machine.fetchValue cell.mode machine.operandWord).events ++
          [.out (machine.shownWord cell), .step machine.step.value.1.pc]) := by
  have named : (machine.fetched.fetchOperands (.out cell)).value =
      ⟨.out cell, machine.operandWord, Word.zero machine.width⟩ := rfl
  have reading : (machine.fetched.fetchOperands (.out cell)).events =
      (machine.readRam machine.pc.increment).events ++ [] := rfl
  rw [step_events_known known, named, reading, execute_out_events, fetched_fetchValue,
    fetchValue_shown]
  simp

/-- The events of a step are in order. -/
theorem step_events (machine : Machine) :
    machine.StepEvents machine.step.value.2 machine.step.events := by
  obtain ⟨fetching, fetched⟩ := machine.reportsMemory_readRam machine.pc
  cases decoded : Opcode.ofWord? (machine.readRam machine.pc).value with
  | none =>
      have answer : machine.step.value.2 = none := congrArg Prod.snd (step_unknown decoded)
      rw [answer, step_events_unknown decoded, fetched]
      exact .unknown fetching
  | some opcode =>
      have answer : machine.step.value.2 = some opcode := congrArg Prod.snd (step_known decoded)
      by_cases shows : ∃ cell, opcode = .out cell
      · obtain ⟨cell, rfl⟩ := shows
        obtain ⟨reading, operand⟩ := machine.reportsMemory_readRam machine.pc.increment
        obtain ⟨causes, read, reported⟩ := machine.fetchValue_reported cell machine.operandWord
        have joined : machine.step.events = memoryFaults (fetching ++ reading ++ causes) ++
            [.out (machine.shownWord cell), .step machine.step.value.1.pc] := by
          rw [step_out_events decoded, fetched, operand, read, memoryFaults_append,
            memoryFaults_append, List.append_assoc _ (memoryFaults causes)]
        rw [answer, joined]
        refine .shown _ fun unanswered => ?_
        obtain ⟨cause, failed, last⟩ := reported unanswered
        exact ⟨cause, failed, by rw [List.getLast?_append, last, Option.some_or]⟩
      · have silent : ∀ cell, opcode ≠ .out cell := fun cell same => shows ⟨cell, same⟩
        obtain ⟨reading, operands⟩ := machine.fetched.reportsMemory_fetchOperands opcode
        obtain ⟨causes, executed⟩ := machine.fetched.reportsMemory_execute
          ((machine.fetched.fetchOperands_opcode opcode).symm ▸ silent)
        have joined : machine.step.events = memoryFaults (fetching ++ reading ++ causes) ++
            [.step machine.step.value.1.pc] := by
          rw [step_events_known decoded, fetched, operands, executed]
          simp
        rw [answer, joined]
        exact .silent _ silent

section Step

variable {machine : Machine} {answer : Option Opcode} {events : List Event}

@[simp] theorem countP_step_memoryFaults (causes : List MemoryError) :
    (memoryFaults causes).countP (·.kind = .step) = 0 := by
  induction causes with
  | nil => rfl
  | cons cause causes ih => exact ih

/-- A step ends with its only step event. -/
theorem StepEvents.countP_step (ordered : machine.StepEvents answer events) :
    events.countP (·.kind = .step) = 1 := by
  cases ordered <;> rw [List.countP_append, countP_step_memoryFaults] <;> rfl

/-- No step reports the step limit. -/
theorem StepEvents.stepLimitExceeded_not_mem (ordered : machine.StepEvents answer events)
    (limit : Nat) : .fault (.stepLimitExceeded limit) ∉ events := by
  cases ordered <;> simp [memoryFaults]

/-- A step puts out at most the word that it shows. -/
theorem step_outputs (machine : Machine) : machine.step.outputs = machine.shown?.toList := by
  have ordered := machine.step_events
  rw [Traced.outputs, shown?]
  generalize machine.step.value.2 = answer at ordered
  generalize machine.step.events = events at ordered
  cases ordered with
  | unknown causes => simp [Event.out?]
  | silent causes silent =>
      split
      · rename_i cell same
        exact absurd (Option.some.inj same) (silent cell)
      · simp [Event.out?]
  | shown causes reported => simp [Event.out?]

end Step

section Run

variable {machine : Machine} {start count : Nat}

/-- The events of each step follow those of the steps before. -/
theorem iterate_events (machine : Machine) (count : Nat) :
    (machine.iterate count).events =
      (List.range count).flatMap fun index => (machine.iterate index).value.step.events := by
  induction count with
  | zero => rfl
  | succ count ih => rw [iterate_succ_last_events, ih, List.range_succ, List.flatMap_append,
      List.flatMap_singleton]

/-- Iterated steps put out what each of them shows. -/
theorem iterate_outputs (machine : Machine) (count : Nat) :
    (machine.iterate count).outputs =
      (List.range count).filterMap fun index => (machine.iterate index).value.shown? := by
  induction count with
  | zero => rfl
  | succ count ih =>
      rw [iterate_succ_last_outputs, ih, step_outputs, List.range_succ, List.filterMap_append]
      congr 1

/-- Every step reports one program counter. -/
theorem iterate_countP_step (machine : Machine) (count : Nat) :
    (machine.iterate count).events.countP (·.kind = .step) = count := by
  induction count with
  | zero => rfl
  | succ count ih =>
      rw [iterate_succ_last_events, List.countP_append, ih, (step_events _).countP_step]

/-- Iterated steps do not report the step limit. -/
theorem iterate_stepLimitExceeded_not_mem (machine : Machine) (count limit : Nat) :
    .fault (.stepLimitExceeded limit) ∉ (machine.iterate count).events := by
  induction count with
  | zero => simp
  | succ count ih =>
      rw [iterate_succ_last_events, List.mem_append]
      exact fun inside => inside.elim ih ((step_events _).stepLimitExceeded_not_mem limit)

/-- Steps are taken from a running machine only. -/
theorem HaltsFirst.running (halts : (machine.started start).HaltsFirst count) {index : Nat}
    (before : index < count) :
    ((machine.started start).iterate index).value.phase = .running :=
  iterate_running rfl
    (fun earlier within first => halts.2 earlier (within.trans_lt before) first.1) index le_rfl

/-- The machine from which a run takes the step with this index. -/
def beforeStep (machine : Machine) (start index : Nat) : Machine :=
  ((machine.started start).iterate index).value

/-- A run that fails reports the fault at its end. -/
def RunResult.lastEvents (outcome : RunResult) : List Event :=
  match outcome.result with
  | .ok _ => []
  | .error cause => [.fault cause]

/-- The last events of a run report the fault that it ends with. -/
theorem RunResult.fault_mem_lastEvents (outcome : RunResult) (cause : Fault) :
    .fault cause ∈ outcome.lastEvents ↔ outcome.result = .error cause := by
  unfold lastEvents
  split <;> rename_i result <;> simp [result, eq_comm]

theorem RunResult.countP_step_lastEvents (outcome : RunResult) :
    outcome.lastEvents.countP (·.kind = .step) = 0 := by
  unfold lastEvents
  split <;> rfl

theorem RunResult.filterMap_out_lastEvents (outcome : RunResult) :
    outcome.lastEvents.filterMap Event.out? = [] := by
  unfold lastEvents
  split <;> rfl

/-- The events of a run of this many steps are in order. -/
structure RunEvents (machine : Machine) (start count : Nat) (events : List Event) : Prop where
  finished : (machine.run start).value.machine =
    { machine.beforeStep start count with phase := .halted }
  result : (machine.run start).value.result = .ok count ∨
    (machine.run start).value.result = .error (.stepLimitExceeded machine.stepLimit)
  steps : (machine.run start).value.machine.steps = machine.steps + count
  /-- The run announces itself, its steps follow each other, and a failed run says so. -/
  ordered : events =
    .run :: ((List.range count).flatMap fun index =>
      (machine.beforeStep start index).step.events) ++ (machine.run start).value.lastEvents
  running : ∀ index < count, (machine.beforeStep start index).phase = .running
  stepEvents : ∀ index < count, (machine.beforeStep start index).StepEvents
    (machine.beforeStep start index).step.value.2 (machine.beforeStep start index).step.events
  counted : events.countP (·.kind = .step) = count
  /-- The words put out are those of the output instructions, in their order. -/
  outputs : events.filterMap Event.out? =
    (List.range count).filterMap fun index => (machine.beforeStep start index).shown?
  limited : ∀ limit, .fault (.stepLimitExceeded limit) ∈ events ↔
    (machine.run start).value.result = .error (.stepLimitExceeded limit)

/-- A run consists of its steps, whether it ends well or not. -/
theorem exists_steps_of_run (positive : 1 ≤ machine.width) (fits : start < 2 ^ machine.width) :
    ∃ count,
      (machine.run start).value.machine =
        { machine.beforeStep start count with phase := .halted } ∧
      ((machine.run start).value.result = .ok count ∨
        (machine.run start).value.result = .error (.stepLimitExceeded machine.stepLimit)) ∧
      (machine.run start).events = .run :: ((machine.started start).iterate count).events ++
        (machine.run start).value.lastEvents ∧
      ∀ index < count, (machine.beforeStep start index).phase = .running := by
  by_cases halting : ∃ count ≤ machine.stepLimit + 1, (machine.started start).HaltsFirst count
  · obtain ⟨count, within, halts⟩ := halting
    have halted : (machine.beforeStep start count).phase = .halted := halts.1
    rw [run_of_halts positive fits within halts, ← halted]
    exact ⟨count, rfl, .inl rfl, by simp [RunResult.lastEvents], fun index => halts.running⟩
  · have never : ∀ count ≤ machine.stepLimit + 1, ¬ (machine.started start).HaltsFirst count :=
      fun count within halts => halting ⟨count, within, halts⟩
    rw [run_of_exceeds positive fits never]
    exact ⟨machine.stepLimit + 1, rfl, .inr rfl, rfl,
      fun index before => iterate_running rfl never index before.le⟩

end Run

/-- Listeners of all kinds hear the start of a run, its steps in order, and at last the step limit.
-/
theorem deliver_of_complete {listeners : Listeners}
    (complete : ∀ kind, (listeners.slots kind).isSome = true) (events : List Event) :
    (listeners.deliver events).map Prod.snd = events := by
  induction events with
  | nil => rfl
  | cons event events ih =>
      obtain ⟨tag, slot⟩ := Option.isSome_iff_exists.mp (complete event.kind)
      have heard : (listeners.slots event.kind).map (·, event) = some (tag, event) := by
        rw [slot, Option.map_some]
      have split : listeners.deliver (event :: events) = (tag, event) :: listeners.deliver events :=
        List.filterMap_cons_some heard
      rw [split, List.map_cons, ih]

/-- Listeners of all kinds hear the start of a run, then each step with its faults, the word that it
puts out and its program counter, and at last the step limit if the run fails. -/
theorem run_events_ordered (machine : Machine) (listeners : Listeners) (start : Nat)
    (valid : machine.architecture.validate = .ok ()) (fits : start < 2 ^ machine.width)
    (complete : ∀ kind, (listeners.slots kind).isSome = true) :
    ∃ count, machine.RunEvents start count
      ((listeners.deliver (machine.run start).events).map Prod.snd) := by
  have positive : 1 ≤ machine.width := ((Architecture.validate_eq_ok_iff _).mp valid).1
  obtain ⟨count, finished, result, ordered, running⟩ := exists_steps_of_run positive fits
  refine ⟨count, ?_⟩
  rw [deliver_of_complete complete]
  exact
    { finished := finished
      result := result
      steps := by
        rw [finished]
        exact iterate_steps (machine.started start) count
      ordered := by
        rw [ordered, iterate_events]
        rfl
      running := running
      stepEvents := fun index _ => step_events _
      counted := by
        rw [ordered, List.countP_append, RunResult.countP_step_lastEvents,
          List.countP_cons_of_neg (by decide), iterate_countP_step, Nat.add_zero]
      outputs := by
        rw [ordered, List.filterMap_append, RunResult.filterMap_out_lastEvents, List.append_nil]
        exact iterate_outputs (machine.started start) count
      limited := by
        intro limit
        rw [ordered, List.cons_append, List.mem_cons, List.mem_append,
          RunResult.fault_mem_lastEvents]
        simp [iterate_stepLimitExceeded_not_mem] }

/-- The first instruction names a register that the machine does not have, and the second one writes
an unknown opcode behind itself. -/
def strayMachine : Machine :=
  ((build ⟨8, 2, 16⟩).loadSource "OUT %9\nMOV @6, #255" 0).value.1.withStepLimit 2

/-- The run takes the unknown opcode as its third step and fails. -/
theorem run_events_ordered_stray :
    strayMachine.architecture.validate = .ok () ∧ 0 < 2 ^ strayMachine.width ∧
      (∀ kind, ((Listeners.mk fun kind => some kind.name).slots kind).isSome = true) ∧
      strayMachine.RunEvents 0 3
        [.run, .fault (.memory (.addressOutOfRange "register" 9 2)), .out (Word.zero 8),
          .step (Word.ofNat 8 3), .step (Word.ofNat 8 6), .fault (.unknownOpcode 255 6),
          .step (Word.ofNat 8 9), .fault (.stepLimitExceeded 2)] := by
  have valid : strayMachine.architecture.validate = .ok () := by decide +kernel
  have fits : 0 < 2 ^ strayMachine.width := by decide +kernel
  have complete : ∀ kind, ((Listeners.mk fun kind => some kind.name).slots kind).isSome = true :=
    fun _ => rfl
  have events : (strayMachine.run 0).events =
      [.run, .fault (.memory (.addressOutOfRange "register" 9 2)), .out (Word.zero 8),
        .step (Word.ofNat 8 3), .step (Word.ofNat 8 6), .fault (.unknownOpcode 255 6),
        .step (Word.ofNat 8 9), .fault (.stepLimitExceeded 2)] := by decide +kernel
  obtain ⟨count, ordered⟩ := run_events_ordered strayMachine _ 0 valid fits complete
  rw [deliver_of_complete complete, events] at ordered
  obtain rfl : 3 = count := ordered.counted
  exact ⟨valid, fits, complete, ordered⟩

end Machine

end WordMachine
