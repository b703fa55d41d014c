import WordMachine.Proofs.BoundedRun

namespace WordMachine

/-- The words put out on the way to a value, in order. -/
def Traced.outputs {A : Type} (traced : Traced A) : List Word :=
  traced.events.filterMap Event.out?

namespace Traced

variable {A B : Type}

@[simp] theorem outputs_pure (value : A) : (pure value : Traced A).outputs = [] := rfl

/-- Composed computations put out their words one after the other. -/
@[simp] theorem outputs_bind (first : Traced A) (next : A → Traced B) :
    (first >>= next).outputs = first.outputs ++ (next first.value).outputs :=
  List.filterMap_append

/-- A result that is mapped puts out nothing more. -/
@[simp] theorem outputs_map (f : A → B) (traced : Traced A) :
    (f <$> traced).outputs = traced.outputs := by
  rw [← bind_pure_comp, outputs_bind, outputs_pure, List.append_nil]

end Traced

@[simp] theorem outputs_report (cause : Fault) : (report cause).outputs = [] := rfl

@[simp] theorem outputs_emit_out (word : Word) : (emit (.out word)).outputs = [word] := rfl

@[simp] theorem outputs_emit_step (pc : Word) : (emit (.step pc)).outputs = [] := rfl

def memoryFaults (causes : List MemoryError) : List Event :=
  causes.map fun cause => .fault (.memory cause)

@[simp] theorem memoryFaults_append (first second : List MemoryError) :
    memoryFaults (first ++ second) = memoryFaults first ++ memoryFaults second :=
  List.map_append

/-- Faults of the memories put out nothing. -/
@[simp] theorem filterMap_out_memoryFaults (causes : List MemoryError) :
    (memoryFaults causes).filterMap Event.out? = [] := by
  simp [memoryFaults, Event.out?]

/-- Only the memories report something on the way to a value. -/
def Traced.ReportsMemory {A : Type} (traced : Traced A) : Prop :=
  ∃ causes, traced.events = memoryFaults causes

namespace Traced.ReportsMemory

variable {A B : Type}

theorem pure (value : A) : (Pure.pure value : Traced A).ReportsMemory := ⟨[], rfl⟩

/-- Composed computations report the faults of both. -/
theorem bind {first : Traced A} {next : A → Traced B} (here : first.ReportsMemory)
    (after : (next first.value).ReportsMemory) : (first >>= next).ReportsMemory := by
  obtain ⟨causes, reported⟩ := here
  obtain ⟨later, laterReported⟩ := after
  exact ⟨causes ++ later, by simp [reported, laterReported]⟩

/-- What reports only faults of the memories puts out nothing. -/
theorem outputs {traced : Traced A} (reports : traced.ReportsMemory) : traced.outputs = [] := by
  obtain ⟨causes, reported⟩ := reports
  rw [Traced.outputs, reported, filterMap_out_memoryFaults]

end Traced.ReportsMemory

namespace Machine

section Access

variable (machine : Machine)

/-- A read reports at most its fault. -/
theorem reportsMemory_readOr (width : Nat) (result : Except MemoryError Word) :
    (readOr width result).ReportsMemory := by
  cases result with
  | error cause => exact ⟨[cause], rfl⟩
  | ok word => exact ⟨[], rfl⟩

/-- A write reports at most its fault. -/
theorem reportsMemory_writeOr (memory : Memory) (result : Except MemoryError Memory) :
    (writeOr memory result).ReportsMemory := by
  cases result with
  | error cause => exact ⟨[cause], rfl⟩
  | ok memory => exact ⟨[], rfl⟩

theorem reportsMemory_readRam (address : Word) : (machine.readRam address).ReportsMemory :=
  reportsMemory_readOr _ _

theorem reportsMemory_readRegister (index : Word) :
    (machine.readRegister index).ReportsMemory :=
  reportsMemory_readOr _ _

/-- Fetching a value reports faults of the memories only. -/
theorem reportsMemory_fetchValue (mode : Mode) (operand : Word) :
    (machine.fetchValue mode operand).ReportsMemory := by
  cases mode with
  | register => exact reportsMemory_readRegister _ _
  | memory => exact reportsMemory_readRam _ _
  | immediate | relative => exact .pure _

theorem reportsMemory_writeRam (address word : Word) :
    (machine.writeRam address word).ReportsMemory :=
  .bind (reportsMemory_writeOr _ _) (.pure _)

theorem reportsMemory_writeRegister (index word : Word) :
    (machine.writeRegister index word).ReportsMemory :=
  .bind (reportsMemory_writeOr _ _) (.pure _)

/-- Storing a value reports faults of the memories only. -/
theorem reportsMemory_storeValue (mode : Mode) (operand word : Word) :
    (machine.storeValue mode operand word).ReportsMemory := by
  cases mode with
  | memory => exact reportsMemory_writeRam _ _ _
  | register | immediate | relative => exact reportsMemory_writeRegister _ _ _

/-- Storing a result reports faults of the memories only. -/
theorem reportsMemory_storeOutcome (index : Word) (outcome : Outcome) :
    (machine.storeOutcome index outcome).ReportsMemory :=
  reportsMemory_writeRegister _ _ _

/-- Fetching the operands reports faults of the memories only. -/
theorem reportsMemory_fetchOperands (opcode : Opcode) :
    (machine.fetchOperands opcode).ReportsMemory := by
  unfold fetchOperands
  split
  · exact .pure _
  · exact .bind (reportsMemory_readRam _ _) (.pure _)
  · exact .bind (reportsMemory_readRam _ _) (.bind (reportsMemory_readRam _ _) (.pure _))

/-- Loading words reports faults of the memories only. -/
theorem reportsMemory_loadWords (address : Word) (words : List Word) :
    (machine.loadWords address words).ReportsMemory := by
  induction words generalizing machine address with
  | nil => exact .pure _
  | cons word rest ih => exact .bind (reportsMemory_writeRam _ _ _) (ih _ _)

/-- Loading reports faults of the memories only. -/
theorem reportsMemory_load (bits : List Bool) (address : Nat) :
    (machine.load bits address).ReportsMemory := by
  unfold load
  split
  · rename_i cause _
    exact .bind ⟨[cause], rfl⟩ (.pure _)
  · exact reportsMemory_loadWords _ _ _

/-- The assembly puts out nothing. -/
@[simp] theorem outputs_compile (source : String) : (machine.compile source).outputs = [] := by
  simp [compile, Traced.outputs, Event.out?]

/-- Loading puts out nothing. -/
@[simp] theorem outputs_load (bits : List Bool) (address : Nat) :
    (machine.load bits address).outputs = [] :=
  (machine.reportsMemory_load bits address).outputs

@[simp] theorem outputs_loadSource (source : String) (address : Nat) :
    (machine.loadSource source address).outputs = [] := by
  simp [loadSource]

/-- Everything but an output instruction only reports what its memories do. -/
theorem reportsMemory_execute {instruction : Instruction}
    (silent : ∀ cell, instruction.opcode ≠ .out cell) :
    (machine.execute instruction).ReportsMemory := by
  obtain ⟨opcode, first, second⟩ := instruction
  cases opcode with
  | halt | idle => exact .pure _
  | move transfer =>
      exact .bind (reportsMemory_fetchValue _ _ _)
        (.bind (reportsMemory_storeValue _ _ _ _) (.pure _))
  | out cell => exact absurd rfl (silent cell)
  | binary operation source =>
      refine .bind (reportsMemory_readRegister _ _) (.bind (reportsMemory_fetchValue _ _ _) ?_)
      split
      · exact .pure _
      · exact .bind (reportsMemory_storeOutcome _ _ _) (.pure _)
  | increment | decrement =>
      exact .bind (reportsMemory_readRegister _ _)
        (.bind (reportsMemory_storeOutcome _ _ _) (.pure _))
  | jump condition target =>
      simp only [execute]
      split
      · cases target <;> exact .pure _
      · exact .pure _

end Access

/-- The words that an instruction puts out. -/
def instructionOutputs (machine : Machine) (instruction : Instruction) : List Word :=
  match instruction.opcode with
  | .out cell => [(machine.fetchValue cell.mode instruction.first).value]
  | _ => []

/-- Only an output instruction puts out a word. -/
theorem outputs_execute (machine : Machine) (instruction : Instruction) :
    (machine.execute instruction).outputs = machine.instructionOutputs instruction := by
  obtain ⟨opcode, first, second⟩ := instruction
  cases opcode with
  | out cell =>
      simp [execute, instructionOutputs, (machine.reportsMemory_fetchValue cell.mode first).outputs]
  | halt | idle | move _ | binary _ _ | increment | decrement | jump _ _ =>
      refine (machine.reportsMemory_execute ?_).outputs
      rintro _ ⟨⟩

/-- A step on an unknown opcode puts out nothing. -/
theorem outputs_step_unknown {machine : Machine}
    (unknown : Opcode.ofWord? (machine.readRam machine.pc).value = none) :
    machine.step.outputs = [] := by
  simp [step, unknown, (machine.reportsMemory_readRam machine.pc).outputs]

/-- A step puts out what its instruction does. -/
theorem outputs_step_known {machine : Machine} {opcode : Opcode}
    (known : Opcode.ofWord? (machine.readRam machine.pc).value = some opcode) :
    machine.step.outputs =
      machine.fetched.instructionOutputs (machine.fetched.fetchOperands opcode).value := by
  have operands : (machine.fetched.fetchOperands opcode).outputs = [] :=
    (machine.fetched.reportsMemory_fetchOperands opcode).outputs
  rw [fetched] at operands
  rw [← outputs_execute]
  simp only [step, Traced.outputs_bind, known, (machine.reportsMemory_readRam machine.pc).outputs,
    operands, outputs_emit_step, Traced.outputs_pure, List.nil_append, List.append_nil]
  rfl

/-- The word of an output instruction has the width. -/
theorem Sound.instructionOutputs_width {machine : Machine} (sound : machine.Sound)
    (instruction : Instruction) :
    ∀ word ∈ machine.instructionOutputs instruction, word.width = machine.width := by
  obtain ⟨opcode, first, second⟩ := instruction
  cases opcode with
  | out cell =>
      intro word shown
      obtain rfl := List.mem_singleton.mp shown
      cases cell with
      | register => exact sound.readRegister_width first
      | memory => exact sound.readRam_width first
  | halt | idle | move _ | binary _ _ | increment | decrement | jump _ _ =>
      simp [instructionOutputs]

/-- All words that a step puts out have the width of the machine. -/
theorem Sound.step_outputs_width {machine : Machine} (sound : machine.Sound) :
    ∀ word ∈ machine.step.outputs, word.width = machine.width := by
  cases decoded : Opcode.ofWord? (machine.readRam machine.pc).value with
  | none => simp [outputs_step_unknown decoded]
  | some opcode =>
      rw [outputs_step_known decoded]
      exact (sound_lasting.fetched sound).instructionOutputs_width _

/-- The first step puts out its words first. -/
theorem iterate_succ_outputs (machine : Machine) (count : Nat) :
    (machine.iterate (count + 1)).outputs =
      machine.step.outputs ++ (machine.step.value.1.iterate count).outputs := by
  rw [Traced.outputs, iterate_succ_events, List.filterMap_append]
  rfl

/-- The last of the steps may be taken apart instead of the first. -/
theorem iterate_succ_last_outputs (machine : Machine) (count : Nat) :
    (machine.iterate (count + 1)).outputs =
      (machine.iterate count).outputs ++ (machine.iterate count).value.step.outputs := by
  rw [Traced.outputs, iterate_succ_last_events, List.filterMap_append]
  rfl

/-- All words put out by iterated steps have the width. -/
theorem Sound.iterate_outputs_width {machine : Machine} (sound : machine.Sound) (count : Nat) :
    ∀ word ∈ (machine.iterate count).outputs, word.width = machine.width := by
  induction count generalizing machine with
  | zero => simp
  | succ count ih =>
      intro word shown
      rw [iterate_succ_outputs, List.mem_append] at shown
      rcases shown with now | later
      · exact sound.step_outputs_width word now
      · exact (ih (sound_lasting.step sound) word later).trans (step_width machine)

section Run

variable {machine : Machine} {start count : Nat}

/-- A run without an address puts out nothing. -/
theorem outputs_run_of_wide (positive : 1 ≤ machine.width) (wide : 2 ^ machine.width ≤ start) :
    (machine.run start).outputs = [] := by
  rw [run_of_wide positive wide]
  rfl

/-- A run that halts puts out what its steps do. -/
theorem outputs_run_of_halts (positive : 1 ≤ machine.width) (fits : start < 2 ^ machine.width)
    (within : count ≤ machine.stepLimit + 1) (halts : (machine.started start).HaltsFirst count) :
    (machine.run start).outputs = ((machine.started start).iterate count).outputs := by
  rw [run_of_halts positive fits within halts]
  rfl

/-- A run beyond its limit puts out what its steps did. -/
theorem outputs_run_of_exceeds (positive : 1 ≤ machine.width) (fits : start < 2 ^ machine.width)
    (never : ∀ count ≤ machine.stepLimit + 1, ¬ (machine.started start).HaltsFirst count) :
    (machine.run start).outputs =
      ((machine.started start).iterate (machine.stepLimit + 1)).outputs := by
  rw [run_of_exceeds positive fits never]
  exact List.filterMap_append.trans (List.append_nil _)

end Run

end Machine

end WordMachine
