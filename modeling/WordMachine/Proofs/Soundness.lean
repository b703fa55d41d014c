import WordMachine.Machine.Run
import WordMachine.Proofs.Arithmetic

namespace WordMachine

/-- A memory has a fixed shape, and every stored word has its width. -/
structure Memory.Holds (memory : Memory) (width capacity : Nat) : Prop where
  width_eq : memory.width = width
  capacity_eq : memory.capacity = capacity
  stored : ∀ {address : Nat} {word : Word}, memory.cells[address]? = some word → word.width = width

/-- The architecture of a sound machine is valid and fixes the widths of all its words. -/
structure Machine.Sound (machine : Machine) : Prop where
  valid : machine.architecture.validate = .ok ()
  control_width : machine.control.width = machine.width
  pc_width : machine.pc.width = machine.width
  ram : machine.ram.Holds machine.width machine.architecture.ramCells
  registers : machine.registers.Holds machine.width machine.architecture.registerCount

namespace Memory

variable {memory : Memory} {width capacity : Nat}

/-- Every cell has the width. -/
theorem Holds.cell_width (holds : memory.Holds width capacity) (address : Nat) :
    (memory.cell address).width = width := by
  unfold cell
  cases present : memory.cells[address]? with
  | none => simp [holds.width_eq]
  | some word => simpa using holds.stored present

/-- A new memory has its shape. -/
theorem empty_holds (name : String) (width capacity : Nat) :
    (empty name width capacity).Holds width capacity where
  width_eq := rfl
  capacity_eq := rfl
  stored := by simp [empty]

theorem cell_empty (name : String) (width capacity address : Nat) :
    (empty name width capacity).cell address = Word.zero width := by
  simp [empty, cell]

/-- A stored word is padded to the width. -/
theorem Holds.store {written : Memory} {address : Nat} {word : Word}
    (holds : memory.Holds width capacity) (success : memory.store address word = .ok written) :
    written.Holds width capacity := by
  unfold Memory.store at success
  split at success
  · cases success
  · rename_i narrow
    cases success
    refine ⟨holds.width_eq, holds.capacity_eq, ?_⟩
    intro other found present
    rw [Std.ExtTreeMap.getElem?_insert] at present
    split at present
    · cases present
      rw [Word.width_padded, ← holds.width_eq]
      omega
    · exact holds.stored present

/-- A write keeps the shape of the memory. -/
theorem Holds.write {written : Memory} {address word : Word}
    (holds : memory.Holds width capacity) (success : memory.write address word = .ok written) :
    written.Holds width capacity := by
  unfold Memory.write at success
  cases found : memory.addressOf address with
  | error cause => rw [found] at success; cases success
  | ok index =>
      rw [found] at success
      exact holds.store success

theorem Holds.clear (holds : memory.Holds width capacity) : memory.clear.Holds width capacity where
  width_eq := holds.width_eq
  capacity_eq := holds.capacity_eq
  stored := by simp [Memory.clear]

end Memory

namespace Machine

variable {machine : Machine}

theorem build_sound {architecture : Architecture} (valid : architecture.validate = .ok ()) :
    (build architecture).Sound where
  valid := valid
  control_width := rfl
  pc_width := Word.width_zero _
  ram := Memory.empty_holds _ _ _
  registers := Memory.empty_holds _ _ _

/-- A sound machine has words of at least one bit. -/
theorem Sound.width_pos (sound : machine.Sound) : 1 ≤ machine.width :=
  ((Architecture.validate_eq_ok_iff _).1 sound.valid).1

/-- A sound machine has words of at most 64 bits. -/
theorem Sound.width_le (sound : machine.Sound) : machine.width ≤ 64 :=
  ((Architecture.validate_eq_ok_iff _).1 sound.valid).2.1

/-- A word that is read from the memory has the width, even if the read fails. -/
theorem Sound.readRam_width (sound : machine.Sound) (address : Word) :
    (machine.readRam address).value.width = machine.width := by
  unfold readRam Memory.read
  cases machine.ram.addressOf address with
  | error cause => exact Word.width_zero _
  | ok index => exact sound.ram.cell_width index

/-- A word that is read from a register has the width, even if the read fails. -/
theorem Sound.readRegister_width (sound : machine.Sound) (index : Word) :
    (machine.readRegister index).value.width = machine.width := by
  unfold readRegister Memory.read
  cases machine.registers.addressOf index with
  | error cause => exact Word.width_zero _
  | ok index => exact sound.registers.cell_width index

/-- A value that is fetched has the width. -/
theorem Sound.fetchValue_width (sound : machine.Sound) (mode : Mode) {operand : Word}
    (fits : operand.width = machine.width) :
    (machine.fetchValue mode operand).value.width = machine.width := by
  cases mode with
  | register => exact sound.readRegister_width operand
  | memory => exact sound.readRam_width operand
  | immediate | relative => exact fits

/-- The two memories of a machine. -/
inductive Bank where
  | ram
  | registers
deriving DecidableEq

def Bank.capacity (architecture : Architecture) : Bank → Nat
  | .ram => architecture.ramCells
  | .registers => architecture.registerCount

def bank (machine : Machine) : Bank → Memory
  | .ram => machine.ram
  | .registers => machine.registers

def withBank (machine : Machine) (bank : Bank) (memory : Memory) : Machine :=
  match bank with
  | .ram => { machine with ram := memory }
  | .registers => { machine with registers := memory }

@[simp] theorem withBank_bank (machine : Machine) (bank : Bank) :
    machine.withBank bank (machine.bank bank) = machine := by
  cases bank <;> rfl

@[simp] theorem bank_withBank (machine : Machine) (bank : Bank) (memory : Memory) :
    (machine.withBank bank memory).bank bank = memory := by
  cases bank <;> rfl

/-- The other memory stays as it is. -/
theorem bank_withBank_of_ne {bank other : Bank} (differ : other ≠ bank) (memory : Memory) :
    (machine.withBank bank memory).bank other = machine.bank other := by
  cases bank <;> cases other <;> first | rfl | exact absurd rfl differ

/-- Both memories of a sound machine have their shape. -/
theorem Sound.bank (sound : machine.Sound) (bank : Bank) :
    (machine.bank bank).Holds machine.width (bank.capacity machine.architecture) := by
  cases bank with
  | ram => exact sound.ram
  | registers => exact sound.registers

/-- A machine stays sound when one of its memories gives way to another one of the same shape. -/
theorem Sound.withBank (sound : machine.Sound) (bank : Bank) {memory : Memory}
    (holds : memory.Holds machine.width (bank.capacity machine.architecture)) :
    (machine.withBank bank memory).Sound := by
  obtain ⟨valid, control, pc, ram, registers⟩ := sound
  cases bank with
  | ram => exact ⟨valid, control, pc, holds, registers⟩
  | registers => exact ⟨valid, control, pc, ram, holds⟩

/-- Executing an instruction changes the control registers, the memories and at most the phase. -/
theorem execute_frame (machine : Machine) (instruction : Instruction) :
    ∃ control ram registers phase, (machine.execute instruction).value =
        { machine with control := control, ram := ram, registers := registers, phase := phase } ∧
      (phase = .halted ∨ phase = machine.phase) := by
  obtain ⟨opcode, first, second⟩ := instruction
  cases opcode with
  | halt => exact ⟨_, _, _, _, rfl, Or.inl rfl⟩
  | idle => exact ⟨_, _, _, _, rfl, Or.inr rfl⟩
  | move transfer =>
      cases transfer <;>
        simp only [execute, Transfer.destination, storeValue, writeRam, writeRegister, advance,
          Traced.value_bind, Traced.value_pure] <;>
        exact ⟨_, _, _, _, rfl, Or.inr rfl⟩
  | out cell =>
      simp only [execute, advance, Traced.value_bind, Traced.value_pure]
      exact ⟨_, _, _, _, rfl, Or.inr rfl⟩
  | binary operation source =>
      cases operation <;>
        simp only [execute, reduceCtorEq, if_false, if_true, storeOutcome, writeRegister, withFlags,
          advance, Traced.value_bind, Traced.value_pure] <;>
        exact ⟨_, _, _, _, rfl, Or.inr rfl⟩
  | increment | decrement =>
      simp only [execute, storeOutcome, writeRegister, withFlags, advance, Traced.value_bind,
        Traced.value_pure]
      exact ⟨_, _, _, _, rfl, Or.inr rfl⟩
  | jump condition target =>
      simp only [execute]
      split
      · cases target <;> exact ⟨_, _, _, _, rfl, Or.inr rfl⟩
      · exact ⟨_, _, _, _, rfl, Or.inr rfl⟩

/-- Executing an instruction keeps the width. -/
theorem execute_width (machine : Machine) (instruction : Instruction) :
    (machine.execute instruction).value.width = machine.width := by
  obtain ⟨_, _, _, _, executed, _⟩ := execute_frame machine instruction
  rw [executed]
  rfl

/-- Fetching the opcode counts the step. -/
def fetched (machine : Machine) : Machine :=
  { machine with
    control := { machine.control with ir := (machine.readRam machine.pc).value }
    steps := machine.steps + 1 }

/-- A step on an unknown opcode only moves the program counter. -/
theorem step_unknown (unknown : Opcode.ofWord? (machine.readRam machine.pc).value = none) :
    machine.step.value = (machine.fetched.advance, none) := by
  simp only [step, Traced.value_bind, unknown]
  rfl

/-- A step on a known opcode executes and records its instruction. -/
theorem step_known {opcode : Opcode}
    (known : Opcode.ofWord? (machine.readRam machine.pc).value = some opcode) :
    machine.step.value =
      ({ (machine.fetched.execute (machine.fetched.fetchOperands opcode).value).value with
          lastInstruction := some (machine.fetched.fetchOperands opcode).value },
        some opcode) := by
  simp only [step, Traced.value_bind, known]
  rfl

/-- The next step of the machine decodes and fetches the instruction. -/
def Fetches (machine : Machine) (instruction : Instruction) : Prop :=
  Opcode.ofWord? (machine.readRam machine.pc).value = some instruction.opcode ∧
    (machine.fetched.fetchOperands instruction.opcode).value = instruction

instance (machine : Machine) (instruction : Instruction) :
    Decidable (machine.Fetches instruction) :=
  inferInstanceAs (Decidable (_ ∧ _))

/-- A step executes the instruction that it fetches and records it. -/
theorem Fetches.step_value {instruction : Instruction} (fetches : machine.Fetches instruction) :
    machine.step.value =
      ({ (machine.fetched.execute instruction).value with lastInstruction := some instruction },
        some instruction.opcode) := by
  rw [step_known fetches.1, fetches.2]

/-- Fetching the opcode changes no memory. -/
theorem fetched_fetchValue (machine : Machine) (mode : Mode) (operand : Word) :
    machine.fetched.fetchValue mode operand = machine.fetchValue mode operand := by
  cases mode <;> rfl

/-- An arithmetic instruction sets the flags of its result. -/
theorem execute_binary_flags (machine : Machine) (operation : Binary) (source : Source)
    (index operand : Word) :
    (machine.execute ⟨.binary operation source, index, operand⟩).value.flags =
      (operation.outcome (machine.readRegister index).value
        (machine.fetchValue source.mode operand).value machine.width).flags := by
  cases operation <;> rfl

/-- A step on an arithmetic instruction sets the flags of its result. -/
theorem Fetches.binary_flags {operation : Binary} {source : Source} {index operand : Word}
    (fetches : machine.Fetches ⟨.binary operation source, index, operand⟩) :
    machine.step.value.1.flags =
      (machine.execute ⟨.binary operation source, index, operand⟩).value.flags := by
  rw [fetches.step_value, execute_binary_flags, ← fetched_fetchValue]
  exact execute_binary_flags machine.fetched operation source index operand

/-- A step leaves the architecture and the step limit alone and counts itself. -/
theorem step_frame (machine : Machine) :
    ∃ control ram registers phase last, machine.step.value.1 =
        { machine with
          control := control
          ram := ram
          registers := registers
          phase := phase
          steps := machine.steps + 1
          lastInstruction := last } ∧
      (phase = .halted ∨ phase = machine.phase) := by
  cases decoded : Opcode.ofWord? (machine.readRam machine.pc).value with
  | none =>
      rw [step_unknown decoded]
      exact ⟨_, _, _, _, _, rfl, Or.inr rfl⟩
  | some opcode =>
      rw [step_known decoded]
      obtain ⟨_, _, _, _, executed, phase⟩ :=
        execute_frame machine.fetched (machine.fetched.fetchOperands opcode).value
      rw [executed]
      exact ⟨_, _, _, _, _, rfl, phase⟩

/-- A step keeps the width. -/
theorem step_width (machine : Machine) : machine.step.value.1.width = machine.width := by
  obtain ⟨_, _, _, _, _, stepped, _⟩ := step_frame machine
  rw [stepped]
  rfl

end Machine

end WordMachine
