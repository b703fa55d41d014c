/-
This file defines machines that hold natural numbers in place of words.
-/

import WordMachine.Machine.Step
import WordMachine.Word.Value

namespace WordMachine

/-- A width keeps the remainder of a number. -/
def residue (width : Nat) (number : Int) : Nat := (number % 2 ^ width).toNat

/-- A number memory holds a number at every address. -/
structure NumberMemory where
  name : String
  capacity : Nat
  cells : Nat → Nat

namespace NumberMemory

/-- Only the addresses below the capacity that the width can name are reached. -/
def fault? (memory : NumberMemory) (width address : Nat) : Option MemoryError :=
  if 2 ^ width ≤ address then
    some (.addressTooWide memory.name (Word.ofNat (bitCount address) address).text)
  else if memory.capacity ≤ address then
    some (.addressOutOfRange memory.name address memory.capacity)
  else none

/-- A read at fault is reported and gives zero. -/
def read (memory : NumberMemory) (width address : Nat) : Traced Nat :=
  match memory.fault? width address with
  | none => pure (memory.cells address)
  | some cause => do
      report (.memory cause)
      pure 0

/-- A write at fault is reported and dropped. -/
def write (memory : NumberMemory) (width address number : Nat) : Traced NumberMemory :=
  match memory.fault? width address with
  | none => pure { memory with cells := Function.update memory.cells address number }
  | some cause => do
      report (.memory cause)
      pure memory

end NumberMemory

structure NumberInstruction where
  opcode : Opcode
  first : Nat
  second : Nat
deriving DecidableEq

/-- A computation gives a number and new flags. -/
structure NumberOutcome where
  number : Nat
  flags : Flags
deriving DecidableEq

namespace NumberOutcome

/-- The zero flag and the sign flag describe the number that the width keeps. -/
def ofResult (width : Nat) (result : Int) (carry zero : Bool) : NumberOutcome :=
  ⟨residue width result, ⟨carry, zero, decide (2 ^ width ≤ 2 * residue width result)⟩⟩

/-- A sum carries when it reaches the count of all numbers. -/
def add (width left right : Nat) : NumberOutcome :=
  ofResult width (left + right) (decide (2 ^ width ≤ left + right))
    (decide (residue width (left + right) = 0))

/-- A difference carries when nothing is borrowed. -/
def subtract (width left right : Nat) : NumberOutcome :=
  ofResult width (left - right) (decide (right ≤ left)) (decide (residue width (left - right) = 0))

/-- A number counts as negative when its top bit is set. -/
def isNegative (width number : Nat) : Bool := decide (2 ^ width ≤ 2 * number)

/-- A negative factor loses its sign when the other factor is not negative. -/
def factor (width number other : Nat) : Nat :=
  if isNegative width number && !isNegative width other then 2 ^ width - number else number

/-- A product carries when the product of its factors as multiplied reaches the count of all
numbers. -/
def multiply (width left right : Nat) : NumberOutcome :=
  ofResult width (left * right)
    (decide (2 ^ width ≤ factor width left right * factor width right left))
    (decide (left = 0 ∨ right = 0))

end NumberOutcome

def Binary.numberOutcome (operation : Binary) (width left right : Nat) : NumberOutcome :=
  match operation with
  | .add => .add width left right
  | .sub | .cmp => .subtract width left right
  | .mul => .multiply width left right

structure NumberMachine where
  width : Nat
  pc : Nat
  ir : Nat
  flags : Flags
  ram : NumberMemory
  registers : NumberMemory
  phase : Phase
  steps : Nat
  stepLimit : Nat
  lastInstruction : Option NumberInstruction

namespace NumberMachine

/-- The operands follow the opcode, and the addresses do not wrap around. -/
def fetchOperands (machine : NumberMachine) (opcode : Opcode) : Traced NumberInstruction := do
  let count := opcode.modes.length
  let first ← if 1 ≤ count then machine.ram.read machine.width (machine.pc + 1) else pure 0
  let second ← if 2 ≤ count then machine.ram.read machine.width (machine.pc + 2) else pure 0
  pure ⟨opcode, first, second⟩

/-- The number that an operand names. -/
def fetchValue (machine : NumberMachine) (mode : Mode) (operand : Nat) : Traced Nat :=
  match mode with
  | .register => machine.registers.read machine.width operand
  | .memory => machine.ram.read machine.width operand
  | .immediate | .relative => pure operand

def storeValue (machine : NumberMachine) (mode : Mode) (operand number : Nat) :
    Traced NumberMachine :=
  match mode with
  | .memory => do
      let ram ← machine.ram.write machine.width operand number
      pure { machine with ram := ram }
  | _ => do
      let registers ← machine.registers.write machine.width operand number
      pure { machine with registers := registers }

/-- The flags change even when the register cannot be written. -/
def storeOutcome (machine : NumberMachine) (index : Nat) (outcome : NumberOutcome) :
    Traced NumberMachine := do
  let registers ← machine.registers.write machine.width index outcome.number
  pure { machine with flags := outcome.flags, registers := registers }

/-- The effect of an instruction on everything but the program counter. -/
def perform (machine : NumberMachine) (instruction : NumberInstruction) :
    Traced NumberMachine := do
  let first := instruction.first
  let second := instruction.second
  match instruction.opcode with
  | .halt => pure { machine with phase := .halted }
  | .idle | .jump _ _ => pure machine
  | .move transfer => do
      let number ← machine.fetchValue transfer.source second
      machine.storeValue transfer.destination first number
  | .out cell => do
      let number ← machine.fetchValue cell.mode first
      emit (.out (Word.ofNat machine.width number))
      pure machine
  | .binary operation source => do
      let left ← machine.registers.read machine.width first
      let right ← machine.fetchValue source.mode second
      let outcome := operation.numberOutcome machine.width left right
      if operation = .cmp then pure { machine with flags := outcome.flags }
      else machine.storeOutcome first outcome
  | .increment => do
      let number ← machine.registers.read machine.width first
      machine.storeOutcome first (.add machine.width number 1)
  | .decrement => do
      let number ← machine.registers.read machine.width first
      machine.storeOutcome first (.subtract machine.width number 1)

/-- The address after an instruction, which a halt keeps and a taken jump sets. -/
def target (machine : NumberMachine) (instruction : NumberInstruction) : Nat :=
  let next := residue machine.width (machine.pc + 3)
  match instruction.opcode with
  | .halt => machine.pc
  | .jump condition target =>
      if condition.holds machine.flags then
        match target with
        | .absolute => instruction.first
        | .relative => residue machine.width (machine.pc + 3 * instruction.first)
      else next
  | _ => next

def execute (machine : NumberMachine) (instruction : NumberInstruction) :
    Traced NumberMachine := do
  let performed ← machine.perform instruction
  pure { performed with pc := machine.target instruction }

def step (machine : NumberMachine) : Traced (NumberMachine × Option Opcode) := do
  let ir ← machine.ram.read machine.width machine.pc
  let fetched := { machine with ir := ir, steps := machine.steps + 1 }
  match Opcode.ofCode? ir with
  | none => do
      report (.unknownOpcode ir machine.pc)
      let pc := residue machine.width (machine.pc + 3)
      emit (.step (Word.ofNat machine.width pc))
      pure ({ fetched with pc := pc }, none)
  | some opcode => do
      let instruction ← fetched.fetchOperands opcode
      let executed ← fetched.execute instruction
      emit (.step (Word.ofNat machine.width executed.pc))
      pure ({ executed with lastInstruction := some instruction }, some opcode)

end NumberMachine

/-- The numbers that the words of a memory stand for. -/
def Memory.numbers (memory : Memory) : NumberMemory :=
  ⟨memory.name, memory.capacity, fun address => (memory.cell address).value⟩

def Instruction.numbers (instruction : Instruction) : NumberInstruction :=
  ⟨instruction.opcode, instruction.first.value, instruction.second.value⟩

def Machine.numbers (machine : Machine) : NumberMachine where
  width := machine.width
  pc := machine.pc.value
  ir := machine.ir.value
  flags := machine.flags
  ram := machine.ram.numbers
  registers := machine.registers.numbers
  phase := machine.phase
  steps := machine.steps
  stepLimit := machine.stepLimit
  lastInstruction := machine.lastInstruction.map Instruction.numbers

end WordMachine
