/-
This file defines the state of a machine and the access to its memories. A bad read gives zero
and a bad write is dropped. Both are reported.
-/

import WordMachine.Assembly.Basic
import WordMachine.Machine.Architecture
import WordMachine.Machine.Control
import WordMachine.Machine.Event

namespace WordMachine

inductive Phase where
  /-- Built or reset, and not started. -/
  | idle
  | running
  /-- Stopped by an instruction or by the step limit. -/
  | halted
deriving DecidableEq, Inhabited

namespace Phase

def all : List Phase := [.idle, .running, .halted]

def name : Phase → String
  | .idle => "Idle"
  | .running => "Running"
  | .halted => "Halted"

def ofName? (name : String) : Option Phase := all.find? (·.name == name)

end Phase

structure Machine where
  architecture : Architecture
  control : Control
  ram : Memory
  registers : Memory
  phase : Phase
  /-- The steps taken since the machine was built or reset. -/
  steps : Nat
  stepLimit : Nat
  lastInstruction : Option Instruction
deriving DecidableEq

namespace Machine

def defaultStepLimit : Nat := 100000

/-- All memories of a new machine read as zero. -/
def build (architecture : Architecture) : Machine where
  architecture := architecture
  control := .initial architecture.bits
  ram := .empty "RAM" architecture.bits architecture.ramCells
  registers := .empty "register" architecture.bits architecture.registerCount
  phase := .idle
  steps := 0
  stepLimit := defaultStepLimit
  lastInstruction := none

def create (architecture : Architecture) : Except ArchitectureError Machine := do
  architecture.validate
  pure (build architecture)

/-- A machine is made for every valid architecture. -/
theorem create_of_valid {architecture : Architecture} (valid : architecture.validate = .ok ()) :
    create architecture = .ok (build architecture) := by
  rw [create, valid]
  rfl

def width (machine : Machine) : Nat := machine.architecture.bits

def pc (machine : Machine) : Word := machine.control.pc

def ir (machine : Machine) : Word := machine.control.ir

def flags (machine : Machine) : Flags := machine.control.flags

def isHalted (machine : Machine) : Bool := machine.phase == .halted

def withPc (machine : Machine) (pc : Word) : Machine :=
  { machine with control := { machine.control with pc := pc } }

def withFlags (machine : Machine) (flags : Flags) : Machine :=
  { machine with control := { machine.control with flags := flags } }

/-- The memory cells survive unless they are cleared too. -/
def reset (machine : Machine) (clearRam : Bool) : Traced Machine := do
  emit .reset
  pure
    { machine with
      registers := machine.registers.clear
      ram := if clearRam then machine.ram.clear else machine.ram
      control := machine.control.reset
      phase := .idle
      steps := 0
      lastInstruction := none }

/-- A failed read is reported and gives zero. -/
def readOr (width : Nat) : Except MemoryError Word → Traced Word
  | .ok word => pure word
  | .error cause => do
      report (.memory cause)
      pure (Word.zero width)

/-- A failed write is reported and leaves the memory as it was. -/
def writeOr (memory : Memory) : Except MemoryError Memory → Traced Memory
  | .ok written => pure written
  | .error cause => do
      report (.memory cause)
      pure memory

def readRam (machine : Machine) (address : Word) : Traced Word :=
  readOr machine.width (machine.ram.read address)

def readRegister (machine : Machine) (index : Word) : Traced Word :=
  readOr machine.width (machine.registers.read index)

def writeRam (machine : Machine) (address word : Word) : Traced Machine := do
  let ram ← writeOr machine.ram (machine.ram.write address word)
  pure { machine with ram := ram }

def writeRegister (machine : Machine) (index word : Word) : Traced Machine := do
  let registers ← writeOr machine.registers (machine.registers.write index word)
  pure { machine with registers := registers }

/-- A number that needs more bits than a word is no address. -/
def addressWord (machine : Machine) (address : Nat) : Except MemoryError Word :=
  if machine.width < bitCount address then
    .error (.addressTooWide machine.ram.name (toString address))
  else .ok (Word.ofNat machine.width address)

/-- Every error of the assembly is reported. -/
def compile (machine : Machine) (source : String) : Traced Program :=
  let result := assemble source machine.width
  ⟨result.program, result.errors.map fun error => .fault (.assembly error)⟩

/-- The address of each further word is one more and can grow out of the address space, where
the write fails. -/
def loadWords (machine : Machine) (address : Word) : List Word → Traced Machine
  | [] => pure machine
  | word :: rest => do
      let machine ← machine.writeRam address word
      machine.loadWords address.increment rest

/-- Bits are loaded in words, of which the last may be short. -/
def load (machine : Machine) (bits : List Bool) (address : Nat) : Traced Machine :=
  match machine.addressWord address with
  | .error cause => do
      report (.memory cause)
      pure machine
  | .ok address => machine.loadWords address ((chunks machine.width bits).map Word.mk)

def loadSource (machine : Machine) (source : String) (address : Nat) :
    Traced (Machine × Program) := do
  let program ← machine.compile source
  let machine ← machine.load program.bits address
  pure (machine, program)

end Machine

end WordMachine
