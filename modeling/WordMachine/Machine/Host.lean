/-
This file defines hosts. A host embeds a machine in a page and answers in plain numbers and
texts, with neutral answers where a cell cannot be read.
-/

import WordMachine.Json.Forms
import WordMachine.Machine.Run
import WordMachine.Program.Image

namespace WordMachine

/-- A host keeps the program that it loaded last. -/
structure Host where
  machine : Machine
  program : Program

namespace Host

def create (architecture : Architecture) : Except ArchitectureError Host := do
  let machine ← Machine.create architecture
  pure ⟨machine, .empty architecture.bits⟩

/-- Everything is cleared before the program is loaded. -/
def load (host : Host) (source : String) (address : Nat) : Host :=
  let cleared := (host.machine.reset true).value
  let (machine, program) := (cleared.loadSource source address).value
  ⟨machine, program⟩

/-- The answer is the text of the last instruction that was executed. -/
def step (host : Host) : Host × String :=
  let machine := host.machine.step.value.1
  ({ host with machine := machine },
    (machine.lastInstruction.map Instruction.text).getD "???")

def run (host : Host) (start : Nat) : Host × Except Fault Nat :=
  let finished := (host.machine.run start).value
  ({ host with machine := finished.machine }, finished.result)

def setStepLimit (host : Host) (limit : Nat) : Host :=
  { host with machine := { host.machine with stepLimit := limit } }

def reset (host : Host) (clearRam : Bool) : Host :=
  { host with machine := (host.machine.reset clearRam).value }

def register (host : Host) (index : Nat) : Int :=
  match host.machine.registers.readAt index with
  | .ok word => word.signed
  | .error _ => 0

def memory (host : Host) (address : Nat) : Nat :=
  match host.machine.ram.readAt address with
  | .ok word => word.unsigned
  | .error _ => 0

def memoryBits (host : Host) (address : Nat) : String :=
  match host.machine.ram.readAt address with
  | .ok word => word.text
  | .error _ => ""

def snapshotText (host : Host) : String :=
  String.ofList host.machine.snapshot.toJson.compact

def disassembly (host : Host) : String := host.program.listing

/-- Assembly to an image fails with the first error. -/
def assembleImage (source : String) (width : Nat) : Except Assembly.Error String := do
  let program ← (assemble source width).program?
  pure (Image.text program)

end Host

end WordMachine
