/-
This file takes snapshots of machines for the outside world.
-/

import WordMachine.Machine.Basic

namespace WordMachine

/-- One register shows its bits and both readings of them. -/
structure RegisterSnapshot where
  index : Nat
  bits : String
  unsigned : Nat
  signed : Int
deriving DecidableEq

structure Snapshot where
  architecture : Architecture
  pc : Nat
  ir : Nat
  flags : Flags
  phase : Phase
  steps : Nat
  /-- Only registers that are not zero are listed, in the order of their indices. -/
  registers : List RegisterSnapshot
deriving DecidableEq

def RegisterSnapshot.ofCell (index : Nat) (word : Word) : RegisterSnapshot :=
  ⟨index, word.text, word.unsigned, word.signed⟩

def Machine.snapshot (machine : Machine) : Snapshot where
  architecture := machine.architecture
  pc := machine.pc.unsigned
  ir := machine.ir.unsigned
  flags := machine.flags
  phase := machine.phase
  steps := machine.steps
  registers :=
    (machine.registers.dump.filter fun (_, word) => !word.isZero).map fun (index, word) =>
      .ofCell index word

end WordMachine
