/-
This file defines the control registers: the program counter, the instruction register and the
flags.
-/

import WordMachine.Instruction.Flags
import WordMachine.Word.Signed

namespace WordMachine

structure Control where
  /-- The address of the current instruction. -/
  pc : Word
  /-- The opcode word of the current instruction. -/
  ir : Word
  flags : Flags
  width : Nat
deriving DecidableEq

namespace Control

def initial (width : Nat) : Control := ⟨Word.zero width, Word.zero width, {}, width⟩

def reset (control : Control) : Control := initial control.width

/-- An address is cut to the width. -/
def jump (control : Control) (address : Word) : Control :=
  { control with pc := address.lowBits control.width }

def describe (control : Control) : String :=
  s!"Registers \x7b pc: {control.pc.describe}, ir: {control.ir.describe}, " ++
    s!"flags: {control.flags.describe}, width: {control.width} \x7d"

end Control

end WordMachine
