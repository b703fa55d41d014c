/-
This file defines programs, the bit sequences that hold encoded instructions one after another.
-/

import WordMachine.Instruction.Basic

namespace WordMachine

/-- The chunks of a list have the given length, except that the last may be shorter. -/
def chunks {A : Type} (length : Nat) (items : List A) : List (List A) :=
  go items.length items
where
  /-- Each chunk takes at least one item, so the number of items bounds the number of chunks. -/
  go : Nat → List A → List (List A)
    | 0, _ => []
    | bound + 1, items =>
        if items.isEmpty then []
        else items.take (max length 1) :: go bound (items.drop (max length 1))

/-- A program remembers the width that it is encoded for. -/
structure Program where
  width : Nat
  bits : List Bool
deriving DecidableEq, Inhabited

namespace Program

def empty (width : Nat) : Program := ⟨width, []⟩

def instructionBits (program : Program) : Nat := program.width * wordsPerInstruction

/-- The size counts whole instructions, and a program of width zero has none. -/
def size (program : Program) : Nat := program.bits.length / program.instructionBits

def isEmpty (program : Program) : Bool := program.bits.isEmpty

def words (program : Program) : List Word := (chunks program.width program.bits).map Word.mk

def instructions (program : Program) : List (List Bool) :=
  chunks program.instructionBits program.bits

/-- An instruction that cannot be encoded is not appended. -/
def push (program : Program) (instruction : Instruction) :
    Except InstructionError Program := do
  let bits ← instruction.encode program.width
  pure { program with bits := program.bits ++ bits }

/-- A placeholder fills the place of one instruction with zeros. -/
def pushPlaceholder (program : Program) : Program :=
  { program with bits := program.bits ++ List.replicate program.instructionBits false }

end Program

end WordMachine
