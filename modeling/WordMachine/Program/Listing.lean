/-
This file writes the listing of a program: one line of assembly for each instruction, after its
address.
-/

import WordMachine.Program.Basic

namespace WordMachine.Program

/-- Addresses count words, so neighbouring instructions lie three apart. -/
def addressed {A : Type} (items : List A) : List (Nat × A) :=
  items.zipIdx.map fun (item, index) => (index * wordsPerInstruction, item)

def listingHeader (width : Nat) : List Char :=
  s!"; {width}-bit disassembly\n; -----------------\n\n".toList

def listingLine (width : Nat) (address : Nat) (bits : List Bool) : List Char :=
  Text.address address ++ [':', ' '] ++ Instruction.disassemble bits width ++ ['\n']

def listingChars (program : Program) : List Char :=
  listingHeader program.width ++
    (addressed program.instructions).flatMap fun (address, bits) =>
      listingLine program.width address bits

def listing (program : Program) : String := String.ofList program.listingChars

end WordMachine.Program
