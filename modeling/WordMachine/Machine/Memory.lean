/-
This file defines sparse memories. A memory reads as zero wherever nothing was written.
-/

import Std.Data.ExtTreeMap
import WordMachine.Text.Quoted
import WordMachine.Word.Basic

namespace WordMachine

/-- A memory keeps only the cells that were written, in the order of their addresses. -/
structure Memory where
  /-- The name appears in messages. -/
  name : String
  width : Nat
  capacity : Nat
  cells : Std.ExtTreeMap Nat Word
deriving DecidableEq

inductive MemoryError where
  /-- The address is shown as it was given. -/
  | addressTooWide (memory : String) (address : String)
  | addressOutOfRange (memory : String) (address capacity : Nat)
  | valueTooWide (memory : String) (bits width : Nat)
deriving DecidableEq

def MemoryError.message : MemoryError → String
  | .addressTooWide memory address => s!"incorrect {memory} address: {address}"
  | .addressOutOfRange memory address capacity =>
      s!"{memory} address {address} out of range (capacity {capacity})"
  | .valueTooWide memory bits width =>
      s!"cannot store {bits} bits of data in {memory}, since 1 byte = {width} bits"

namespace Memory

def empty (name : String) (width capacity : Nat) : Memory := ⟨name, width, capacity, ∅⟩

def checkRange (memory : Memory) (address : Nat) : Except MemoryError Unit :=
  if address < memory.capacity then .ok ()
  else .error (.addressOutOfRange memory.name address memory.capacity)

/-- An address word must not be wider than a cell. -/
def addressOf (memory : Memory) (word : Word) : Except MemoryError Nat :=
  if memory.width < word.width then .error (.addressTooWide memory.name word.text)
  else do
    memory.checkRange word.unsigned
    pure word.unsigned

/-- The word that a cell holds, whether or not the address is in range. -/
def cell (memory : Memory) (address : Nat) : Word :=
  memory.cells[address]?.getD (Word.zero memory.width)

/-- A stored word is padded to the width of a cell. -/
def store (memory : Memory) (address : Nat) (word : Word) : Except MemoryError Memory :=
  if memory.width < word.width then
    .error (.valueTooWide memory.name word.width memory.width)
  else .ok { memory with cells := memory.cells.insert address (word.padded memory.width) }

def readAt (memory : Memory) (address : Nat) : Except MemoryError Word := do
  memory.checkRange address
  pure (memory.cell address)

def writeAt (memory : Memory) (address : Nat) (word : Word) : Except MemoryError Memory := do
  memory.checkRange address
  memory.store address word

def read (memory : Memory) (address : Word) : Except MemoryError Word := do
  let address ← memory.addressOf address
  pure (memory.cell address)

def write (memory : Memory) (address word : Word) : Except MemoryError Memory := do
  let address ← memory.addressOf address
  memory.store address word

def clear (memory : Memory) : Memory := { memory with cells := ∅ }

/-- The number of cells that were written. -/
def populated (memory : Memory) : Nat := memory.cells.size

/-- The written cells in the order of their addresses. -/
def dump (memory : Memory) : List (Nat × Word) := memory.cells.toList

/-- The debugging text counts the cells and does not list them. -/
def describe (memory : Memory) : String :=
  s!"Memory \x7b name: {Text.quote memory.name}, width: {memory.width}, " ++
    s!"populated_cells: {memory.populated}, capacity: {memory.capacity} \x7d"

end Memory

end WordMachine
