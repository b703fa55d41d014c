/-
This file defines one step of a machine: it fetches the instruction at the program counter,
executes it and moves the program counter.
-/

import WordMachine.Machine.Basic

namespace WordMachine

/-- A computation gives a word of the machine's width and new flags. -/
structure Outcome where
  word : Word
  flags : Flags
deriving DecidableEq

namespace Outcome

/-- The raw result is cut to the width, and its width decides the carry. -/
def ofRaw (raw : Word) (width : Nat) : Outcome := ⟨raw.lowBits width, .ofRaw raw width⟩

def subtract (first second : Word) (width : Nat) : Outcome :=
  ofRaw (first.subtract second width) width

/-- A negative factor of a mixed pair is negated before the multiplication, and the product after
it. -/
def multiply (first second : Word) (width : Nat) : Outcome :=
  let negative := first.msb != second.msb
  let left := if negative && first.msb then (first.negate width).lowBits width else first
  let right := if negative && !first.msb then (second.negate width).lowBits width else second
  let product := left.multiply right
  let signed := if negative then product.negate width else product
  let word := signed.lowBits width
  -- the carry looks at the product of the factors as multiplied
  ⟨word, ⟨product.exceeds width, left.isZero || right.isZero, word.msb⟩⟩

end Outcome

/-- A comparison is a subtraction whose result is not kept. -/
def Binary.outcome (operation : Binary) (first second : Word) (width : Nat) : Outcome :=
  match operation with
  | .add => .ofRaw (first.add second) width
  | .sub | .cmp => .subtract first second width
  | .mul => .multiply first second width

namespace Machine

/-- The distance between neighbouring instructions as a word. -/
def stride : Word := Word.ofNat 2 wordsPerInstruction

/-- The program counter moves to the next instruction and wraps around at the width. -/
def advance (machine : Machine) : Machine :=
  { machine with control := machine.control.jump (machine.pc.add stride) }

def jumpTo (machine : Machine) (address : Word) : Machine :=
  { machine with control := machine.control.jump address }

/-- A distance counts instructions. -/
def jumpBy (machine : Machine) (distance : Word) : Machine :=
  machine.jumpTo (machine.pc.add ((distance.multiply stride).lowBits machine.width))

/-- The words after the opcode are read for as many operands as the opcode has. -/
def fetchOperands (machine : Machine) (opcode : Opcode) : Traced Instruction := do
  let zero := Word.zero machine.width
  let address := machine.pc.increment
  match opcode.modes with
  | [] => pure ⟨opcode, zero, zero⟩
  | [_] => do
      let first ← machine.readRam address
      pure ⟨opcode, first, zero⟩
  | _ => do
      let first ← machine.readRam address
      let second ← machine.readRam address.increment
      pure ⟨opcode, first, second⟩

/-- The word that an operand names. -/
def fetchValue (machine : Machine) (mode : Mode) (operand : Word) : Traced Word :=
  match mode with
  | .register => machine.readRegister operand
  | .memory => machine.readRam operand
  | .immediate | .relative => pure operand

/-- The destination of a move is a memory cell or a register. -/
def storeValue (machine : Machine) (mode : Mode) (operand word : Word) : Traced Machine :=
  match mode with
  | .memory => machine.writeRam operand word
  | _ => machine.writeRegister operand word

/-- The flags change before the register does. -/
def storeOutcome (machine : Machine) (index : Word) (outcome : Outcome) : Traced Machine :=
  (machine.withFlags outcome.flags).writeRegister index outcome.word

/-- A halt keeps the program counter, a jump that is taken sets it, and everything else moves
it to the next instruction. -/
def execute (machine : Machine) (instruction : Instruction) : Traced Machine := do
  let first := instruction.first
  let second := instruction.second
  match instruction.opcode with
  | .halt => pure { machine with phase := .halted }
  | .idle => pure machine.advance
  | .move transfer => do
      let word ← machine.fetchValue transfer.source second
      let machine ← machine.storeValue transfer.destination first word
      pure machine.advance
  | .out cell => do
      let word ← machine.fetchValue cell.mode first
      emit (.out word)
      pure machine.advance
  | .binary operation source => do
      let left ← machine.readRegister first
      let right ← machine.fetchValue source.mode second
      let outcome := operation.outcome left right machine.width
      if operation = .cmp then
        pure (machine.withFlags outcome.flags).advance
      else do
        let machine ← machine.storeOutcome first outcome
        pure machine.advance
  | .increment => do
      let word ← machine.readRegister first
      let machine ← machine.storeOutcome first (.ofRaw word.increment machine.width)
      pure machine.advance
  | .decrement => do
      let word ← machine.readRegister first
      let machine ← machine.storeOutcome first (.subtract word Word.one machine.width)
      pure machine.advance
  | .jump condition target =>
      if condition.holds machine.flags then
        match target with
        | .absolute => pure (machine.jumpTo first)
        | .relative => pure (machine.jumpBy first)
      else pure machine.advance

/-- A step answers the opcode that it executed, and an unknown opcode is reported and skipped. -/
def step (machine : Machine) : Traced (Machine × Option Opcode) := do
  let ir ← machine.readRam machine.pc
  let fetched : Machine :=
    { machine with control := { machine.control with ir := ir }, steps := machine.steps + 1 }
  match Opcode.ofWord? ir with
  | none => do
      report (.unknownOpcode ir.unsigned machine.pc.unsigned)
      let next := fetched.advance
      emit (.step next.pc)
      pure (next, none)
  | some opcode => do
      let instruction ← fetched.fetchOperands opcode
      let executed ← fetched.execute instruction
      let next := { executed with lastInstruction := some instruction }
      emit (.step next.pc)
      pure (next, some opcode)

end Machine

end WordMachine
