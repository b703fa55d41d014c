/-
This file gives the JSON form of every stored type, as a writer and a reader side by side. A
record is an object with its fields in order. It may be read from an array of its fields too.
-/

import WordMachine.Json.Reader
import WordMachine.Machine.Snapshot
import WordMachine.Program.Basic

namespace WordMachine

namespace Json

def toNat? : Json → Option Nat
  | .number spelling => do
      let number ← wholeNumber? spelling
      if 0 ≤ number ∧ number < valueCount 64 then some number.toNat else none
  | _ => none

def toInt? : Json → Option Int
  | .number spelling => do
      let number ← wholeNumber? spelling
      if -valueCount 63 ≤ number ∧ number < valueCount 63 then some number else none
  | _ => none

def toBool? : Json → Option Bool
  | .bool value => some value
  | _ => none

def toText? : Json → Option String
  | .string spelling => String.ofList <$> unspell spelling
  | _ => none

def toItems? : Json → Option (List Json)
  | .array items => some items
  | _ => none

/-- A name is written as a text or as the only key of an object without a value. -/
def toName? : Json → Option String
  | .string spelling => String.ofList <$> unspell spelling
  | .object [(key, .null)] => String.ofList <$> unspell key
  | _ => none

/-- Every named field must occur exactly once, and an array has one item for each field. -/
def fields? (names : List String) : Json → Option (List Json)
  | .array items => if items.length = names.length then some items else none
  | .object members => do
      let members ← members.mapM fun (key, value) => do
        let name ← unspell key
        pure (String.ofList name, value)
      names.mapM fun name =>
        match members.filter (·.1 == name) with
        | [(_, value)] => some value
        | _ => none
  | _ => none

end Json

def Word.toJson (word : Word) : Json :=
  .record [("bits", .array (word.bits.map .bool))]

def bitsOfJson? (json : Json) : Option (List Bool) := do
  let items ← json.toItems?
  items.mapM Json.toBool?

def Word.ofJson? (json : Json) : Option Word :=
  match json.fields? ["bits"] with
  | some [bits] => Word.mk <$> bitsOfJson? bits
  | _ => none

def Flags.toJson (flags : Flags) : Json :=
  .record [("carry", .bool flags.carry), ("zero", .bool flags.zero), ("sign", .bool flags.sign)]

def Flags.ofJson? (json : Json) : Option Flags := do
  match ← json.fields? ["carry", "zero", "sign"] with
  | [carry, zero, sign] =>
      let carry ← carry.toBool?
      let zero ← zero.toBool?
      let sign ← sign.toBool?
      pure ⟨carry, zero, sign⟩
  | _ => none

def Phase.toJson (phase : Phase) : Json := .ofText phase.name

def Phase.ofJson? (json : Json) : Option Phase := json.toName?.bind Phase.ofName?

def Opcode.toJson (opcode : Opcode) : Json := .ofText opcode.name

def Opcode.ofJson? (json : Json) : Option Opcode := json.toName?.bind Opcode.ofName?

def Mode.toJson (mode : Mode) : Json := .ofText mode.name

def Mode.ofJson? (json : Json) : Option Mode := json.toName?.bind Mode.ofName?

def Condition.toJson (condition : Condition) : Json := .ofText condition.name

def Condition.ofJson? (json : Json) : Option Condition := json.toName?.bind Condition.ofName?

def Architecture.toJson (architecture : Architecture) : Json :=
  .record [("bits", .ofNat architecture.bits),
    ("register_count", .ofNat architecture.registerCount),
    ("ram_bytes", .ofNat architecture.ramCells)]

def Architecture.ofJson? (json : Json) : Option Architecture := do
  match ← json.fields? ["bits", "register_count", "ram_bytes"] with
  | [bits, registerCount, ramCells] =>
      let bits ← bits.toNat?
      let registerCount ← registerCount.toNat?
      let ramCells ← ramCells.toNat?
      pure ⟨bits, registerCount, ramCells⟩
  | _ => none

def Instruction.toJson (instruction : Instruction) : Json :=
  .record [("opcode", instruction.opcode.toJson),
    ("operands", .array (instruction.operands.map Word.toJson))]

def Instruction.ofJson? (json : Json) : Option Instruction := do
  match ← json.fields? ["opcode", "operands"] with
  | [opcode, operands] =>
      let opcode ← Opcode.ofJson? opcode
      match ← operands.toItems? with
      | [first, second] =>
          let first ← Word.ofJson? first
          let second ← Word.ofJson? second
          pure ⟨opcode, first, second⟩
      | _ => none
  | _ => none

def Program.toJson (program : Program) : Json :=
  .record [("width", .ofNat program.width), ("bits", .array (program.bits.map .bool))]

def Program.ofJson? (json : Json) : Option Program := do
  match ← json.fields? ["width", "bits"] with
  | [width, bits] =>
      let width ← width.toNat?
      let bits ← bitsOfJson? bits
      pure ⟨width, bits⟩
  | _ => none

def Control.toJson (control : Control) : Json :=
  .record [("pc", control.pc.toJson), ("ir", control.ir.toJson),
    ("flags", control.flags.toJson), ("width", .ofNat control.width)]

def Control.ofJson? (json : Json) : Option Control := do
  match ← json.fields? ["pc", "ir", "flags", "width"] with
  | [pc, ir, flags, width] =>
      let pc ← Word.ofJson? pc
      let ir ← Word.ofJson? ir
      let flags ← Flags.ofJson? flags
      let width ← width.toNat?
      pure ⟨pc, ir, flags, width⟩
  | _ => none

/-- Cells are keyed by their addresses in decimal. -/
def Memory.toJson (memory : Memory) : Json :=
  .record [("name", .ofText memory.name), ("width", .ofNat memory.width),
    ("capacity", .ofNat memory.capacity),
    ("cells", .object (memory.dump.map fun (address, word) =>
      (Text.decimal address, word.toJson)))]

/-- The last member with an address gives its cell. -/
def cellsOfJson? : Json → Option (List (Nat × Word))
  | .object members =>
      members.mapM fun (key, value) => do
        let address ← (Json.number key).toNat?
        let word ← Word.ofJson? value
        pure (address, word)
  | _ => none

def Memory.ofJson? (json : Json) : Option Memory := do
  match ← json.fields? ["name", "width", "capacity", "cells"] with
  | [name, width, capacity, cells] =>
      let name ← name.toText?
      let width ← width.toNat?
      let capacity ← capacity.toNat?
      let cells ← cellsOfJson? cells
      pure ⟨name, width, capacity, cells.foldl (fun cells (address, word) =>
        cells.insert address word) ∅⟩
  | _ => none

def RegisterSnapshot.toJson (register : RegisterSnapshot) : Json :=
  .record [("index", .ofNat register.index), ("bits", .ofText register.bits),
    ("unsigned", .ofNat register.unsigned), ("signed", .ofInt register.signed)]

def RegisterSnapshot.ofJson? (json : Json) : Option RegisterSnapshot := do
  match ← json.fields? ["index", "bits", "unsigned", "signed"] with
  | [index, bits, unsigned, signed] =>
      let index ← index.toNat?
      let bits ← bits.toText?
      let unsigned ← unsigned.toNat?
      let signed ← signed.toInt?
      pure ⟨index, bits, unsigned, signed⟩
  | _ => none

def Snapshot.toJson (snapshot : Snapshot) : Json :=
  .record [("arch", snapshot.architecture.toJson), ("pc", .ofNat snapshot.pc),
    ("ir", .ofNat snapshot.ir), ("flags", snapshot.flags.toJson),
    ("state", snapshot.phase.toJson), ("steps", .ofNat snapshot.steps),
    ("registers", .array (snapshot.registers.map RegisterSnapshot.toJson))]

def Snapshot.ofJson? (json : Json) : Option Snapshot := do
  match ← json.fields? ["arch", "pc", "ir", "flags", "state", "steps", "registers"] with
  | [architecture, pc, ir, flags, phase, steps, registers] =>
      let architecture ← Architecture.ofJson? architecture
      let pc ← pc.toNat?
      let ir ← ir.toNat?
      let flags ← Flags.ofJson? flags
      let phase ← Phase.ofJson? phase
      let steps ← steps.toNat?
      let registers ← registers.toItems?
      let registers ← registers.mapM RegisterSnapshot.ofJson?
      pure ⟨architecture, pc, ir, flags, phase, steps, registers⟩
  | _ => none

end WordMachine
