/-
This file defines what can be wrong with a line of assembly. Every fault names the number of its
line, counted from one.
-/

import WordMachine.Instruction.Basic
import WordMachine.Text.Quoted

namespace WordMachine.Assembly

inductive Fault where
  /-- The run of sigils at the front does not match the operands. -/
  | sigilCount (sigils operands : Nat)
  /-- The instruction cannot be encoded for another reason than its opcode. -/
  | encoding (cause : InstructionError)
  | unknownInstruction (key : String)
  | invalidSigil (sigil : Char)
  | undefinedLabel (label : String)
  | invalidLiteral (literal : String)
  | operandOutOfRange (value : Int) (width : Nat)
  | opcodeTooWide (code width : Nat)
deriving DecidableEq

structure Error where
  line : Nat
  fault : Fault
deriving DecidableEq

/-- An opcode that is too wide has a message of its own. -/
def Fault.ofEncoding : InstructionError → Fault
  | .opcodeTooWide code width => .opcodeTooWide code width
  | cause => .encoding cause

def Error.message (error : Error) : String :=
  let line := error.line
  match error.fault with
  | .sigilCount sigils operands =>
      s!"syntax error on line {line}: {sigils} sigils for {operands} operands"
  | .encoding cause => s!"syntax error on line {line}: {cause.message}"
  | .unknownInstruction key => s!"unknown instruction on line {line}: {key}"
  | .invalidSigil sigil =>
      s!"invalid addressing mode identifier on line {line}: {Text.quoteChar sigil}"
  | .undefinedLabel label => s!"label not found on line {line}: {label}"
  | .invalidLiteral literal => s!"invalid literal on line {line}: {Text.quote literal}"
  | .operandOutOfRange value width =>
      s!"operand {value} on line {line} does not fit in {width} bits"
  | .opcodeTooWide code width => s!"opcode {code} on line {line} does not fit in {width} bits"

end WordMachine.Assembly
