/-
This file assembles source text. Every instruction line gives one instruction: a line at fault
is encoded as a placeholder, so that all later instructions keep their places.
-/

import WordMachine.Assembly.Operand
import WordMachine.Program.Basic
import WordMachine.Text.Uppercase

namespace WordMachine.Assembly

/-- An instruction line remembers its number in the source. -/
structure Line where
  number : Nat
  text : List Char
deriving DecidableEq

/-- The labels pair every name with the index of the instruction after it, the newest first. -/
abbrev Labels := List (List Char × Nat)

/-- A label line is a label with a colon behind it. -/
def labelOf? (text : List Char) : Option (List Char) :=
  match text.getLast? with
  | some ':' => if isLabel text.dropLast then some text.dropLast else none
  | _ => none

/-- The first pass separates the labels from the instruction lines and numbers both. -/
def collect (number index : Nat) (labels : Labels) :
    List (List Char) → Labels × List Line
  | [] => (labels, [])
  | raw :: rest =>
      let text := Text.withoutComment raw
      if text.isEmpty then collect (number + 1) index labels rest
      else
        match labelOf? text with
        | some label => collect (number + 1) index ((label, index) :: labels) rest
        | none =>
            let (labels, lines) := collect (number + 1) (index + 1) labels rest
            (labels, ⟨number, text⟩ :: lines)

/-- A label stands for the distance from the current instruction. -/
def resolve (labels : Labels) (index : Nat) (label : List Char) :
    Except Fault (Mode × Int) :=
  match labels.lookup label with
  | some target => .ok (.relative, (target : Int) - index)
  | none => .error (.undefinedLabel (String.ofList label))

/-- A bare label is a relative operand, and a relative operand names a defined label or no literal.
-/
def readOperand (labels : Labels) (index : Nat) (operand : List Char) :
    Except Fault (Mode × Int) :=
  if isLabel operand then resolve labels index operand
  else
    let sigil := operand.headD ' '
    let text := operand.tail
    match Mode.ofSigil? sigil with
    | none => .error (.invalidSigil sigil)
    | some mode =>
        if mode == .relative && isLabel text &&
            ((labels.lookup text).isSome || (literal? text).isNone) then
          resolve labels index text
        else
          match literal? text with
          | some value => .ok (mode, value)
          | none => .error (.invalidLiteral (String.ofList text))

/-- The value of each operand is checked before the next operand is read. -/
def readOperands (width : Nat) (labels : Labels) (index : Nat) :
    List (List Char) → Except Fault (List (Mode × Word))
  | [] => .ok []
  | operand :: rest => do
      let (mode, value) ← readOperand labels index operand
      let word ← operandWord width value
      let more ← readOperands width labels index rest
      pure ((mode, word) :: more)

/-- The operands are read before the mnemonic is looked up, and missing ones are zeros. -/
def readInstruction (width : Nat) (labels : Labels) (index : Nat) (text : List Char) :
    Except Fault Instruction := do
  let (mnemonic, rest) := splitMnemonic text
  let mnemonic := String.ofList (Text.uppercase mnemonic)
  let operands ← splitOperands rest
  let operands ← readOperands width labels index operands
  let modes := operands.map (·.1)
  let words := operands.map (·.2)
  match Opcode.lookup mnemonic modes with
  | none => .error (.unknownInstruction (Opcode.keyOf mnemonic modes))
  | some opcode =>
      pure ⟨opcode, words.getD 0 (Word.zero width), words.getD 1 (Word.zero width)⟩

/-- The encoded bits of one instruction line. -/
def encodeLine (width : Nat) (labels : Labels) (index : Nat) (text : List Char) :
    Except Fault (List Bool) := do
  let instruction ← readInstruction width labels index text
  match instruction.encode width with
  | .ok bits => .ok bits
  | .error cause => .error (.ofEncoding cause)

/-- The result of an assembly is a program with all the errors found. -/
structure Result where
  program : Program
  errors : List Error
deriving DecidableEq

/-- The second pass encodes the lines in order. -/
def encodeLines (width : Nat) (labels : Labels) (index : Nat) :
    List Line → List Bool × List Error
  | [] => ([], [])
  | line :: rest =>
      let (more, errors) := encodeLines width labels (index + 1) rest
      match encodeLine width labels index line.text with
      | .ok bits => (bits ++ more, errors)
      | .error fault =>
          (List.replicate (width * wordsPerInstruction) false ++ more,
            ⟨line.number, fault⟩ :: errors)

def Result.isOk (result : Result) : Bool := result.errors.isEmpty

/-- The first error stands for all of them. -/
def Result.program? (result : Result) : Except Error Program :=
  match result.errors with
  | [] => .ok result.program
  | error :: _ => .error error

def assembleChars (source : List Char) (width : Nat) : Result :=
  let (labels, lines) := collect 1 0 [] (Text.lines source)
  let (bits, errors) := encodeLines width labels 0 lines
  ⟨⟨width, bits⟩, errors⟩

end Assembly

/-- Assembly turns source text into a program for a machine of the given width. -/
def assemble (source : String) (width : Nat) : Assembly.Result :=
  Assembly.assembleChars source.toList width

end WordMachine
