/-
This file reads and writes program images. An image has one line of three binary words for each
instruction. Comments and empty lines play no part, and the first word fixes the width of all.
-/

import WordMachine.Program.Listing
import WordMachine.Text.Lines
import WordMachine.Text.Quoted

namespace WordMachine

/-- A line of an image is at fault in one of these ways. -/
inductive ImageFault where
  | wordCount (found : Nat)
  | wordWidth (expected found : Nat)
  | invalidBit (char : Char)
deriving DecidableEq

def ImageFault.message : ImageFault → String
  | .wordCount found => s!"expected {wordsPerInstruction} bytes, found {found}"
  | .wordWidth expected found => s!"expected {expected} bits, found {found}"
  | .invalidBit char => s!"invalid bit {Text.quoteChar char}"

inductive ImageError where
  /-- The file system refused, with a reason of its own. -/
  | io (reason : String)
  | parse (line : Nat) (fault : ImageFault)
  | empty
deriving DecidableEq

def ImageError.message : ImageError → String
  | .io reason => s!"I/O error: {reason}"
  | .parse line fault => s!"parse error on line {line}: {fault.message}"
  | .empty => "image contains no instructions"

namespace Image

/-- The bits of a word are read from the left up to the first invalid one. -/
def readBits : List Char → Except ImageFault (List Bool)
  | [] => .ok []
  | '0' :: rest => (false :: ·) <$> readBits rest
  | '1' :: rest => (true :: ·) <$> readBits rest
  | char :: _ => .error (.invalidBit char)

/-- The first word of an image sets the width, which is compared before the bits are read. -/
def readWords (width : Option Nat) :
    List (List Char) → Except ImageFault (Option Nat × List Bool)
  | [] => .ok (width, [])
  | word :: rest => do
      let found := Text.byteCount word
      let expected := width.getD found
      if found ≠ expected then
        .error (.wordWidth expected found)
      else do
        let bits ← readBits word
        let (width, more) ← readWords (some expected) rest
        pure (width, bits ++ more)

def readLine (width : Option Nat) (content : List Char) :
    Except ImageFault (Option Nat × List Bool) :=
  let words := Text.words content
  if words.length ≠ wordsPerInstruction then .error (.wordCount words.length)
  else readWords width words

/-- Lines count from one, and the line that fails first is reported. -/
def readLines (width : Option Nat) (number : Nat) :
    List (List Char) → Except ImageError (Option Nat × List Bool)
  | [] => .ok (width, [])
  | line :: rest =>
      let content := Text.withoutComment line
      if content.isEmpty then readLines width (number + 1) rest
      else
        match readLine width content with
        | .error fault => .error (.parse number fault)
        | .ok (width, bits) => do
            let (width, more) ← readLines width (number + 1) rest
            pure (width, bits ++ more)

/-- An image without any word has no width and is refused. -/
def parse (text : List Char) : Except ImageError Program := do
  let (width, bits) ← readLines none 1 (Text.lines text)
  match width with
  | none => .error .empty
  | some width => pure ⟨width, bits⟩

def header (program : Program) : List Char :=
  s!"; {program.width}-bit program image\n; {program.size} instructions\n\n".toList

/-- The address of an instruction follows its words as a comment. -/
def line (address : Nat) (words : List Word) : List Char :=
  [' '].intercalate (words.map Word.chars) ++ [' ', ';', ' '] ++ Text.address address ++ ['\n']

def render (program : Program) : List Char :=
  header program ++
    (Program.addressed (chunks wordsPerInstruction program.words)).flatMap
      fun (address, words) => line address words

def text (program : Program) : String := String.ofList (render program)

def ofText (text : String) : Except ImageError Program := parse text.toList

end Image

end WordMachine
