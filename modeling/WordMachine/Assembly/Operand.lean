/-
This file reads the operands of a line of assembly: labels, literals, and the compact form that
collects the sigils of all operands in front of the first.
-/

import WordMachine.Assembly.Error
import WordMachine.Text.Lines
import WordMachine.Word.Digits

namespace WordMachine.Assembly

def isLetter (char : Char) : Bool :=
  ('a' ≤ char && char ≤ 'z') || ('A' ≤ char && char ≤ 'Z')

def isDigit (char : Char) : Bool := '0' ≤ char && char ≤ '9'

/-- A label opens with a letter or a period and goes on with letters, digits and underscores. -/
def isLabel : List Char → Bool
  | [] => false
  | first :: rest =>
      (first == '.' || isLetter first) &&
        rest.all fun char => isLetter char || isDigit char || char == '_'

/-- The value of digits in a radix, of which there must be one at least. -/
def magnitude? (radix : Nat) (digits : List Char) : Option Nat :=
  if digits.isEmpty then none
  else
    digits.foldl (fun total? char => do
      let total ← total?
      let digit ← Word.hexDigit? char
      if digit < radix then some (radix * total + digit) else none) (some 0)

/-- A literal is decimal, hexadecimal after a dollar sign or binary after b, with a magnitude of 64
bits. -/
def literal? (text : List Char) : Option Int := do
  let (negative, digits) := match text with
    | '-' :: rest => (true, rest)
    | text => (false, text)
  let magnitude ← match digits with
    | '$' :: hex => magnitude? 16 hex
    | 'b' :: binary => magnitude? 2 binary
    | decimal => magnitude? 10 decimal
  if magnitude < valueCount 64 then some (if negative then -magnitude else magnitude) else none

def isSigil (char : Char) : Bool := (Mode.ofSigil? char).isSome

/-- The mnemonic ends before the first blank or sigil. -/
def splitMnemonic (text : List Char) : List Char × List Char :=
  let inside (char : Char) := !(Text.isBlank char || isSigil char)
  (text.takeWhile inside, text.dropWhile inside)

/-- Commas separate operands, and empty ones are dropped. -/
def listOperands (text : List Char) : List (List Char) :=
  ((Text.pieces (· == ',') text).map Text.trim).filter (!·.isEmpty)

/-- Two or more sigils in front of the first operand are spread over the operands in order. -/
def splitOperands (text : List Char) : Except Fault (List (List Char)) :=
  match listOperands text with
  | [] => .ok []
  | first :: rest =>
      let sigils := first.takeWhile isSigil
      if sigils.length ≤ 1 then .ok (first :: rest)
      else if sigils.length ≠ rest.length + 1 then
        .error (.sigilCount sigils.length (rest.length + 1))
      else .ok (List.zipWith List.cons sigils (first.dropWhile isSigil :: rest))

/-- A value fits when it is a signed or an unsigned number of the width. -/
def operandWord (width : Nat) (value : Int) : Except Fault Word :=
  -- the bounds are numbers of 128 bits, so they recur when a width grows by 128
  if value < -valueCount ((width - 1) % 128) ∨ valueCount (width % 128) ≤ value then
    .error (.operandOutOfRange value width)
  else if value < 0 then .ok (Word.ofInt width (value.bmod (valueCount 64)))
  else .ok (Word.ofNat width value.toNat)

end WordMachine.Assembly
