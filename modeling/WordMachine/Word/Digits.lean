/-
This file reads and writes words as binary and hexadecimal digits. Blanks and underscores may
separate digits anywhere.
-/

import WordMachine.Text.Lines
import WordMachine.Word.Signed

namespace WordMachine

/-- Reading digits fails at the first character that is no digit, or when a set bit lies above
the width. -/
inductive DigitError where
  | invalidDigit (digit : Char) (radix : Nat)
  | tooWide (width : Nat)
deriving DecidableEq

def DigitError.message : DigitError → String
  | .invalidDigit digit radix =>
      s!"invalid base-{radix} digit: '" ++ digit.toString ++ "'"
  | .tooWide width => s!"value does not fit in {width} bits"

namespace Word

def isSeparator (char : Char) : Bool := Text.isBlank char || char == '_'

/-- The value of a hexadecimal digit in either case. -/
def hexDigit? (char : Char) : Option Nat :=
  let code := char.toNat
  if '0'.toNat ≤ code ∧ code ≤ '9'.toNat then some (code - '0'.toNat)
  else if 'a'.toNat ≤ code ∧ code ≤ 'f'.toNat then some (code - 'a'.toNat + 10)
  else if 'A'.toNat ≤ code ∧ code ≤ 'F'.toNat then some (code - 'A'.toNat + 10)
  else none

def binaryDigit? : Char → Option Nat
  | '0' => some 0
  | '1' => some 1
  | _ => none

/-- Each digit of the radix `2 ^ size` gives `size` bits. -/
def digitBits (size : Nat) (digit? : Char → Option Nat) :
    List Char → Except DigitError (List Bool)
  | [] => .ok []
  | char :: rest =>
      if isSeparator char then digitBits size digit? rest
      else
        match digit? char with
        | none => .error (.invalidDigit char (valueCount size))
        | some digit => do
            let lower ← digitBits size digit? rest
            pure (bitsOfNat size digit ++ lower)

def ofBinary (text : List Char) : Except DigitError Word :=
  mk <$> digitBits 1 binaryDigit? text

/-- A hexadecimal text may open with `0x` or else with `$`. -/
def withoutHexMark : List Char → List Char
  | '0' :: 'x' :: rest => rest
  | '$' :: rest => rest
  | text => text

def ofHex (text : List Char) (width : Nat) : Except DigitError Word := do
  let bits ← digitBits 4 hexDigit? (withoutHexMark (Text.trim text))
  let word : Word := ⟨bits⟩
  if word.exceeds width then .error (.tooWide width) else pure (word.lowBits width)

/-- Four bits give one digit. -/
def hexDigits : List Bool → List Char
  | first :: second :: third :: fourth :: rest =>
      Nat.digitChar (value ⟨[first, second, third, fourth]⟩) :: hexDigits rest
  | _ => []

/-- The word is padded to a whole number of hexadecimal digits. -/
def hex (word : Word) : List Char :=
  hexDigits (word.padded ((word.width + 3) / 4 * 4)).bits

end Word

end WordMachine
