/-
This file reads JSON values from text. Spellings are checked here and read where they are used.
-/

import WordMachine.Json.Value
import WordMachine.Word.Digits

namespace WordMachine.Json

def isBlank (char : Char) : Bool :=
  char == ' ' || char == '\n' || char == '\r' || char == '\t'

def skipBlanks (text : List Char) : List Char := text.dropWhile isBlank

def isHexDigit (char : Char) : Bool := (Word.hexDigit? char).isSome

def isDigit (char : Char) : Bool := '0' ≤ char && char ≤ '9'

/-- A string ends at the first quote that is not escaped. -/
def stringBody : List Char → Option (List Char × List Char)
  | [] => none
  | '"' :: rest => some ([], rest)
  | '\\' :: 'u' :: first :: second :: third :: fourth :: rest =>
      if [first, second, third, fourth].all isHexDigit then do
        let (spelling, rest) ← stringBody rest
        pure ('\\' :: 'u' :: first :: second :: third :: fourth :: spelling, rest)
      else none
  | '\\' :: letter :: rest =>
      if letter == '/' || (shortEscapes.map (·.2)).contains letter then do
        let (spelling, rest) ← stringBody rest
        pure ('\\' :: letter :: spelling, rest)
      else none
  | char :: rest =>
      if char == '\\' || char.toNat < 0x20 then none
      else do
        let (spelling, rest) ← stringBody rest
        pure (char :: spelling, rest)

/-- At least one digit is taken. -/
def digits (text : List Char) : Option (List Char × List Char) :=
  match text.takeWhile isDigit with
  | [] => none
  | taken => some (taken, text.dropWhile isDigit)

/-- A whole part of several digits does not open with a zero. -/
def wholePart : List Char → Option (List Char × List Char)
  | '0' :: rest => some (['0'], rest)
  | text => digits text

def fractionPart : List Char → Option (List Char × List Char)
  | '.' :: rest => do
      let (taken, rest) ← digits rest
      pure ('.' :: taken, rest)
  | text => some ([], text)

def exponentPart : List Char → Option (List Char × List Char)
  | mark :: rest =>
      if mark == 'e' || mark == 'E' then
        match rest with
        | sign :: after =>
            if sign == '+' || sign == '-' then do
              let (taken, rest) ← digits after
              pure (mark :: sign :: taken, rest)
            else do
              let (taken, rest) ← digits rest
              pure (mark :: taken, rest)
        | [] => none
      else some ([], mark :: rest)
  | [] => some ([], [])

def numberBody (text : List Char) : Option (List Char × List Char) := do
  let (sign, text) := match text with
    | '-' :: rest => (['-'], rest)
    | text => ([], text)
  let (whole, text) ← wholePart text
  let (fraction, text) ← fractionPart text
  let (exponent, text) ← exponentPart text
  pure (sign ++ whole ++ fraction ++ exponent, text)

mutual

/-- A value may follow blanks, and the bound counts nested and neighbouring values. -/
def value : Nat → List Char → Option (Json × List Char)
  | 0, _ => none
  | bound + 1, text =>
      match skipBlanks text with
      | 'n' :: 'u' :: 'l' :: 'l' :: rest => some (.null, rest)
      | 't' :: 'r' :: 'u' :: 'e' :: rest => some (.bool true, rest)
      | 'f' :: 'a' :: 'l' :: 's' :: 'e' :: rest => some (.bool false, rest)
      | '"' :: rest => do
          let (spelling, rest) ← stringBody rest
          pure (.string spelling, rest)
      | '[' :: rest =>
          match skipBlanks rest with
          | ']' :: rest => some (.array [], rest)
          | rest => do
              let (items, rest) ← items bound rest
              pure (.array items, rest)
      | '\x7b' :: rest =>
          match skipBlanks rest with
          | '\x7d' :: rest => some (.object [], rest)
          | rest => do
              let (members, rest) ← members bound rest
              pure (.object members, rest)
      | text => do
          let (spelling, rest) ← numberBody text
          pure (.number spelling, rest)

/-- Every comma is followed by a further item. -/
def items : Nat → List Char → Option (List Json × List Char)
  | 0, _ => none
  | bound + 1, text => do
      let (item, rest) ← value bound text
      match skipBlanks rest with
      | ',' :: rest => do
          let (more, rest) ← items bound rest
          pure (item :: more, rest)
      | ']' :: rest => pure ([item], rest)
      | _ => none

def members : Nat → List Char → Option (List (List Char × Json) × List Char)
  | 0, _ => none
  | bound + 1, text =>
      match skipBlanks text with
      | '"' :: rest => do
          let (key, rest) ← stringBody rest
          match skipBlanks rest with
          | ':' :: rest => do
              let (item, rest) ← value bound rest
              match skipBlanks rest with
              | ',' :: rest => do
                  let (more, rest) ← members bound rest
                  pure ((key, item) :: more, rest)
              | '\x7d' :: rest => pure ([(key, item)], rest)
              | _ => none
          | _ => none
      | _ => none

end

/-- The whole text must be one value with blanks around it, and its length bounds the values in it.
-/
def parse (text : List Char) : Option Json := do
  let (value, rest) ← value (text.length + 1) text
  if (skipBlanks rest).isEmpty then some value else none

/-- The four hexadecimal digits of an escape. -/
def unit (first second third fourth : Char) : Nat :=
  [first, second, third, fourth].foldl
    (fun total char => 16 * total + (Word.hexDigit? char).getD 0) 0

def isHighHalf (unit : Nat) : Bool := 0xD800 ≤ unit && unit < 0xDC00

def isLowHalf (unit : Nat) : Bool := 0xDC00 ≤ unit && unit < 0xE000

/-- Two escapes in a row can be the halves of one character, but a half alone has no meaning. -/
def unspell : List Char → Option (List Char)
  | [] => some []
  | '\\' :: 'u' :: a :: b :: c :: d :: '\\' :: 'u' :: e :: f :: g :: h :: rest =>
      let high := unit a b c d
      let low := unit e f g h
      if isHighHalf high then
        if isLowHalf low then
          (Char.ofNat (0x10000 + (high - 0xD800) * 0x400 + (low - 0xDC00)) :: ·) <$> unspell rest
        else none
      else if isLowHalf high then none
      else (Char.ofNat high :: ·) <$> unspell ('\\' :: 'u' :: e :: f :: g :: h :: rest)
  | '\\' :: 'u' :: a :: b :: c :: d :: rest =>
      let code := unit a b c d
      if isHighHalf code || isLowHalf code then none
      else (Char.ofNat code :: ·) <$> unspell rest
  | '\\' :: letter :: rest =>
      let char := ((shortEscapes.find? (·.2 == letter)).map (·.1)).getD letter
      (char :: ·) <$> unspell rest
  | char :: rest => (char :: ·) <$> unspell rest

/-- A number with a fraction, an exponent or a minus sign before zero is not a whole number. -/
def wholeNumber? (spelling : List Char) : Option Int :=
  match numberBody spelling with
  | some (_, []) =>
      match spelling with
      | '-' :: magnitude =>
          if magnitude == ['0'] || !magnitude.all isDigit then none
          else some (-(Nat.ofDigitChars 10 magnitude 0 : Int))
      | magnitude =>
          if magnitude.all isDigit then some (Nat.ofDigitChars 10 magnitude 0) else none
  | _ => none

end WordMachine.Json
