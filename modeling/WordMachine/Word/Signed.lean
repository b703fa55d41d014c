/-
This file reads and writes words as signed numbers in two's complement.
-/

import WordMachine.Word.Arithmetic

namespace WordMachine

/-- Zero still takes one bit. -/
def bitCount (number : Nat) : Nat := number.log2 + 1

namespace Word

/-- The top bit of the low 64 bits of a word weighs minus its place value. -/
def signed (word : Word) : Int :=
  let low := if 64 < word.width then word.lowBits 64 else word
  if low.msb then (low.value : Int) - valueCount low.width else low.value

/-- At most the bits above the width fall off, and only while they are zeros. -/
def withoutLeadingZeros (word : Word) (width : Nat) : Word :=
  let excess := word.bits.take (word.width - width)
  ⟨word.bits.drop (excess.takeWhile (!·)).length⟩

/-- A negative number is written as the negation of its magnitude, which may need more bits than the
width. -/
def ofInt (width : Nat) (number : Int) : Word :=
  let magnitude := (ofNat (bitCount number.natAbs) number.natAbs).padded width
  if 0 ≤ number then magnitude
  else (magnitude.inverted.increment.lowBits magnitude.width).withoutLeadingZeros width

/-- A word is shown with both readings. -/
def readings (word : Word) : String := s!"{word.text} = {word.unsigned} ({word.signed})"

/-- The debugging text shows the bits and their signed reading. -/
def describe (word : Word) : String := s!"Byte(0b{word.text} = {word.signed})"

end Word

end WordMachine
