/-
This file compares words as unsigned numbers. Leading zeros play no part.
-/

import WordMachine.Word.Basic

namespace WordMachine.Word

/-- The first differing bit decides. -/
def compareBits : List Bool → List Bool → Ordering
  | first :: firsts, second :: seconds =>
      (compare first second).then (compareBits firsts seconds)
  | _, _ => .eq

def order (first second : Word) : Ordering :=
  let width := max first.width second.width
  compareBits (first.padded width).bits (second.padded width).bits

def lessThan (first second : Word) : Bool := (first.order second).isLT

def lessOrEqual (first second : Word) : Bool := (first.order second).isLE

def greaterOrEqual (first second : Word) : Bool := !first.lessThan second

def greaterThan (first second : Word) : Bool := !first.lessOrEqual second

def equalValue (first second : Word) : Bool := (first.order second).isEq

end WordMachine.Word
