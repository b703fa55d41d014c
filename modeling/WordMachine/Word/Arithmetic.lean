/-
This file defines the arithmetic of words. No result loses a bit: a carry out of the top
lengthens a sum by one bit, and products grow as wide as they need.
-/

import WordMachine.Word.Gate

namespace WordMachine

/-- One column of an addition gives the sum bit and the carry out. -/
def fullAdder (first second carry : Bool) : Bool × Bool :=
  let differ := Gate.xor.onBits first second
  (Gate.xor.onBits differ carry, (differ && carry) || (first && second))

/-- The carry ripples from the last column up to the first, and out of it. -/
def rippleSum : List Bool → List Bool → Bool × List Bool
  | first :: firsts, second :: seconds =>
      let (carry, sums) := rippleSum firsts seconds
      let (sum, carryOut) := fullAdder first second carry
      (carryOut, sum :: sums)
  | _, _ => (false, [])

namespace Word

def add (first second : Word) : Word :=
  let width := max first.width second.width
  let (carry, sums) := rippleSum (first.padded width).bits (second.padded width).bits
  ⟨if carry then true :: sums else sums⟩

def increment (word : Word) : Word := word.add one

def complement (word : Word) (width : Nat) : Word := (word.padded width).inverted

/-- Negation adds one to the complement, so that only the negation of zero outgrows the width. -/
def negate (word : Word) (width : Nat) : Word := (word.complement width).increment

/-- Subtraction adds the negation, so a carry out of the width means that nothing was borrowed. -/
def subtract (first second : Word) (width : Nat) : Word := first.add (second.negate width)

def shiftLeft (word : Word) : Word := ⟨word.bits ++ [false]⟩

/-- The lowest bit falls off and a zero enters on the left. -/
def shiftRight (word : Word) : Word := ⟨false :: word.bits.dropLast⟩

def mask (word mask : Word) : Word := Gate.and.onWords word mask

/-- The multiplicand moves left by the number of multiplier bits below the current one. -/
def shiftedSum (multiplicand : List Bool) : List Bool → Word
  | [] => zero 1
  | bit :: lower =>
      let sum := shiftedSum multiplicand lower
      if bit then sum.add ⟨multiplicand ++ List.replicate lower.length false⟩ else sum

def multiply (first second : Word) : Word :=
  let width := max first.width second.width
  shiftedSum (first.padded width).bits (second.padded width).bits

theorem rippleSum_length (first second : List Bool) (sameLength : first.length = second.length) :
    (rippleSum first second).2.length = first.length := by
  induction first generalizing second with
  | nil => cases second <;> rfl
  | cons left lefts ih =>
      cases second with
      | nil => simp at sameLength
      | cons right rights =>
          simp only [List.length_cons, Nat.add_right_cancel_iff] at sameLength
          simp [rippleSum, ih rights sameLength]

end Word

end WordMachine
