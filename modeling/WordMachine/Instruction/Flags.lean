/-
This file defines the status flags and the conditions that jumps place on them.
-/

import WordMachine.Word.Basic

namespace WordMachine

/-- The flags describe the last result. -/
structure Flags where
  /-- The raw result did not fit in the machine's width. -/
  carry : Bool := false
  /-- The cut result holds only zeros. -/
  zero : Bool := false
  /-- The top bit of the cut result is set. -/
  sign : Bool := false
deriving DecidableEq, Inhabited

namespace Flags

/-- The flags of a raw result, whose low bits are the result. -/
def ofRaw (raw : Word) (width : Nat) : Flags where
  carry := decide (width < raw.width)
  zero := (raw.lowBits width).isZero
  sign := (raw.lowBits width).msb

/-- A clear flag shows as a dash. -/
def text (flags : Flags) : String :=
  String.ofList [if flags.carry then 'C' else '-', if flags.zero then 'Z' else '-',
    if flags.sign then 'S' else '-']

/-- A flag is set when its letter occurs. -/
def ofLetters (letters : List Char) : Flags where
  carry := letters.contains 'C'
  zero := letters.contains 'Z'
  sign := letters.contains 'S'

/-- The debugging text names every flag. -/
def describe (flags : Flags) : String :=
  s!"Flags \x7b carry: {flags.carry}, zero: {flags.zero}, sign: {flags.sign} \x7d"

end Flags

/-- A condition decides from the flags whether a jump is taken. -/
inductive Condition where
  | always
  | carry
  | notCarry
  | zero
  | notZero
  | notSign
  | sign
deriving DecidableEq, Inhabited

namespace Condition

def all : List Condition := [.always, .carry, .notCarry, .zero, .notZero, .notSign, .sign]

def name : Condition → String
  | .always => "Always"
  | .carry => "Carry"
  | .notCarry => "NotCarry"
  | .zero => "Zero"
  | .notZero => "NotZero"
  | .notSign => "NotSign"
  | .sign => "Sign"

def ofName? (name : String) : Option Condition := all.find? (·.name == name)

def holds : Condition → Flags → Bool
  | .always, _ => true
  | .carry, flags => flags.carry
  | .notCarry, flags => !flags.carry
  | .zero, flags => flags.zero
  | .notZero, flags => !flags.zero
  | .notSign, flags => !flags.sign
  | .sign, flags => flags.sign

end Condition

end WordMachine
