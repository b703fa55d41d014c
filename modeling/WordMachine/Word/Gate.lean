/-
This file defines the logic gates on single bits and, bit by bit, on words.
-/

import WordMachine.Word.Basic

namespace WordMachine

/-- A gate has two inputs and one output. -/
inductive Gate where
  | and
  | or
  | nand
  | nor
  | xor
deriving DecidableEq

namespace Gate

def onBits : Gate → Bool → Bool → Bool
  | .and, first, second => first && second
  | .or, first, second => first || second
  | .nand, first, second => !(first && second)
  | .nor, first, second => !(first || second)
  | .xor, first, second => (first || second) && !(first && second)

/-- The gate joins the bits of both words after the shorter word is padded to the longer. -/
def onWords (gate : Gate) (first second : Word) : Word :=
  let width := max first.width second.width
  ⟨List.zipWith gate.onBits (first.padded width).bits (second.padded width).bits⟩

end Gate

/-- Inversion flips every bit and keeps the width. -/
def Word.inverted (word : Word) : Word := ⟨word.bits.map (!·)⟩

@[simp] theorem Word.width_inverted (word : Word) : word.inverted.width = word.width := by
  simp [inverted, width]

end WordMachine
