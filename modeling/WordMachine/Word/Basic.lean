/-
This file defines words, the bit sequences that the machine stores and computes with.
The lemmas give the width of a word after every operation.
-/

namespace WordMachine

/-- A width tells this many values apart. -/
def valueCount (width : Nat) : Nat := 1 <<< width

/-- A word lists its bits with the most significant bit first. -/
structure Word where
  bits : List Bool
deriving DecidableEq, Inhabited

namespace Word

/-- The width counts the bits of a word. -/
def width (word : Word) : Nat := word.bits.length

/-- Each further bit doubles the value of the bits before it. -/
def value (word : Word) : Nat :=
  word.bits.foldl (fun total bit => 2 * total + bit.toNat) 0

/-- The unsigned reading of a word uses its low 64 bits. -/
def unsigned (word : Word) : Nat := word.value % valueCount 64

/-- A bit enters a register on the right, and the top bit is lost on the left. -/
def shiftIn (register : UInt64) (bit : Bool) : UInt64 := register <<< 1 ||| bit.toUInt64

/-- A register takes in the low 64 bits of a word. -/
def shiftedIn (word : Word) : UInt64 := (word.bits.drop (word.width - 64)).foldl shiftIn 0

def zero (width : Nat) : Word := ⟨List.replicate width false⟩

/-- The narrowest word with value one. -/
def one : Word := ⟨[true]⟩

/-- The low bits of a number, with the most significant bit first. -/
def bitsOfNat : (width : Nat) → (number : Nat) → List Bool
  | 0, _ => []
  | width + 1, number => number.testBit width :: bitsOfNat width number

/-- A number loses the bits that lie above the width. -/
def ofNat (width number : Nat) : Word := ⟨bitsOfNat width number⟩

/-- The bits of a register from the place below the width down, with zeros beyond the register. -/
def ofRegister (width : Nat) (register : UInt64) : Word :=
  ⟨(List.range width).reverse.map fun place =>
    decide (place < 64) && (register >>> place.toUInt64) &&& 1 == 1⟩

/-- The top bit gives the sign, and a word without bits has none. -/
def msb (word : Word) : Bool := word.bits.headD false

def isZero (word : Word) : Bool := word.bits.all (!·)

/-- A short word grows to the width by zeros on its left. -/
def padded (word : Word) (width : Nat) : Word :=
  ⟨List.replicate (width - word.width) false ++ word.bits⟩

/-- The low bits of a word form a word of exactly the given width. -/
def lowBits (word : Word) (width : Nat) : Word :=
  ⟨(word.padded width).bits.drop (word.width - width)⟩

/-- A word exceeds a width when a bit above its low bits is set. -/
def exceeds (word : Word) (width : Nat) : Bool :=
  (word.bits.take (word.width - width)).any id

/-- Positions count from the most significant end. -/
def bit? (word : Word) (position : Nat) : Option Bool := word.bits[position]?

def bitChar (bit : Bool) : Char := if bit then '1' else '0'

/-- The text of a word spells one digit for each bit. -/
def chars (word : Word) : List Char := word.bits.map bitChar

def text (word : Word) : String := String.ofList word.chars

@[simp] theorem width_zero (width : Nat) : (zero width).width = width := by
  simp [zero, Word.width]

@[simp] theorem width_one : one.width = 1 := rfl

@[simp] theorem length_bitsOfNat (width number : Nat) :
    (bitsOfNat width number).length = width := by
  induction width with
  | zero => rfl
  | succ width ih => simp [bitsOfNat, ih]

@[simp] theorem width_ofNat (width number : Nat) : (ofNat width number).width = width := by
  simp [ofNat, Word.width]

@[simp] theorem width_padded (word : Word) (width : Nat) :
    (word.padded width).width = max width word.width := by
  simp [padded, Word.width]
  omega

theorem padded_of_le (word : Word) {width : Nat} (long : width ≤ word.width) :
    word.padded width = word := by
  simp [padded, Nat.sub_eq_zero_of_le long]

@[simp] theorem width_lowBits (word : Word) (width : Nat) :
    (word.lowBits width).width = width := by
  have padding := width_padded word width
  simp only [Word.width] at padding
  simp only [lowBits, Word.width, List.length_drop, padding]
  omega

end Word

end WordMachine
