/-
This file writes numbers in decimal, alone or padded to a column.
-/

namespace WordMachine.Text

def decimal (number : Nat) : List Char := Nat.toDigits 10 number

/-- A short text grows to the width by fillers on its left. -/
def padLeft (filler : Char) (width : Nat) (text : List Char) : List Char :=
  List.replicate (width - text.length) filler ++ text

def padRight (filler : Char) (width : Nat) (text : List Char) : List Char :=
  text ++ List.replicate (width - text.length) filler

/-- An address shows at least three digits. -/
def address (number : Nat) : List Char := padLeft '0' 3 (decimal number)

/-- Only the minus sign of a negative number is written. -/
def integer : Int → List Char
  | .ofNat number => decimal number
  | .negSucc number => '-' :: decimal (number + 1)

end WordMachine.Text
