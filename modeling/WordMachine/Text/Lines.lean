/-
This file cuts texts into lines, pieces and words. A blank is any character with the Unicode
property White_Space.
-/

namespace WordMachine.Text

def isBlank (char : Char) : Bool :=
  let code := char.toNat
  (0x9 ≤ code && code ≤ 0xD) || code == 0x20 || code == 0x85 || code == 0xA0 ||
    code == 0x1680 || (0x2000 ≤ code && code ≤ 0x200A) || code == 0x2028 || code == 0x2029 ||
    code == 0x202F || code == 0x205F || code == 0x3000

/-- Trimming removes the blanks at both ends. -/
def trim (text : List Char) : List Char :=
  ((text.dropWhile isBlank).reverse.dropWhile isBlank).reverse

/-- A line ends at a line feed with or without a carriage return before it. -/
def lines : List Char → List (List Char)
  | [] => []
  | '\r' :: '\n' :: rest => [] :: lines rest
  | '\n' :: rest => [] :: lines rest
  | char :: rest =>
      match lines rest with
      | [] => [[char]]
      | line :: more => (char :: line) :: more

/-- The pieces of a text stand between its breaks, so there is one piece more than breaks. -/
def pieces (isBreak : Char → Bool) : List Char → List (List Char)
  | [] => [[]]
  | char :: rest =>
      if isBreak char then [] :: pieces isBreak rest
      else
        match pieces isBreak rest with
        | [] => [[char]]
        | piece :: more => (char :: piece) :: more

/-- The words of a text are its longest runs without blanks. -/
def words (text : List Char) : List (List Char) :=
  (pieces isBlank text).filter (!·.isEmpty)

/-- A comment starts at the first semicolon of a line. -/
def withoutComment (line : List Char) : List Char :=
  trim (line.takeWhile (· != ';'))

/-- The size of a text counts the bytes of its UTF-8 form. -/
def byteCount (text : List Char) : Nat :=
  text.foldl (fun total char => total + char.utf8Size) 0

end WordMachine.Text
