/-
This file quotes characters and texts inside messages.
-/

import WordMachine.Text.Unprintable

namespace WordMachine.Text

/-- Hexadecimal numbers use lower case digits. -/
def hexadecimal (number : Nat) : List Char := Nat.toDigits 16 number

/-- The quoted form of a character escapes the enclosing quote and what cannot be printed. -/
def escapeChar (quote char : Char) : List Char :=
  if char == quote || char == '\\' then ['\\', char]
  else if char == '\n' then ['\\', 'n']
  else if char == '\r' then ['\\', 'r']
  else if char == '\t' then ['\\', 't']
  else if char == '\x00' then ['\\', '0']
  else if Unprintable.contains char then
    ['\\', 'u', '\x7b'] ++ hexadecimal char.toNat ++ ['\x7d']
  else [char]

def quoteChar (char : Char) : String :=
  String.ofList (['\''] ++ escapeChar '\'' char ++ ['\''])

def quote (text : String) : String :=
  String.ofList (['"'] ++ text.toList.flatMap (escapeChar '"') ++ ['"'])

end WordMachine.Text
