/-
This file defines JSON values and writes them as text. Numbers and texts keep their spelling, so
that the use of a value decides how its spelling is read.
-/

import WordMachine.Text.Quoted
import WordMachine.Text.Decimal

namespace WordMachine

inductive Json where
  | null
  | bool (value : Bool)
  | number (spelling : List Char)
  /-- The spelling is what stands between the quotes. -/
  | string (spelling : List Char)
  | array (items : List Json)
  /-- Members stay in their order, and a key may occur twice. -/
  | object (members : List (List Char × Json))

namespace Json

/-- The characters with a short escape, each beside the letter of its escape. -/
def shortEscapes : List (Char × Char) :=
  [('"', '"'), ('\\', '\\'), ('\x08', 'b'), ('\x0c', 'f'), ('\n', 'n'), ('\r', 'r'), ('\t', 't')]

/-- Only the quote, the backslash and the controls below the space are escaped. -/
def spellChar (char : Char) : List Char :=
  match shortEscapes.lookup char with
  | some letter => ['\\', letter]
  | none =>
      if char.toNat < 0x20 then
        ['\\', 'u'] ++ Text.padLeft '0' 4 (Text.hexadecimal char.toNat)
      else [char]

def spell (text : List Char) : List Char := text.flatMap spellChar

def ofText (text : String) : Json := .string (spell text.toList)

def ofNat (number : Nat) : Json := .number (Text.decimal number)

def ofInt (number : Int) : Json := .number (Text.integer number)

/-- The keys of a record are plain names. -/
def record (fields : List (String × Json)) : Json :=
  .object (fields.map fun (name, value) => (spell name.toList, value))

def quoted (spelling : List Char) : List Char := ['"'] ++ spelling ++ ['"']

mutual

/-- The compact form has no blanks. -/
def compact : Json → List Char
  | .null => "null".toList
  | .bool value => (toString value).toList
  | .number spelling => spelling
  | .string spelling => quoted spelling
  | .array items => ['['] ++ compactItems items ++ [']']
  | .object members => ['\x7b'] ++ compactMembers members ++ ['\x7d']

def compactItems : List Json → List Char
  | [] => []
  | [item] => item.compact
  | item :: rest => item.compact ++ [','] ++ compactItems rest

def compactMembers : List (List Char × Json) → List Char
  | [] => []
  | [(key, value)] => quoted key ++ [':'] ++ value.compact
  | (key, value) :: rest => quoted key ++ [':'] ++ value.compact ++ [','] ++ compactMembers rest

end

/-- Every level is indented by two blanks. -/
def newLine (depth : Nat) : List Char := '\n' :: List.replicate (2 * depth) ' '

mutual

/-- The pretty form puts every item of a collection on a line of its own. -/
def pretty (depth : Nat) : Json → List Char
  | .array [] => ['[', ']']
  | .array (item :: rest) =>
      ['['] ++ prettyItems (depth + 1) (item :: rest) ++ newLine depth ++ [']']
  | .object [] => ['\x7b', '\x7d']
  | .object (member :: rest) =>
      ['\x7b'] ++ prettyMembers (depth + 1) (member :: rest) ++ newLine depth ++ ['\x7d']
  | .null => "null".toList
  | .bool value => (toString value).toList
  | .number spelling => spelling
  | .string spelling => quoted spelling

def prettyItems (depth : Nat) : List Json → List Char
  | [] => []
  | [item] => newLine depth ++ pretty depth item
  | item :: rest => newLine depth ++ pretty depth item ++ [','] ++ prettyItems depth rest

def prettyMembers (depth : Nat) : List (List Char × Json) → List Char
  | [] => []
  | [(key, value)] => newLine depth ++ quoted key ++ [':', ' '] ++ pretty depth value
  | (key, value) :: rest =>
      newLine depth ++ quoted key ++ [':', ' '] ++ pretty depth value ++ [','] ++
        prettyMembers depth rest

end

end Json

end WordMachine
