/-
This file reads command line arguments from the first to the last. Options may stand before,
between and behind the other arguments, and an option occurs at most once. The first argument that
makes no sense decides, unless help was asked for before it.
-/

import WordMachine.Word.Basic

namespace WordMachine.CommandLine

/-- A switch has no value. -/
inductive Kind where
  | switch
  | number
  | path
deriving DecidableEq

/-- An option has a long name and may have a letter. -/
structure Choice where
  name : String
  letter : Option Char := none
  kind : Kind
deriving DecidableEq

/-- A command takes options and a limited number of other arguments. -/
structure Usage where
  choices : List Choice
  operandLimit : Nat
deriving DecidableEq

/-- Reading stops when the arguments make no sense or when help is asked for. -/
inductive Stop where
  | usage
  | help
deriving DecidableEq

/-- What an option was set to. -/
inductive Setting where
  | on
  | number (value : Nat)
  | path (value : String)
deriving DecidableEq

/-- The options found, each with its setting, and the other arguments in order. -/
structure Arguments where
  options : List (String × Setting)
  operands : List String
deriving DecidableEq

/-- A number is written in decimal with an optional plus sign and stays below `2 ^ 64`. -/
def number? (text : String) : Option Nat :=
  let digits := match text.toList with
    | '+' :: digits => digits
    | digits => digits
  if digits.isEmpty || !digits.all (fun char => '0' ≤ char && char ≤ '9') then none
  else
    let number := Nat.ofDigitChars 10 digits 0
    if number < valueCount 64 then some number else none

/-- A path is never empty. -/
def path? (text : String) : Option String := if text = "" then none else some text

/-- A switch refuses every value. -/
def Kind.setting? (kind : Kind) (value : String) : Option Setting :=
  match kind with
  | .switch => none
  | .number => (number? value).map .number
  | .path => (path? value).map .path

namespace Arguments

def empty : Arguments := ⟨[], []⟩

def withOperand (usage : Usage) (arguments : Arguments) (text : String) : Except Stop Arguments :=
  if arguments.operands.length < usage.operandLimit then
    match path? text with
    | some operand => .ok { arguments with operands := arguments.operands ++ [operand] }
    | none => .error .usage
  else .error .usage

def withSetting (arguments : Arguments) (name : String) (setting : Setting) :
    Except Stop Arguments :=
  if arguments.options.any (·.1 == name) then .error .usage
  else .ok { arguments with options := (name, setting) :: arguments.options }

def withValue (arguments : Arguments) (choice : Choice) (value : String) : Except Stop Arguments :=
  match choice.kind.setting? value with
  | some setting => arguments.withSetting choice.name setting
  | none => .error .usage

/-- The arguments read so far, and the option whose value comes next. -/
structure Reading where
  arguments : Arguments
  waiting : Option Choice
deriving DecidableEq

/-- What stands behind an equals sign is the value of the option. -/
def readLong (usage : Usage) (arguments : Arguments) (text : List Char) : Except Stop Reading :=
  let name := String.ofList (text.takeWhile (· != '='))
  let value? := (text.dropWhile (· != '=')).tail?.map String.ofList
  if name = "help" then .error (if value?.isSome then .usage else .help)
  else
    match usage.choices.find? (·.name == name) with
    | none => .error .usage
    | some choice =>
        match value? with
        | some value => do
            let arguments ← arguments.withValue choice value
            pure ⟨arguments, none⟩
        | none =>
            if choice.kind = .switch then do
              let arguments ← arguments.withSetting choice.name .on
              pure ⟨arguments, none⟩
            else .ok ⟨arguments, some choice⟩

/-- Several switches may share a dash, and what follows another option is its value. -/
def readLetters (usage : Usage) (arguments : Arguments) : List Char → Except Stop Reading
  | [] => .ok ⟨arguments, none⟩
  | letter :: rest =>
      if letter = 'h' then .error .help
      else
        match usage.choices.find? (·.letter == some letter) with
        | none => .error .usage
        | some choice =>
            if choice.kind = .switch then do
              let arguments ← arguments.withSetting choice.name .on
              readLetters usage arguments rest
            else
              match rest with
              | [] => .ok ⟨arguments, some choice⟩
              | first :: more => do
                  let value := if first = '=' then more else rest
                  let arguments ← arguments.withValue choice (String.ofList value)
                  pure ⟨arguments, none⟩

/-- A dash alone is an ordinary argument. -/
def readText (usage : Usage) (arguments : Arguments) (text : String) : Except Stop Reading :=
  match text.toList with
  | '-' :: '-' :: name => readLong usage arguments name
  | '-' :: letter :: letters => readLetters usage arguments (letter :: letters)
  | _ => do
      let arguments ← arguments.withOperand usage text
      pure ⟨arguments, none⟩

def looksLikeOption (text : String) : Bool :=
  match text.toList with
  | '-' :: _ :: _ => true
  | _ => false

/-- Two dashes alone turn all further arguments into ordinary ones. -/
def readFrom (usage : Usage) (reading : Reading) : List String → Except Stop Arguments
  | [] => if reading.waiting.isSome then .error .usage else .ok reading.arguments
  | text :: rest =>
      match reading.waiting with
      | some choice =>
          if looksLikeOption text then .error .usage
          else do
            let arguments ← reading.arguments.withValue choice text
            readFrom usage ⟨arguments, none⟩ rest
      | none =>
          if text = "--" then rest.foldlM (withOperand usage) reading.arguments
          else do
            let reading ← readText usage reading.arguments text
            readFrom usage reading rest

def read (usage : Usage) (texts : List String) : Except Stop Arguments :=
  readFrom usage ⟨empty, none⟩ texts

def setting? (arguments : Arguments) (name : String) : Option Setting :=
  arguments.options.lookup name

def has (arguments : Arguments) (name : String) : Bool := (arguments.setting? name).isSome

def number? (arguments : Arguments) (name : String) : Option Nat :=
  match arguments.setting? name with
  | some (.number value) => some value
  | _ => none

def path? (arguments : Arguments) (name : String) : Option String :=
  match arguments.setting? name with
  | some (.path value) => some value
  | _ => none

def operand (arguments : Arguments) : Except Stop String :=
  match arguments.operands with
  | operand :: _ => .ok operand
  | [] => .error .usage

end Arguments

end WordMachine.CommandLine
