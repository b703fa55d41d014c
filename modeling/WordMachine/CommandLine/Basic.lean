/-
This file defines the commands of the program and reads them from the command line.
-/

import WordMachine.CommandLine.Arguments

namespace WordMachine.CommandLine

/-- The machine's shape comes from numbers or from a file. -/
structure Shape where
  bits : Nat
  registers : Nat
  ram : Nat
  file : Option String
deriving DecidableEq

structure RunOptions where
  program : String
  start : Nat
  maxSteps : Option Nat
  json : Bool
  shape : Shape
deriving DecidableEq

inductive Command where
  | run (options : RunOptions)
  | debug (program : String) (start : Nat) (shape : Shape)
  | asm (source : String) (output : Option String) (bits : Nat)
  | disasm (image : String)
  | test
  | version
  | help
  | demo
deriving DecidableEq

namespace Command

def shapeChoices : List Choice :=
  [{ name := "bits", kind := .number }, { name := "registers", kind := .number },
    { name := "ram", kind := .number }, { name := "arch", kind := .path }]

def startChoice : Choice := { name := "start", letter := some 's', kind := .number }

/-- Tracing writes to the log only. -/
def runUsage : Usage :=
  { choices := [startChoice, { name := "max-steps", letter := some 'm', kind := .number },
      { name := "trace", letter := some 't', kind := .switch },
      { name := "json", kind := .switch }] ++ shapeChoices,
    operandLimit := 1 }

def debugUsage : Usage := { choices := startChoice :: shapeChoices, operandLimit := 1 }

def asmUsage : Usage :=
  { choices := [{ name := "output", letter := some 'o', kind := .path },
      { name := "bits", kind := .number }],
    operandLimit := 1 }

def disasmUsage : Usage := { choices := [], operandLimit := 1 }

def testUsage : Usage := { choices := [], operandLimit := 0 }

def shape (arguments : Arguments) : Shape :=
  { bits := (arguments.number? "bits").getD 8,
    registers := (arguments.number? "registers").getD 4,
    ram := (arguments.number? "ram").getD 256,
    file := arguments.path? "arch" }

def start (arguments : Arguments) : Nat := (arguments.number? "start").getD 0

def readRun (texts : List String) : Except Stop Command := do
  let arguments ← Arguments.read runUsage texts
  let program ← arguments.operand
  pure (.run ⟨program, start arguments, arguments.number? "max-steps", arguments.has "json",
    shape arguments⟩)

def readDebug (texts : List String) : Except Stop Command := do
  let arguments ← Arguments.read debugUsage texts
  let program ← arguments.operand
  pure (.debug program (start arguments) (shape arguments))

def readAsm (texts : List String) : Except Stop Command := do
  let arguments ← Arguments.read asmUsage texts
  let source ← arguments.operand
  pure (.asm source (arguments.path? "output") ((arguments.number? "bits").getD 8))

def readDisasm (texts : List String) : Except Stop Command := do
  let arguments ← Arguments.read disasmUsage texts
  let image ← arguments.operand
  pure (.disasm image)

def readTest (texts : List String) : Except Stop Command := do
  let _ ← Arguments.read testUsage texts
  pure .test

def names : List String := ["run", "debug", "asm", "disasm", "test", "help"]

/-- Help may be asked for one command by its name. -/
def readHelp : List String → Except Stop Command
  | [] => .ok .help
  | [name] => if names.contains name then .ok .help else .error .usage
  | _ => .error .usage

/-- The first argument chooses the command. -/
def read : List String → Except Stop Command
  | [] => .ok .demo
  | ["--"] => .ok .demo
  | "run" :: rest => readRun rest
  | "debug" :: rest => readDebug rest
  | "asm" :: rest => readAsm rest
  | "disasm" :: rest => readDisasm rest
  | "test" :: rest => readTest rest
  | "help" :: rest => readHelp rest
  | first :: _ =>
      if first = "--version" ∨ first.startsWith "-V" then .ok .version
      else if first = "--help" ∨ first.startsWith "-h" then .ok .help
      else .error .usage

end Command

end WordMachine.CommandLine
