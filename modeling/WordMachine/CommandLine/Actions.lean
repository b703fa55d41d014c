/-
This file gives the script of every command.
-/

import WordMachine.CommandLine.Basic
import WordMachine.CommandLine.Path
import WordMachine.CommandLine.Script
import WordMachine.Json.Forms
import WordMachine.Machine.Run
import WordMachine.Program.Image

namespace WordMachine.CommandLine

def programName : String := "bitcpu-emu"

def versionNumber : String := "0.1.0"

def helpText : String :=
  s!"Usage: {programName} [COMMAND]

Commands:
  run     Run a program until it halts
  debug   Interactive debugger
  asm     Assemble source to a program image
  disasm  Disassemble a program image to readable text
  test    Run the built-in self-test"

def heading (title : String) : String := s!"━━━ {title} ━━━"

/-- An unreadable file ends the command. -/
def requireFile (path : String) : Script String := do
  match ← readFile path with
  | .ok text => pure text
  | .error reason => fail s!"Failed to read {path}: {reason}"

def resolve (shape : Shape) : Script Architecture :=
  match shape.file with
  | none => pure ⟨shape.bits, shape.registers, shape.ram⟩
  | some path => do
      let text ← requireFile path
      match (Json.parse text.toList).bind Architecture.ofJson? with
      | some architecture => pure architecture
      | none => fail s!"Invalid architecture file {path}"

/-- All errors of an assembly are printed before their count. -/
def requireAssembly (source : String) (bits : Nat) : Script Program := do
  let result := assemble source bits
  if result.isOk then pure result.program
  else do
    Script.warn (String.join (result.errors.map fun error => s!"❌ {error.message}\n")) (.done ())
    fail s!"{result.errors.length} assembly error(s)"

def loadImage (path : String) : Script (Except ImageError Program) := do
  match ← readFile path with
  | .ok text => pure (Image.ofText text)
  | .error reason => pure (.error (.io reason))

def saveImage (path : String) (program : Program) : Script (Except ImageError Unit) := do
  match ← writeFile path (Image.text program) with
  | .ok _ => pure (.ok ())
  | .error reason => pure (.error (.io reason))

def requireImage (path : String) : Script Program := do
  match ← loadImage path with
  | .ok program => pure program
  | .error cause => fail s!"Failed to load image: {cause.message}"

/-- Files with the assembly extension are assembled, all others are images. -/
def requireProgram (path : String) (bits : Nat) : Script Program := do
  if Path.extension? path = some "asm" then
    let source ← requireFile path
    let program ← requireAssembly source bits
    say s!"📝 Assembled {program.size} instructions"
    pure program
  else
    let program ← requireImage path
    say s!"📂 Loaded {program.size} instructions"
    pure program

/-- A program must suit the machine and must not be empty. -/
def requireFitting (program : Program) (bits : Nat) : Script Program :=
  if program.width ≠ bits then
    fail (s!"Program is encoded for {program.width}-bit bytes but the machine has " ++
      s!"{bits}-bit bytes")
  else if program.isEmpty then fail "No instructions to execute"
  else pure program

def outLines (events : List Event) : String :=
  String.join ((events.filterMap Event.out?).map fun word => s!"OUT {word.readings}\n")

def faultLines (events : List Event) : String :=
  String.join ((events.filterMap Event.fault?).map fun cause => s!"⚠️  {cause.message}\n")

/-- Outputs and faults go to different streams, and the log of the faults is left out. -/
def showEvents (events : List Event) : Script Unit :=
  .print (outLines events) (.warn (faultLines events) (.done ()))

def registerLines (machine : Machine) : String :=
  String.join ((List.range machine.registers.capacity).map fun index =>
    s!"%{index}: {(machine.registers.cell index).readings}\n")

def summary (result : Except Fault Nat) (outputs : Nat) (machine : Machine) : String :=
  let ending := match result with
    | .ok steps => s!"Steps: {steps}"
    | .error cause => s!"Stopped: {cause.message}"
  s!"{ending}\nOutputs: {outputs}\nState: {machine.phase.name}\n" ++
    s!"PC: {machine.pc.text} ({machine.pc.unsigned})\nFlags: {machine.flags.text}\n" ++
    registerLines machine

/-- The program is loaded and run, and the code of the exit tells how the run ended. -/
def executeProgram (start : Nat) (json : Bool) (machine : Machine) (program : Program) :
    Script Unit := do
  let loaded := machine.load program.bits start
  showEvents loaded.events
  say ("\n" ++ heading "Execution")
  let finished := loaded.value.run start
  showEvents finished.events
  let machine := finished.value.machine
  say ("\n" ++ heading "Result")
  .print (summary finished.value.result (finished.events.filterMap Event.out?).length machine)
    (.done ())
  if json then say (String.ofList (machine.snapshot.toJson.pretty 0))
  match finished.value.result with
  | .ok _ => pure ()
  | .error (.stepLimitExceeded limit) => do
      say s!"\n⚠️  Reached the step limit ({limit}). Use --max-steps to change it."
      .exit 2
  | .error _ => .exit 1

def runProgram (options : RunOptions) : Script Unit := do
  let architecture ← resolve options.shape
  match Machine.create architecture with
  | .error cause => fail cause.message
  | .ok machine => do
      let machine := { machine with stepLimit := options.maxSteps.getD machine.stepLimit }
      say s!"🔧 Running: {options.program}"
      let program ← requireProgram options.program architecture.bits
      let program ← requireFitting program architecture.bits
      executeProgram options.start options.json machine program

/-- Without a terminal the debugger ends before its first screen. -/
def debugProgram (path : String) (shape : Shape) : Script Unit := do
  let architecture ← resolve shape
  say s!"🔍 Loading: {path}"
  let program ← requireProgram path architecture.bits
  let _ ← requireFitting program architecture.bits
  say "🚀 Launching debugger...\n"
  match architecture.validate with
  | .error cause => fail s!"Debugger error: {cause.message}"
  | .ok _ => fail "Debugger error: No such device or address (os error 6)"

def assembleFile (source : String) (output : Option String) (bits : Nat) : Script Unit := do
  let target := output.getD (Path.withExtension source "img")
  say s!"📝 Assembling: {source} → {target}"
  let text ← requireFile source
  let program ← requireAssembly text bits
  say s!"✓ Assembled {program.size} instructions"
  match ← saveImage target program with
  | .ok _ => say s!"✓ Saved to {target}"
  | .error cause => fail s!"Failed to save image: {cause.message}"

def disassembleFile (path : String) : Script Unit := do
  say s!"📖 Disassembling: {path}\n"
  let program ← requireImage path
  say program.listing

/-- The default machine runs a source from address zero. -/
def tryOut (source : String) (limit : Nat) : Traced Machine.RunResult :=
  let machine := { Machine.build default with stepLimit := limit }
  (machine.loadSource source 0).value.1.run 0

def outputsOf (source : String) : Option (List Nat) :=
  let finished := tryOut source Machine.defaultStepLimit
  match finished.value.result with
  | .ok _ => some ((finished.events.filterMap Event.out?).map Word.unsigned)
  | .error _ => none

def demoSource : String := "MOV %0, #6\nMOV %1, #7\nMUL %0, %1\nOUT %0\nHLT"

def demoNumbers : List Int := [42, -17, -128, 127]

def demoNumber (number : Int) : String :=
  let column := String.ofList (Text.padLeft ' ' 4 (Text.integer number))
  s!"  {column} = {(Word.ofInt 8 number).text}\n"

def demoSum : String :=
  let first := Word.ofInt 8 100
  let second := Word.ofInt 8 (-30)
  let sum := first.add second
  let low := sum.lowBits 8
  let carry := decide (8 < sum.width)
  s!"  {first.text} + {second.text} = {low.text} (carry out: {carry})\n" ++
    s!"  {first.signed} + {second.signed} = {low.signed}\n"

def demoRun : String :=
  let finished := tryOut demoSource Machine.defaultStepLimit
  let outputs := (finished.events.filterMap Event.out?).map fun word =>
    s!"  OUT {word.text} = {word.signed}\n"
  let ending := match finished.value.result with
    | .ok steps => s!"  halted after {steps} steps\n"
    | .error cause => s!"  {cause.message}\n"
  String.join outputs ++ ending

def showDemo : Script Unit := do
  say (s!"bitcpu emulator v{versionNumber}\nA configurable-width binary computer emulator\n\n" ++
    "Use --help for available commands\n\n" ++ heading "Two's Complement Demo (8-bit)" ++ "\n")
  say (String.join (demoNumbers.map demoNumber))
  say s!"Ripple-carry add:\n{demoSum}"
  let source := (Text.lines demoSource.toList).map fun line => s!"  {String.ofList line}\n"
  say s!"Program:\n{String.join source}{demoRun}"
  say "✓ Emulator core working!"

/-- A check has a title and an answer. -/
def checks : List (String × Bool) :=
  [("Two's complement roundtrip",
      (List.range 256).all fun index =>
        let number : Int := (index : Int) - 128
        (Word.ofInt 8 number).signed == number),
    ("Double negation (mod 2^8)",
      (List.range 256).all fun number =>
        let word := Word.ofNat 8 number
        (((word.negate 8).lowBits 8).negate 8).lowBits 8 == word),
    ("Addition without carry",
      (Word.ofNat 8 100).add (Word.ofNat 8 27) == Word.ofNat 8 127),
    ("Multiplication", ((Word.ofNat 8 123).multiply (Word.ofNat 8 45)).unsigned == 5535),
    ("ADD program prints 8",
      outputsOf "MOV%#0,5\nMOV%#1,3\nADD%%0,1\nOUT%0\nHLT" == some [8]),
    ("MUL program prints 42",
      outputsOf "MOV%#0,6\nMOV%#1,7\nMUL%%0,1\nOUT%0\nHLT" == some [42]),
    ("Infinite loop detection",
      match (tryOut "loop:\nNOP\nJMP loop" 1000).value.result with
      | .error cause => cause == .stepLimitExceeded 1000
      | .ok _ => false)]

def selfTest : Script Unit := do
  say (heading "bitcpu Self-Test" ++ "\n")
  let lines := checks.map fun (title, passed) =>
    title ++ "... " ++ (if passed then "✓" else "✗") ++ "\n"
  let passed := (checks.filter (·.2)).length
  let failed := checks.length - passed
  say (String.join lines)
  say s!"━━━━━━━━━━━━━━━━━━━━━━━━━━━━━━\nResults: {passed} passed, {failed} failed"
  if failed = 0 then say "✓ All tests passed!" else .exit 1

namespace Command

def script : Command → Script Unit
  | .run options => runProgram options
  | .debug program _ shape => debugProgram program shape
  | .asm source output bits => assembleFile source output bits
  | .disasm image => disassembleFile image
  | .test => selfTest
  | .version => say s!"{programName} {versionNumber}"
  | .help => say helpText
  | .demo => showDemo

end Command

/-- Arguments without a meaning end with code two and show how to ask for help. -/
def respond (arguments : List String) : Script Unit :=
  match Command.read arguments with
  | .ok command => command.script
  | .error .help => say helpText
  | .error .usage => do
      complain s!"error: invalid arguments\n\nFor more information, try '--help'."
      .exit 2

end WordMachine.CommandLine
