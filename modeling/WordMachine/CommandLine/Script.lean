/-
This file defines scripts. A script says what a command prints, reads and writes, and with which
code it ends, so that a command can be studied without a file system.
-/

import WordMachine.CommandLine.Files

namespace WordMachine.CommandLine

inductive Script (A : Type) where
  | done (value : A)
  | exit (code : Nat)
  | print (text : String) (next : Script A)
  /-- Warnings go to the error stream. -/
  | warn (text : String) (next : Script A)
  | read (path : String) (next : Except String String → Script A)
  | write (path text : String) (next : Except String Unit → Script A)

namespace Script

/-- A script that exits has no successor. -/
def andThen {A B : Type} : Script A → (A → Script B) → Script B
  | .done value, next => next value
  | .exit code, _ => .exit code
  | .print text rest, next => .print text (rest.andThen next)
  | .warn text rest, next => .warn text (rest.andThen next)
  | .read path rest, next => .read path fun answer => (rest answer).andThen next
  | .write path text rest, next => .write path text fun answer => (rest answer).andThen next

instance : Monad Script where
  pure := .done
  bind := andThen

end Script

/-- All output ends with a line feed. -/
def say (text : String) : Script Unit := .print (text ++ "\n") (.done ())

def complain (text : String) : Script Unit := .warn (text ++ "\n") (.done ())

def fail {A : Type} (message : String) : Script A := .warn s!"❌ {message}\n" (.exit 1)

def readFile (path : String) : Script (Except String String) := .read path .done

def writeFile (path text : String) : Script (Except String Unit) := .write path text .done

/-- What a finished script leaves behind, with its value or the code of its exit. -/
structure Outcome (A : Type) where
  files : Files
  stdout : String
  /-- The log of the faults, which goes to this stream too, is left out. -/
  stderr : String
  result : Except Nat A

def Outcome.code {A : Type} (outcome : Outcome A) : Nat :=
  match outcome.result with
  | .ok _ => 0
  | .error code => code

def Script.perform {A : Type} (files : Files) : Script A → Outcome A
  | .done value => ⟨files, "", "", .ok value⟩
  | .exit code => ⟨files, "", "", .error code⟩
  | .print text next =>
      let outcome := next.perform files
      { outcome with stdout := text ++ outcome.stdout }
  | .warn text next =>
      let outcome := next.perform files
      { outcome with stderr := text ++ outcome.stderr }
  | .read path next => (next ((files.read path).mapError FileError.message)).perform files
  | .write path text next =>
      match files.write path text with
      | .ok files => (next (.ok ())).perform files
      | .error cause => (next (.error cause.message)).perform files

end WordMachine.CommandLine
