/-
This file performs the script of the command line on the real file system.
-/

import WordMachine.CommandLine.Actions

namespace WordMachine

/-- Systems number their errors, and some calls report the negated number. -/
def numberOf? : IO.Error → Option Nat
  | .noFileOrDirectory _ number _ => some (min number (-number)).toNat
  | .inappropriateType _ number _ => some (min number (-number)).toNat
  | .invalidArgument _ number _ => some (min number (-number)).toNat
  | _ => none

/-- The errors of the small file system keep its messages. -/
def reasonOf (error : IO.Error) : String :=
  match (numberOf? error).bind CommandLine.FileError.ofNumber? with
  | some known => known.message
  | none => toString error

def attempt {A : Type} (action : IO A) : IO (Except String A) := do
  match ← action.toBaseIO with
  | .ok value => pure (.ok value)
  | .error cause => pure (.error (reasonOf cause))

def performReal : CommandLine.Script Unit → IO UInt32
  | .done _ => pure 0
  | .exit code => pure code.toUInt32
  | .print text next => do
      (← IO.getStdout).putStr text
      performReal next
  | .warn text next => do
      (← IO.getStderr).putStr text
      performReal next
  | .read path next => do
      let answer ← attempt (IO.FS.readFile path)
      performReal (next answer)
  | .write path text next => do
      let answer ← attempt (IO.FS.writeFile path text)
      performReal (next answer)

end WordMachine

def main (arguments : List String) : IO UInt32 :=
  WordMachine.performReal (WordMachine.CommandLine.respond arguments)
