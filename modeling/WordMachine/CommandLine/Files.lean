/-
This file defines a small file system: a working directory of text files and the directories above
it. A path is walked part by part. The main lemma says that a file reads as it was written.
-/

import WordMachine.CommandLine.Path

namespace WordMachine.CommandLine

/-- A directory is the root or stands some levels above the working directory. -/
inductive Directory where
  | root
  | above (levels : Nat)
deriving DecidableEq

namespace Directory

def working : Directory := .above 0

/-- The root is its own parent. -/
def parent : Directory → Directory
  | .root => .root
  | .above levels => .above (levels + 1)

end Directory

structure Location where
  directory : Directory
  name : String
deriving DecidableEq

/-- Later entries do not matter once a location is found. -/
structure Files where
  entries : List (Location × String)
deriving DecidableEq

inductive FileError where
  | notFound
  | notDirectory
  | isDirectory
  | nameTooLong
deriving DecidableEq

/-- Systems give these numbers to the errors. -/
def FileError.number : FileError → Nat
  | .notFound => 2
  | .notDirectory => 20
  | .isDirectory => 21
  | .nameTooLong => 36

def FileError.ofNumber? (number : Nat) : Option FileError :=
  [FileError.notFound, .notDirectory, .isDirectory, .nameTooLong].find? (·.number == number)

def FileError.message (error : FileError) : String :=
  let reason := match error with
    | .notFound => "No such file or directory"
    | .notDirectory => "Not a directory"
    | .isDirectory => "Is a directory"
    | .nameTooLong => "File name too long"
  s!"{reason} (os error {error.number})"

namespace Files

/-- The named texts become the files of the working directory. -/
def ofList (texts : List (String × String)) : Files :=
  ⟨texts.map fun (name, text) => (⟨.working, name⟩, text)⟩

/-- The files of the working directory with their names. -/
def toList (files : Files) : List (String × String) :=
  files.entries.filterMap fun (location, text) =>
    if location.directory = .working then some (location.name, text) else none

def find? (files : Files) (location : Location) : Option String := files.entries.lookup location

/-- A name has at most 255 bytes. -/
def isLongName (name : String) : Bool := decide (255 < name.utf8ByteSize)

/-- A path has less than 4096 bytes. -/
def isLongPath (path : String) : Bool := decide (4096 ≤ path.utf8ByteSize)

def staysInPlace (part : String) : Bool := part == "" || part == "."

/-- A path ends at a directory, or at a name with or without slashes behind it. -/
inductive Place where
  | directory
  | entry (location : Location) (slashed : Bool)
deriving DecidableEq

/-- Only the last name of a path may be missing or belong to a file. -/
def walk (files : Files) : Directory → List String → Except FileError Place
  | _, [] => .ok .directory
  | directory, part :: rest =>
      if staysInPlace part then files.walk directory rest
      else if part = ".." then files.walk directory.parent rest
      else if rest.all (· == "") then .ok (.entry ⟨directory, part⟩ !rest.isEmpty)
      else if isLongName part then .error .nameTooLong
      else if (files.find? ⟨directory, part⟩).isSome then .error .notDirectory
      else .error .notFound

theorem walk_of_walk {files : Files} {directory : Directory} {parts : List String} {place : Place}
    (arrived : files.walk directory parts = .ok place) (other : Files) :
    other.walk directory parts = .ok place := by
  induction parts generalizing directory with
  | nil => simpa [walk] using arrived
  | cons part rest inductionHypothesis =>
      unfold walk at arrived ⊢
      split at arrived
      · next stays =>
          rw [if_pos stays]
          exact inductionHypothesis arrived
      · next moves =>
          rw [if_neg moves]
          split at arrived
          · next climbs =>
              rw [if_pos climbs]
              exact inductionHypothesis arrived
          · next named =>
              rw [if_neg named]
              split at arrived
              · next last =>
                  rw [if_pos last]
                  exact arrived
              · split at arrived
                · cases arrived
                · split at arrived <;> cases arrived

/-- A path that opens with a slash starts at the root. -/
def locate (files : Files) (path : String) : Except FileError Place :=
  if path = "" then .error .notFound
  else if isLongPath path then .error .nameTooLong
  else files.walk (if path.startsWith "/" then .root else .working) (Path.parts path)

theorem locate_of_locate {files : Files} {path : String} {place : Place}
    (located : files.locate path = .ok place) (other : Files) :
    other.locate path = .ok place := by
  unfold locate at located ⊢
  split at located
  · cases located
  · split at located
    · cases located
    · next nonempty fits => simpa [nonempty, fits] using walk_of_walk located other

def read (files : Files) (path : String) : Except FileError String := do
  match ← files.locate path with
  | .directory => .error .isDirectory
  | .entry location slashed =>
      if isLongName location.name then .error .nameTooLong
      else
        match files.find? location with
        | none => .error .notFound
        | some text => if slashed then .error .notDirectory else .ok text

/-- A slash behind a name asks for a directory, which cannot be written. -/
def write (files : Files) (path text : String) : Except FileError Files := do
  match ← files.locate path with
  | .directory => .error .isDirectory
  | .entry location slashed =>
      if slashed then .error .isDirectory
      else if isLongName location.name then .error .nameTooLong
      else .ok ⟨(location, text) :: files.entries.filter (·.1 != location)⟩

theorem read_write {files written : Files} {path text : String}
    (success : files.write path text = .ok written) : written.read path = .ok text := by
  unfold write at success
  cases located : files.locate path with
  | error cause => simp [located, bind, Except.bind] at success
  | ok place =>
      simp only [located, bind, Except.bind] at success
      split at success
      · cases success
      · next location slashed =>
          split at success
          · cases success
          · split at success
            · cases success
            · next straight fits =>
                cases success
                simp [read, locate_of_locate located, bind, Except.bind, find?, straight, fits]

end Files

end WordMachine.CommandLine
