/-
This file finds and replaces the extension of a file name in a path.
-/

namespace WordMachine.CommandLine.Path

/-- Slashes separate the parts of a path, which may be empty. -/
def parts (path : String) : List String := (path.toList.splitOn '/').map String.ofList

/-- A path is cut into what stands before its file name and the file name itself. -/
def splitName (path : String) : Option (List String × String) :=
  let isEmptyPart (part : String) : Bool := part == "" || part == "."
  match (parts path).reverse.dropWhile isEmptyPart with
  | [] => none
  | name :: before => if name == ".." then none else some (before.reverse, name)

/-- The last period of a name separates the extension, unless it opens the name. -/
def splitExtension (name : String) : String × Option String :=
  let reversed := name.toList.reverse
  match reversed.dropWhile (· != '.') with
  | [] => (name, none)
  | [_] => (name, none)
  | _ :: stem =>
      (String.ofList stem.reverse, some (String.ofList (reversed.takeWhile (· != '.')).reverse))

def extension? (path : String) : Option String :=
  (splitName path).bind fun (_, name) => (splitExtension name).2

/-- As many characters as the extension has are cut off the end. -/
def withoutExtension (path : String) : String :=
  match extension? path with
  | none => path
  | some extension => String.ofList (path.toList.take (path.length - extension.length))

/-- A path without a file name stays as it is, also when the old extension leaves none. -/
def withExtension (path extension : String) : String :=
  let path := withoutExtension path
  match splitName path with
  | none => path
  | some (before, name) =>
      "/".intercalate (before ++ [(splitExtension name).1 ++ "." ++ extension])

end WordMachine.CommandLine.Path
