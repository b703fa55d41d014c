import Mathlib.Data.List.Basic
import WordMachine.CommandLine.Files
import WordMachine.Proofs.Success

namespace WordMachine.CommandLine

section Splitting

/-- No part of a list that is cut at a separator holds the separator. -/
theorem not_mem_of_mem_splitOn {A : Type} [DecidableEq A] {separator : A} {items part : List A}
    (listed : part ∈ items.splitOn separator) : separator ∉ part := by
  induction items generalizing part with
  | nil =>
      obtain rfl := List.mem_singleton.mp listed
      exact List.not_mem_nil
  | cons item rest ih =>
      rw [List.splitOn_cons_eq_if_modifyHead] at listed
      split at listed <;> rename_i same
      · rcases List.mem_cons.mp listed with rfl | later
        · exact List.not_mem_nil
        · exact ih later
      · obtain ⟨first, others, cut⟩ :=
          List.exists_cons_of_ne_nil (List.splitOn_ne_nil separator rest)
        rw [cut] at listed ih
        rcases List.mem_cons.mp listed with rfl | later
        · have inside := ih List.mem_cons_self
          have differ : separator ≠ item := by
            rintro rfl
            simp at same
          simp [differ, inside]
        · exact ih (List.mem_cons_of_mem _ later)

end Splitting

namespace Path

/-- The parts of a path have no slashes. -/
theorem slash_not_mem_of_mem_parts {path part : String} (listed : part ∈ parts path) :
    '/' ∉ part.toList := by
  obtain ⟨chars, cut, rfl⟩ := List.mem_map.mp listed
  rw [String.toList_ofList]
  exact not_mem_of_mem_splitOn cut

/-- Joined parts without slashes are the parts of the path. -/
theorem parts_intercalate {texts : List String} (nonempty : texts ≠ [])
    (plain : ∀ text ∈ texts, '/' ∉ text.toList) : parts ("/".intercalate texts) = texts := by
  have cut : (['/'].intercalate (texts.map String.toList)).splitOn '/' =
      texts.map String.toList := by
    apply List.splitOn_intercalate
    · intro chars listed
      obtain ⟨text, inside, rfl⟩ := List.mem_map.mp listed
      exact plain text inside
    · simpa using nonempty
  have joined : ("/".intercalate texts).toList = ['/'].intercalate (texts.map String.toList) :=
    String.toList_intercalate
  rw [parts, joined, cut, List.map_map]
  simp [Function.comp_def]

/-- A name is neither missing nor a period nor two periods. -/
def IsName (part : String) : Prop := part ≠ "" ∧ part ≠ "." ∧ part ≠ ".."

/-- A part with a character besides dots is a name. -/
theorem isName_of_mem {part : String} {char : Char} (inside : char ∈ part.toList)
    (other : char ≠ '.') : IsName part := by
  refine ⟨?_, ?_, ?_⟩ <;> rintro rfl
  · cases inside
  · exact other (by simpa using inside)
  · exact other (by simpa using inside)

/-- The last part of a path is its name. -/
theorem splitName_of_parts {path name : String} {before : List String}
    (cut : parts path = before ++ [name]) (isName : IsName name) :
    splitName path = some (before, name) := by
  obtain ⟨filled, single, double⟩ := isName
  simp [splitName, cut, filled, single, double]

/-- The file name and the parts before it open the parts of the path. -/
theorem parts_of_splitName {path name : String} {before : List String}
    (found : splitName path = some (before, name)) :
    ∃ trailing, parts path = before ++ name :: trailing := by
  simp only [splitName] at found
  split at found
  · cases found
  · rename_i last others kept
    split at found
    · cases found
    · cases found
      have whole := List.takeWhile_append_dropWhile (p := fun part => part == "" || part == ".")
        (l := (parts path).reverse)
      rw [kept] at whole
      have turned := congrArg List.reverse whole
      simp only [List.reverse_append, List.reverse_cons, List.reverse_reverse, List.append_assoc,
        List.singleton_append] at turned
      exact ⟨_, turned.symm⟩

/-- The extension of a path is the one of its name. -/
theorem extension?_of_parts {path name : String} {before : List String}
    (cut : parts path = before ++ [name]) (isName : IsName name) :
    extension? path = (splitExtension name).2 := by
  rw [extension?, splitName_of_parts cut isName]
  rfl

variable {extension : String}

/-- A stem holds only characters of its name. -/
theorem mem_of_mem_stem {name : String} {char : Char}
    (inside : char ∈ (splitExtension name).1.toList) : char ∈ name.toList := by
  simp only [splitExtension] at inside
  split at inside
  · exact inside
  · exact inside
  · rename_i period stem _ kept
    have front : char ∈ name.toList.reverse.dropWhile (· != '.') := by
      rw [kept]
      exact List.mem_cons_of_mem _ (by simpa using inside)
    exact List.mem_reverse.mp ((List.dropWhile_sublist _).mem front)

/-- The new extension of a name is its extension, unless nothing stands before it. -/
theorem splitExtension_append (stem : String) (plain : '.' ∉ extension.toList) :
    (splitExtension (stem ++ "." ++ extension)).2 = if stem = "" then none else some extension := by
  have reversed : (stem ++ "." ++ extension).toList.reverse =
      extension.toList.reverse ++ '.' :: stem.toList.reverse := by
    simp
  have passed : ∀ char ∈ extension.toList.reverse, (char != '.') = true := by
    intro char inside
    rw [bne_iff_ne]
    rintro rfl
    exact plain (List.mem_reverse.mp inside)
  have dropped : (extension.toList.reverse ++ '.' :: stem.toList.reverse).dropWhile (· != '.') =
      '.' :: stem.toList.reverse := by
    rw [List.dropWhile_append_of_pos passed]
    rfl
  have taken : (extension.toList.reverse ++ '.' :: stem.toList.reverse).takeWhile (· != '.') =
      extension.toList.reverse := by
    rw [List.takeWhile_append_of_pos passed]
    simp
  rw [splitExtension, reversed, dropped, taken]
  by_cases missing : stem = ""
  · rw [if_pos missing, missing]
    rfl
  · rw [if_neg missing]
    obtain ⟨last, others, shape⟩ : ∃ last others, stem.toList.reverse = last :: others :=
      List.exists_cons_of_ne_nil (by simpa using missing)
    simp [shape]

/-- A path with a new extension has that extension, or none where its name has no stem or is
missing. -/
theorem extension?_withExtension (path : String) (filled : extension ≠ "")
    (plain : '.' ∉ extension.toList) (straight : '/' ∉ extension.toList) :
    extension? (withExtension path extension) = none ∨
      extension? (withExtension path extension) = some extension := by
  simp only [withExtension]
  split
  · rename_i missing
    left
    rw [extension?, missing]
    rfl
  · rename_i before name found
    obtain ⟨trailing, listed⟩ := parts_of_splitName found
    have straightParts : ∀ part ∈ before ++ name :: trailing, '/' ∉ part.toList := by
      rw [← listed]
      exact fun part => slash_not_mem_of_mem_parts
    have straightName : '/' ∉ ((splitExtension name).1 ++ "." ++ extension).toList := by
      have stem : '/' ∉ (splitExtension name).1.toList :=
        fun inside => straightParts name (by simp) (mem_of_mem_stem inside)
      simp [stem, straight]
    have cut : parts ("/".intercalate (before ++ [(splitExtension name).1 ++ "." ++ extension])) =
        before ++ [(splitExtension name).1 ++ "." ++ extension] := by
      apply parts_intercalate (by simp)
      intro part inside
      rcases List.mem_append.mp inside with early | last
      · exact straightParts part (List.mem_append_left _ early)
      · rw [List.mem_singleton.mp last]
        exact straightName
    have isName : IsName ((splitExtension name).1 ++ "." ++ extension) := by
      obtain ⟨char, others, shape⟩ :=
        List.exists_cons_of_ne_nil (String.toList_eq_nil_iff.not.mpr filled)
      have inside : char ∈ extension.toList := by simp [shape]
      exact isName_of_mem (by simp [inside]) fun same => plain (same ▸ inside)
    rw [extension?_of_parts cut isName, splitExtension_append _ plain]
    split
    · exact Or.inl rfl
    · exact Or.inr rfl

end Path

namespace Files

variable {files written : Files} {path text : String}

/-- A walk that ends at a file ends with its name. -/
theorem walk_eq_entry {directory : Directory} {parts : List String} {location : Location}
    (arrived : files.walk directory parts = .ok (.entry location false)) :
    ∃ before, parts = before ++ [location.name] ∧ Path.IsName location.name := by
  induction parts generalizing directory with
  | nil => cases arrived
  | cons part rest ih =>
      have later {directory : Directory}
          (arrived : files.walk directory rest = .ok (.entry location false)) :
          ∃ before, part :: rest = before ++ [location.name] ∧ Path.IsName location.name := by
        obtain ⟨before, same, isName⟩ := ih arrived
        exact ⟨part :: before, by rw [same, List.cons_append], isName⟩
      unfold walk at arrived
      split at arrived
      · exact later arrived
      · rename_i moves
        split at arrived
        · exact later arrived
        · rename_i climbs
          split at arrived
          · simp only [Except.ok.injEq, Place.entry.injEq, Bool.not_eq_false', List.isEmpty_iff]
              at arrived
            obtain ⟨rfl, rfl⟩ := arrived
            simp only [staysInPlace, Bool.or_eq_true, beq_iff_eq, not_or] at moves
            exact ⟨[], rfl, moves.1, moves.2, climbs⟩
          · split at arrived
            · cases arrived
            · split at arrived <;> cases arrived

/-- The extension of a path that reaches a file is the extension of the file's name. -/
theorem extension?_of_locate {location : Location}
    (located : files.locate path = .ok (.entry location false)) :
    Path.extension? path = (Path.splitExtension location.name).2 := by
  unfold locate at located
  split at located
  · cases located
  · split at located
    · cases located
    · obtain ⟨before, cut, isName⟩ := walk_eq_entry located
      exact Path.extension?_of_parts cut isName

/-- A file that is read is stored under the location of its path. -/
theorem read_eq_ok (success : files.read path = .ok text) :
    ∃ location, files.locate path = .ok (.entry location false) ∧
      files.find? location = some text ∧ isLongName location.name = false := by
  obtain ⟨place, located, found⟩ := bind_eq_ok_iff.mp success
  cases place with
  | directory => cases found
  | entry location slashed =>
      dsimp only at found
      split at found
      · cases found
      · rename_i short
        split at found
        · cases found
        · rename_i present
          split at found
          · cases found
          · rename_i straight
            cases found
            exact ⟨location, by simpa [straight] using located, present, by simpa using short⟩

/-- A write replaces the file at the location of its path. -/
theorem write_eq_ok (success : files.write path text = .ok written) :
    ∃ location, files.locate path = .ok (.entry location false) ∧
      written = ⟨(location, text) :: files.entries.filter (·.1 != location)⟩ := by
  obtain ⟨place, located, found⟩ := bind_eq_ok_iff.mp success
  cases place with
  | directory => cases found
  | entry location slashed =>
      dsimp only at found
      split at found
      · cases found
      · rename_i straight
        split at found
        · cases found
        · cases found
          exact ⟨location, by simpa [straight] using located, rfl⟩

/-- A write leaves the files at all other locations alone. -/
theorem find?_of_ne (files : Files) (text : String) {location other : Location}
    (differ : other ≠ location) :
    (Files.mk ((location, text) :: files.entries.filter (·.1 != location))).find? other =
      files.find? other := by
  have kept (entries : List (Location × String)) :
      (entries.filter (·.1 != location)).lookup other = entries.lookup other := by
    induction entries with
    | nil => rfl
    | cons entry rest ih =>
        obtain ⟨place, content⟩ := entry
        by_cases same : place = location
        · have passed : (other == place) = false := by simpa [same] using differ
          rw [List.filter_cons_of_neg (by simpa using same), List.lookup_cons, passed, ih]
        · rw [List.filter_cons_of_pos (by simpa using same), List.lookup_cons, List.lookup_cons, ih]
  have here : (other == location) = false := by simpa using differ
  rw [find?, List.lookup_cons, here]
  exact kept files.entries

/-- A write leaves every file alone whose extension is another one. -/
theorem read_write_of_extension_ne {other content : String}
    (success : files.write path text = .ok written) (stored : files.read other = .ok content)
    (differ : Path.extension? path ≠ Path.extension? other) : written.read other = .ok content := by
  obtain ⟨target, reached, rfl⟩ := write_eq_ok success
  obtain ⟨location, located, found, short⟩ := read_eq_ok stored
  have elsewhere : location ≠ target := by
    rintro rfl
    rw [extension?_of_locate reached, extension?_of_locate located] at differ
    exact differ rfl
  rw [← find?_of_ne files text elsewhere] at found
  rw [read, locate_of_locate located]
  simp [bind, Except.bind, short, found]

end Files

end WordMachine.CommandLine
