import WordMachine.CommandLine.Actions

namespace WordMachine.CommandLine

variable {A B : Type} {files : Files} {path source : String} {bits : Nat}

namespace Outcome

variable {first : Outcome A} {next : Files → A → Outcome B}

/-- Earlier texts stand before the texts of an outcome. -/
def after (outcome : Outcome A) (stdout stderr : String) : Outcome A :=
  { outcome with stdout := stdout ++ outcome.stdout, stderr := stderr ++ outcome.stderr }

/-- A value is handed on together with the files, and an exit ends everything. -/
def andThen (first : Outcome A) (next : Files → A → Outcome B) : Outcome B :=
  match first.result with
  | .ok value => (next first.files value).after first.stdout first.stderr
  | .error code => ⟨first.files, first.stdout, first.stderr, .error code⟩

@[simp] theorem after_empty (outcome : Outcome A) : outcome.after "" "" = outcome := by
  simp [after]

/-- Texts in front of an outcome are joined. -/
theorem after_after (outcome : Outcome A) (stdout stderr firstOut firstErr : String) :
    (outcome.after stdout stderr).after firstOut firstErr =
      outcome.after (firstOut ++ stdout) (firstErr ++ stderr) := by
  simp [after, String.append_assoc]

/-- A text in front stays in front. -/
theorem after_andThen (first : Outcome A) (stdout stderr : String) :
    (first.after stdout stderr).andThen next = (first.andThen next).after stdout stderr := by
  obtain ⟨files, printed, warned, result⟩ := first
  cases result with
  | ok value => simp [andThen, after, String.append_assoc]
  | error code => rfl

theorem code_of_error {outcome : Outcome A} {code : Nat} (exited : outcome.result = .error code) :
    outcome.code = code := by
  rw [Outcome.code, exited]

theorem result_after (outcome : Outcome A) (stdout stderr : String) :
    (outcome.after stdout stderr).result = outcome.result := rfl

theorem files_after (outcome : Outcome A) (stdout stderr : String) :
    (outcome.after stdout stderr).files = outcome.files := rfl

end Outcome

namespace Script

theorem perform_pure (value : A) (files : Files) :
    (pure value : Script A).perform files = ⟨files, "", "", .ok value⟩ := rfl

/-- A printed text stands in front of the others. -/
theorem perform_print (text : String) (rest : Script A) (files : Files) :
    (print text rest).perform files = (rest.perform files).after text "" := by
  simp [perform, Outcome.after]

/-- A warning stands in front of the others. -/
theorem perform_warn (text : String) (rest : Script A) (files : Files) :
    (warn text rest).perform files = (rest.perform files).after "" text := by
  simp [perform, Outcome.after]

/-- The second part of a script starts from what the first part leaves behind. -/
theorem perform_bind (script : Script A) (next : A → Script B) (files : Files) :
    (script >>= next).perform files =
      (script.perform files).andThen fun files value => (next value).perform files := by
  induction script generalizing files with
  | done value => simp [bind, andThen, perform, Outcome.andThen, Outcome.after]
  | exit code => rfl
  | print text rest ih =>
      have shape : (print text rest >>= next) = print text (rest >>= next) := rfl
      rw [shape, perform_print, perform_print, Outcome.after_andThen, ih]
  | warn text rest ih =>
      have shape : (warn text rest >>= next) = warn text (rest >>= next) := rfl
      rw [shape, perform_warn, perform_warn, Outcome.after_andThen, ih]
  | read path rest ih => exact ih _ files
  | write path text rest ih =>
      have shape : (write path text rest >>= next) =
          write path text fun answer => rest answer >>= next := rfl
      rw [shape, perform, perform]
      cases files.write path text with
      | ok written => exact ih (.ok ()) written
      | error cause => exact ih (.error cause.message) files

/-- A script goes on behind a part that finishes. -/
theorem perform_bind_of_ok {script : Script A} {next : A → Script B} {middle : Files}
    {stdout stderr : String} {value : A}
    (finished : script.perform files = ⟨middle, stdout, stderr, .ok value⟩) :
    (script >>= next).perform files = ((next value).perform middle).after stdout stderr := by
  rw [perform_bind, finished]
  rfl

/-- A script ends with a part that exits. -/
theorem result_bind_of_error {script : Script A} {next : A → Script B} {code : Nat}
    (exited : (script.perform files).result = .error code) :
    ((script >>= next).perform files).result = .error code := by
  rw [perform_bind, Outcome.andThen, exited]

/-- A part that exits leaves its files. -/
theorem files_bind_of_error {script : Script A} {next : A → Script B} {code : Nat}
    (exited : (script.perform files).result = .error code) :
    ((script >>= next).perform files).files = (script.perform files).files := by
  rw [perform_bind, Outcome.andThen, exited]

theorem perform_say_bind (text : String) (next : Unit → Script A) (files : Files) :
    (say text >>= next).perform files = ((next ()).perform files).after (text ++ "\n") "" :=
  perform_print _ _ _

end Script

section Files

/-- Reading a file changes nothing. -/
theorem readFile_eq (path : String) (files : Files) :
    (readFile path).perform files =
      ⟨files, "", "", .ok ((files.read path).mapError FileError.message)⟩ := rfl

/-- Writing a file changes nothing but the files. -/
theorem writeFile_eq (path text : String) (files : Files) :
    (writeFile path text).perform files =
      match files.write path text with
      | .ok written => ⟨written, "", "", .ok (.ok ())⟩
      | .error cause => ⟨files, "", "", .ok (.error cause.message)⟩ := by
  rw [writeFile, Script.perform]
  cases files.write path text <;> rfl

/-- A file that can be read is read without a word. -/
theorem requireFile_of_ok (stored : files.read path = .ok source) :
    (requireFile path).perform files = ⟨files, "", "", .ok source⟩ := by
  rw [requireFile, Script.perform_bind_of_ok (readFile_eq path files), stored]
  rfl

/-- A file that is missing ends the command. -/
theorem requireFile_of_error {cause : FileError} (missing : files.read path = .error cause) :
    ((requireFile path).perform files).result = .error 1 := by
  rw [requireFile, Script.perform_bind_of_ok (readFile_eq path files), missing]
  rfl

/-- An image is parsed once its file is read. -/
theorem loadImage_of_ok (stored : files.read path = .ok source) :
    (loadImage path).perform files = ⟨files, "", "", .ok (Image.ofText source)⟩ := by
  rw [loadImage, Script.perform_bind_of_ok (readFile_eq path files), stored]
  rfl

/-- An image is saved when its file is written. -/
theorem saveImage_of_ok {program : Program} {written : Files}
    (success : files.write path (Image.text program) = .ok written) :
    (saveImage path program).perform files = ⟨written, "", "", .ok (.ok ())⟩ := by
  rw [saveImage, Script.perform_bind, writeFile_eq, success]
  rfl

theorem saveImage_of_error {program : Program} {cause : FileError}
    (failed : files.write path (Image.text program) = .error cause) :
    (saveImage path program).perform files =
      ⟨files, "", "", .ok (.error (.io cause.message))⟩ := by
  rw [saveImage, Script.perform_bind, writeFile_eq, failed]
  rfl

/-- A shape that can be resolved is resolved without a word. -/
theorem resolve_of_ok {shape : Shape} {architecture : Architecture}
    (shaped : ((resolve shape).perform files).result = .ok architecture) :
    (resolve shape).perform files = ⟨files, "", "", .ok architecture⟩ := by
  obtain ⟨width, registers, ram, file⟩ := shape
  cases file with
  | none =>
      cases shaped
      rfl
  | some path =>
      simp only [resolve] at shaped ⊢
      cases stored : files.read path with
      | error cause =>
          rw [Script.result_bind_of_error (requireFile_of_error stored)] at shaped
          cases shaped
      | ok text =>
          rw [Script.perform_bind_of_ok (requireFile_of_ok stored)] at shaped ⊢
          cases parsed : (Json.parse text.toList).bind Architecture.ofJson? <;>
            rw [parsed] at shaped <;> cases shaped
          rfl

end Files

section Programs

/-- The line that announces a program ends with a feed. -/
theorem announcement_eq (opening : String) (count : Nat) :
    s!"{opening}{count} instructions" ++ "\n" = s!"{opening}{count} instructions\n" := by
  rw [String.append_assoc]
  rfl

/-- A source without errors gives its program. -/
theorem requireAssembly_of_ok (fine : (assemble source bits).isOk = true) :
    (requireAssembly source bits).perform files =
      ⟨files, "", "", .ok (assemble source bits).program⟩ := by
  rw [requireAssembly, if_pos fine]
  rfl

/-- A source with errors ends the command. -/
theorem requireAssembly_of_errors (faulty : (assemble source bits).isOk = false) :
    ((requireAssembly source bits).perform files).result = .error 1 ∧
      ((requireAssembly source bits).perform files).files = files := by
  rw [requireAssembly, if_neg (by simp [faulty])]
  exact ⟨rfl, rfl⟩

variable {program : Program}

/-- A file with the assembly extension is assembled. -/
theorem requireProgram_of_source (isSource : Path.extension? path = some "asm")
    (stored : files.read path = .ok source) (fine : (assemble source bits).isOk = true) :
    (requireProgram path bits).perform files =
      ⟨files, s!"📝 Assembled {(assemble source bits).program.size} instructions\n", "",
        .ok (assemble source bits).program⟩ := by
  rw [requireProgram, if_pos isSource, Script.perform_bind_of_ok (requireFile_of_ok stored),
    Script.perform_bind_of_ok (requireAssembly_of_ok fine), Script.perform_say_bind,
    announcement_eq]
  simp [Outcome.after, Script.perform_pure]

/-- A source with errors gives no program. -/
theorem requireProgram_of_errors (isSource : Path.extension? path = some "asm")
    (stored : files.read path = .ok source) (faulty : (assemble source bits).isOk = false) :
    ((requireProgram path bits).perform files).result = .error 1 := by
  rw [requireProgram, if_pos isSource, Script.perform_bind_of_ok (requireFile_of_ok stored),
    Outcome.result_after]
  exact Script.result_bind_of_error (requireAssembly_of_errors faulty).1

/-- Every other file is an image. -/
theorem requireProgram_of_image (isImage : Path.extension? path ≠ some "asm")
    (stored : files.read path = .ok source) (parsed : Image.ofText source = .ok program) :
    (requireProgram path bits).perform files =
      ⟨files, s!"📂 Loaded {program.size} instructions\n", "", .ok program⟩ := by
  have loaded : (requireImage path).perform files = ⟨files, "", "", .ok program⟩ := by
    rw [requireImage, Script.perform_bind_of_ok (loadImage_of_ok stored), parsed]
    rfl
  rw [requireProgram, if_neg isImage, Script.perform_bind_of_ok loaded, Script.perform_say_bind,
    announcement_eq]
  simp [Outcome.after, Script.perform_pure]

/-- A text that is no image gives no program. -/
theorem requireProgram_of_unreadable {cause : ImageError}
    (isImage : Path.extension? path ≠ some "asm") (stored : files.read path = .ok source)
    (refused : Image.ofText source = .error cause) :
    ((requireProgram path bits).perform files).result = .error 1 := by
  have failed : ((requireImage path).perform files).result = .error 1 := by
    rw [requireImage, Script.perform_bind_of_ok (loadImage_of_ok stored), refused]
    rfl
  rw [requireProgram, if_neg isImage]
  exact Script.result_bind_of_error failed

end Programs

end WordMachine.CommandLine
