import WordMachine.Proofs.FileNames
import WordMachine.Proofs.ImageRoundTrip
import WordMachine.Proofs.LineErrors
import WordMachine.Proofs.ScriptOutcomes

namespace WordMachine

theorem assemble_width (source : String) (width : Nat) :
    (assemble source width).program.width = width := rfl

open Assembly in
/-- An assembled program holds whole instructions. -/
theorem assemble_whole (source : String) (width : Nat) :
    3 * width ∣ (assemble source width).program.bits.length := by
  have chunks : ∀ chunk ∈ ((instructionLines source.toList).zipIdx).map (fun line =>
      lineChunk width (firstPass source.toList).1 line.2 line.1.text),
      chunk.length = width * wordsPerInstruction := by
    intro chunk listed
    obtain ⟨line, _, rfl⟩ := List.mem_map.mp listed
    exact lineChunk_length _ _ _ _
  rw [assemble_bits, length_flatten_of_length chunks, wordsPerInstruction, Nat.mul_comm width 3]
  exact Nat.dvd_mul_left _ _

/-- A program of whole instructions is empty when it has none. -/
theorem Program.bits_eq_nil_iff {program : Program} (positive : 1 ≤ program.width)
    (whole : 3 * program.width ∣ program.bits.length) : program.bits = [] ↔ program.size = 0 := by
  obtain ⟨count, length⟩ := whole
  have block : program.instructionBits = 3 * program.width := by
    rw [instructionBits, wordsPerInstruction, Nat.mul_comm]
  have size : program.size = count := by
    rw [Program.size, length, block, Nat.mul_div_cancel_left _ (by omega)]
  rw [size, ← List.length_eq_zero_iff, length]
  constructor
  · intro empty
    have factors := Nat.mul_eq_zero.mp empty
    omega
  · rintro rfl
    rfl

/-- The image of an empty program is refused. -/
theorem Image.ofText_text_of_nil {program : Program} (empty : program.bits = []) :
    ofText (Image.text program) = .error .empty := by
  obtain ⟨width, bits⟩ := program
  obtain rfl : bits = [] := empty
  have skipped := headerLines_skipped ⟨width, []⟩
  have rendered : render ⟨width, []⟩ = (headerLines ⟨width, []⟩).flatMap (· ++ ['\n']) := by
    rw [render, header_eq]
    exact List.append_nil _
  have lines : Text.lines (render ⟨width, []⟩) = headerLines ⟨width, []⟩ := by
    rw [rendered, Text.lines_flatMap_feed fun line listed => (skipped line listed).1]
  have read := @readLines_append none _ (fun line listed => (skipped line listed).2) 1 []
  rw [List.append_nil] at read
  rw [ofText, Image.text, String.toList_ofList, parse, lines, read]
  rfl

namespace CommandLine

variable {files written : Files} {options : RunOptions} {architecture : Architecture}
  {path source announcement : String} {bits : Nat} {program : Program}

section Assembling

/-- The assembly of a source with errors exits and writes nothing. -/
theorem assembleFile_of_errors (stored : files.read path = .ok source)
    (faulty : (assemble source bits).isOk = false) :
    ((assembleFile path none bits).perform files).result = .error 1 ∧
      ((assembleFile path none bits).perform files).files = files := by
  obtain ⟨exited, kept⟩ := @requireAssembly_of_errors files _ _ faulty
  rw [assembleFile, Script.perform_say_bind, Script.perform_bind_of_ok (requireFile_of_ok stored),
    Outcome.after_empty, Outcome.result_after, Outcome.files_after]
  exact ⟨Script.result_bind_of_error exited, (Script.files_bind_of_error exited).trans kept⟩

/-- The assembly of a source without errors succeeds only if it can write the image, and it writes
nothing else. -/
theorem assembleFile_of_ok (stored : files.read path = .ok source)
    (fine : (assemble source bits).isOk = true)
    (succeeded : ((assembleFile path none bits).perform files).code = 0) :
    files.write (Path.withExtension path "img") (Image.text (assemble source bits).program) =
      .ok ((assembleFile path none bits).perform files).files := by
  revert succeeded
  rw [assembleFile, Script.perform_say_bind, Script.perform_bind_of_ok (requireFile_of_ok stored),
    Outcome.after_empty, Script.perform_bind_of_ok (requireAssembly_of_ok fine),
    Outcome.after_empty, Script.perform_say_bind, Option.getD_none]
  cases written : files.write (Path.withExtension path "img")
      (Image.text (assemble source bits).program) with
  | ok next =>
      rw [Script.perform_bind_of_ok (saveImage_of_ok written)]
      intro _
      rfl
  | error cause =>
      rw [Script.perform_bind_of_ok (saveImage_of_error written)]
      intro succeeded
      cases succeeded

/-- An image never has the extension of a source. -/
theorem extension?_image_ne (path : String) :
    Path.extension? (Path.withExtension path "img") ≠ some "asm" := by
  have filled : "img" ≠ "" := by decide
  rcases Path.extension?_withExtension path filled (by decide) (by decide) with missing | new
  · rw [missing]
    decide
  · rw [new]
    decide

/-- An assembly that succeeds leaves the source as it was, with the image beside it. -/
theorem read_of_assembled (isSource : Path.extension? path = some "asm")
    (stored : files.read path = .ok source)
    (succeeded : ((assembleFile path none bits).perform files).code = 0) :
    let written := ((assembleFile path none bits).perform files).files
    (assemble source bits).isOk = true ∧
      written.read path = .ok source ∧
      written.read (Path.withExtension path "img") =
        .ok (Image.text (assemble source bits).program) := by
  have fine : (assemble source bits).isOk = true := by
    by_contra faulty
    have exited := (assembleFile_of_errors stored (by simpa using faulty)).1
    rw [Outcome.code_of_error exited] at succeeded
    cases succeeded
  have written := assembleFile_of_ok stored fine succeeded
  have differ : Path.extension? (Path.withExtension path "img") ≠ Path.extension? path := by
    rw [isSource]
    exact extension?_image_ne path
  exact ⟨fine, Files.read_write_of_extension_ne written stored differ, Files.read_write written⟩

end Assembling

section Running

/-- What a run does with its program, in which the path has no part. -/
def execution (options : RunOptions) (architecture : Architecture) (program : Program) :
    Script Unit :=
  let machine := Machine.build architecture
  executeProgram options.start options.json
    { machine with stepLimit := options.maxSteps.getD machine.stepLimit } program

theorem execution_withProgram (path : String) :
    execution { options with program := path } architecture program =
      execution options architecture program := rfl

/-- A run on a valid machine starts with its program. -/
theorem runProgram_of_shape (valid : architecture.validate = .ok ())
    (shaped : ((resolve options.shape).perform files).result = .ok architecture) :
    (runProgram options).perform files =
      (do
        say s!"🔧 Running: {options.program}"
        let program ← requireProgram options.program architecture.bits
        let program ← requireFitting program architecture.bits
        execution options architecture program :
          Script Unit).perform files := by
  rw [runProgram, Script.perform_bind_of_ok (resolve_of_ok shaped), Outcome.after_empty,
    Machine.create_of_valid valid]
  rfl

/-- A program that is refused ends the run. -/
theorem runProgram_of_refused (valid : architecture.validate = .ok ())
    (shaped : ((resolve options.shape).perform files).result = .ok architecture)
    (refused : ((requireProgram options.program architecture.bits).perform files).result =
      .error 1) :
    ((runProgram options).perform files).result = .error 1 := by
  rw [runProgram_of_shape valid shaped, Script.perform_say_bind, Outcome.result_after]
  exact Script.result_bind_of_error refused

section Read

variable (valid : architecture.validate = .ok ())
  (shaped : ((resolve options.shape).perform files).result = .ok architecture)
  (announced : (requireProgram options.program architecture.bits).perform files =
    ⟨files, announcement, "", .ok program⟩)

include valid shaped announced

/-- An empty program is not executed. -/
theorem runProgram_of_empty (empty : program.isEmpty = true) :
    ((runProgram options).perform files).result = .error 1 := by
  have refused : ((requireFitting program architecture.bits).perform files).result = .error 1 := by
    rw [requireFitting, if_pos empty]
    split <;> rfl
  rw [runProgram_of_shape valid shaped, Script.perform_say_bind,
    Script.perform_bind_of_ok announced, Outcome.result_after, Outcome.result_after]
  exact Script.result_bind_of_error refused

/-- A program that fits and is not empty is announced and then executed. -/
theorem runProgram_of_filled (fits : program.width = architecture.bits)
    (filled : program.isEmpty = false) :
    (runProgram options).perform files =
      ((execution options architecture program).perform
        files).after (s!"🔧 Running: {options.program}\n" ++ announcement) "" := by
  have fitting : (requireFitting program architecture.bits).perform files =
      ⟨files, "", "", .ok program⟩ := by
    rw [requireFitting, if_neg (not_not_intro fits), if_neg (by simp [filled])]
    rfl
  rw [runProgram_of_shape valid shaped, Script.perform_say_bind,
    Script.perform_bind_of_ok announced, Script.perform_bind_of_ok fitting, Outcome.after_empty,
    Outcome.after_after]
  rfl

end Read

end Running

section Comparison

variable {image : String} (valid : architecture.validate = .ok ())
  (shaped : ((resolve options.shape).perform files).result = .ok architecture)
  (isSource : Path.extension? options.program = some "asm")
  (storedSource : files.read options.program = .ok source)
  (fine : (assemble source architecture.bits).isOk = true)
  (isImage : Path.extension? image ≠ some "asm")
  (storedImage : files.read image =
    .ok (Image.text (assemble source architecture.bits).program))

include valid shaped isSource storedSource fine isImage storedImage

/-- A source with instructions and its image are announced in their own ways and then executed
alike. -/
theorem runs_of_filled (filled : 0 < (assemble source architecture.bits).program.size) :
    let program := (assemble source architecture.bits).program
    let executed := (execution options architecture program).perform files
    (runProgram options).perform files =
        executed.after (s!"🔧 Running: {options.program}\n" ++
          s!"📝 Assembled {program.size} instructions\n") "" ∧
      (runProgram { options with program := image }).perform files =
        executed.after (s!"🔧 Running: {image}\n" ++
          s!"📂 Loaded {program.size} instructions\n") "" := by
  have positive : 1 ≤ architecture.bits := ((Architecture.validate_eq_ok_iff _).mp valid).1
  have whole := assemble_whole source architecture.bits
  intro program executed
  have someBits : program.bits ≠ [] := by
    intro empty
    have none := (Program.bits_eq_nil_iff positive whole).mp empty
    omega
  have nonempty : program.isEmpty = false := List.isEmpty_eq_false_iff.mpr someBits
  have parsed : Image.ofText (Image.text program) = .ok program := by
    rw [Image.ofText, Image.text, String.toList_ofList]
    exact Image.parse_render positive someBits whole
  have assembled := requireProgram_of_source isSource storedSource fine
  have loaded := @requireProgram_of_image _ _ _ architecture.bits _ isImage storedImage parsed
  constructor
  · exact runProgram_of_filled valid shaped assembled (assemble_width _ _) nonempty
  · have ran := @runProgram_of_filled _ { options with program := image } _ _ _ valid shaped loaded
      (assemble_width _ _) nonempty
    rw [execution_withProgram] at ran
    exact ran

/-- The run of a source without instructions and the run of its image exit. -/
theorem runs_of_empty (empty : (assemble source architecture.bits).program.size = 0) :
    ((runProgram options).perform files).result = .error 1 ∧
      ((runProgram { options with program := image }).perform files).result = .error 1 := by
  have positive : 1 ≤ architecture.bits := ((Architecture.validate_eq_ok_iff _).mp valid).1
  have whole := assemble_whole source architecture.bits
  have noBits := (Program.bits_eq_nil_iff positive whole).mpr empty
  have assembled := requireProgram_of_source isSource storedSource fine
  have refused := @requireProgram_of_unreadable _ _ _ architecture.bits _ isImage storedImage
    (Image.ofText_text_of_nil noBits)
  constructor
  · exact runProgram_of_empty valid shaped assembled (List.isEmpty_iff.mpr noBits)
  · exact @runProgram_of_refused _ { options with program := image } _ valid shaped refused

end Comparison

/-- An image that an assembly has saved runs like its source after the lines that announce it. -/
theorem saved_image_runs_like_source {asmArguments sourceArguments imageArguments : List String}
    (assembles : Command.read asmArguments = .ok (.asm options.program none architecture.bits))
    (runsSource : Command.read sourceArguments = .ok (.run options))
    (runsImage : Command.read imageArguments =
      .ok (.run { options with program := Path.withExtension options.program "img" }))
    (isSource : Path.extension? options.program = some "asm")
    (stored : files.read options.program = .ok source)
    (shaped : ((resolve options.shape).perform
      ((respond asmArguments).perform files).files).result = .ok architecture)
    (valid : architecture.validate = .ok ()) :
    let image := Path.withExtension options.program "img"
    let result := assemble source architecture.bits
    let assembled := (respond asmArguments).perform files
    let direct := (respond sourceArguments).perform assembled.files
    let saved := (respond imageArguments).perform assembled.files
    (result.isOk = false → assembled.code = 1 ∧ direct.code = 1) ∧
      (assembled.code = 0 → 0 < result.program.size →
        ∃ rest,
          direct.stdout = s!"🔧 Running: {options.program}\n" ++
            s!"📝 Assembled {result.program.size} instructions\n" ++ rest ∧
          saved.stdout = s!"🔧 Running: {image}\n" ++
            s!"📂 Loaded {result.program.size} instructions\n" ++ rest ∧
          direct.stderr = saved.stderr ∧
          direct.code = saved.code) ∧
      (assembled.code = 0 → result.program.size = 0 → direct.code = 1 ∧ saved.code = 1) := by
  have assembly : respond asmArguments = assembleFile options.program none architecture.bits := by
    rw [respond, assembles]
    rfl
  have sourceRun : respond sourceArguments = runProgram options := by
    rw [respond, runsSource]
    rfl
  have imageRun : respond imageArguments =
      runProgram { options with program := Path.withExtension options.program "img" } := by
    rw [respond, runsImage]
    rfl
  rw [assembly] at shaped
  rw [assembly, sourceRun, imageRun]
  have isImage := extension?_image_ne options.program
  have kept := @read_of_assembled _ _ _ architecture.bits isSource stored
  generalize Path.withExtension options.program "img" = image at *
  intro _ result assembled direct saved
  refine ⟨fun faulty => ?_, fun succeeded filled => ?_, fun succeeded empty => ?_⟩
  · obtain ⟨exited, unchanged⟩ := assembleFile_of_errors stored faulty
    have stored : assembled.files.read options.program = .ok source := by
      rw [show assembled.files = files from unchanged]
      exact stored
    exact ⟨Outcome.code_of_error exited, Outcome.code_of_error
      (runProgram_of_refused valid shaped (requireProgram_of_errors isSource stored faulty))⟩
  · obtain ⟨fine, sourceStays, imageStored⟩ := kept succeeded
    obtain ⟨directly, indirectly⟩ := runs_of_filled valid shaped isSource sourceStays fine isImage
      imageStored filled
    refine ⟨_, congrArg Outcome.stdout directly, congrArg Outcome.stdout indirectly, ?_, ?_⟩
    · exact (congrArg Outcome.stderr directly).trans (congrArg Outcome.stderr indirectly).symm
    · exact (congrArg Outcome.code directly).trans (congrArg Outcome.code indirectly).symm
  · obtain ⟨fine, sourceStays, imageStored⟩ := kept succeeded
    obtain ⟨directly, indirectly⟩ := runs_of_empty valid shaped isSource sourceStays fine isImage
      imageStored empty
    exact ⟨Outcome.code_of_error directly, Outcome.code_of_error indirectly⟩

/-- A source of three instructions is assembled for a machine of eight bits. -/
theorem saved_image_runs_like_source_output :
    let files := Files.ofList [("show.asm", "MOV %0, #5\nOUT %0\nHLT")]
    let assembled := (respond ["asm", "show.asm"]).perform files
    let direct := (respond ["run", "show.asm"]).perform assembled.files
    let saved := (respond ["run", "show.img"]).perform assembled.files
    assembled.code = 0 ∧
      ∃ rest,
        direct.stdout = "🔧 Running: show.asm\n" ++ "📝 Assembled 3 instructions\n" ++ rest ∧
        saved.stdout = "🔧 Running: show.img\n" ++ "📂 Loaded 3 instructions\n" ++ rest ∧
        direct.stderr = saved.stderr ∧
        direct.code = saved.code := by
  intro files assembled direct saved
  have assembles : Command.read ["asm", "show.asm"] = .ok (.asm "show.asm" none 8) := by
    decide +kernel
  have runsSource : Command.read ["run", "show.asm"] =
      .ok (.run ⟨"show.asm", 0, none, false, ⟨8, 4, 256, none⟩⟩) := by
    decide +kernel
  have runsImage : Command.read ["run", "show.img"] =
      .ok (.run ⟨Path.withExtension "show.asm" "img", 0, none, false, ⟨8, 4, 256, none⟩⟩) := by
    decide +kernel
  have isSource : Path.extension? "show.asm" = some "asm" := by decide +kernel
  have stored : files.read "show.asm" = .ok "MOV %0, #5\nOUT %0\nHLT" := by decide +kernel
  have valid : (⟨8, 4, 256⟩ : Architecture).validate = .ok () := rfl
  have agree :=
    saved_image_runs_like_source assembles runsSource runsImage isSource stored rfl valid
  have succeeded : assembled.code = 0 := by decide +kernel
  exact ⟨succeeded, agree.2.1 succeeded (by decide +kernel)⟩

end CommandLine

end WordMachine
