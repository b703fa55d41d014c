import WordMachine.Proofs.AssembledProgram

namespace WordMachine

/-- An encoded instruction takes three words. -/
theorem Instruction.encode_length {instruction : Instruction} {width : Nat} {bits : List Bool}
    (encoded : instruction.encode width = .ok bits) :
    bits.length = width * wordsPerInstruction := by
  obtain ⟨_, firstFits, secondFits, rfl⟩ := encode_eq_ok encoded
  exact bits_length ((Word.width_padded _ _).trans (Nat.max_eq_left firstFits))
    ((Word.width_padded _ _).trans (Nat.max_eq_left secondFits))

namespace Assembly

/-- A line of the source holds an instruction when it is neither empty nor a label once its
comment is gone. -/
def holdsInstruction (raw : List Char) : Bool :=
  !(Text.withoutComment raw).isEmpty && isInstruction (Text.withoutComment raw)

/-- The instruction lines with their numbers, where the first of all lines has the given number. -/
def numberedLines (number : Nat) (raws : List (List Char)) : List Line :=
  ((raws.zipIdx number).filter fun raw => holdsInstruction raw.1).map fun raw =>
    ⟨raw.2, Text.withoutComment raw.1⟩

/-- The instruction lines of a source, numbered from one. -/
def instructionLines (source : List Char) : List Line := numberedLines 1 (Text.lines source)

section Numbers

theorem numberedLines_cons (number : Nat) (raw : List Char) (raws : List (List Char)) :
    numberedLines number (raw :: raws) =
      if holdsInstruction raw then
        ⟨number, Text.withoutComment raw⟩ :: numberedLines (number + 1) raws
      else numberedLines (number + 1) raws := by
  unfold numberedLines
  rw [List.zipIdx_cons, List.filter_cons]
  split <;> rfl

/-- Lines are numbered upwards. -/
theorem le_of_mem_numberedLines {number : Nat} {raws : List (List Char)} {line : Line}
    (listed : line ∈ numberedLines number raws) : number ≤ line.number := by
  obtain ⟨raw, kept, rfl⟩ := List.mem_map.mp listed
  exact (List.mem_zipIdx (List.mem_of_mem_filter kept)).1

/-- The numbers of the instruction lines rise. -/
theorem numberedLines_sorted (number : Nat) (raws : List (List Char)) :
    ((numberedLines number raws).map Line.number).Pairwise (· < ·) := by
  induction raws generalizing number with
  | nil => exact .nil
  | cons raw rest ih =>
      rw [numberedLines_cons]
      split
      · refine .cons ?_ (ih (number + 1))
        intro later listed
        obtain ⟨line, inside, rfl⟩ := List.mem_map.mp listed
        exact le_of_mem_numberedLines inside
      · exact ih (number + 1)

variable (number index : Nat) (labels : Labels)

/-- A line with an instruction counts. -/
theorem collect_cons_of_holds {raw : List Char} (holds : holdsInstruction raw = true)
    (rest : List (List Char)) :
    collect number index labels (raw :: rest) =
      ((collect (number + 1) (index + 1) labels rest).1,
        ⟨number, Text.withoutComment raw⟩ ::
          (collect (number + 1) (index + 1) labels rest).2) := by
  simp only [holdsInstruction, isInstruction, Bool.and_eq_true, Bool.not_eq_true',
    Option.isNone_iff_eq_none] at holds
  exact collect_cons_instruction number index labels rest (by simp [holds.1]) holds.2

/-- Any other line only adds to the labels, whatever follows it. -/
theorem collect_cons_of_lacks {raw : List Char} (lacks : ¬ holdsInstruction raw = true) :
    ∃ more, ∀ rest,
      collect number index labels (raw :: rest) = collect (number + 1) index more rest := by
  by_cases empty : (Text.withoutComment raw).isEmpty = true
  · exact ⟨labels, fun rest => collect_cons_empty number index labels rest empty⟩
  · cases found : labelOf? (Text.withoutComment raw) with
    | some label =>
        exact ⟨_, fun rest => collect_cons_label number index labels rest empty found⟩
    | none => simp [holdsInstruction, isInstruction, found, empty] at lacks

/-- The first pass keeps the instruction lines with their numbers. -/
theorem collect_lines (raws : List (List Char)) :
    (collect number index labels raws).2 = numberedLines number raws := by
  induction raws generalizing number index labels with
  | nil => rfl
  | cons raw rest ih =>
      rw [numberedLines_cons]
      by_cases holds : holdsInstruction raw = true
      · rw [collect_cons_of_holds number index labels holds, if_pos holds, ih]
      · obtain ⟨more, skipped⟩ := collect_cons_of_lacks number index labels holds
        rw [skipped, if_neg holds, ih]

/-- Putting another instruction into an instruction line changes the text of this line and
nothing else in the first pass. -/
theorem collect_set {raws : List (List Char)} {position : Nat} {line : Line} {text : List Char}
    (placed : (numberedLines number raws)[position]? = some line)
    (holds : holdsInstruction text = true) :
    collect number index labels (raws.set (line.number - number) text) =
      ((collect number index labels raws).1,
        (numberedLines number raws).set position ⟨line.number, Text.withoutComment text⟩) := by
  induction raws generalizing number index labels position with
  | nil => cases placed
  | cons raw rest ih =>
      rw [numberedLines_cons] at placed ⊢
      -- the line lies behind the first one unless it is the first one
      have behind {place : Nat} (listed : (numberedLines (number + 1) rest)[place]? = some line) :
          (raw :: rest).set (line.number - number) text =
            raw :: rest.set (line.number - (number + 1)) text := by
        have later := le_of_mem_numberedLines (List.mem_of_getElem? listed)
        rw [show line.number - number = line.number - (number + 1) + 1 by omega, List.set_cons_succ]
      by_cases here : holdsInstruction raw = true
      · rw [if_pos here] at placed ⊢
        rw [collect_cons_of_holds number index labels here]
        cases position with
        | zero =>
            obtain rfl : ⟨number, Text.withoutComment raw⟩ = line := Option.some.inj placed
            rw [Nat.sub_self, List.set_cons_zero, collect_cons_of_holds number index labels holds,
              collect_lines, List.set_cons_zero]
        | succ position =>
            rw [List.getElem?_cons_succ] at placed
            rw [behind placed, collect_cons_of_holds number index labels here,
              ih (number + 1) (index + 1) labels placed, List.set_cons_succ]
      · rw [if_neg here] at placed ⊢
        obtain ⟨more, skipped⟩ := collect_cons_of_lacks number index labels here
        rw [behind placed, skipped, skipped, ih (number + 1) index more placed]

end Numbers

section SecondPass

variable {width index : Nat} {labels : Labels}

/-- The chunk of a line holds its encoding, or zeros when the line is at fault. -/
def lineChunk (width : Nat) (labels : Labels) (index : Nat) (text : List Char) : List Bool :=
  match encodeLine width labels index text with
  | .ok bits => bits
  | .error _ => List.replicate (width * wordsPerInstruction) false

/-- A line has at most one error. -/
def lineErrors (width : Nat) (labels : Labels) (index : Nat) (line : Line) : List Error :=
  match encodeLine width labels index line.text with
  | .ok _ => []
  | .error fault => [⟨line.number, fault⟩]

/-- The chunk and the errors of a line stand in front of the others. -/
theorem encodeLines_cons (line : Line) (lines : List Line) :
    encodeLines width labels index (line :: lines) =
      (lineChunk width labels index line.text ++ (encodeLines width labels (index + 1) lines).1,
        lineErrors width labels index line ++ (encodeLines width labels (index + 1) lines).2) := by
  rw [encodeLines, lineChunk, lineErrors]
  cases encodeLine width labels index line.text <;> rfl

/-- A chunk takes three words, even if it is empty. -/
theorem lineChunk_length (width : Nat) (labels : Labels) (index : Nat) (text : List Char) :
    (lineChunk width labels index text).length = width * wordsPerInstruction := by
  unfold lineChunk
  cases encoded : encodeLine width labels index text with
  | error fault => exact List.length_replicate
  | ok bits =>
      obtain ⟨instruction, _, encodes⟩ := (encodeLine_eq_bind text).mp encoded
      exact Instruction.encode_length encodes

/-- The second pass writes the chunks of the lines one after another. -/
theorem encodeLines_bits (lines : List Line) :
    (encodeLines width labels index lines).1 =
      ((lines.zipIdx index).map fun line => lineChunk width labels line.2 line.1.text).flatten := by
  induction lines generalizing index with
  | nil => rfl
  | cons line rest ih => rw [encodeLines_cons, ih]; rfl

/-- Errors name lines, in the order of the lines and each line at most once. -/
theorem encodeLines_errors_sublist (width : Nat) (labels : Labels) (index : Nat)
    (lines : List Line) :
    ((encodeLines width labels index lines).2.map Error.line).Sublist (lines.map Line.number) := by
  induction lines generalizing index with
  | nil => exact List.Sublist.refl _
  | cons line rest ih =>
      rw [encodeLines_cons, lineErrors]
      cases encodeLine width labels index line.text with
      | ok bits => exact (ih (index + 1)).cons line.number
      | error fault => exact (ih (index + 1)).cons_cons line.number

/-- The error of a line names the line. -/
theorem line_of_mem_lineErrors {line : Line} {error : Error}
    (listed : error ∈ lineErrors width labels index line) : error.line = line.number := by
  unfold lineErrors at listed
  split at listed
  · cases listed
  · rw [List.mem_singleton.mp listed]

/-- Among lines with rising numbers, the errors that name a line are the errors of that line. -/
theorem errors_of_line {lines : List Line} (sorted : (lines.map Line.number).Pairwise (· < ·))
    {position : Nat} {line : Line} (placed : lines[position]? = some line) :
    (encodeLines width labels index lines).2.filter (·.line = line.number) =
      lineErrors width labels (index + position) line := by
  induction lines generalizing index position with
  | nil => cases placed
  | cons first rest ih =>
      rw [List.map_cons, List.pairwise_cons] at sorted
      obtain ⟨below, sortedRest⟩ := sorted
      rw [encodeLines_cons, List.filter_append]
      cases position with
      | zero =>
          obtain rfl : first = line := Option.some.inj placed
          have own : (lineErrors width labels index first).filter (·.line = first.number) =
              lineErrors width labels index first := by
            rw [List.filter_eq_self]
            intro error listed
            exact decide_eq_true (line_of_mem_lineErrors listed)
          have others : (encodeLines width labels (index + 1) rest).2.filter
              (·.line = first.number) = [] := by
            rw [List.filter_eq_nil_iff]
            intro error listed
            have named := (encodeLines_errors_sublist width labels (index + 1) rest).subset
              (List.mem_map_of_mem listed)
            have above := below error.line named
            simpa using above.ne'
          rw [own, others, List.append_nil, Nat.add_zero]
      | succ position =>
          rw [List.getElem?_cons_succ] at placed
          have above := below line.number (List.mem_map_of_mem (List.mem_of_getElem? placed))
          have others : (lineErrors width labels index first).filter (·.line = line.number) =
              [] := by
            rw [List.filter_eq_nil_iff]
            intro error listed
            rw [line_of_mem_lineErrors listed]
            simpa using above.ne
          rw [others, List.nil_append, ih sortedRest placed, Nat.add_right_comm, Nat.add_assoc]

/-- The errors of all other lines stay when a line changes. -/
theorem errors_of_other_lines {lines : List Line} {position : Nat} {line : Line}
    (placed : lines[position]? = some line) (text : List Char) :
    (encodeLines width labels index (lines.set position ⟨line.number, text⟩)).2.filter
        (·.line ≠ line.number) =
      (encodeLines width labels index lines).2.filter (·.line ≠ line.number) := by
  have own (index : Nat) (changed : Line) (same : changed.number = line.number) :
      (lineErrors width labels index changed).filter (·.line ≠ line.number) = [] := by
    rw [List.filter_eq_nil_iff]
    intro error listed
    simp [line_of_mem_lineErrors listed, same]
  induction lines generalizing index position with
  | nil => cases placed
  | cons first rest ih =>
      cases position with
      | zero =>
          obtain rfl : first = line := Option.some.inj placed
          rw [List.set_cons_zero, encodeLines_cons, encodeLines_cons, List.filter_append,
            List.filter_append, own index ⟨first.number, text⟩ rfl, own index first rfl]
      | succ position =>
          rw [List.getElem?_cons_succ] at placed
          rw [List.set_cons_succ, encodeLines_cons, encodeLines_cons, List.filter_append,
            List.filter_append, ih placed]

end SecondPass

end Assembly

open Assembly

section Source

variable {source : String} {width : Nat}

/-- A program consists of the chunks of its lines. -/
theorem assemble_bits (source : String) (width : Nat) :
    (assemble source width).program.bits =
      (((instructionLines source.toList).zipIdx).map fun line =>
        lineChunk width (firstPass source.toList).1 line.2 line.1.text).flatten := by
  have lines : (firstPass source.toList).2 = instructionLines source.toList :=
    collect_lines 1 0 [] _
  rw [← lines]
  exact encodeLines_bits _

/-- The errors are those of the instruction lines. -/
theorem assemble_errors (source : String) (width : Nat) :
    (assemble source width).errors =
      (encodeLines width (firstPass source.toList).1 0 (instructionLines source.toList)).2 := by
  have lines : (firstPass source.toList).2 = instructionLines source.toList :=
    collect_lines 1 0 [] _
  rw [← lines]
  rfl

/-- The chunks of the program belong to the instruction lines one by one. -/
theorem assemble_instructions (positive : 1 ≤ width) (index : Nat) :
    (assemble source width).program.instructions[index]? =
      (instructionLines source.toList)[index]?.map fun line =>
        lineChunk width (firstPass source.toList).1 index line.text := by
  have positiveBlock : 1 ≤ width * wordsPerInstruction := by
    rw [wordsPerInstruction]
    omega
  have chunked : (assemble source width).program.instructions =
      ((instructionLines source.toList).zipIdx).map fun line =>
        lineChunk width (firstPass source.toList).1 line.2 line.1.text := by
    rw [Program.instructions, assemble_bits]
    apply chunks_flatten positiveBlock
    intro chunk listed
    obtain ⟨line, _, rfl⟩ := List.mem_map.mp listed
    exact lineChunk_length _ _ _ _
  rw [chunked, List.getElem?_map, List.getElem?_zipIdx, Option.map_map]
  simp [Function.comp_def]

/-- Every instruction line has one chunk or one error, and a change of a line touches no other line.
-/
theorem assemble_line_by_line (source : String) (width : Nat) (positive : 1 ≤ width) :
    (assemble source width).program.bits.length =
        3 * width * (instructionLines source.toList).length ∧
      (∀ (index : Nat) (line : Line), (instructionLines source.toList)[index]? = some line →
        ∃ chunk, (assemble source width).program.instructions[index]? = some chunk ∧
          (((assemble source width).errors.filter (·.line = line.number) = [] ∧
              ∃ instruction,
                readInstruction width (firstPass source.toList).1 index line.text =
                  .ok instruction ∧
                instruction.encode width = .ok chunk) ∨
            ∃ fault,
              encodeLine width (firstPass source.toList).1 index line.text = .error fault ∧
              (assemble source width).errors.filter (·.line = line.number) =
                [⟨line.number, fault⟩] ∧
              chunk = List.replicate (3 * width) false)) ∧
      ((assemble source width).errors.map Error.line).Pairwise (· < ·) ∧
      (∀ error ∈ (assemble source width).errors,
        ∃ line ∈ instructionLines source.toList, line.number = error.line) ∧
      ∀ (index : Nat) (line : Line) (edited : String) (text : List Char),
        (instructionLines source.toList)[index]? = some line →
        Text.lines edited.toList = (Text.lines source.toList).set (line.number - 1) text →
        holdsInstruction text = true →
        (∀ other, other ≠ index →
          (assemble edited width).program.instructions[other]? =
            (assemble source width).program.instructions[other]?) ∧
        (assemble edited width).errors.filter (·.line ≠ line.number) =
          (assemble source width).errors.filter (·.line ≠ line.number) := by
  have sorted : ((instructionLines source.toList).map Line.number).Pairwise (· < ·) :=
    numberedLines_sorted 1 _
  have named := encodeLines_errors_sublist width (firstPass source.toList).1 0
    (instructionLines source.toList)
  rw [← assemble_errors] at named
  refine ⟨?_, ?_, sorted.sublist named, ?_, ?_⟩
  · rw [assemble_bits, List.length_flatten, List.map_map]
    simp only [Function.comp_def, lineChunk_length, wordsPerInstruction]
    rw [List.map_const', List.sum_replicate, List.length_zipIdx, smul_eq_mul]
    ring
  · intro index line placed
    refine ⟨lineChunk width (firstPass source.toList).1 index line.text,
      by rw [assemble_instructions positive, placed]; rfl, ?_⟩
    rw [assemble_errors, errors_of_line sorted placed, Nat.zero_add]
    unfold lineErrors lineChunk
    cases encoded : encodeLine width (firstPass source.toList).1 index line.text with
    | ok bits => exact Or.inl ⟨rfl, (encodeLine_eq_bind line.text).mp encoded⟩
    | error fault => exact Or.inr ⟨fault, rfl, rfl, by rw [Nat.mul_comm]; rfl⟩
  · intro error listed
    exact List.mem_map.mp (named.subset (List.mem_map_of_mem listed))
  · intro index line edited text placed replaced holds
    have first : firstPass edited.toList = ((firstPass source.toList).1,
        (instructionLines source.toList).set index ⟨line.number, Text.withoutComment text⟩) := by
      rw [firstPass, replaced]
      exact collect_set 1 0 [] placed holds
    have lines : instructionLines edited.toList =
        (instructionLines source.toList).set index ⟨line.number, Text.withoutComment text⟩ :=
      (collect_lines 1 0 [] _).symm.trans (congrArg Prod.snd first)
    constructor
    · intro other differ
      rw [assemble_instructions positive, assemble_instructions positive, lines, first,
        List.getElem?_set_ne differ.symm]
    · rw [assemble_errors, assemble_errors, lines, first]
      exact errors_of_other_lines placed _

/-- Mending the first of two lines at fault leaves the error of the other one. -/
theorem assemble_line_by_line_mended :
    1 ≤ 8 ∧
      (instructionLines "JMP nowhere\nstart:\nADD %0, #999".toList)[0]? =
        some ⟨1, "JMP nowhere".toList⟩ ∧
      Text.lines "NOP ; mended\nstart:\nADD %0, #999".toList =
        (Text.lines "JMP nowhere\nstart:\nADD %0, #999".toList).set 0 "NOP ; mended".toList ∧
      holdsInstruction "NOP ; mended".toList = true ∧
      (assemble "NOP ; mended\nstart:\nADD %0, #999" 8).errors.filter (·.line ≠ 1) =
        (assemble "JMP nowhere\nstart:\nADD %0, #999" 8).errors.filter (·.line ≠ 1) := by
  have placed : (instructionLines "JMP nowhere\nstart:\nADD %0, #999".toList)[0]? =
      some ⟨1, "JMP nowhere".toList⟩ := by decide +kernel
  have replaced : Text.lines "NOP ; mended\nstart:\nADD %0, #999".toList =
      (Text.lines "JMP nowhere\nstart:\nADD %0, #999".toList).set 0 "NOP ; mended".toList := by
    decide +kernel
  have holds : holdsInstruction "NOP ; mended".toList = true := by decide +kernel
  obtain ⟨_, _, _, _, edits⟩ :=
    assemble_line_by_line "JMP nowhere\nstart:\nADD %0, #999" 8 (by decide)
  exact ⟨by decide, placed, replaced, holds, (edits 0 _ _ _ placed replaced holds).2⟩

end Source

end WordMachine
