import WordMachine.Proofs.Encoding
import WordMachine.Proofs.LabelPass

namespace WordMachine

/-- An opcode that is found takes operands of the modes it was looked up with. -/
theorem Opcode.modes_of_lookup {mnemonic : String} {modes : List Mode} {opcode : Opcode}
    (found : lookup mnemonic modes = some opcode) : opcode.modes = modes := by
  obtain ⟨spelling, listed, rfl⟩ := Option.map_eq_some_iff.mp found
  have fits := List.find?_some listed
  simp only [Bool.and_eq_true, beq_iff_eq] at fits
  exact fits.2

namespace Assembly

variable {width : Nat} {labels : Labels} {index : Nat}

/-- An operand is read and its value fits a word. -/
def ReadsOperand (width : Nat) (labels : Labels) (index : Nat) (operand : List Char)
    (result : Mode × Word) : Prop :=
  ∃ value, readOperand labels index operand = .ok (result.1, value) ∧
    operandWord width value = .ok result.2

/-- All operands are read exactly when each of them is. -/
theorem readOperands_eq_ok_iff {operands : List (List Char)} {results : List (Mode × Word)} :
    readOperands width labels index operands = .ok results ↔
      List.Forall₂ (ReadsOperand width labels index) operands results := by
  induction operands generalizing results with
  | nil => simp [readOperands, eq_comm]
  | cons operand rest ih =>
      rw [readOperands, List.forall₂_cons_left_iff]
      simp only [ReadsOperand, ← ih, bind_eq_ok_iff, pure_eq_ok_iff]
      constructor
      · rintro ⟨⟨mode, value⟩, read, word, fit, others, more, rfl⟩
        exact ⟨(mode, word), others, ⟨value, read, fit⟩, more, rfl⟩
      · rintro ⟨⟨mode, word⟩, others, ⟨value, read, fit⟩, more, rfl⟩
        exact ⟨(mode, value), read, word, fit, others, more, rfl⟩

/-- The operands, their count and the instruction they make up belong together. -/
theorem readInstruction_eq_ok_iff {text : List Char} {instruction : Instruction} :
    readInstruction width labels index text = .ok instruction ↔
      ∃ operands results,
        splitOperands (splitMnemonic text).2 = .ok operands ∧
        List.Forall₂ (ReadsOperand width labels index) operands results ∧
        Opcode.lookup (String.ofList (Text.uppercase (splitMnemonic text).1))
          (results.map Prod.fst) = some instruction.opcode ∧
        instruction.first = (results.map Prod.snd).getD 0 (Word.zero width) ∧
        instruction.second = (results.map Prod.snd).getD 1 (Word.zero width) := by
  obtain ⟨opcode, first, second⟩ := instruction
  simp only [← readOperands_eq_ok_iff, readInstruction, bind_eq_ok_iff, ← exists_and_left]
  refine exists_congr fun operands => exists_congr fun results => ?_
  refine and_congr_right fun _ => and_congr_right fun _ => ?_
  cases Opcode.lookup (String.ofList (Text.uppercase (splitMnemonic text).1))
      (results.map Prod.fst) with
  | none => simp
  | some known => simp [pure, Except.pure, eq_comm]

theorem ReadsOperand.width_eq (positive : 1 ≤ width) (narrow : width ≤ 64) {operand : List Char}
    {result : Mode × Word} (reads : ReadsOperand width labels index operand result) :
    result.2.width = width := by
  obtain ⟨value, _, fit⟩ := reads
  obtain ⟨_, word⟩ := (operandWord_eq_ok_iff positive narrow).mp fit
  rw [word, Word.width_ofNat]

/-- All operand words of a line have the width. -/
theorem width_of_readsOperands (positive : 1 ≤ width) (narrow : width ≤ 64)
    {operands : List (List Char)} {results : List (Mode × Word)}
    (reads : List.Forall₂ (ReadsOperand width labels index) operands results) :
    ∀ word ∈ results.map Prod.snd, word.width = width := by
  induction reads with
  | nil => simp
  | cons first _ ih => simpa using ⟨first.width_eq positive narrow, by simpa using ih⟩

/-- An instruction whose opcode fits a word is canonical when it is read from a line. -/
theorem canonical_of_readInstruction (positive : 1 ≤ width) (narrow : width ≤ 64)
    {text : List Char} {instruction : Instruction}
    (read : readInstruction width labels index text = .ok instruction)
    (fits : instruction.opcode.code < 2 ^ width) : instruction.Canonical width := by
  obtain ⟨operands, results, _, reads, found, first, second⟩ := readInstruction_eq_ok_iff.mp read
  have modes := Opcode.modes_of_lookup found
  have widths := width_of_readsOperands positive narrow reads
  have operand_width (position : Nat) :
      ((results.map Prod.snd).getD position (Word.zero width)).width = width := by
    rw [List.getD_eq_getElem?_getD]
    cases present : (results.map Prod.snd)[position]? with
    | none => exact Word.width_zero width
    | some word => exact widths word (List.mem_of_getElem? present)
  have unused (position : Nat) (beyond : instruction.opcode.modes.length < position + 1) :
      (results.map Prod.snd).getD position (Word.zero width) = Word.zero width := by
    rw [modes, List.length_map] at beyond
    rw [List.getD_eq_getElem?_getD, List.getElem?_eq_none (by rw [List.length_map]; omega)]
    rfl
  exact ⟨fits, first ▸ operand_width 0, second ▸ operand_width 1,
    fun beyond => first.trans (unused 0 beyond), fun beyond => second.trans (unused 1 beyond)⟩

/-- A line is encoded by the instruction that it reads as. -/
theorem encodeLine_eq_bind (text : List Char) {bits : List Bool} :
    encodeLine width labels index text = .ok bits ↔
      ∃ instruction, readInstruction width labels index text = .ok instruction ∧
        instruction.encode width = .ok bits := by
  rw [encodeLine, bind_eq_ok_iff]
  refine exists_congr fun instruction => and_congr_right fun _ => ?_
  cases encoded : instruction.encode width <;> simp

/-- Exactly the canonical instructions are encoded. -/
theorem encodeLine_eq_ok_iff (positive : 1 ≤ width) (narrow : width ≤ 64) {text : List Char}
    {bits : List Bool} :
    encodeLine width labels index text = .ok bits ↔
      ∃ instruction : Instruction, readInstruction width labels index text = .ok instruction ∧
        instruction.Canonical width ∧ bits = instruction.bits width := by
  rw [encodeLine_eq_bind]
  refine exists_congr fun instruction => and_congr_right fun read => ?_
  constructor
  · intro encoded
    have canonical := canonical_of_readInstruction positive narrow read
      (Instruction.code_lt_of_encode narrow encoded)
    rw [canonical.encode_eq narrow] at encoded
    exact ⟨canonical, (Except.ok.inj encoded).symm⟩
  · rintro ⟨canonical, rfl⟩
    exact canonical.encode_eq narrow

/-- Lines read as instructions one by one, each at the index of its place. -/
inductive Reads (width : Nat) (labels : Labels) : Nat → List (List Char) → List Instruction → Prop
  | nil (index : Nat) : Reads width labels index [] []
  | cons {index : Nat} {text : List Char} {instruction : Instruction} {texts : List (List Char)}
      {instructions : List Instruction}
      (read : readInstruction width labels index text = .ok instruction)
      (canonical : instruction.Canonical width)
      (rest : Reads width labels (index + 1) texts instructions) :
      Reads width labels index (text :: texts) (instruction :: instructions)

namespace Reads

variable {texts : List (List Char)} {instructions : List Instruction}

/-- Instructions that lines read as are canonical. -/
theorem canonical (reads : Reads width labels index texts instructions) :
    ∀ instruction ∈ instructions, instruction.Canonical width := by
  induction reads with
  | nil => simp
  | cons _ canonical _ ih => simpa using ⟨canonical, ih⟩

/-- Each line reads as the instruction in its place. -/
theorem read_at (reads : Reads width labels index texts instructions) {position : Nat}
    {instruction : Instruction} (placed : instructions[position]? = some instruction) :
    ∃ text, texts[position]? = some text ∧
      readInstruction width labels (index + position) text = .ok instruction := by
  induction reads generalizing position with
  | nil => cases placed
  | @cons index text _ _ _ read _ _ ih =>
      cases position with
      | zero =>
          cases placed
          exact ⟨text, rfl, read⟩
      | succ position =>
          obtain ⟨found, here, readHere⟩ := ih placed
          rw [Nat.add_right_comm, Nat.add_assoc] at readHere
          exact ⟨found, here, readHere⟩

end Reads

/-- The second pass succeeds exactly when all lines read as canonical instructions. -/
theorem encodeLines_eq_iff (positive : 1 ≤ width) (narrow : width ≤ 64) {lines : List Line}
    {bits : List Bool} :
    encodeLines width labels index lines = (bits, []) ↔
      ∃ instructions, Reads width labels index (lines.map Line.text) instructions ∧
        bits = instructions.flatMap (Instruction.bits width) := by
  induction lines generalizing index bits with
  | nil =>
      constructor
      · intro encodes
        obtain rfl : [] = bits := congrArg Prod.fst encodes
        exact ⟨[], .nil index, rfl⟩
      · rintro ⟨_, reads, rfl⟩
        cases reads
        rfl
  | cons line rest ih =>
      rw [encodeLines]
      cases encoded : encodeLine width labels index line.text with
      | error cause =>
          constructor
          · intro encodes
            cases congrArg Prod.snd encodes
          · rintro ⟨_, reads, rfl⟩
            cases reads with
            | cons read canonical _ =>
                have encodes := (encodeLine_eq_ok_iff positive narrow).mpr ⟨_, read, canonical, rfl⟩
                rw [encodes] at encoded
                cases encoded
      | ok first =>
          obtain ⟨instruction, read, canonical, rfl⟩ :=
            (encodeLine_eq_ok_iff positive narrow).mp encoded
          constructor
          · intro encodes
            cases remaining : encodeLines width labels (index + 1) rest with
            | mk more errors =>
                rw [remaining] at encodes
                obtain ⟨rfl, rfl⟩ := Prod.mk.inj encodes
                obtain ⟨instructions, reads, rfl⟩ := ih.mp remaining
                exact ⟨instruction :: instructions, .cons read canonical reads, rfl⟩
          · rintro ⟨_, reads, rfl⟩
            cases reads with
            | @cons _ _ found _ others readAgain _ remaining =>
                obtain rfl : instruction = found := Except.ok.inj (read.symm.trans readAgain)
                rw [ih.mpr ⟨others, remaining, rfl⟩]
                rfl

/-- The instruction lines of a source. -/
def instructionTexts (source : List Char) : List (List Char) :=
  (statements (Text.lines source)).filter isInstruction

/-- The labels and the numbered instruction lines of a source. -/
def firstPass (source : List Char) : Labels × List Line := collect 1 0 [] (Text.lines source)

/-- An assembly without errors gives the program of the instructions that the lines read as. -/
theorem assembleChars_eq_iff (positive : 1 ≤ width) (narrow : width ≤ 64) {source : List Char}
    {program : Program} :
    assembleChars source width = ⟨program, []⟩ ↔
      ∃ instructions, Reads width (firstPass source).1 0 (instructionTexts source) instructions ∧
        program = .ofInstructions width instructions := by
  have texts : (firstPass source).2.map Line.text = instructionTexts source :=
    collect_texts 1 0 [] _
  rw [← texts]
  constructor
  · intro assembled
    obtain ⟨made, clean⟩ := Result.mk.inj assembled
    obtain ⟨instructions, reads, bits⟩ := (encodeLines_eq_iff positive narrow).mp
      (Prod.ext rfl clean)
    refine ⟨instructions, reads, ?_⟩
    apply made.symm.trans
    exact congrArg (Program.mk width) bits
  · rintro ⟨instructions, reads, rfl⟩
    have encodes := (encodeLines_eq_iff positive narrow).mpr ⟨instructions, reads, rfl⟩
    have made : assembleChars source width =
        ⟨⟨width, (encodeLines width (firstPass source).1 0 (firstPass source).2).1⟩,
          (encodeLines width (firstPass source).1 0 (firstPass source).2).2⟩ := rfl
    rw [made, encodes]
    rfl

end Assembly

/-- A source that assembles without errors gives the program of its instruction lines. -/
theorem assemble_reads {width : Nat} (positive : 1 ≤ width) (narrow : width ≤ 64)
    {source : String} (assembles : (assemble source width).errors = []) :
    ∃ instructions, Assembly.Reads width (Assembly.firstPass source.toList).1 0
        (Assembly.instructionTexts source.toList) instructions ∧
      (assemble source width).program = .ofInstructions width instructions := by
  have made : Assembly.assembleChars source.toList width =
      ⟨(assemble source width).program, []⟩ := congrArg (Assembly.Result.mk _) assembles
  exact (Assembly.assembleChars_eq_iff positive narrow).mp made

end WordMachine
