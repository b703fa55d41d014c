import WordMachine.Program.Listing
import WordMachine.Proofs.PrintedInstruction

namespace WordMachine

/-- The text behind the first colon that a space follows. -/
def afterAddress? : List Char → Option (List Char)
  | [] => none
  | ':' :: ' ' :: rest => some rest
  | _ :: rest => afterAddress? rest

/-- The lines of a listing without their addresses, and without the lines that have none. -/
def stripped (listing : List Char) : List Char :=
  ['\n'].intercalate ((Text.lines listing).filterMap afterAddress?)

/-- What stands behind an address is kept. -/
theorem afterAddress?_append {text : List Char} (noColon : ∀ char ∈ text, char ≠ ':')
    (rest : List Char) : afterAddress? (text ++ ':' :: ' ' :: rest) = some rest := by
  induction text with
  | nil => rfl
  | cons char text ih =>
      rw [List.cons_append, afterAddress?]
      · exact ih fun other inside => noColon other (List.mem_cons_of_mem _ inside)
      · intro _ colon
        exact absurd colon (noColon char List.mem_cons_self)

/-- A line without a colon has no address. -/
theorem afterAddress?_of_no_colon {text : List Char} (noColon : ∀ char ∈ text, char ≠ ':') :
    afterAddress? text = none := by
  induction text with
  | nil => rfl
  | cons char text ih =>
      rw [afterAddress?]
      · exact ih fun other inside => noColon other (List.mem_cons_of_mem _ inside)
      · intro _ colon
        exact absurd colon (noColon char List.mem_cons_self)

namespace Text

theorem isNumeral_of_mem_address {number : Nat} :
    ∀ char ∈ address number, isNumeral char = true := by
  intro char inside
  rw [address, padLeft, List.mem_append] at inside
  rcases inside with filler | digit
  · rw [(List.mem_replicate.mp filler).2]
    rfl
  · exact isNumeral_of_mem_decimal char digit

end Text

namespace Program

variable {width : Nat}

/-- The lines of the header, without the line feeds. -/
def headerLines (width : Nat) : List (List Char) :=
  ["; ".toList ++ Text.decimal width ++ "-bit disassembly".toList, "; -----------------".toList, []]

theorem listingHeader_eq (width : Nat) :
    listingHeader width = (headerLines width).flatMap (· ++ ['\n']) := by
  have shown : listingHeader width = ("; " ++ toString width ++
      "-bit disassembly\n; -----------------\n\n").toList := rfl
  rw [shown]
  simp [headerLines, Text.decimal]

/-- A text is plain when a test of its characters says so. -/
theorem plain_of_all {text : List Char}
    (plain : text.all (fun char => char != '\n' && char != '\r' && char != ':') = true) :
    ∀ char ∈ text, char ≠ '\n' ∧ char ≠ '\r' ∧ char ≠ ':' := by
  intro char inside
  simpa [and_assoc] using List.all_eq_true.mp plain char inside

/-- The header has no colons. -/
theorem headerLines_plain (width : Nat) :
    ∀ line ∈ headerLines width, ∀ char ∈ line, char ≠ '\n' ∧ char ≠ '\r' ∧ char ≠ ':' := by
  intro line listed char inside
  simp only [headerLines, List.mem_cons, List.not_mem_nil, or_false] at listed
  rcases listed with rfl | rfl | rfl
  · rw [List.mem_append, List.mem_append] at inside
    rcases inside with (opening | digit) | closing
    · exact plain_of_all (by decide) char opening
    · have numeral := Text.isNumeral_of_mem_decimal char digit
      exact ⟨Text.ne_of_isNumeral numeral rfl, Text.ne_of_isNumeral numeral rfl,
        Text.ne_of_isNumeral numeral rfl⟩
    · exact plain_of_all (by decide) char closing
  · exact plain_of_all (by decide) char inside
  · cases inside

/-- The line of an instruction in a listing, without its line feed. -/
def instructionLine (placed : Nat × Instruction) : List Char :=
  Text.address placed.1 ++ ':' :: ' ' :: placed.2.chars

/-- An instruction stays on its line. -/
theorem instructionLine_unbroken (placed : Nat × Instruction) :
    Text.Unbroken (instructionLine placed) := by
  intro char inside
  rw [instructionLine, List.mem_append, List.mem_cons, List.mem_cons] at inside
  rcases inside with number | rfl | rfl | shown
  · have numeral := Text.isNumeral_of_mem_address char number
    exact ⟨Text.ne_of_isNumeral numeral rfl, Text.ne_of_isNumeral numeral rfl⟩
  · decide
  · decide
  · exact placed.2.chars_unbroken char shown

/-- Behind its address, a line shows the instruction. -/
theorem afterAddress?_instructionLine (placed : Nat × Instruction) :
    afterAddress? (instructionLine placed) = some placed.2.chars :=
  afterAddress?_append (fun char inside =>
    Text.ne_of_isNumeral (Text.isNumeral_of_mem_address char inside) rfl) _

/-- Addresses do not depend on the items. -/
theorem addressed_map {A B : Type} (change : A → B) (items : List A) :
    addressed (items.map change) =
      (addressed items).map fun placed => (placed.1, change placed.2) := by
  simp [addressed, List.zipIdx_map, List.map_map, Function.comp_def]

theorem addressed_items {A : Type} (items : List A) : (addressed items).map Prod.snd = items := by
  rw [addressed, List.map_map]
  exact List.zipIdx_map_fst 0 items

/-- The listing of a program of instructions has one line for each. -/
theorem listingChars_ofInstructions (positive : 1 ≤ width) (narrow : width ≤ 64)
    {instructions : List Instruction}
    (canonical : ∀ instruction ∈ instructions, instruction.Canonical width) :
    (ofInstructions width instructions).listingChars =
      (headerLines width ++ (addressed instructions).map instructionLine).flatMap
        (· ++ ['\n']) := by
  have line : ∀ placed ∈ addressed instructions,
      listingLine width placed.1 (placed.2.bits width) = instructionLine placed ++ ['\n'] := by
    intro placed listed
    have member : placed.2 ∈ instructions := by
      rw [← addressed_items instructions]
      exact List.mem_map_of_mem listed
    have shown : Instruction.disassemble (placed.2.bits width) width = placed.2.chars := by
      rw [Instruction.disassemble, (canonical placed.2 member).decode_bits narrow]
    rw [listingLine, shown, instructionLine, List.append_assoc _ [':', ' ']]
    rfl
  rw [listingChars, ofInstructions_instructions positive canonical, addressed_map,
    List.flatMap_append, ← listingHeader_eq, List.flatMap_map, List.flatMap_map]
  congr 1
  rw [List.flatMap_def, List.flatMap_def]
  exact congrArg List.flatten (List.map_congr_left line)

/-- Only the texts of the instructions are left of a listing. -/
theorem stripped_listingChars (positive : 1 ≤ width) (narrow : width ≤ 64)
    {instructions : List Instruction}
    (canonical : ∀ instruction ∈ instructions, instruction.Canonical width) :
    stripped (ofInstructions width instructions).listingChars =
      ['\n'].intercalate (instructions.map Instruction.chars) := by
  have unbroken : ∀ line ∈ headerLines width ++ (addressed instructions).map instructionLine,
      Text.Unbroken line := by
    intro line listed
    rcases List.mem_append.mp listed with header | body
    · exact fun char inside =>
        ⟨(headerLines_plain width line header char inside).1,
          (headerLines_plain width line header char inside).2.1⟩
    · obtain ⟨placed, _, rfl⟩ := List.mem_map.mp body
      exact instructionLine_unbroken placed
  have header : (headerLines width).filterMap afterAddress? = [] := by
    rw [List.filterMap_eq_nil_iff]
    intro line listed
    exact afterAddress?_of_no_colon fun char inside =>
      (headerLines_plain width line listed char inside).2.2
  have body : ((addressed instructions).map instructionLine).filterMap afterAddress? =
      instructions.map Instruction.chars := by
    have each : afterAddress? ∘ instructionLine = some ∘ Instruction.chars ∘ Prod.snd := by
      funext placed
      exact afterAddress?_instructionLine placed
    rw [List.filterMap_map, each, List.filterMap_eq_map, ← List.map_map, addressed_items]
  rw [stripped, listingChars_ofInstructions positive narrow canonical,
    Text.lines_flatMap_feed unbroken, List.filterMap_append, header, body, List.nil_append]

end Program

namespace Assembly

variable {width : Nat}

/-- The texts of canonical instructions read as these instructions, whatever labels are defined. -/
theorem reads_chars (positive : 1 ≤ width) (narrow : width ≤ 64) (labels : Labels) (index : Nat)
    {instructions : List Instruction}
    (canonical : ∀ instruction ∈ instructions, instruction.Canonical width) :
    Reads width labels index (instructions.map Instruction.chars) instructions := by
  induction instructions generalizing index with
  | nil => exact .nil index
  | cons instruction rest ih =>
      have first := canonical instruction List.mem_cons_self
      exact .cons (first.readInstruction_chars positive narrow) first
        (ih (index + 1) fun other inside => canonical other (List.mem_cons_of_mem _ inside))

/-- Printed instructions are statements. -/
theorem statements_chars (instructions : List Instruction) :
    (statements (instructions.map Instruction.chars)).filter isInstruction =
      instructions.map Instruction.chars := by
  induction instructions with
  | nil => rfl
  | cons instruction rest ih =>
      have text := instruction.withoutComment_chars
      have nonempty : ¬ (Text.withoutComment instruction.chars).isEmpty = true := by
        rw [text, List.isEmpty_iff]
        exact instruction.chars_ne_nil
      rw [List.map_cons, statements_cons _ nonempty, text,
        List.filter_cons_of_pos instruction.isInstruction_chars, ih]

/-- The joined texts of canonical instructions assemble to their program. -/
theorem assembleChars_chars (positive : 1 ≤ width) (narrow : width ≤ 64)
    {instructions : List Instruction}
    (canonical : ∀ instruction ∈ instructions, instruction.Canonical width) :
    assembleChars (['\n'].intercalate (instructions.map Instruction.chars)) width =
      ⟨.ofInstructions width instructions, []⟩ := by
  rw [assembleChars_eq_iff positive narrow]
  refine ⟨instructions, ?_, rfl⟩
  have lines : Text.lines (['\n'].intercalate (instructions.map Instruction.chars)) =
      instructions.map Instruction.chars := by
    apply Text.lines_intercalate_feed
    · simpa using fun instruction _ => instruction.chars_unbroken
    · simpa using fun instruction _ => instruction.chars_ne_nil
  rw [instructionTexts, lines, statements_chars]
  exact reads_chars positive narrow _ 0 canonical

end Assembly

/-- The listing of a program without its header and its addresses. -/
def Program.strippedListing (program : Program) : String :=
  String.ofList (stripped program.listing.toList)

/-- The stripped listing of canonical instructions assembles to their program. -/
theorem assemble_ofInstructions {width : Nat} (positive : 1 ≤ width) (narrow : width ≤ 64)
    {instructions : List Instruction}
    (canonical : ∀ instruction ∈ instructions, instruction.Canonical width) :
    assemble (Program.ofInstructions width instructions).strippedListing width =
      ⟨.ofInstructions width instructions, []⟩ := by
  rw [assemble, Program.strippedListing, String.toList_ofList, Program.listing,
    String.toList_ofList, Program.stripped_listingChars positive narrow canonical]
  exact Assembly.assembleChars_chars positive narrow canonical

/-- Assembly inverts the listing of every program of canonical instructions. -/
theorem assemble_strippedListing (width : Nat) (positive : 1 ≤ width) (narrow : width ≤ 64) :
    (∀ instructions : List Instruction,
      (∀ instruction ∈ instructions, instruction.Canonical width) →
        ∃ program, instructions.foldlM Program.push (Program.empty width) = .ok program ∧
          assemble program.strippedListing width = ⟨program, []⟩) ∧
    ∀ source, (assemble source width).errors = [] →
      assemble (assemble source width).program.strippedListing width = assemble source width := by
  constructor
  · intro instructions canonical
    exact ⟨.ofInstructions width instructions, Program.foldlM_push narrow [] canonical,
      assemble_ofInstructions positive narrow canonical⟩
  · intro source assembles
    have made : assemble source width = ⟨(assemble source width).program, []⟩ :=
      congrArg (Assembly.Result.mk _) assembles
    obtain ⟨instructions, reads, program⟩ := assemble_reads positive narrow assembles
    rw [made, program]
    exact assemble_ofInstructions positive narrow reads.canonical

/-- The extreme operands of 64 bits survive. -/
theorem assemble_strippedListing_extreme :
    assemble (assemble "MOV %0, #-9223372036854775808\nOUT @18446744073709551615" 64).program.strippedListing
        64 =
      assemble "MOV %0, #-9223372036854775808\nOUT @18446744073709551615" 64 :=
  (assemble_strippedListing 64 (by decide) (by decide)).2 _ (by decide +kernel)

end WordMachine
