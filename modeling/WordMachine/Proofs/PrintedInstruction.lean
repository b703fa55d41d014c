import Mathlib.Data.List.TakeWhile
import WordMachine.Proofs.AssembledProgram
import WordMachine.Proofs.PrintedText

namespace WordMachine

namespace Opcode

/-- Every opcode is found under its mnemonic and modes. -/
theorem lookup_mnemonic (opcode : Opcode) : lookup opcode.mnemonic opcode.modes = some opcode := by
  have each : ∀ opcode ∈ all, lookup opcode.mnemonic opcode.modes = some opcode := by
    decide +kernel
  exact each opcode (mem_all opcode)

def capitals : List Char := "ABCDEFGHIJKLMNOPQRSTUVWXYZ".toList

/-- Mnemonics consist of capitals. -/
theorem mem_capitals_of_mem_mnemonic (opcode : Opcode) :
    ∀ char ∈ opcode.mnemonic.toList, char ∈ capitals := by
  have each : ∀ opcode ∈ all, opcode.mnemonic.toList.all capitals.contains = true := by
    decide +kernel
  intro char inside
  exact List.contains_iff_mem.mp (List.all_eq_true.mp (each opcode (mem_all opcode)) char inside)

/-- Capitals stay capitals. -/
theorem uppercase_of_capitals {text : List Char} (capital : ∀ char ∈ text, char ∈ capitals) :
    Text.uppercase text = text := by
  have each : capitals.all (fun char => Text.Uppercase.ofChar char == [char]) = true := by
    decide +kernel
  have same : ∀ char ∈ text, Text.Uppercase.ofChar char = [char] := fun char inside =>
    beq_iff_eq.mp (List.all_eq_true.mp each char (capital char inside))
  rw [Text.uppercase, List.flatMap_def, List.map_congr_left same]
  exact List.flatMap_singleton' text

/-- Mnemonics consist of letters. -/
theorem isLetter_of_mem_mnemonic (opcode : Opcode) :
    ∀ char ∈ opcode.mnemonic.toList, Assembly.isLetter char = true := by
  have each : capitals.all Assembly.isLetter = true := by decide +kernel
  intro char inside
  exact List.all_eq_true.mp each char (opcode.mem_capitals_of_mem_mnemonic char inside)

theorem mnemonic_ne_nil (opcode : Opcode) : opcode.mnemonic.toList ≠ [] := by
  have each : ∀ opcode ∈ all, opcode.mnemonic.toList ≠ [] := by decide +kernel
  exact each opcode (mem_all opcode)

/-- No opcode has more than two operands. -/
theorem modes_length_le (opcode : Opcode) : opcode.modes.length ≤ 2 := by
  have each : ∀ opcode ∈ all, opcode.modes.length ≤ 2 := by decide +kernel
  exact each opcode (mem_all opcode)

end Opcode

namespace Text

/-- Visible characters are no blanks. -/
theorem isBlank_eq_false {char : Char} (above : 32 < char.toNat) (below : char.toNat < 127) :
    isBlank char = false := by
  simp only [isBlank, Bool.or_eq_false_iff, Bool.and_eq_false_iff, decide_eq_false_iff_not,
    beq_eq_false_iff_ne, ne_eq]
  omega

/-- A numeral consists of digits and minus signs. -/
def isNumeral (char : Char) : Bool := char == '-' || char.isDigit

/-- A numeral differs from every other character. -/
theorem ne_of_isNumeral {char other : Char} (numeral : isNumeral char = true)
    (foreign : isNumeral other = false) : char ≠ other := by
  rintro rfl
  rw [numeral] at foreign
  cases foreign

/-- No numeral is blank. -/
theorem isBlank_of_isNumeral {char : Char} (numeral : isNumeral char = true) :
    isBlank char = false := by
  simp only [isNumeral, Bool.or_eq_true, beq_iff_eq] at numeral
  rcases numeral with rfl | digit
  · rfl
  · have range := Char.isDigit_iff_toNat.mp digit
    have low : 48 ≤ char.toNat := range.1
    have high : char.toNat ≤ 57 := range.2
    exact isBlank_eq_false (by omega) (by omega)

/-- No letter is blank. -/
theorem isBlank_of_isLetter {char : Char} (letter : Assembly.isLetter char = true) :
    isBlank char = false := by
  simp only [Assembly.isLetter, Bool.or_eq_true, Bool.and_eq_true, decide_eq_true_eq, Char.le_def,
    UInt32.le_iff_toNat_le] at letter
  rcases letter with lower | upper
  · have low : 97 ≤ char.toNat := lower.1
    have high : char.toNat ≤ 122 := lower.2
    exact isBlank_eq_false (by omega) (by omega)
  · have low : 65 ≤ char.toNat := upper.1
    have high : char.toNat ≤ 90 := upper.2
    exact isBlank_eq_false (by omega) (by omega)

/-- No numeral is a letter. -/
theorem isLetter_of_isNumeral {char : Char} (numeral : isNumeral char = true) :
    Assembly.isLetter char = false := by
  simp only [isNumeral, Bool.or_eq_true, beq_iff_eq] at numeral
  rcases numeral with rfl | digit
  · rfl
  · have high : char.toNat ≤ 57 := (Char.isDigit_iff_toNat.mp digit).2
    simp only [Assembly.isLetter, Bool.or_eq_false_iff, Bool.and_eq_false_iff,
      decide_eq_false_iff_not, Char.le_def, UInt32.le_iff_toNat_le]
    change (¬ 97 ≤ char.toNat ∨ _) ∧ (¬ 65 ≤ char.toNat ∨ _)
    exact ⟨Or.inl (by omega), Or.inl (by omega)⟩

theorem isNumeral_of_mem_decimal {number : Nat} :
    ∀ char ∈ decimal number, isNumeral char = true := by
  intro char inside
  rw [isNumeral, isDigit_of_mem_decimal inside, Bool.or_true]

/-- Whole numbers are written in numerals. -/
theorem isNumeral_of_mem_integer {number : Int} :
    ∀ char ∈ integer number, isNumeral char = true := by
  cases number with
  | ofNat number => exact isNumeral_of_mem_decimal
  | negSucc number =>
      intro char inside
      rcases List.mem_cons.mp inside with rfl | inside
      · rfl
      · exact isNumeral_of_mem_decimal char inside

theorem integer_ne_nil (number : Int) : integer number ≠ [] := by
  cases number with
  | ofNat number => exact decimal_ne_nil number
  | negSucc number => exact List.cons_ne_nil _ _

end Text

namespace Instruction

/-- The number behind the sigil of a printed operand. -/
def operandNumeral (mode : Mode) (operand : Word) : List Char :=
  if mode.isSigned then Text.integer operand.signed else Text.decimal operand.unsigned

/-- An operand shows its sigil and then its number. -/
theorem operandChars_eq (mode : Mode) (operand : Word) :
    operandChars mode operand = mode.sigil :: operandNumeral mode operand := rfl

/-- The number of an operand is written in numerals. -/
theorem operandNumeral_isNumeral (mode : Mode) (operand : Word) :
    ∀ char ∈ operandNumeral mode operand, Text.isNumeral char = true := by
  unfold operandNumeral
  split
  · exact Text.isNumeral_of_mem_integer
  · exact Text.isNumeral_of_mem_decimal

theorem operandNumeral_ne_nil (mode : Mode) (operand : Word) :
    operandNumeral mode operand ≠ [] := by
  unfold operandNumeral
  split
  · exact Text.integer_ne_nil _
  · exact Text.decimal_ne_nil _

/-- The number that a printed operand shows. -/
def operandNumber (mode : Mode) (operand : Word) : Int :=
  if mode.isSigned then operand.signed else operand.unsigned

variable {width : Nat} {operand : Word}

/-- A printed word fits the width, and the width gives the word back. -/
theorem operandWord_operandNumber (positive : 1 ≤ width) (narrow : width ≤ 64) (mode : Mode)
    (fits : operand.width = width) :
    Assembly.operandWord width (operandNumber mode operand) = .ok operand := by
  subst fits
  have small : (operand.value : Int) < 2 ^ operand.width := by
    exact_mod_cast Word.value_lt operand
  have half : (2 : Int) ^ (operand.width - 1) ≤ 2 ^ operand.width :=
    pow_le_pow_right₀ (by norm_num) (Nat.sub_le _ _)
  have remainder : operandNumber mode operand % 2 ^ operand.width = operand.value := by
    unfold operandNumber
    split
    · exact Word.signed_emod narrow
    · rw [Word.unsigned_eq narrow]
      exact Int.emod_eq_of_lt (Int.natCast_nonneg _) small
  have fits : Assembly.Fits operand.width (operandNumber mode operand) := by
    unfold operandNumber
    split
    · obtain ⟨low, high⟩ := Word.signed_bounds narrow positive
      exact ⟨low, lt_of_lt_of_le high half⟩
    · rw [Word.unsigned_eq narrow]
      have nonpositive : -(2 : Int) ^ (operand.width - 1) ≤ 0 := by
        have power : (0 : Int) < 2 ^ (operand.width - 1) := by positivity
        omega
      exact ⟨nonpositive.trans (Int.natCast_nonneg _), small⟩
  rw [Assembly.operandWord_eq_ok_iff positive narrow, remainder, Int.toNat_natCast]
  exact ⟨fits, (Word.ofNat_value operand).symm⟩

/-- The number of an operand has at most 64 bits. -/
theorem operandNumber_natAbs_lt (positive : 1 ≤ width) (narrow : width ≤ 64) (mode : Mode)
    (fits : operand.width = width) : (operandNumber mode operand).natAbs < 2 ^ 64 := by
  have known := operandWord_operandNumber positive narrow mode fits
  have bound := ((Assembly.operandWord_eq_ok_iff positive narrow).mp known).1.natAbs_lt positive
  exact bound.trans_le (Nat.pow_le_pow_right (by decide) narrow)

/-- The number of an operand is read back. -/
theorem literal?_operandNumeral (positive : 1 ≤ width) (narrow : width ≤ 64) (mode : Mode)
    (fits : operand.width = width) :
    Assembly.literal? (operandNumeral mode operand) = some (operandNumber mode operand) := by
  have small := operandNumber_natAbs_lt positive narrow mode fits
  unfold operandNumeral operandNumber at *
  split
  · rename_i isSigned
    rw [if_pos isSigned] at small
    exact Assembly.literal?_integer small
  · rename_i unsigned
    rw [if_neg unsigned] at small
    exact Assembly.literal?_decimal (by simpa using small)

end Instruction

namespace Assembly

variable {width index : Nat} {labels : Labels}

/-- A printed operand is no label and reads as its mode and its word. -/
theorem readsOperand_operandChars (positive : 1 ≤ width) (narrow : width ≤ 64) (mode : Mode)
    {operand : Word} (fits : operand.width = width) :
    ReadsOperand width labels index (Instruction.operandChars mode operand) (mode, operand) := by
  refine ⟨Instruction.operandNumber mode operand, ?_,
    Instruction.operandWord_operandNumber positive narrow mode fits⟩
  have notLabel : ¬ isLabel (Instruction.operandChars mode operand) = true := by
    rw [Instruction.operandChars_eq]
    cases mode <;> simp [isLabel, isLetter, Mode.sigil]
  have numeral : isLabel (Instruction.operandNumeral mode operand) = false := by
    obtain ⟨first, rest, spelled⟩ :=
      List.exists_cons_of_ne_nil (Instruction.operandNumeral_ne_nil mode operand)
    have isNumeral := Instruction.operandNumeral_isNumeral mode operand first
      (by rw [spelled]; exact List.mem_cons_self)
    have noPeriod : first ≠ '.' := by
      rintro rfl
      exact absurd isNumeral (by decide)
    rw [spelled, isLabel, Text.isLetter_of_isNumeral isNumeral]
    simp [noPeriod]
  have sigil : Mode.ofSigil? ((Instruction.operandChars mode operand).headD ' ') = some mode :=
    Mode.ofSigil?_eq_some_iff.mpr rfl
  have tail : (Instruction.operandChars mode operand).tail =
      Instruction.operandNumeral mode operand := rfl
  rw [readOperand, if_neg notLabel]
  simp only [sigil, tail, numeral, Bool.and_false, Bool.false_and, Bool.false_eq_true, if_false,
    Instruction.literal?_operandNumeral positive narrow mode fits]

/-- A printed operand is a sigil with a numeral behind it. -/
def IsPrinted (text : List Char) : Prop :=
  ∃ mode numeral, text = Mode.sigil mode :: numeral ∧ numeral ≠ [] ∧
    ∀ char ∈ numeral, Text.isNumeral char = true

/-- Operands are printed without blanks and commas. -/
theorem isPrinted_operandChars (mode : Mode) (operand : Word) :
    IsPrinted (Instruction.operandChars mode operand) :=
  ⟨mode, _, rfl, Instruction.operandNumeral_ne_nil mode operand,
    Instruction.operandNumeral_isNumeral mode operand⟩

namespace IsPrinted

variable {text : List Char}

theorem ne_nil (printed : IsPrinted text) : text ≠ [] := by
  obtain ⟨mode, numeral, rfl, _⟩ := printed
  exact List.cons_ne_nil _ _

/-- Every character is a sigil or part of a numeral. -/
theorem char_cases (printed : IsPrinted text) :
    ∀ char ∈ text, isSigil char = true ∨ Text.isNumeral char = true := by
  obtain ⟨mode, numeral, rfl, _, numerals⟩ := printed
  intro char inside
  rcases List.mem_cons.mp inside with rfl | inside
  · cases mode <;> exact Or.inl rfl
  · exact Or.inr (numerals char inside)

/-- Printed texts have no blanks. -/
theorem not_blank (printed : IsPrinted text) : ∀ char ∈ text, Text.isBlank char = false := by
  intro char inside
  rcases printed.char_cases char inside with sigil | numeral
  · obtain ⟨mode, found⟩ := Option.isSome_iff_exists.mp sigil
    rw [Mode.ofSigil?_eq_some_iff.mp found]
    cases mode <;> rfl
  · exact Text.isBlank_of_isNumeral numeral

/-- Printed texts have no commas. -/
theorem no_comma (printed : IsPrinted text) : ∀ char ∈ text, (char == ',') = false := by
  intro char inside
  rw [beq_eq_false_iff_ne]
  rintro rfl
  rcases printed.char_cases _ inside with sigil | numeral
  · exact absurd sigil (by decide)
  · exact absurd numeral (by decide)

/-- Printed texts have nothing to trim. -/
theorem trim_eq (printed : IsPrinted text) : Text.trim text = text :=
  Text.trim_eq_self
    (fun char first => printed.not_blank char (List.mem_of_mem_head? first))
    fun char last => printed.not_blank char (List.mem_of_mem_getLast? last)

/-- A printed operand opens with a single sigil. -/
theorem sigils_length (printed : IsPrinted text) : (text.takeWhile isSigil).length ≤ 1 := by
  obtain ⟨mode, numeral, rfl, nonempty, numerals⟩ := printed
  obtain ⟨first, rest, rfl⟩ := List.exists_cons_of_ne_nil nonempty
  have noSigil : ¬ isSigil first = true := by
    intro sigil
    have numeral := numerals first List.mem_cons_self
    obtain ⟨other, found⟩ := Option.isSome_iff_exists.mp sigil
    rw [Mode.ofSigil?_eq_some_iff.mp found] at numeral
    cases other <;> cases numeral
  have sigil : isSigil mode.sigil = true := by cases mode <;> rfl
  rw [List.takeWhile_cons_of_pos sigil, List.takeWhile_cons_of_neg noSigil]
  exact Nat.le_refl _

end IsPrinted

/-- Such a text between commas is one operand, and it has no sigils for other operands. -/
structure IsOperand (text : List Char) : Prop where
  nonempty : text ≠ []
  noComma : ∀ char ∈ text, (char == ',') = false
  trimmed : Text.trim text = text
  sigils_length : (text.takeWhile isSigil).length ≤ 1

/-- A printed text is one operand. -/
theorem IsPrinted.isOperand {text : List Char} (printed : IsPrinted text) : IsOperand text :=
  ⟨printed.ne_nil, printed.no_comma, printed.trim_eq, printed.sigils_length⟩

/-- The operands are the pieces between the commas when no piece is blank. -/
theorem listOperands_eq {text : List Char} {texts operands : List (List Char)}
    (cut : Text.pieces (· == ',') text = texts) (trimmed : texts.map Text.trim = operands)
    (nonempty : ∀ operand ∈ operands, operand ≠ []) : listOperands text = operands := by
  rw [listOperands, cut, trimmed, List.filter_eq_self]
  intro operand listed
  simp [nonempty operand listed]

/-- Operands are cut apart at their commas. -/
theorem pieces_intercalate {texts : List (List Char)} (nonempty : texts ≠ [])
    (operands : ∀ text ∈ texts, IsOperand text) :
    (Text.pieces (· == ',') (' ' :: [',', ' '].intercalate texts)) = texts.map (' ' :: ·) := by
  induction texts with
  | nil => exact absurd rfl nonempty
  | cons text texts ih =>
      have noComma : ∀ char ∈ ' ' :: text, (char == ',') = false := by
        intro char inside
        rcases List.mem_cons.mp inside with rfl | inside
        · rfl
        · exact (operands text List.mem_cons_self).noComma char inside
      cases texts with
      | nil =>
          rw [List.intercalate_singleton]
          exact Text.pieces_of_unbroken noComma
      | cons next texts =>
          have tail := ih (List.cons_ne_nil _ _)
            fun text inside => operands text (List.mem_cons_of_mem _ inside)
          rw [List.intercalate_cons_cons, List.append_assoc, List.map_cons, ← tail]
          exact Text.pieces_append_break noComma rfl _

/-- Operands are told apart by their commas. -/
theorem splitOperands_intercalate {texts : List (List Char)} (nonempty : texts ≠ [])
    (operands : ∀ text ∈ texts, IsOperand text) :
    splitOperands (' ' :: [',', ' '].intercalate texts) = .ok texts := by
  have trimmed : (texts.map (' ' :: ·)).map Text.trim = texts := by
    have same : ∀ text ∈ texts, Text.trim (' ' :: text) = text := by
      intro text inside
      rw [Text.trim_cons_blank rfl, (operands text inside).trimmed]
    rw [List.map_map]
    apply (List.map_congr_left same).trans
    exact List.map_id texts
  have listed : listOperands (' ' :: [',', ' '].intercalate texts) = texts :=
    listOperands_eq (pieces_intercalate nonempty operands) trimmed
      fun text inside => (operands text inside).nonempty
  obtain ⟨first, rest, rfl⟩ := List.exists_cons_of_ne_nil nonempty
  rw [splitOperands, listed]
  exact if_pos (operands first List.mem_cons_self).sigils_length

/-- A mnemonic ends before a blank, before a sigil or with the text. -/
theorem splitMnemonic_append {mnemonic rest : List Char}
    (inside : ∀ char ∈ mnemonic, Text.isBlank char = false ∧ isSigil char = false)
    (stops : ∀ char ∈ rest.head?, (Text.isBlank char || isSigil char) = true) :
    splitMnemonic (mnemonic ++ rest) = (mnemonic, rest) := by
  have kept : ∀ char ∈ mnemonic, (!(Text.isBlank char || isSigil char)) = true := by
    intro char listed
    rw [(inside char listed).1, (inside char listed).2]
    rfl
  have outside : rest.takeWhile (fun char => !(Text.isBlank char || isSigil char)) = [] ∧
      rest.dropWhile (fun char => !(Text.isBlank char || isSigil char)) = rest := by
    cases rest with
    | nil => exact ⟨rfl, rfl⟩
    | cons first rest =>
        have ends : ¬ (!(Text.isBlank first || isSigil first)) = true := by
          rw [stops first rfl]
          exact Bool.false_ne_true
        exact ⟨List.takeWhile_cons_of_neg ends, List.dropWhile_cons_of_neg ends⟩
  rw [splitMnemonic]
  simp only [List.takeWhile_append_of_pos kept, List.dropWhile_append_of_pos kept, outside.1,
    outside.2, List.append_nil]

/-- No letter is a sigil. -/
theorem isSigil_of_isLetter {char : Char} (letter : isLetter char = true) :
    isSigil char = false := by
  rw [Bool.eq_false_iff]
  intro sigil
  obtain ⟨mode, found⟩ := Option.isSome_iff_exists.mp sigil
  rw [Mode.ofSigil?_eq_some_iff.mp found] at letter
  cases mode <;> cases letter

end Assembly

namespace Instruction

open Assembly

variable {width index : Nat} {labels : Labels} {instruction : Instruction}

/-- The texts of the operands that an instruction shows. -/
def operandTexts (instruction : Instruction) : List (List Char) :=
  List.zipWith operandChars instruction.opcode.modes instruction.operands

/-- The part of the text behind the mnemonic. -/
def operandTail (instruction : Instruction) : List Char :=
  match instruction.operandTexts with
  | [] => []
  | texts => ' ' :: [',', ' '].intercalate texts

/-- An instruction shows its mnemonic and then its operands. -/
theorem chars_eq (instruction : Instruction) :
    instruction.chars = instruction.opcode.mnemonic.toList ++ instruction.operandTail := rfl

/-- The operands that an instruction uses, with their modes. -/
def usedOperands (instruction : Instruction) : List (Mode × Word) :=
  instruction.opcode.modes.zip instruction.operands

/-- The operands that are used are shown in order. -/
theorem operandTexts_eq (instruction : Instruction) :
    instruction.operandTexts =
      instruction.usedOperands.map fun used => operandChars used.1 used.2 :=
  List.map_uncurry_zip_eq_zipWith.symm

/-- The operands that are used have the modes of the opcode. -/
theorem usedOperands_modes (instruction : Instruction) :
    instruction.usedOperands.map Prod.fst = instruction.opcode.modes :=
  List.map_fst_zip instruction.opcode.modes_length_le

/-- The unused operands of a canonical instruction are zeros. -/
theorem Canonical.usedOperands_words (canonical : instruction.Canonical width) :
    instruction.first = (instruction.usedOperands.map Prod.snd).getD 0 (Word.zero width) ∧
      instruction.second = (instruction.usedOperands.map Prod.snd).getD 1 (Word.zero width) := by
  have first := canonical.first_unused
  have second := canonical.second_unused
  unfold usedOperands operands
  cases modes : instruction.opcode.modes with
  | nil =>
      rw [modes] at first second
      exact ⟨first (Nat.lt_succ_self 0), second (Nat.zero_lt_succ 1)⟩
  | cons mode rest =>
      cases rest with
      | nil =>
          rw [modes] at second
          exact ⟨rfl, second (Nat.lt_succ_self 1)⟩
      | cons next more => exact ⟨rfl, rfl⟩

theorem operandTexts_isPrinted (instruction : Instruction) :
    ∀ text ∈ instruction.operandTexts, IsPrinted text := by
  intro text inside
  rw [operandTexts_eq] at inside
  obtain ⟨⟨mode, operand⟩, _, rfl⟩ := List.mem_map.mp inside
  exact isPrinted_operandChars mode operand

/-- The operands of a printed instruction are read back. -/
theorem splitOperands_operandTail (instruction : Instruction) :
    splitOperands instruction.operandTail = .ok instruction.operandTexts := by
  unfold operandTail
  split
  · rename_i none
    rw [none]
    rfl
  · rename_i some
    exact splitOperands_intercalate some fun text listed =>
      (instruction.operandTexts_isPrinted text listed).isOperand

/-- A canonical instruction is read from its text, whatever labels are defined. -/
theorem Canonical.readInstruction_chars (canonical : instruction.Canonical width)
    (positive : 1 ≤ width) (narrow : width ≤ 64) :
    readInstruction width labels index instruction.chars = .ok instruction := by
  rw [readInstruction_eq_ok_iff]
  have split : splitMnemonic instruction.chars =
      (instruction.opcode.mnemonic.toList, instruction.operandTail) := by
    rw [chars_eq]
    apply splitMnemonic_append
    · intro char listed
      have letter := instruction.opcode.isLetter_of_mem_mnemonic char listed
      exact ⟨Text.isBlank_of_isLetter letter, isSigil_of_isLetter letter⟩
    · unfold operandTail
      split
      · intro char impossible
        cases impossible
      · intro char first
        obtain rfl : ' ' = char := Option.some.inj first
        rfl
  have reads : List.Forall₂ (ReadsOperand width labels index) instruction.operandTexts
      instruction.usedOperands := by
    rw [operandTexts_eq, List.forall₂_map_left_iff, List.forall₂_same]
    intro used inside
    have fits : used.2.width = width := by
      have listed := (List.of_mem_zip inside).2
      simp only [operands, List.mem_cons, List.not_mem_nil, or_false] at listed
      rcases listed with same | same
      · rw [same, canonical.first_width]
      · rw [same, canonical.second_width]
    exact readsOperand_operandChars positive narrow used.1 fits
  obtain ⟨first, second⟩ := canonical.usedOperands_words
  refine ⟨_, _, by rw [split]; exact instruction.splitOperands_operandTail, reads, ?_, first, second⟩
  rw [split, Opcode.uppercase_of_capitals instruction.opcode.mem_capitals_of_mem_mnemonic,
    String.ofList_toList, usedOperands_modes, Opcode.lookup_mnemonic]

/-- These characters make up the text of an instruction. -/
def isShown (char : Char) : Bool :=
  isLetter char || isSigil char || Text.isNumeral char || char == ' ' || char == ','

/-- Instructions consist of visible characters and spaces. -/
theorem isShown_of_mem_chars (instruction : Instruction) :
    ∀ char ∈ instruction.chars, isShown char = true := by
  rw [chars_eq, List.forall_mem_append]
  constructor
  · intro char inside
    simp [isShown, instruction.opcode.isLetter_of_mem_mnemonic char inside]
  · unfold operandTail
    split
    · exact List.forall_mem_nil _
    · rw [List.forall_mem_cons]
      refine ⟨rfl, Text.forall_mem_intercalate (by simp [isShown]) ?_⟩
      intro text listed char inside
      obtain sigil | numeral :=
        (instruction.operandTexts_isPrinted text listed).char_cases char inside
      · simp [isShown, sigil]
      · simp [isShown, numeral]

/-- No character of an instruction has a meaning for lines, labels or comments. -/
theorem ne_of_mem_chars (instruction : Instruction) {char other : Char}
    (inside : char ∈ instruction.chars) (foreign : isShown other = false) : char ≠ other := by
  rintro rfl
  rw [instruction.isShown_of_mem_chars char inside] at foreign
  cases foreign

/-- An instruction stays on its line. -/
theorem chars_unbroken (instruction : Instruction) : Text.Unbroken instruction.chars :=
  fun _ inside => ⟨instruction.ne_of_mem_chars inside (by decide),
    instruction.ne_of_mem_chars inside (by decide)⟩

theorem chars_ne_nil (instruction : Instruction) : instruction.chars ≠ [] := by
  rw [chars_eq]
  exact List.append_ne_nil_of_left_ne_nil instruction.opcode.mnemonic_ne_nil _

/-- An instruction ends in no blank. -/
theorem chars_ends (instruction : Instruction) :
    Text.EndsIn (fun char => Text.isBlank char = false) instruction.chars := by
  rw [chars_eq]
  unfold operandTail
  split
  · rw [List.append_nil]
    exact .of_forall instruction.opcode.mnemonic_ne_nil fun char inside =>
      Text.isBlank_of_isLetter (instruction.opcode.isLetter_of_mem_mnemonic char inside)
  · rename_i nonempty
    have operands : Text.EndsIn (fun char => Text.isBlank char = false)
        ([',', ' '].intercalate instruction.operandTexts) :=
      .intercalate nonempty fun text inside =>
        .of_forall (instruction.operandTexts_isPrinted text inside).ne_nil
          (instruction.operandTexts_isPrinted text inside).not_blank
    exact (operands.append_left [' ']).append_left _

/-- Nothing of the text of an instruction is a comment or a blank at its ends. -/
theorem withoutComment_chars (instruction : Instruction) :
    Text.withoutComment instruction.chars = instruction.chars := by
  have noComment : instruction.chars.takeWhile (· != ';') = instruction.chars := by
    rw [List.takeWhile_eq_self_iff]
    intro char inside
    rw [bne_iff_ne]
    exact instruction.ne_of_mem_chars inside (by decide)
  rw [Text.withoutComment, noComment]
  apply Text.trim_eq_self
  · intro char first
    obtain ⟨letter, rest, spelled⟩ :=
      List.exists_cons_of_ne_nil instruction.opcode.mnemonic_ne_nil
    rw [chars_eq, spelled] at first
    obtain rfl : letter = char := Option.some.inj first
    exact Text.isBlank_of_isLetter (instruction.opcode.isLetter_of_mem_mnemonic letter
      (by rw [spelled]; exact List.mem_cons_self))
  · exact instruction.chars_ends.getLast

/-- The text of an instruction defines no label. -/
theorem isInstruction_chars (instruction : Instruction) :
    isInstruction instruction.chars = true := by
  have noLabel : labelOf? instruction.chars = none := by
    unfold labelOf?
    split
    · rename_i colon
      exact absurd rfl (instruction.ne_of_mem_chars (List.mem_of_getLast? colon) (by decide))
    · rfl
  rw [isInstruction, noLabel]
  rfl

end Instruction

end WordMachine
