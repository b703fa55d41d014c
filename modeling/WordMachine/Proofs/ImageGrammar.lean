import WordMachine.Proofs.Contents
import WordMachine.Proofs.ImageRoundTrip

namespace WordMachine.Image

def IsBinary (text : List Char) : Prop := ∀ char ∈ text, char = '0' ∨ char = '1'

/-- A row is a content of exactly three binary words, each as long as the width. -/
def IsRow (width : Nat) (content : List Char) : Prop :=
  (Text.words content).length = 3 ∧
    ∀ word ∈ Text.words content, IsBinary word ∧ word.length = width

/-- An image has some content, and all its contents are rows of one width. -/
def IsImage (width : Nat) (contents : List (List Char)) : Prop :=
  (∃ content ∈ contents, content ≠ []) ∧ ∀ content ∈ contents, content ≠ [] → IsRow width content

/-- All words of the contents in order. -/
def allWords (contents : List (List Char)) : List (List Char) := contents.flatMap Text.words

/-- The digits of words as bits. -/
def spelledBits (words : List (List Char)) : List Bool := words.flatten.map (· == '1')

/-- The first word fixes the width. -/
def firstWidth (contents : List (List Char)) : Nat := ((allWords contents).headD []).length

/-- The first content at this position that is no row of the width. -/
structure FailsFirst (width : Nat) (contents : List (List Char)) (position : Nat) : Prop where
  fails : ∃ content, contents[position]? = some content ∧ content ≠ [] ∧ ¬ IsRow width content
  first : ∀ earlier < position, ∀ content, contents[earlier]? = some content → content ≠ [] →
    IsRow width content

section Grammar

variable {width position : Nat} {content : List Char} {contents : List (List Char)}

/-- A content that is no row fails at once. -/
theorem FailsFirst.here (nonempty : content ≠ []) (noRow : ¬ IsRow width content) :
    FailsFirst width (content :: contents) 0 :=
  ⟨⟨content, rfl, nonempty, noRow⟩, nofun⟩

/-- A row in front moves the first failure. -/
theorem FailsFirst.cons (row : content ≠ [] → IsRow width content)
    (fails : FailsFirst width contents position) :
    FailsFirst width (content :: contents) (position + 1) := by
  refine ⟨fails.fails, fun earlier before other listed => ?_⟩
  cases earlier with
  | zero => exact Option.some.inj listed ▸ row
  | succ earlier => exact fails.first earlier (Nat.lt_of_succ_lt_succ before) other listed

/-- Only one position is the first. -/
theorem FailsFirst.unique {other : Nat} (fails : FailsFirst width contents position)
    (again : FailsFirst width contents other) : position = other := by
  obtain ⟨content, here, nonempty, noRow⟩ := fails.fails
  obtain ⟨otherContent, there, otherNonempty, otherNoRow⟩ := again.fails
  rcases Nat.lt_trichotomy position other with before | same | behind
  · exact absurd (again.first position before content here nonempty) noRow
  · exact same
  · exact absurd (fails.first other behind otherContent there otherNonempty) otherNoRow

/-- A text with a failure is no image. -/
theorem FailsFirst.not_isImage (fails : FailsFirst width contents position) :
    ¬ IsImage width contents := by
  obtain ⟨content, here, nonempty, noRow⟩ := fails.fails
  exact fun image => noRow (image.2 content (List.mem_of_getElem? here) nonempty)

theorem firstWidth_cons_nil (contents : List (List Char)) :
    firstWidth ([] :: contents) = firstWidth contents := rfl

/-- The first row decides the width. -/
theorem firstWidth_cons_row (row : IsRow width content) (contents : List (List Char)) :
    firstWidth (content :: contents) = width := by
  have filled : 0 < (Text.words content).length := by
    rw [row.1]
    decide
  obtain ⟨first, rest, cut⟩ := List.exists_cons_of_length_pos filled
  rw [firstWidth, allWords, List.flatMap_cons, cut, List.cons_append, List.headD_cons]
  exact (row.2 first (by rw [cut]; exact List.mem_cons_self)).2

/-- The width of an image is the width of its first word. -/
theorem IsImage.width_eq (image : IsImage width contents) : width = firstWidth contents := by
  induction contents with
  | nil =>
      obtain ⟨⟨_, impossible, _⟩, _⟩ := image
      cases impossible
  | cons content rest ih =>
      obtain ⟨⟨some, listed, nonempty⟩, rows⟩ := image
      by_cases empty : content = []
      · subst empty
        have later : some ∈ rest := (List.mem_cons.mp listed).resolve_left nonempty
        exact ih ⟨⟨some, later, nonempty⟩, fun other inside => rows other (.tail _ inside)⟩
      · exact (firstWidth_cons_row (rows content List.mem_cons_self empty) rest).symm

end Grammar

section Reading

variable {width : Nat} {width? : Option Nat} {content : List Char} {result : Option Nat × List Bool}

/-- A word is written in binary digits. -/
theorem isBinary_chars (word : Word) : IsBinary word.chars := by
  intro char inside
  obtain ⟨bit, _, rfl⟩ := List.mem_map.mp inside
  cases bit <;> decide

/-- A binary text spells the word of its digits. -/
theorem IsBinary.eq_chars {text : List Char} (binary : IsBinary text) :
    Word.chars ⟨text.map (· == '1')⟩ = text := by
  rw [Word.chars, List.map_map]
  conv_rhs => rw [← List.map_id text]
  apply List.map_congr_left
  intro char inside
  rcases binary char inside with rfl | rfl <;> rfl

theorem spelledBits_allWords_cons (content : List Char) (contents : List (List Char)) :
    spelledBits (allWords (content :: contents)) =
      spelledBits (Text.words content) ++ spelledBits (allWords contents) := by
  simp only [spelledBits, allWords, List.flatMap_cons, List.flatten_append, List.map_append]

/-- The digits of words spell their bits. -/
theorem spelledBits_chars (words : List Word) :
    spelledBits (words.map Word.chars) = words.flatMap Word.bits := by
  have digits (word : Word) : word.chars.map (· == '1') = word.bits := by
    rw [Word.chars, List.map_map]
    conv_rhs => rw [← List.map_id word.bits]
    exact List.map_congr_left fun bit _ => by cases bit <;> rfl
  rw [spelledBits, List.map_flatten, List.map_map, List.flatMap_def]
  exact congrArg List.flatten (List.map_congr_left fun word _ => digits word)

/-- Exactly binary words of one width are read, where a known width is theirs. -/
theorem readWords_eq_ok_iff {texts : List (List Char)} (nonempty : texts ≠ []) :
    readWords width? texts = .ok result ↔
      ∃ width, width?.getD width = width ∧
        (∀ text ∈ texts, IsBinary text ∧ text.length = width) ∧
        result = (some width, spelledBits texts) := by
  constructor
  · intro read
    obtain ⟨width, words, rfl, rfl, known, sameWidth⟩ := readWords_eq_ok nonempty read
    refine ⟨width, known, ?_, by rw [spelledBits_chars]⟩
    rw [List.forall_mem_map]
    intro word inside
    exact ⟨isBinary_chars word, (List.length_map _).trans (sameWidth word inside)⟩
  · rintro ⟨width, known, binary, rfl⟩
    have spelled : (texts.map fun text => (⟨text.map (· == '1')⟩ : Word)).map Word.chars =
        texts := by
      rw [List.map_map]
      conv_rhs => rw [← List.map_id texts]
      exact List.map_congr_left fun text inside => (binary text inside).1.eq_chars
    have sameWidth : ∀ word ∈ texts.map fun text => (⟨text.map (· == '1')⟩ : Word),
        word.width = width :=
      List.forall_mem_map.mpr fun text inside => (List.length_map _).trans (binary text inside).2
    have read := readWords_chars (List.map_eq_nil_iff.not.mpr nonempty) sameWidth known
    rwa [spelled, ← spelledBits_chars, spelled] at read

/-- Exactly the rows are read from lines. -/
theorem readLine_eq_ok_iff :
    readLine width? content = .ok result ↔
      ∃ width, width?.getD width = width ∧ IsRow width content ∧
        result = (some width, spelledBits (Text.words content)) := by
  simp only [readLine]
  by_cases size : (Text.words content).length = wordsPerInstruction
  · have nonempty : Text.words content ≠ [] := by
      rintro empty
      rw [empty] at size
      cases size
    rw [if_neg (not_not_intro size), readWords_eq_ok_iff nonempty]
    have three : (Text.words content).length = 3 := size
    simp only [IsRow, three, true_and]
  · rw [if_pos size]
    constructor
    · rintro ⟨⟩
    · rintro ⟨_, _, row, _⟩
      exact absurd row.1 size

/-- A row of the known width is read as its digits. -/
theorem readLine_of_row (known : width?.getD width = width) (row : IsRow width content) :
    readLine width? content = .ok (some width, spelledBits (Text.words content)) :=
  readLine_eq_ok_iff.mpr ⟨width, known, row, rfl⟩

/-- A line of another form is at fault. -/
theorem readLine_of_not_row (noRow : ∀ width, width?.getD width = width → ¬ IsRow width content) :
    ∃ fault, readLine width? content = .error fault := by
  cases read : readLine width? content with
  | error fault => exact ⟨fault, rfl⟩
  | ok result =>
      obtain ⟨width, known, row, _⟩ := readLine_eq_ok_iff.mp read
      exact absurd row (noRow width known)

section Lines

variable {line : List Char} {number : Nat} (rest : List (List Char))

/-- A line without content is passed over. -/
theorem readLines_cons_empty (empty : Text.withoutComment line = []) :
    readLines width? number (line :: rest) = readLines width? (number + 1) rest := by
  rw [readLines, if_pos (List.isEmpty_iff.mpr empty)]

/-- A row is read in front of the other lines. -/
theorem readLines_cons_row (nonempty : Text.withoutComment line ≠ [])
    (known : width?.getD width = width) (row : IsRow width (Text.withoutComment line)) :
    readLines width? number (line :: rest) =
      (fun more => (more.1, spelledBits (Text.words (Text.withoutComment line)) ++ more.2)) <$>
        readLines (some width) (number + 1) rest := by
  rw [readLines, if_neg (by simpa using nonempty), readLine_of_row known row]
  dsimp only
  cases readLines (some width) (number + 1) rest <;> rfl

/-- A line that is no row of the known width stops the reading. -/
theorem readLines_cons_fault (number : Nat) (nonempty : Text.withoutComment line ≠ [])
    (noRow : ∀ width, width?.getD width = width → ¬ IsRow width (Text.withoutComment line)) :
    ∃ fault, readLines width? number (line :: rest) = .error (.parse number fault) := by
  obtain ⟨fault, read⟩ := readLine_of_not_row noRow
  exact ⟨fault, by rw [readLines, if_neg (by simpa using nonempty), read]⟩

end Lines

/-- At a known width, lines are read to their end unless one of them is no row of this width. -/
theorem readLines_known (width number : Nat) (lines : List (List Char)) :
    ((∀ content ∈ lines.map Text.withoutComment, content ≠ [] → IsRow width content) ∧
        readLines (some width) number lines =
          .ok (some width, spelledBits (allWords (lines.map Text.withoutComment)))) ∨
      ∃ position fault, FailsFirst width (lines.map Text.withoutComment) position ∧
        readLines (some width) number lines = .error (.parse (number + position) fault) := by
  induction lines generalizing number with
  | nil => exact Or.inl ⟨nofun, rfl⟩
  | cons line rest ih =>
      rw [List.map_cons]
      by_cases empty : Text.withoutComment line = []
      · rw [readLines_cons_empty rest empty, empty]
        rcases ih (number + 1) with ⟨rows, read⟩ | ⟨position, fault, fails, read⟩
        · exact Or.inl ⟨List.forall_mem_cons.mpr ⟨fun filled => absurd rfl filled, rows⟩, read⟩
        · refine Or.inr ⟨position + 1, fault, fails.cons fun filled => absurd rfl filled, ?_⟩
          rw [read, Nat.add_right_comm, Nat.add_assoc]
      by_cases row : IsRow width (Text.withoutComment line)
      · rw [readLines_cons_row rest empty rfl row]
        rcases ih (number + 1) with ⟨rows, read⟩ | ⟨position, fault, fails, read⟩
        · refine Or.inl ⟨List.forall_mem_cons.mpr ⟨fun _ => row, rows⟩, ?_⟩
          rw [read, spelledBits_allWords_cons]
          rfl
        · refine Or.inr ⟨position + 1, fault, fails.cons fun _ => row, ?_⟩
          rw [read, Nat.add_right_comm, Nat.add_assoc]
          rfl
      · have noRow : ∀ other, (some width).getD other = other →
            ¬ IsRow other (Text.withoutComment line) := by
          intro other known
          obtain rfl : width = other := known
          exact row
        obtain ⟨fault, read⟩ := readLines_cons_fault rest number empty noRow
        exact Or.inr ⟨0, fault, .here empty row, read⟩

/-- Lines are empty, or an image at the width of their first word, or one of them is the first that
is no row of this width. -/
theorem readLines_unknown (number : Nat) (lines : List (List Char)) :
    ((∀ content ∈ lines.map Text.withoutComment, content = []) ∧
        readLines none number lines = .ok (none, [])) ∨
      (IsImage (firstWidth (lines.map Text.withoutComment)) (lines.map Text.withoutComment) ∧
        readLines none number lines =
          .ok (some (firstWidth (lines.map Text.withoutComment)),
            spelledBits (allWords (lines.map Text.withoutComment)))) ∨
      ∃ position fault, FailsFirst (firstWidth (lines.map Text.withoutComment))
          (lines.map Text.withoutComment) position ∧
        readLines none number lines = .error (.parse (number + position) fault) := by
  induction lines generalizing number with
  | nil => exact Or.inl ⟨nofun, rfl⟩
  | cons line rest ih =>
      rw [List.map_cons]
      by_cases empty : Text.withoutComment line = []
      · rw [readLines_cons_empty rest empty, empty, firstWidth_cons_nil]
        have skipped {width : Nat} (filled : ([] : List Char) ≠ []) : IsRow width [] :=
          absurd rfl filled
        rcases ih (number + 1) with ⟨none, read⟩ | ⟨⟨⟨some, listed, filled⟩, rows⟩, read⟩ |
          ⟨position, fault, fails, read⟩
        · exact Or.inl ⟨List.forall_mem_cons.mpr ⟨rfl, none⟩, read⟩
        · exact Or.inr (Or.inl ⟨⟨⟨some, .tail _ listed, filled⟩,
            List.forall_mem_cons.mpr ⟨skipped, rows⟩⟩, read⟩)
        · refine Or.inr (Or.inr ⟨position + 1, fault, fails.cons skipped, ?_⟩)
          rw [read, Nat.add_right_comm, Nat.add_assoc]
      by_cases row : ∃ width, IsRow width (Text.withoutComment line)
      · -- the first row fixes the width for the lines behind it
        obtain ⟨width, row⟩ := row
        rw [firstWidth_cons_row row, readLines_cons_row rest empty rfl row]
        rcases readLines_known width (number + 1) rest with
          ⟨rows, read⟩ | ⟨position, fault, fails, read⟩
        · refine Or.inr (Or.inl ⟨⟨⟨_, List.mem_cons_self, empty⟩,
            List.forall_mem_cons.mpr ⟨fun _ => row, rows⟩⟩, ?_⟩)
          rw [read, spelledBits_allWords_cons]
          rfl
        · refine Or.inr (Or.inr ⟨position + 1, fault, fails.cons fun _ => row, ?_⟩)
          rw [read, Nat.add_right_comm, Nat.add_assoc]
          rfl
      · have noRow : ∀ width, none.getD width = width →
            ¬ IsRow width (Text.withoutComment line) :=
          fun width _ => not_exists.mp row width
        obtain ⟨fault, read⟩ := readLines_cons_fault rest number empty noRow
        exact Or.inr (Or.inr ⟨0, fault, .here empty (noRow _ rfl), read⟩)

end Reading

/-- Exactly the rows of words of one width are parsed, and any other text is rejected at its first
fault. -/
theorem ofText_decides_grammar (source : String) :
    (∀ program, ofText source = .ok program ↔
      IsImage program.width (Text.contents source.toList) ∧
        program.bits = spelledBits (allWords (Text.contents source.toList))) ∧
    (ofText source = .error .empty ↔ ∀ content ∈ Text.contents source.toList, content = []) ∧
    (∀ number, (∃ fault, ofText source = .error (.parse number fault)) ↔
      ∃ position, number = position + 1 ∧
        FailsFirst (firstWidth (Text.contents source.toList)) (Text.contents source.toList)
          position) ∧
    ∀ reason, ofText source ≠ .error (.io reason) := by
  rw [ofText, parse]
  have outcome := readLines_unknown 1 (Text.lines source.toList)
  rw [← Text.contents] at outcome
  generalize Text.contents source.toList = contents at outcome
  rcases outcome with ⟨none, read⟩ | ⟨image, read⟩ | ⟨position, fault, fails, read⟩
  all_goals rw [read]
  · have noImage {width : Nat} : ¬ IsImage width contents := fun image =>
      image.1.elim fun content filled => filled.2 (none content filled.1)
    have noFault {width position : Nat} : ¬ FailsFirst width contents position := by
      rintro ⟨⟨content, here, filled, _⟩, _⟩
      exact filled (none content (List.mem_of_getElem? here))
    refine ⟨fun program => ⟨?_, fun grammar => absurd grammar.1 noImage⟩,
      ⟨fun _ => none, fun _ => rfl⟩, fun number => ⟨?_, ?_⟩, ?_⟩
    · rintro ⟨⟩
    · rintro ⟨_, ⟨⟩⟩
    · rintro ⟨_, _, fails⟩
      exact absurd fails noFault
    · rintro _ ⟨⟩
  · obtain ⟨content, listed, filled⟩ := image.1
    refine ⟨fun program => ⟨?_, ?_⟩, ⟨?_, fun none => absurd (none content listed) filled⟩,
      fun number => ⟨?_, ?_⟩, ?_⟩
    · intro parsed
      obtain rfl := Except.ok.inj parsed
      exact ⟨image, rfl⟩
    · rintro ⟨other, bits⟩
      obtain ⟨width, digits⟩ := program
      obtain rfl : width = firstWidth contents := other.width_eq
      obtain rfl : digits = spelledBits (allWords contents) := bits
      rfl
    · rintro ⟨⟩
    · rintro ⟨_, ⟨⟩⟩
    · rintro ⟨_, _, fails⟩
      exact absurd image fails.not_isImage
    · rintro _ ⟨⟩
  · obtain ⟨content, here, filled, _⟩ := fails.fails
    refine ⟨fun program => ⟨?_, ?_⟩,
      ⟨?_, fun none => absurd (none content (List.mem_of_getElem? here)) filled⟩,
      fun number => ⟨?_, ?_⟩, ?_⟩
    · rintro ⟨⟩
    · rintro ⟨image, _⟩
      rw [image.width_eq] at image
      exact absurd image fails.not_isImage
    · rintro ⟨⟩
    · rintro ⟨_, reported⟩
      cases reported
      exact ⟨position, Nat.add_comm 1 position, fails⟩
    · rintro ⟨other, rfl, again⟩
      obtain rfl := fails.unique again
      exact ⟨fault, by rw [Nat.add_comm]; rfl⟩
    · rintro _ ⟨⟩

end WordMachine.Image
