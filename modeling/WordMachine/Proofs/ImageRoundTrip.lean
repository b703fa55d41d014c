import WordMachine.Program.Image
import WordMachine.Proofs.Reassembly

namespace WordMachine

namespace Word

/-- The digits of a word take one byte each. -/
theorem byteCount_chars (word : Word) : Text.byteCount word.chars = word.width := by
  obtain ⟨bits⟩ := word
  have count (start : Nat) : (bits.map bitChar).foldl (fun total char => total + char.utf8Size)
      start = start + bits.length := by
    induction bits generalizing start with
    | nil => rfl
    | cons bit rest ih =>
        have digit : (bitChar bit).utf8Size = 1 := by cases bit <;> rfl
        rw [List.map_cons, List.foldl_cons, ih, digit, List.length_cons]
        omega
  exact (count 0).trans (Nat.zero_add _)

/-- Words are written in numerals. -/
theorem isNumeral_of_mem_chars (word : Word) :
    ∀ char ∈ word.chars, Text.isNumeral char = true := by
  intro char inside
  obtain ⟨bit, _, rfl⟩ := List.mem_map.mp inside
  cases bit <;> rfl

/-- A word of some width has digits. -/
theorem chars_ne_nil {word : Word} (positive : 1 ≤ word.width) : word.chars ≠ [] := by
  intro empty
  rw [Word.width, List.map_eq_nil_iff.mp empty] at positive
  cases positive

end Word

namespace Image

variable {width : Nat} {width? : Option Nat}

/-- Rows hold three words of the width each. -/
def AreRows (width : Nat) (rows : List (List Word)) : Prop :=
  ∀ row ∈ rows, row.length = wordsPerInstruction ∧ ∀ word ∈ row, word.width = width

/-- The program whose words stand in rows. -/
def ofRows (width : Nat) (rows : List (List Word)) : Program :=
  ⟨width, rows.flatten.flatMap Word.bits⟩

/-- Every program of whole instructions has its words in rows. -/
theorem exists_rows {program : Program}
    (whole : 3 * program.width ∣ program.bits.length) :
    ∃ rows, AreRows program.width rows ∧ program = ofRows program.width rows := by
  obtain ⟨count, size⟩ := whole
  obtain ⟨blocks, number, joined, lengths⟩ :=
    exists_blocks program.width (count * 3) program.bits (by rw [size]; ring)
  obtain ⟨rows, _, flat, rowLengths⟩ :=
    exists_blocks 3 count (blocks.map Word.mk) (by rw [List.length_map, number])
  refine ⟨rows, fun row listed => ⟨rowLengths row listed, fun word inside => ?_⟩, ?_⟩
  · have member : word ∈ blocks.map Word.mk := flat ▸ List.mem_flatten_of_mem listed inside
    obtain ⟨block, owned, rfl⟩ := List.mem_map.mp member
    exact lengths block owned
  · rw [ofRows, flat, List.flatMap_map, List.flatMap_id', joined]

section Rendering

def headerLines (program : Program) : List (List Char) :=
  ["; ".toList ++ Text.decimal program.width ++ "-bit program image".toList,
    "; ".toList ++ Text.decimal program.size ++ " instructions".toList, []]

/-- The header is made of its lines. -/
theorem header_eq (program : Program) :
    header program = (headerLines program).flatMap (· ++ ['\n']) := by
  have shown : header program = ("; " ++ toString program.width ++ "-bit program image\n; " ++
      toString program.size ++ " instructions\n\n").toList := rfl
  rw [shown]
  simp [headerLines, Text.decimal]

/-- The line of a row, without its line feed. -/
def rowLine (placed : Nat × List Word) : List Char :=
  [' '].intercalate (placed.2.map Word.chars) ++ [' ', ';', ' '] ++ Text.address placed.1

/-- The joined words of a row consist of digits and spaces. -/
theorem mem_joined {row : List Word} :
    ∀ char ∈ [' '].intercalate (row.map Word.chars), char = ' ' ∨ Text.isNumeral char = true := by
  apply Text.forall_mem_intercalate
  · exact fun char space => Or.inl (List.mem_singleton.mp space)
  · exact List.forall_mem_map.mpr fun word _ char inside =>
      Or.inr (word.isNumeral_of_mem_chars char inside)

/-- An image has a line for each row behind the lines of its header. -/
theorem render_ofRows (positive : 1 ≤ width) {rows : List (List Word)}
    (areRows : AreRows width rows) :
    render (ofRows width rows) =
      (headerLines (ofRows width rows) ++ (Program.addressed rows).map rowLine).flatMap
        (· ++ ['\n']) := by
  have words : (ofRows width rows).words = rows.flatten := by
    apply chunks_words positive
    intro word inside
    obtain ⟨row, listed, owned⟩ := List.mem_flatten.mp inside
    exact (areRows row listed).2 word owned
  have grouped : chunks wordsPerInstruction rows.flatten = rows :=
    chunks_flatten (by decide) fun row listed => (areRows row listed).1
  rw [render, words, grouped, List.flatMap_append, ← header_eq, List.flatMap_map]
  rfl

/-- No line of the header contains a line break, and each is a comment or empty. -/
theorem headerLines_skipped (program : Program) :
    ∀ line ∈ headerLines program,
      Text.Unbroken line ∧ (Text.withoutComment line).isEmpty = true := by
  have titled (number : Nat) {title : List Char}
      (plain : title.all (fun char => char != '\n' && char != '\r' && char != ':') = true) :
      Text.Unbroken ("; ".toList ++ Text.decimal number ++ title) ∧
        (Text.withoutComment ("; ".toList ++ Text.decimal number ++ title)).isEmpty = true := by
    refine ⟨fun char inside => ?_, rfl⟩
    rw [List.mem_append, List.mem_append] at inside
    rcases inside with (opening | digit) | closing
    · rcases List.mem_cons.mp opening with rfl | space
      · decide
      · rw [List.mem_singleton.mp space]
        decide
    · have numeral := Text.isNumeral_of_mem_decimal char digit
      exact ⟨Text.ne_of_isNumeral numeral rfl, Text.ne_of_isNumeral numeral rfl⟩
    · have harmless := Program.plain_of_all plain char closing
      exact ⟨harmless.1, harmless.2.1⟩
  intro line listed
  simp only [headerLines, List.mem_cons, List.not_mem_nil, or_false] at listed
  rcases listed with rfl | rfl | rfl
  · exact titled _ (by decide)
  · exact titled _ (by decide)
  · exact ⟨nofun, rfl⟩

/-- A row stays on its line. -/
theorem rowLine_unbroken (placed : Nat × List Word) : Text.Unbroken (rowLine placed) := by
  have digits {char : Char} (numeral : Text.isNumeral char = true) : char ≠ '\n' ∧ char ≠ '\r' :=
    ⟨Text.ne_of_isNumeral numeral rfl, Text.ne_of_isNumeral numeral rfl⟩
  intro char inside
  rw [rowLine, List.mem_append, List.mem_append] at inside
  rcases inside with (joined | mark) | number
  · rcases mem_joined char joined with rfl | numeral
    · decide
    · exact digits numeral
  · simp only [List.mem_cons, List.not_mem_nil, or_false] at mark
    rcases mark with rfl | rfl | rfl <;> decide
  · exact digits (Text.isNumeral_of_mem_address char number)

end Rendering

section Reading

/-- The digits of a word are read as its bits. -/
theorem readBits_chars (word : Word) : readBits word.chars = .ok word.bits := by
  obtain ⟨bits⟩ := word
  induction bits with
  | nil => rfl
  | cons bit rest ih =>
      have tail : readBits (rest.map Word.bitChar) = .ok rest := ih
      cases bit <;> simp [Word.chars, Word.bitChar, readBits, tail, Functor.map, Except.map]

/-- Words are read as long as the width, if it is known, is theirs. -/
theorem readWords_chars {words : List Word} (nonempty : words ≠ [])
    (sameWidth : ∀ word ∈ words, word.width = width) (known : width?.getD width = width) :
    readWords width? (words.map Word.chars) = .ok (some width, words.flatMap Word.bits) := by
  induction words generalizing width? with
  | nil => exact absurd rfl nonempty
  | cons word rest ih =>
      have here := sameWidth word List.mem_cons_self
      have others : readWords (some width) (rest.map Word.chars) =
          .ok (some width, rest.flatMap Word.bits) := by
        cases rest with
        | nil => rfl
        | cons next rest =>
            exact ih (List.cons_ne_nil _ _)
              (fun word inside => sameWidth word (List.mem_cons_of_mem _ inside)) rfl
      simp [readWords, Word.byteCount_chars, here, known, readBits_chars, others, bind, Except.bind,
        pure, Except.pure]

variable {row : List Word}

theorem chars_of_row (positive : 1 ≤ width) (sameWidth : ∀ word ∈ row, word.width = width) :
    (∀ text ∈ row.map Word.chars, text ≠ []) ∧
      ∀ text ∈ row.map Word.chars, ∀ char ∈ text, Text.isBlank char = false := by
  constructor
  · intro text shown
    obtain ⟨word, inside, rfl⟩ := List.mem_map.mp shown
    exact Word.chars_ne_nil (positive.trans_eq (sameWidth word inside).symm)
  · intro text shown char inside
    obtain ⟨word, _, rfl⟩ := List.mem_map.mp shown
    exact Text.isBlank_of_isNumeral (word.isNumeral_of_mem_chars char inside)

/-- Only the joined words of a row are left without its comment. -/
theorem withoutComment_rowLine (positive : 1 ≤ width) (nonempty : row ≠ [])
    (sameWidth : ∀ word ∈ row, word.width = width) (address : Nat) :
    Text.withoutComment (rowLine (address, row)) = [' '].intercalate (row.map Word.chars) := by
  have noComment : ∀ char ∈ [' '].intercalate (row.map Word.chars) ++ [' '],
      (char != ';') = true := by
    intro char inside
    rw [bne_iff_ne]
    rcases List.mem_append.mp inside with joined | space
    · rcases mem_joined char joined with rfl | numeral
      · decide
      · exact Text.ne_of_isNumeral numeral rfl
    · rw [List.mem_singleton.mp space]
      decide
  have split : rowLine (address, row) = ([' '].intercalate (row.map Word.chars) ++ [' ']) ++
      (';' :: ' ' :: Text.address address) := by
    simp [rowLine]
  have stops : (';' :: ' ' :: Text.address address).takeWhile (· != ';') = [] := rfl
  obtain ⟨filled, unblank⟩ := chars_of_row positive sameWidth
  rw [Text.withoutComment, split, List.takeWhile_append_of_pos noComment, stops, List.append_nil,
    Text.trim_append_blank rfl,
    Text.trim_intercalate_space (by simpa using nonempty) filled unblank]

/-- A row is read from its line. -/
theorem readLine_rowLine (positive : 1 ≤ width) (size : row.length = wordsPerInstruction)
    (sameWidth : ∀ word ∈ row, word.width = width) (known : width?.getD width = width)
    (address : Nat) :
    (Text.withoutComment (rowLine (address, row))).isEmpty = false ∧
      readLine width? (Text.withoutComment (rowLine (address, row))) =
        .ok (some width, row.flatMap Word.bits) := by
  have nonempty : row ≠ [] := by
    rintro rfl
    cases size
  obtain ⟨filled, unblank⟩ := chars_of_row positive sameWidth
  have words := Text.words_intercalate_space (by simpa using nonempty) filled unblank
  rw [withoutComment_rowLine positive nonempty sameWidth]
  constructor
  · rw [List.isEmpty_eq_false_iff]
    intro empty
    rw [empty] at words
    exact nonempty (List.map_eq_nil_iff.mp words.symm)
  · rw [readLine, words, List.length_map, if_neg (not_not_intro size)]
    exact readWords_chars nonempty sameWidth known

/-- Lines without content are skipped. -/
theorem readLines_append {skipped : List (List Char)}
    (empty : ∀ line ∈ skipped, (Text.withoutComment line).isEmpty = true) (number : Nat)
    (rest : List (List Char)) :
    readLines width? number (skipped ++ rest) =
      readLines width? (number + skipped.length) rest := by
  induction skipped generalizing number with
  | nil => rfl
  | cons line skipped ih =>
      have tail := ih (fun other inside => empty other (List.mem_cons_of_mem _ inside)) (number + 1)
      rw [List.cons_append, readLines, if_pos (empty line List.mem_cons_self), tail,
        List.length_cons, Nat.add_comm skipped.length 1, Nat.add_assoc]

/-- Rendered rows are read back. -/
theorem readLines_rowLines (positive : 1 ≤ width) {placed : List (Nat × List Word)}
    (nonempty : placed ≠ []) (areRows : AreRows width (placed.map Prod.snd))
    (known : width?.getD width = width) (number : Nat) :
    readLines width? number (placed.map rowLine) =
      .ok (some width, (placed.map Prod.snd).flatten.flatMap Word.bits) := by
  induction placed generalizing width? number with
  | nil => exact absurd rfl nonempty
  | cons first rest ih =>
      obtain ⟨size, sameWidth⟩ := areRows first.2 List.mem_cons_self
      obtain ⟨content, read⟩ := readLine_rowLine positive size sameWidth known first.1
      have others : readLines (some width) (number + 1) (rest.map rowLine) =
          .ok (some width, (rest.map Prod.snd).flatten.flatMap Word.bits) := by
        cases rest with
        | nil => rfl
        | cons next rest =>
            exact ih (List.cons_ne_nil _ _)
              (fun row inside => areRows row (List.mem_cons_of_mem _ inside)) rfl (number + 1)
      simp [readLines, content, read, others, bind, Except.bind, pure, Except.pure]

/-- A rendered image is parsed to its program. -/
theorem parse_render {program : Program} (positive : 1 ≤ program.width)
    (nonempty : program.bits ≠ []) (whole : 3 * program.width ∣ program.bits.length) :
    parse (render program) = .ok program := by
  obtain ⟨rows, areRows, same⟩ := exists_rows whole
  generalize program.width = width at positive areRows same
  subst same
  have someRow : rows ≠ [] := by
    rintro rfl
    exact nonempty rfl
  have unbroken : ∀ line ∈ headerLines (ofRows width rows) ++
      (Program.addressed rows).map rowLine, Text.Unbroken line := by
    intro line listed
    rcases List.mem_append.mp listed with header | body
    · exact (headerLines_skipped _ line header).1
    · obtain ⟨placed, _, rfl⟩ := List.mem_map.mp body
      exact rowLine_unbroken placed
  have items := Program.addressed_items rows
  have placedRow : Program.addressed rows ≠ [] := by
    intro empty
    rw [empty] at items
    exact someRow items.symm
  have read (number : Nat) :
      readLines none number ((Program.addressed rows).map rowLine) =
        .ok (some width, ((Program.addressed rows).map Prod.snd).flatten.flatMap Word.bits) :=
    readLines_rowLines positive placedRow (items.symm ▸ areRows) rfl number
  rw [parse, render_ofRows positive areRows, Text.lines_flatMap_feed unbroken,
    readLines_append fun line header => (headerLines_skipped _ line header).2, read, items]
  rfl

end Reading

section Parsed

variable {result : Option Nat × List Bool}

/-- Only the digits of a word are read as its bits. -/
theorem eq_chars_of_readBits {text : List Char} {bits : List Bool}
    (read : readBits text = .ok bits) : text = Word.chars ⟨bits⟩ := by
  fun_induction readBits text generalizing bits with
  | case1 =>
      cases read
      rfl
  | case2 rest ih | case3 rest ih =>
      obtain ⟨lower, tail, rfl⟩ := map_eq_ok_iff.mp read
      rw [ih tail]
      rfl
  | case4 => cases read

/-- A word that is read has the known width, and its width is known for the words behind it. -/
theorem readWords_cons_eq_ok {text : List Char} {rest : List (List Char)}
    (read : readWords width? (text :: rest) = .ok result) :
    ∃ word : Word, text = word.chars ∧ width?.getD word.width = word.width ∧
      ∃ more, readWords (some word.width) rest = .ok more ∧
        result = (more.1, word.bits ++ more.2) := by
  simp only [readWords] at read
  split at read
  · cases read
  · rename_i same
    obtain ⟨bits, here, others⟩ := bind_eq_ok_iff.mp read
    obtain ⟨more, tail, joined⟩ := bind_eq_ok_iff.mp others
    obtain rfl := eq_chars_of_readBits here
    rw [Word.byteCount_chars, not_not] at same
    rw [Word.byteCount_chars, ← same] at tail
    exact ⟨⟨bits⟩, rfl, same.symm, more, tail, (pure_eq_ok_iff.mp joined).symm⟩

/-- Texts that are read with a known width are words of this width. -/
theorem readWords_known_eq_ok {texts : List (List Char)}
    (read : readWords (some width) texts = .ok result) :
    ∃ words : List Word, texts = words.map Word.chars ∧
      result = (some width, words.flatMap Word.bits) ∧ ∀ word ∈ words, word.width = width := by
  induction texts generalizing result with
  | nil =>
      cases read
      exact ⟨[], rfl, rfl, by simp⟩
  | cons text rest ih =>
      obtain ⟨word, rfl, known, more, tail, rfl⟩ := readWords_cons_eq_ok read
      obtain rfl : width = word.width := known
      obtain ⟨words, rfl, rfl, sameWidth⟩ := ih tail
      exact ⟨word :: words, rfl, rfl, List.forall_mem_cons.mpr ⟨rfl, sameWidth⟩⟩

/-- Words that are read have one width, the known one if there is one. -/
theorem readWords_eq_ok {texts : List (List Char)} (nonempty : texts ≠ [])
    (read : readWords width? texts = .ok result) :
    ∃ (width : Nat) (words : List Word), texts = words.map Word.chars ∧
      result = (some width, words.flatMap Word.bits) ∧ width?.getD width = width ∧
        ∀ word ∈ words, word.width = width := by
  obtain ⟨text, rest, rfl⟩ := List.exists_cons_of_ne_nil nonempty
  obtain ⟨word, rfl, known, more, tail, rfl⟩ := readWords_cons_eq_ok read
  obtain ⟨words, rfl, rfl, sameWidth⟩ := readWords_known_eq_ok tail
  exact ⟨word.width, word :: words, rfl, rfl, known, List.forall_mem_cons.mpr ⟨rfl, sameWidth⟩⟩

/-- A line that is read holds a row of words that are not empty. -/
theorem readLine_eq_ok {content : List Char} (read : readLine width? content = .ok result) :
    ∃ (width : Nat) (row : List Word), result = (some width, row.flatMap Word.bits) ∧
      width?.getD width = width ∧ 1 ≤ width ∧ row.length = wordsPerInstruction ∧
        ∀ word ∈ row, word.width = width := by
  simp only [readLine] at read
  split at read
  · cases read
  · rename_i size
    rw [not_not] at size
    have nonempty : Text.words content ≠ [] := by
      intro empty
      rw [empty] at size
      cases size
    obtain ⟨width, row, texts, same, known, sameWidth⟩ := readWords_eq_ok nonempty read
    rw [texts, List.length_map] at size
    refine ⟨width, row, same, known, ?_, size, sameWidth⟩
    obtain ⟨word, others, rfl⟩ := List.exists_cons_of_ne_nil (l := row) (by rintro rfl; cases size)
    have filled : word.chars ∈ Text.words content := by
      rw [texts]
      exact List.mem_cons_self
    have wide : word.chars ≠ [] := by
      simpa using (List.mem_filter.mp filled).2
    rw [← sameWidth word List.mem_cons_self, Nat.one_le_iff_ne_zero]
    intro narrow
    apply wide
    rw [Word.chars, List.length_eq_zero_iff.mp narrow, List.map_nil]

/-- Lines that are read hold rows of one width, or nothing. -/
theorem readLines_eq_ok {lines : List (List Char)} {number : Nat}
    (read : readLines width? number lines = .ok result) :
    result = (width?, []) ∨
      ∃ (width : Nat) (rows : List (List Word)),
        result = (some width, rows.flatten.flatMap Word.bits) ∧ width?.getD width = width ∧
          1 ≤ width ∧ rows ≠ [] ∧ AreRows width rows := by
  induction lines generalizing width? number result with
  | nil =>
      cases read
      exact Or.inl rfl
  | cons line lines ih =>
      simp only [readLines] at read
      split at read
      · exact ih read
      · cases here : readLine width? (Text.withoutComment line) with
        | error fault => simp [here] at read
        | ok first =>
            obtain ⟨width, row, rfl, known, positive, size, sameWidth⟩ := readLine_eq_ok here
            rw [here] at read
            obtain ⟨more, tail, read⟩ := bind_eq_ok_iff.mp read
            obtain rfl := pure_eq_ok_iff.mp read
            refine Or.inr ?_
            -- the lines behind are read at the width of this row, if they hold rows at all
            rcases ih tail with rfl | ⟨other, rows, rfl, same, _, _, areRows⟩
            · refine ⟨width, [row], by simp, known, positive, List.cons_ne_nil _ _, ?_⟩
              exact List.forall_mem_singleton.mpr ⟨size, sameWidth⟩
            · obtain rfl : width = other := same
              refine ⟨width, row :: rows, by simp, known, positive, List.cons_ne_nil _ _, ?_⟩
              exact List.forall_mem_cons.mpr ⟨⟨size, sameWidth⟩, areRows⟩

/-- Every row takes three words. -/
theorem length_ofRows {rows : List (List Word)} (areRows : AreRows width rows) :
    (ofRows width rows).bits.length = rows.length * 3 * width := by
  have size : rows.flatten.length = rows.length * 3 :=
    length_flatten_of_length fun row listed => (areRows row listed).1
  have bits : ∀ block ∈ rows.flatten.map Word.bits, block.length = width := by
    intro block shown
    obtain ⟨word, inside, rfl⟩ := List.mem_map.mp shown
    obtain ⟨row, listed, owned⟩ := List.mem_flatten.mp inside
    exact (areRows row listed).2 word owned
  rw [ofRows, List.flatMap_def, length_flatten_of_length bits, List.length_map, size]

/-- A parsed program has rows of words that are not empty. -/
theorem parse_eq_ok {source : List Char} {program : Program}
    (parsed : parse source = .ok program) :
    ∃ rows, program = ofRows program.width rows ∧ 1 ≤ program.width ∧ rows ≠ [] ∧
      AreRows program.width rows := by
  obtain ⟨result, read, parsed⟩ := bind_eq_ok_iff.mp parsed
  rcases readLines_eq_ok read with rfl | ⟨width, rows, rfl, _, positive, someRow, areRows⟩
  · cases parsed
  · obtain rfl := pure_eq_ok_iff.mp parsed
    exact ⟨rows, rfl, positive, someRow, areRows⟩

end Parsed

/-- Parsing inverts rendering, and all parsed programs survive it. -/
theorem image_round_trip :
    (∀ program : Program, 1 ≤ program.width → program.isEmpty = false →
      3 * program.width ∣ program.bits.length → ofText (Image.text program) = .ok program) ∧
    ∀ (source : String) (program : Program), ofText source = .ok program →
      1 ≤ program.width ∧ program.isEmpty = false ∧
        3 * program.width ∣ program.bits.length ∧ ofText (Image.text program) = .ok program := by
  have shown {program : Program} (positive : 1 ≤ program.width)
      (filled : program.isEmpty = false) (whole : 3 * program.width ∣ program.bits.length) :
      ofText (Image.text program) = .ok program := by
    rw [ofText, Image.text, String.toList_ofList]
    exact parse_render positive (List.isEmpty_eq_false_iff.mp filled) whole
  refine ⟨fun program => shown, fun source program parsed => ?_⟩
  obtain ⟨rows, same, positive, someRow, areRows⟩ := parse_eq_ok parsed
  have length : program.bits.length = rows.length * 3 * program.width :=
    (congrArg (fun program => program.bits.length) same).trans (length_ofRows areRows)
  have whole : 3 * program.width ∣ program.bits.length :=
    ⟨rows.length, by rw [length, Nat.mul_assoc, Nat.mul_comm]⟩
  have filled : program.isEmpty = false := by
    rw [Program.isEmpty, List.isEmpty_eq_false_iff, ← List.length_pos_iff, length]
    have counted := List.length_pos_iff.mpr someRow
    positivity
  exact ⟨positive, filled, whole, shown positive filled whole⟩

/-- A hand-written image with comments and uneven blanks gives a program that survives rendering. -/
theorem image_round_trip_comments :
    ∃ program : Program,
      ofText "; two instructions\n\n  01 10\t11 ; first\r\n00 01 00" = .ok program ∧
        1 ≤ program.width ∧ program.isEmpty = false ∧ 3 * program.width ∣ program.bits.length ∧
          ofText (Image.text program) = .ok program := by
  have parsed : ofText "; two instructions\n\n  01 10\t11 ; first\r\n00 01 00" =
      .ok ⟨2, [false, true, true, false, true, true, false, false, false, true, false, false]⟩ := by
    decide +kernel
  obtain ⟨positive, filled, whole, _⟩ := image_round_trip.2 _ _ parsed
  exact ⟨_, parsed, positive, filled, whole, image_round_trip.1 _ positive filled whole⟩

end Image

end WordMachine
