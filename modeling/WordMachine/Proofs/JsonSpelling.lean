import WordMachine.Json.Reader
import WordMachine.Proofs.PrintedText

namespace WordMachine.Json

section Texts

/-- How a character is spelled between quotes: by a short escape, by the four hexadecimal digits of
its code, or by itself. -/
inductive SpelledAs (char : Char) : List Char → Prop where
  | short {letter : Char} (listed : (char, letter) ∈ shortEscapes) : SpelledAs char ['\\', letter]
  | coded {first second third fourth : Char}
      (digits : [first, second, third, fourth].all isHexDigit = true)
      (code : unit first second third fourth = char.toNat) (control : char.toNat < 0x20) :
      SpelledAs char ['\\', 'u', first, second, third, fourth]
  | plain (notQuote : char ≠ '"') (notSlash : char ≠ '\\') (visible : 0x20 ≤ char.toNat) :
      SpelledAs char [char]

/-- The code of a control takes four hexadecimal digits. -/
theorem padLeft_hexadecimal : ∀ code < 0x20, ∃ first second third fourth,
    Text.padLeft '0' 4 (Text.hexadecimal code) = [first, second, third, fourth] ∧
      [first, second, third, fourth].all isHexDigit = true ∧
      unit first second third fourth = code := by
  intro code control
  interval_cases code <;> exact ⟨_, _, _, _, rfl, rfl, rfl⟩

/-- Every character is spelled in one of the known ways. -/
theorem spellChar_spelled (char : Char) : SpelledAs char (spellChar char) := by
  unfold spellChar
  cases found : shortEscapes.lookup char with
  | some letter =>
      obtain ⟨before, after, split, _⟩ := List.lookup_eq_some_iff.mp found
      exact .short (by rw [split]; simp)
  | none =>
      have unlisted := List.lookup_eq_none_iff.mp found
      simp only
      split <;> rename_i size
      · obtain ⟨first, second, third, fourth, spelling, digits, code⟩ := padLeft_hexadecimal _ size
        rw [spelling]
        exact .coded digits code size
      · refine .plain ?_ ?_ (Nat.le_of_not_lt size)
        · rintro rfl
          exact absurd (unlisted ('"', '"') (by decide)) (by decide)
        · rintro rfl
          exact absurd (unlisted ('\\', '\\') (by decide)) (by decide)

/-- A short escape is told from a coded one by its letter, which belongs to one character. -/
theorem shortEscapes_letters : ∀ entry ∈ shortEscapes, entry.2 ≠ 'u' ∧
    (shortEscapes.map (·.2)).contains entry.2 = true ∧
    (shortEscapes.find? (·.2 == entry.2)).map (·.1) = some entry.1 := by
  decide

/-- The spelling of a character belongs to the string body that it opens. -/
theorem stringBody_spelled {char : Char} {spelling : List Char} (spelled : SpelledAs char spelling)
    (rest : List Char) :
    stringBody (spelling ++ rest) =
      (stringBody rest).map fun (body, rest) => (spelling ++ body, rest) := by
  cases spelled with
  | @short letter listed =>
      obtain ⟨notCode, known, _⟩ := shortEscapes_letters _ listed
      have taken : stringBody ('\\' :: letter :: rest) =
          (stringBody rest).bind fun (body, rest) => some ('\\' :: letter :: body, rest) := by
        rw [stringBody, known, Bool.or_true, if_pos rfl]
        · rfl
        · exact fun _ _ _ _ _ coded _ => notCode coded
      exact taken.trans (by cases stringBody rest <;> rfl)
  | coded digits code control =>
      simp [stringBody, digits]
      cases stringBody rest <;> rfl
  | plain notQuote notSlash visible =>
      have taken : stringBody (char :: rest) =
          (stringBody rest).bind fun (body, rest) => some (char :: body, rest) := by
        simp [stringBody, notSlash, Nat.not_lt.mpr visible]
      exact taken.trans (by cases stringBody rest <;> rfl)

/-- A spelled text ends at its quotation mark. -/
theorem stringBody_spell (text rest : List Char) :
    stringBody (spell text ++ '"' :: rest) = some (spell text, rest) := by
  induction text with
  | nil => rfl
  | cons char text ih =>
      rw [spell, List.flatMap_cons, List.append_assoc, stringBody_spelled (spellChar_spelled char)]
      rw [spell] at ih
      rw [ih]
      rfl

/-- A coded character is no half of a character, since its code is that of a control. -/
theorem unspell_spelled {char : Char} {spelling : List Char} (spelled : SpelledAs char spelling)
    (rest : List Char) : unspell (spelling ++ rest) = (char :: ·) <$> unspell rest := by
  cases spelled with
  | @short letter listed =>
      obtain ⟨notCode, _, found⟩ := shortEscapes_letters _ listed
      have taken : unspell ('\\' :: letter :: rest) =
          (((shortEscapes.find? (·.2 == letter)).map (·.1)).getD letter :: ·) <$> unspell rest := by
        rw [unspell]
        · exact fun _ _ _ _ _ _ _ _ _ coded _ => notCode coded
        · exact fun _ _ _ _ _ coded _ => notCode coded
      rw [found, Option.getD_some] at taken
      exact taken
  | @coded first second third fourth digits code control =>
      have noHigh : isHighHalf (unit first second third fourth) = false := by
        rw [code, isHighHalf, decide_eq_false (by omega), Bool.false_and]
      have noLow : isLowHalf (unit first second third fourth) = false := by
        rw [code, isLowHalf, decide_eq_false (by omega), Bool.false_and]
      have read : Char.ofNat (unit first second third fourth) = char := by
        rw [code, Char.ofNat_toNat]
      -- a code that is followed by another one could be the first half of a character
      have taken : unspell ('\\' :: 'u' :: first :: second :: third :: fourth :: rest) =
          (Char.ofNat (unit first second third fourth) :: ·) <$> unspell rest := by
        by_cases coded : ∃ e f g h more, rest = '\\' :: 'u' :: e :: f :: g :: h :: more
        · obtain ⟨e, f, g, h, more, rfl⟩ := coded
          rw [unspell, noHigh, noLow]
          rfl
        · rw [unspell, noHigh, noLow]
          · rfl
          · exact fun e f g h more same => coded ⟨e, f, g, h, more, same⟩
      rw [read] at taken
      exact taken
  | plain notQuote notSlash visible =>
      have taken : unspell (char :: rest) = (char :: ·) <$> unspell rest := by
        rw [unspell]
        · exact fun _ _ _ _ _ _ _ _ _ slash _ => notSlash slash
        · exact fun _ _ _ _ _ slash _ => notSlash slash
        · exact fun _ _ slash _ => notSlash slash
      exact taken

/-- A spelled text is read back. -/
theorem unspell_spell (text : List Char) : unspell (spell text) = some text := by
  induction text with
  | nil => rfl
  | cons char text ih =>
      rw [spell, List.flatMap_cons, unspell_spelled (spellChar_spelled char)]
      rw [spell] at ih
      rw [ih]
      rfl

end Texts

section Numbers

variable {rest : List Char}

/-- What follows a number does not belong to it. -/
def EndsNumber (rest : List Char) : Prop :=
  ∀ char ∈ rest.head?, isDigit char = false ∧ char ≠ '.' ∧ char ≠ 'e' ∧ char ≠ 'E'

/-- Numbers are written in digits. -/
theorem isDigit_of_mem_decimal {number : Nat} {char : Char}
    (inside : char ∈ Text.decimal number) : isDigit char = true := by
  have digit := Char.isDigit_iff_toNat.mp (Text.isDigit_of_mem_decimal inside)
  rw [isDigit, Bool.and_eq_true, decide_eq_true_iff, decide_eq_true_iff]
  exact digit

/-- A digit is spelled by itself. -/
theorem spellChar_of_isDigit {char : Char} (digit : isDigit char = true) :
    spellChar char = [char] := by
  have noEscape : ∀ entry ∈ shortEscapes, isDigit entry.1 = false := by decide
  have spelled := spellChar_spelled char
  generalize spellChar char = spelling at spelled ⊢
  cases spelled with
  | short listed => exact Bool.noConfusion (digit.symm.trans (noEscape _ listed))
  | coded digits code control =>
      have large : 48 ≤ char.toNat := by
        rw [isDigit, Bool.and_eq_true, decide_eq_true_iff] at digit
        exact digit.1
      omega
  | plain _ _ _ => rfl

/-- Digits are spelled as they are. -/
theorem spell_decimal (number : Nat) : spell (Text.decimal number) = Text.decimal number := by
  have all : ∀ char ∈ Text.decimal number, spellChar char = [char] :=
    fun _ inside => spellChar_of_isDigit (isDigit_of_mem_decimal inside)
  rw [spell, List.flatMap_congr all]
  simp

/-- Only zero is written with a zero in front. -/
theorem head?_decimal_ne {number : Nat} (positive : 0 < number) :
    (Text.decimal number).head? ≠ some '0' := by
  induction number using Nat.strongRecOn with
  | ind number ih =>
      unfold Text.decimal at ih ⊢
      by_cases small : number < 10
      · rw [Nat.toDigits_of_lt_base small]
        interval_cases number <;> decide
      · have shorter := ih (number / 10) (by omega) (by omega)
        rw [Nat.toDigits_of_base_le (by decide) (by omega),
          List.head?_append_of_ne_nil _ Nat.toDigits_ne_nil]
        exact shorter

/-- A written number starts with a digit. -/
theorem exists_head_decimal (number : Nat) :
    ∃ first more, Text.decimal number = first :: more ∧ isDigit first = true := by
  obtain ⟨first, more, shape⟩ := List.exists_cons_of_ne_nil (Text.decimal_ne_nil number)
  exact ⟨first, more, shape, isDigit_of_mem_decimal (shape ▸ List.mem_cons_self)⟩

/-- The digits of a number are taken up to its end. -/
theorem digits_append {taken : List Char} (all : ∀ char ∈ taken, isDigit char = true)
    (nonempty : taken ≠ []) (ends : EndsNumber rest) :
    digits (taken ++ rest) = some (taken, rest) := by
  have stop : rest.takeWhile isDigit = [] ∧ rest.dropWhile isDigit = rest := by
    cases rest with
    | nil => exact ⟨rfl, rfl⟩
    | cons char rest =>
        have noDigit : isDigit char = false := (ends char rfl).1
        simp [noDigit]
  obtain ⟨first, more, rfl⟩ := List.exists_cons_of_ne_nil nonempty
  rw [digits, List.takeWhile_append_of_pos all, List.dropWhile_append_of_pos all, stop.1, stop.2,
    List.append_nil]

/-- A written number ends where its digits do. -/
theorem wholePart_decimal (number : Nat) (ends : EndsNumber rest) :
    wholePart (Text.decimal number ++ rest) = some (Text.decimal number, rest) := by
  rcases Nat.eq_zero_or_pos number with rfl | positive
  · rfl
  · have taken := digits_append (fun _ => isDigit_of_mem_decimal) (Text.decimal_ne_nil number) ends
    have noZero := head?_decimal_ne positive
    obtain ⟨first, more, shape, _⟩ := exists_head_decimal number
    rw [shape] at taken noZero ⊢
    rw [List.cons_append, wholePart]
    · exact taken
    · rintro _ same
      obtain ⟨rfl, _⟩ := List.cons.inj same
      exact noZero rfl

/-- A whole number has no further parts. -/
theorem furtherParts (ends : EndsNumber rest) :
    fractionPart rest = some ([], rest) ∧ exponentPart rest = some ([], rest) := by
  cases rest with
  | nil => exact ⟨rfl, rfl⟩
  | cons char rest =>
      obtain ⟨_, noPoint, noSmall, noLarge⟩ := ends char rfl
      simp [fractionPart, exponentPart, noPoint, noSmall, noLarge]

/-- No digit stands for a sign. -/
theorem exists_unsigned_decimal (number : Nat) :
    ∃ first more, Text.decimal number = first :: more ∧ first ≠ '-' := by
  obtain ⟨first, more, shape, digit⟩ := exists_head_decimal number
  refine ⟨first, more, shape, ?_⟩
  rintro rfl
  exact absurd digit (by decide)

/-- A written whole number ends where it was written to end. -/
theorem numberBody_integer (number : Int) (ends : EndsNumber rest) :
    numberBody (Text.integer number ++ rest) = some (Text.integer number, rest) := by
  obtain ⟨fraction, exponent⟩ := furtherParts ends
  cases number with
  | ofNat number =>
      have whole := wholePart_decimal number ends
      obtain ⟨first, more, shape, noSign⟩ := exists_unsigned_decimal number
      rw [Text.integer]
      rw [shape, List.cons_append] at whole
      rw [shape, List.cons_append]
      simp [numberBody, noSign, whole, fraction, exponent]
  | negSucc number =>
      simp [Text.integer, numberBody, wholePart_decimal _ ends, fraction, exponent]

theorem all_isDigit_decimal (number : Nat) : (Text.decimal number).all isDigit = true :=
  List.all_eq_true.mpr fun _ => isDigit_of_mem_decimal

/-- A written whole number is read back. -/
theorem wholeNumber?_integer (number : Int) :
    wholeNumber? (Text.integer number) = some number := by
  have noRest : EndsNumber [] := nofun
  have body := numberBody_integer number noRest
  have read (number : Nat) : Nat.ofDigitChars 10 (Text.decimal number) 0 = number :=
    Nat.ofDigitChars_ten_toDigits
  rw [List.append_nil] at body
  unfold wholeNumber?
  rw [body]
  cases number with
  | ofNat number =>
      have all := all_isDigit_decimal number
      have same := read number
      obtain ⟨first, more, shape, noSign⟩ := exists_unsigned_decimal number
      rw [Text.integer]
      rw [shape] at all same ⊢
      dsimp only
      split
      · rename_i signed
        exact absurd (List.cons.inj signed).1 noSign
      · rw [if_pos all, same]
        rfl
  | negSucc number =>
      have noZero : (Text.decimal (number + 1) == ['0']) = false := by
        rw [beq_eq_false_iff_ne]
        intro zero
        exact head?_decimal_ne (Nat.succ_pos number) (by rw [zero]; rfl)
      simp only [Text.integer, noZero, all_isDigit_decimal, read]
      rfl

end Numbers

end WordMachine.Json
