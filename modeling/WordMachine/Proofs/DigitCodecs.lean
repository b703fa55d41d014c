import WordMachine.Proofs.Arithmetic
import WordMachine.Proofs.Literals
import WordMachine.Proofs.PrintedText

namespace WordMachine.Word

open Assembly (IsDigitOf hexDigit?_eq_some_iff)

/-- A digit text consists of digits and of separators. -/
def IsPart (radix : Nat) (char : Char) : Prop :=
  isSeparator char = true ∨ ∃ digit, IsDigitOf radix char digit

/-- Every character that is no separator is a digit, and the digits stand for the number that they
have by their places. -/
def SpellsApart (radix : Nat) (text : List Char) (number : Nat) : Prop :=
  ∃ digits, List.Forall₂ (IsDigitOf radix) (text.filter (!isSeparator ·)) digits ∧
    number = Nat.ofDigits radix digits.reverse

/-- The first character of a text that is no part of a digit text. -/
def StopsAt (radix : Nat) (text : List Char) (char : Char) : Prop :=
  ∃ before after, text = before ++ char :: after ∧
    (∀ earlier ∈ before, IsPart radix earlier) ∧ ¬ IsPart radix char

/-- The digits of a hexadecimal text follow its mark. -/
def hexBody (text : List Char) : List Char := withoutHexMark (Text.trim text)

section Digits

variable {size : Nat} {digit? : Char → Option Nat} {text : List Char} {char : Char}

/-- A separator adds no bits. -/
theorem digitBits_separator (separates : isSeparator char = true) :
    digitBits size digit? (char :: text) = digitBits size digit? text := by
  rw [digitBits, if_pos separates]

/-- A digit adds its bits in front. -/
theorem digitBits_digit (plain : isSeparator char = false) {digit : Nat}
    (read : digit? char = some digit) :
    digitBits size digit? (char :: text) =
      (bitsOfNat size digit ++ ·) <$> digitBits size digit? text := by
  rw [digitBits, if_neg (by simp [plain]), read]
  rfl

/-- Any other character is reported. -/
theorem digitBits_other (plain : isSeparator char = false) (unread : digit? char = none) :
    digitBits size digit? (char :: text) = .error (.invalidDigit char (valueCount size)) := by
  rw [digitBits, if_neg (by simp [plain]), unread]

/-- Separators are skipped wherever they stand. -/
theorem digitBits_filter (size : Nat) (digit? : Char → Option Nat) (text : List Char) :
    digitBits size digit? (text.filter (!isSeparator ·)) = digitBits size digit? text := by
  induction text with
  | nil => rfl
  | cons char rest ih =>
      cases separates : isSeparator char with
      | true =>
          rw [List.filter_cons_of_neg (by simp [separates]), digitBits_separator separates, ih]
      | false =>
          rw [List.filter_cons_of_pos (by simp [separates])]
          cases read : digit? char with
          | none => rw [digitBits_other separates read, digitBits_other separates read]
          | some digit => rw [digitBits_digit separates read, digitBits_digit separates read, ih]

/-- Separators between two texts add no bits. -/
theorem digitBits_separators {separators : List Char}
    (separate : ∀ char ∈ separators, isSeparator char = true) (left right : List Char) :
    digitBits size digit? (left ++ (separators ++ right)) =
      digitBits size digit? (left ++ right) := by
  have skipped : separators.filter (!isSeparator ·) = [] :=
    List.filter_eq_nil_iff.mpr fun char inside => by simp [separate char inside]
  rw [← digitBits_filter, ← digitBits_filter size digit? (left ++ right), List.filter_append,
    List.filter_append, List.filter_append, skipped, List.nil_append]

/-- Written digits lie below their radix. -/
theorem lt_of_written {radix : Nat} {digits : List Nat}
    (written : List.Forall₂ (IsDigitOf radix) text digits) : ∀ digit ∈ digits, digit < radix := by
  induction written with
  | nil => simp
  | cons here _ ih => exact List.forall_mem_cons.mpr ⟨here.1, ih⟩

theorem stopsAt_cons_part {radix : Nat} {stop : Char} (part : IsPart radix char) :
    StopsAt radix (char :: text) stop ↔ StopsAt radix text stop := by
  constructor
  · rintro ⟨_ | ⟨_, before⟩, after, split, parts, noPart⟩
    · cases split
      exact absurd part noPart
    · cases split
      exact ⟨before, after, rfl, (List.forall_mem_cons.mp parts).2, noPart⟩
  · rintro ⟨before, after, rfl, parts, noPart⟩
    exact ⟨char :: before, after, rfl, List.forall_mem_cons.mpr ⟨part, parts⟩, noPart⟩

theorem stopsAt_cons_other {radix : Nat} {stop : Char} (other : ¬ IsPart radix char) :
    StopsAt radix (char :: text) stop ↔ stop = char := by
  constructor
  · rintro ⟨_ | ⟨_, before⟩, after, split, parts, _⟩
    · cases split
      rfl
    · cases split
      exact absurd (parts _ List.mem_cons_self) other
  · rintro rfl
    exact ⟨[], text, rfl, nofun, other⟩

/-- The digits read later have the lower places. -/
theorem value_flatMap_bitsOfNat {digits : List Nat} (small : ∀ digit ∈ digits, digit < 2 ^ size) :
    value ⟨digits.flatMap (bitsOfNat size)⟩ = Nat.ofDigits (2 ^ size) digits.reverse := by
  induction digits with
  | nil => rfl
  | cons digit rest ih =>
      have places : (rest.flatMap (bitsOfNat size)).length = rest.length * size := by
        simp [List.length_flatMap]
      have top : value ⟨bitsOfNat size digit⟩ = digit :=
        (value_ofNat size digit).trans (Nat.mod_eq_of_lt (small digit List.mem_cons_self))
      rw [List.flatMap_cons, value_append, top, places,
        ih fun other inside => small other (List.mem_cons_of_mem _ inside), List.reverse_cons,
        Nat.ofDigits_append, Nat.ofDigits_singleton, List.length_reverse, ← pow_mul,
        Nat.mul_comm size]
      ring

variable (reads : ∀ char digit, digit? char = some digit ↔ IsDigitOf (2 ^ size) char digit)

include reads

/-- A text is read exactly when it consists of digits and separators. -/
theorem digitBits_eq_ok_iff {bits : List Bool} :
    digitBits size digit? text = .ok bits ↔
      ∃ digits, List.Forall₂ (IsDigitOf (2 ^ size)) (text.filter (!isSeparator ·)) digits ∧
        bits = digits.flatMap (bitsOfNat size) := by
  induction text generalizing bits with
  | nil => simp [digitBits, eq_comm]
  | cons char rest ih =>
      cases separates : isSeparator char with
      | true =>
          rw [digitBits_separator separates, ih, List.filter_cons_of_neg (by simp [separates])]
      | false =>
          rw [List.filter_cons_of_pos (by simp [separates])]
          cases read : digit? char with
          | none =>
              rw [digitBits_other separates read]
              refine iff_of_false nofun ?_
              rintro ⟨_, _ | ⟨here, _⟩, _⟩
              exact absurd ((reads _ _).mpr here) (by simp [read])
          | some digit =>
              rw [digitBits_digit separates read, map_eq_ok_iff]
              constructor
              · rintro ⟨lower, tail, rfl⟩
                obtain ⟨digits, spelled, rfl⟩ := ih.mp tail
                exact ⟨digit :: digits, .cons ((reads _ _).mp read) spelled, rfl⟩
              · rintro ⟨_, _ | ⟨here, spelled⟩, rfl⟩
                obtain rfl := Option.some.inj (read.symm.trans ((reads _ _).mpr here))
                exact ⟨_, ih.mpr ⟨_, spelled, rfl⟩, rfl⟩

/-- A text of digits is read as the number that it spells. -/
theorem spellsApart_iff {number : Nat} :
    SpellsApart (2 ^ size) text number ↔
      ∃ bits, digitBits size digit? text = .ok bits ∧ value ⟨bits⟩ = number := by
  constructor
  · rintro ⟨digits, written, rfl⟩
    exact ⟨_, (digitBits_eq_ok_iff reads).mpr ⟨digits, written, rfl⟩,
      value_flatMap_bitsOfNat (lt_of_written written)⟩
  · rintro ⟨_, read, rfl⟩
    obtain ⟨digits, written, rfl⟩ := (digitBits_eq_ok_iff reads).mp read
    exact ⟨digits, written, value_flatMap_bitsOfNat (lt_of_written written)⟩

/-- Reading fails at the first character that is no part of a digit text. -/
theorem digitBits_eq_error_iff {error : DigitError} :
    digitBits size digit? text = .error error ↔
      ∃ char, StopsAt (2 ^ size) text char ∧ error = .invalidDigit char (2 ^ size) := by
  induction text with
  | nil =>
      refine iff_of_false nofun ?_
      rintro ⟨_, ⟨before, _, split, _⟩, _⟩
      cases before <;> cases split
  | cons char rest ih =>
      cases separates : isSeparator char with
      | true => simp only [digitBits_separator separates, stopsAt_cons_part (.inl separates), ih]
      | false =>
          cases read : digit? char with
          | none =>
              have other : ¬ IsPart (2 ^ size) char := by
                rintro (separator | ⟨digit, digitOf⟩)
                · simp [separates] at separator
                · simp [(reads _ _).mpr digitOf] at read
              rw [digitBits_other separates read, valueCount_eq]
              simp [stopsAt_cons_other other, eq_comm]
          | some digit =>
              have part : IsPart (2 ^ size) char := .inr ⟨digit, (reads _ _).mp read⟩
              simp only [digitBits_digit separates read, stopsAt_cons_part part, ← ih]
              cases digitBits size digit? rest <;> simp [Functor.map, Except.map]

end Digits

section Hexadecimal

variable {text : List Char} {width : Nat}

/-- A text without a mark stays whole. -/
theorem withoutHexMark_of_unmarked (noDollar : text.head? ≠ some '$')
    (noPair : ∀ rest, text ≠ '0' :: 'x' :: rest) : withoutHexMark text = text := by
  unfold withoutHexMark
  split
  · exact absurd rfl (noPair _)
  · exact absurd rfl noDollar
  · rfl

/-- The hexadecimal digits are the digits below sixteen. -/
theorem hexDigit?_reads (char : Char) (digit : Nat) :
    hexDigit? char = some digit ↔ IsDigitOf (2 ^ 4) char digit := hexDigit?_eq_some_iff

/-- The bits that are read stand for the number that is spelled. -/
theorem spellsApart_hex_iff {number : Nat} :
    SpellsApart 16 text number ↔
      ∃ bits, digitBits 4 hexDigit? text = .ok bits ∧ value ⟨bits⟩ = number :=
  spellsApart_iff hexDigit?_reads

/-- The first character that is neither a digit nor a separator is reported. -/
theorem stopsAt_hex_iff {error : DigitError} :
    digitBits 4 hexDigit? text = .error error ↔
      ∃ char, StopsAt 16 text char ∧ error = .invalidDigit char 16 :=
  digitBits_eq_error_iff hexDigit?_reads

/-- A wrong digit is reported before the width. -/
theorem ofHex_of_error {error : DigitError}
    (failed : digitBits 4 hexDigit? (hexBody text) = .error error) :
    ofHex text width = .error error := by
  rw [hexBody] at failed
  rw [ofHex, failed]
  rfl

/-- The digits must stand for a number of the width. -/
theorem ofHex_of_bits {bits : List Bool}
    (read : digitBits 4 hexDigit? (hexBody text) = .ok bits) :
    ofHex text width =
      if 2 ^ width ≤ value ⟨bits⟩ then .error (.tooWide width) else .ok (lowBits ⟨bits⟩ width) := by
  rw [hexBody] at read
  simp [ofHex, read, exceeds_eq, bind, Except.bind, pure, Except.pure]

/-- The word of a hexadecimal text has the width asked for and the number that the text spells. -/
theorem ofHex_eq_ok_iff {word : Word} :
    ofHex text width = .ok word ↔
      SpellsApart 16 (hexBody text) word.value ∧ word.width = width := by
  rw [spellsApart_hex_iff]
  constructor
  · intro result
    cases read : digitBits 4 hexDigit? (hexBody text) with
    | error error => simp [ofHex_of_error read] at result
    | ok bits =>
        rw [ofHex_of_bits read] at result
        split at result
        · cases result
        · rename_i small
          cases result
          exact ⟨⟨bits, rfl, by rw [value_lowBits, Nat.mod_eq_of_lt (Nat.lt_of_not_le small)]⟩,
            width_lowBits _ _⟩
  · rintro ⟨⟨bits, read, sameValue⟩, rfl⟩
    have small := value_lt word
    rw [ofHex_of_bits read, if_neg (by omega)]
    exact congrArg Except.ok (eq_of_value_eq (width_lowBits _ _)
      (by rw [value_lowBits, sameValue, Nat.mod_eq_of_lt small]))

/-- A wrong digit is reported exactly when the text stops at it. -/
theorem ofHex_eq_invalidDigit_iff {char : Char} {radix : Nat} :
    ofHex text width = .error (.invalidDigit char radix) ↔
      StopsAt 16 (hexBody text) char ∧ radix = 16 := by
  have failed : ofHex text width = .error (.invalidDigit char radix) ↔
      digitBits 4 hexDigit? (hexBody text) = .error (.invalidDigit char radix) := by
    cases read : digitBits 4 hexDigit? (hexBody text) with
    | error error =>
        rw [ofHex_of_error read]
        simp
    | ok bits =>
        rw [ofHex_of_bits read]
        split <;> simp
  rw [failed, stopsAt_hex_iff]
  constructor
  · rintro ⟨_, stops, same⟩
    cases same
    exact ⟨stops, rfl⟩
  · rintro ⟨stops, rfl⟩
    exact ⟨char, stops, rfl⟩

/-- A text is too wide exactly when its digits spell a number beyond the width. -/
theorem ofHex_eq_tooWide_iff {limit : Nat} :
    ofHex text width = .error (.tooWide limit) ↔
      (∃ number, SpellsApart 16 (hexBody text) number ∧ 2 ^ width ≤ number) ∧ limit = width := by
  simp only [spellsApart_hex_iff]
  cases read : digitBits 4 hexDigit? (hexBody text) with
  | error error =>
      obtain ⟨char, _, rfl⟩ := stopsAt_hex_iff.mp read
      rw [ofHex_of_error read]
      simp
  | ok bits =>
      rw [ofHex_of_bits read]
      split <;> rename_i large
      · simp [large, eq_comm]
      · simp [large]

end Hexadecimal

section Writing

/-- A digit is read back from its character. -/
theorem hexDigit?_digitChar {digit : Nat} (small : digit < 16) :
    hexDigit? (Nat.digitChar digit) = some digit :=
  hexDigit?_eq_some_iff.mpr ⟨small, .inl rfl⟩

/-- No digit is a separator or belongs to a mark, apart from the zero. -/
theorem digit_plain {char : Char} {digit : Nat} (digitOf : IsDigitOf 16 char digit) :
    isSeparator char = false ∧ char ≠ 'x' ∧ char ≠ '$' := by
  obtain ⟨small, rfl | rfl⟩ := digitOf <;> interval_cases digit <;> decide

/-- Words are written in hexadecimal digits only. -/
theorem digitOf_of_mem_hexDigits {bits : List Bool} :
    ∀ char ∈ hexDigits bits, ∃ digit, IsDigitOf 16 char digit := by
  fun_induction hexDigits bits with
  | case1 first second third fourth rest ih =>
      exact List.forall_mem_cons.mpr
        ⟨⟨_, value_lt ⟨[first, second, third, fourth]⟩, .inl rfl⟩, ih⟩
  | case2 => nofun

/-- Four bits are read back from their digit. -/
theorem digitBits_hexDigits {bits : List Bool} (whole : bits.length % 4 = 0) :
    digitBits 4 hexDigit? (hexDigits bits) = .ok bits := by
  fun_induction hexDigits bits with
  | case1 first second third fourth rest ih =>
      have small := value_lt ⟨[first, second, third, fourth]⟩
      have nibble : bitsOfNat 4 (value ⟨[first, second, third, fourth]⟩) =
          [first, second, third, fourth] :=
        congrArg bits (ofNat_value ⟨[first, second, third, fourth]⟩)
      rw [digitBits_digit (digit_plain ⟨small, .inl rfl⟩).1 (hexDigit?_digitChar small),
        ih (by simpa [Nat.add_assoc] using whole), nibble]
      rfl
  | case2 bits short =>
      rcases bits with _ | ⟨first, _ | ⟨second, _ | ⟨third, _ | ⟨fourth, rest⟩⟩⟩⟩
      · rfl
      · cases whole
      · cases whole
      · cases whole
      · exact (short first second third fourth rest rfl).elim

/-- A text of digits has no mark. -/
theorem hexBody_of_digits {text : List Char}
    (digits : ∀ char ∈ text, ∃ digit, IsDigitOf 16 char digit) : hexBody text = text := by
  have plain : ∀ char ∈ text, Text.isBlank char = false ∧ char ≠ 'x' ∧ char ≠ '$' := by
    intro char inside
    obtain ⟨digit, digitOf⟩ := digits char inside
    obtain ⟨noSeparator, noMark⟩ := digit_plain digitOf
    exact ⟨(Bool.or_eq_false_iff.mp noSeparator).1, noMark⟩
  rw [hexBody, Text.trim_eq_self (fun char first => (plain char (List.mem_of_head? first)).1)
    fun char last => (plain char (List.mem_of_getLast? last)).1]
  apply withoutHexMark_of_unmarked
  · exact fun dollar => (plain '$' (List.mem_of_head? dollar)).2.2 rfl
  · rintro rest rfl
    exact (plain 'x' (by simp)).2.1 rfl

/-- A word is read back from its hexadecimal digits. -/
theorem ofHex_hex (word : Word) : ofHex word.hex word.width = .ok word := by
  have whole : (word.padded ((word.width + 3) / 4 * 4)).bits.length % 4 = 0 := by
    have padding := width_padded word ((word.width + 3) / 4 * 4)
    simp only [width] at padding ⊢
    omega
  rw [ofHex_eq_ok_iff, hex, hexBody_of_digits digitOf_of_mem_hexDigits, spellsApart_hex_iff]
  exact ⟨⟨_, digitBits_hexDigits whole, value_padded _ _⟩, rfl⟩

/-- A word is read back from its binary digits. -/
theorem ofBinary_chars (word : Word) : ofBinary word.chars = .ok word := by
  obtain ⟨bits⟩ := word
  have read : digitBits 1 binaryDigit? (bits.map bitChar) = .ok bits := by
    induction bits with
    | nil => rfl
    | cons bit rest ih =>
        have plain : isSeparator (bitChar bit) = false := by cases bit <;> rfl
        have digit : binaryDigit? (bitChar bit) = some bit.toNat := by cases bit <;> rfl
        have single : bitsOfNat 1 bit.toNat = [bit] := by cases bit <;> rfl
        rw [List.map_cons, digitBits_digit plain digit, ih, single]
        rfl
  exact map_eq_ok_iff.mpr ⟨bits, read, rfl⟩

end Writing

section Separators

variable {separators left right : List Char} {first last : Char} {firstDigit lastDigit : Nat}

/-- A mark lies in front of the first digit, unless an `x` follows that digit. -/
theorem withoutHexMark_around (digitOf : IsDigitOf 16 first firstDigit) (left : List Char) :
    ∃ start, ∀ rest, rest.head? ≠ some 'x' →
      withoutHexMark (left ++ first :: rest) = start ++ first :: rest := by
  obtain ⟨_, noX, noDollar⟩ := digit_plain digitOf
  by_cases marked : (∃ rest, left = '$' :: rest) ∨ ∃ rest, left = '0' :: 'x' :: rest
  · rcases marked with ⟨start, rfl⟩ | ⟨start, rfl⟩
    · exact ⟨start, fun rest _ => rfl⟩
    · exact ⟨start, fun rest _ => rfl⟩
  · obtain ⟨unmarked, unpaired⟩ := not_or.mp marked
    refine ⟨left, fun rest noPair => withoutHexMark_of_unmarked ?_ ?_⟩
    · rcases left with _ | ⟨char, left⟩
      · simpa using noDollar
      · exact fun dollar => unmarked ⟨left, by rw [Option.some.inj dollar]⟩
    · rintro more split
      rcases left with _ | ⟨char, _ | ⟨next, left⟩⟩
      · simp_all
      · simp_all
      · simp_all

/-- The digits of a hexadecimal text are read from its body. -/
theorem ofHex_congr {text other : List Char} {width : Nat}
    (alike : digitBits 4 hexDigit? (hexBody text) = digitBits 4 hexDigit? (hexBody other)) :
    ofHex text width = ofHex other width := by
  rw [hexBody, hexBody] at alike
  rw [ofHex, ofHex, alike]

/-- Separators between two digits make no difference. -/
theorem ofHex_separators (firstOf : IsDigitOf 16 first firstDigit)
    (lastOf : IsDigitOf 16 last lastDigit)
    (separate : ∀ char ∈ separators, isSeparator char = true) (width : Nat) :
    ofHex (left ++ first :: (separators ++ last :: right)) width =
      ofHex (left ++ first :: last :: right) width := by
  have blank {char : Char} {digit : Nat} (digitOf : IsDigitOf 16 char digit) :
      Text.isBlank char = false := (Bool.or_eq_false_iff.mp (digit_plain digitOf).1).1
  obtain ⟨start, stop, trimmed⟩ := Text.trim_around (blank firstOf) (blank lastOf) left right
  obtain ⟨kept, unmarked⟩ := withoutHexMark_around firstOf start
  have noX : (separators ++ last :: stop).head? ≠ some 'x' := by
    cases separators with
    | nil => simpa using (digit_plain lastOf).2.1
    | cons char separators =>
        rintro ⟨⟩
        exact absurd (separate 'x' List.mem_cons_self) (by decide)
  have apart : hexBody (left ++ first :: (separators ++ last :: right)) =
      (kept ++ [first]) ++ (separators ++ last :: stop) := by
    rw [hexBody, trimmed, unmarked _ noX]
    simp
  have joined : hexBody (left ++ first :: last :: right) =
      (kept ++ [first]) ++ last :: stop := by
    rw [hexBody, ← List.nil_append (last :: right), trimmed,
      unmarked _ (by simpa using (digit_plain lastOf).2.1)]
    simp
  exact ofHex_congr (by rw [apart, joined, digitBits_separators separate])

end Separators

/-- Words are read back from their digits, and every other text is rejected for its first fault. -/
theorem digit_codecs_exact :
    (∀ word : Word, ofHex word.hex word.width = .ok word ∧ ofBinary word.chars = .ok word) ∧
    (∀ (text : List Char) (width : Nat),
      (∀ word, ofHex text width = .ok word ↔
        ∃ number, SpellsApart 16 (hexBody text) number ∧ number < 2 ^ width ∧
          word.width = width ∧ word.value = number) ∧
      (∀ char radix, ofHex text width = .error (.invalidDigit char radix) ↔
        StopsAt 16 (hexBody text) char ∧ radix = 16) ∧
      ∀ limit, ofHex text width = .error (.tooWide limit) ↔
        (∃ number, SpellsApart 16 (hexBody text) number ∧ 2 ^ width ≤ number) ∧ limit = width) ∧
    (∀ separators others : List Char, (∀ char ∈ separators, isSeparator char = true) →
      (∀ char ∈ others, isSeparator char = true) → ∀ left right : List Char,
        ofBinary (left ++ separators ++ right) = ofBinary (left ++ others ++ right) ∧
        ∀ (first last : Char) (firstDigit lastDigit width : Nat),
          IsDigitOf 16 first firstDigit → IsDigitOf 16 last lastDigit →
            ofHex (left ++ first :: (separators ++ last :: right)) width =
              ofHex (left ++ first :: (others ++ last :: right)) width) := by
  refine ⟨fun word => ⟨ofHex_hex word, ofBinary_chars word⟩, fun text width => ⟨fun word => ?_,
    fun char radix => ofHex_eq_invalidDigit_iff, fun limit => ofHex_eq_tooWide_iff⟩, ?_⟩
  · rw [ofHex_eq_ok_iff]
    constructor
    · rintro ⟨spelled, rfl⟩
      exact ⟨word.value, spelled, value_lt word, rfl, rfl⟩
    · rintro ⟨_, spelled, _, sameWidth, rfl⟩
      exact ⟨spelled, sameWidth⟩
  · intro separators others separate otherSeparate left right
    constructor
    · rw [ofBinary, ofBinary, List.append_assoc, List.append_assoc, digitBits_separators separate,
        digitBits_separators otherSeparate]
    · intro first last firstDigit lastDigit width firstOf lastOf
      rw [ofHex_separators firstOf lastOf separate, ofHex_separators firstOf lastOf otherSeparate]

/-- Nine bits are read from four digits with separators behind the mark and between the digits. -/
theorem digit_codecs_exact_blanks :
    (∀ char ∈ ['_', ' '], isSeparator char = true) ∧
      (∀ char ∈ ([] : List Char), isSeparator char = true) ∧
      IsDigitOf 16 'A' 10 ∧ IsDigitOf 16 'b' 11 ∧
      ofHex ("\t0x _01".toList ++ 'A' :: (['_', ' '] ++ 'b' :: ['\n'])) 9 = .ok (ofNat 9 0x1ab) ∧
      ofHex ("\t0x _01".toList ++ 'A' :: ([] ++ 'b' :: ['\n'])) 9 = .ok (ofNat 9 0x1ab) := by
  have separate : ∀ char ∈ ['_', ' '], isSeparator char = true :=
    List.forall_mem_cons.mpr ⟨rfl, List.forall_mem_cons.mpr ⟨rfl, nofun⟩⟩
  have none : ∀ char ∈ ([] : List Char), isSeparator char = true := nofun
  have first : IsDigitOf 16 'A' 10 := by decide
  have last : IsDigitOf 16 'b' 11 := by decide
  have same := (digit_codecs_exact.2.2 _ _ separate none "\t0x _01".toList ['\n']).2 _ _ _ _ 9
    first last
  have read : ofHex ("\t0x _01".toList ++ 'A' :: ([] ++ 'b' :: ['\n'])) 9 =
      .ok (ofNat 9 0x1ab) := by decide +kernel
  exact ⟨separate, none, first, last, same.trans read, read⟩

/-- A second mark is no digit, and the zeros of a value that is too large do not help. -/
example : ofHex "0x$1".toList 8 = .error (.invalidDigit '$' 16) ∧
    ofHex "$0_0100".toList 8 = .error (.tooWide 8) := by
  decide +kernel

end WordMachine.Word
