import WordMachine.Proofs.Signed

namespace WordMachine

namespace Text

/-- A line without line breaks stays whole. -/
def Unbroken (line : List Char) : Prop := ∀ char ∈ line, char ≠ '\n' ∧ char ≠ '\r'

variable {line text rest : List Char}

/-- A character that ends no line belongs to the first one. -/
theorem lines_cons_of_ne {char : Char} (noFeed : char ≠ '\n') (noReturn : char ≠ '\r')
    {first : List Char} {more : List (List Char)} (tail : lines text = first :: more) :
    lines (char :: text) = (char :: first) :: more := by
  simp [lines, noReturn, tail]

/-- A line feed cuts an unbroken line off. -/
theorem lines_append_feed (unbroken : Unbroken line) (rest : List Char) :
    lines (line ++ '\n' :: rest) = line :: lines rest := by
  induction line with
  | nil => rfl
  | cons char line ih =>
      obtain ⟨noFeed, noReturn⟩ := unbroken char List.mem_cons_self
      have tail := ih fun other inside => unbroken other (List.mem_cons_of_mem _ inside)
      rw [List.cons_append, lines_cons_of_ne noFeed noReturn tail]

/-- An unbroken text is one line. -/
theorem lines_of_unbroken (unbroken : Unbroken line) (nonempty : line ≠ []) :
    lines line = [line] := by
  induction line with
  | nil => exact absurd rfl nonempty
  | cons char line ih =>
      obtain ⟨noFeed, noReturn⟩ := unbroken char List.mem_cons_self
      cases line with
      | nil => simp [lines]
      | cons next line =>
          have tail := ih (fun other inside => unbroken other (List.mem_cons_of_mem _ inside))
            (List.cons_ne_nil _ _)
          exact lines_cons_of_ne noFeed noReturn tail

/-- Lines that end in a line feed are cut apart again. -/
theorem lines_flatMap_feed {texts : List (List Char)} (unbroken : ∀ line ∈ texts, Unbroken line) :
    lines (texts.flatMap (· ++ ['\n'])) = texts := by
  induction texts with
  | nil => rfl
  | cons line texts ih =>
      have tail := ih fun other inside => unbroken other (List.mem_cons_of_mem _ inside)
      rw [List.flatMap_cons, List.append_assoc, List.singleton_append,
        lines_append_feed (unbroken line List.mem_cons_self), tail]

/-- Lines joined by line feeds are cut apart again. -/
theorem lines_intercalate_feed {texts : List (List Char)}
    (unbroken : ∀ line ∈ texts, Unbroken line) (nonempty : ∀ line ∈ texts, line ≠ []) :
    lines (['\n'].intercalate texts) = texts := by
  induction texts with
  | nil => rfl
  | cons line texts ih =>
      cases texts with
      | nil =>
          rw [List.intercalate_singleton]
          exact lines_of_unbroken (unbroken line List.mem_cons_self)
            (nonempty line List.mem_cons_self)
      | cons next texts =>
          have tail := ih (fun other inside => unbroken other (List.mem_cons_of_mem _ inside))
            fun other inside => nonempty other (List.mem_cons_of_mem _ inside)
          rw [List.intercalate_cons_cons, List.append_assoc, List.singleton_append,
            lines_append_feed (unbroken line List.mem_cons_self), tail]

/-- What holds in the parts and between them holds in the joined text. -/
theorem forall_mem_intercalate {property : Char → Prop} {joint : List Char}
    {texts : List (List Char)} (between : ∀ char ∈ joint, property char)
    (each : ∀ text ∈ texts, ∀ char ∈ text, property char) :
    ∀ char ∈ joint.intercalate texts, property char := by
  induction texts with
  | nil =>
      intro char impossible
      cases impossible
  | cons text texts ih =>
      have here := each text List.mem_cons_self
      cases texts with
      | nil => rwa [List.intercalate_singleton]
      | cons next texts =>
          have later := ih fun text listed => each text (List.mem_cons_of_mem _ listed)
          rw [List.intercalate_cons_cons, List.forall_mem_append, List.forall_mem_append]
          exact ⟨⟨here, between⟩, later⟩

/-- The last character of a text has a property. -/
def EndsIn (property : Char → Prop) (text : List Char) : Prop :=
  ∃ before last, text = before ++ [last] ∧ property last

theorem EndsIn.append_left {property : Char → Prop} (ends : EndsIn property text)
    (before : List Char) : EndsIn property (before ++ text) := by
  obtain ⟨start, last, rfl, holds⟩ := ends
  exact ⟨before ++ start, last, (List.append_assoc _ _ _).symm, holds⟩

/-- A text of such characters ends in one. -/
theorem EndsIn.of_forall {property : Char → Prop} (nonempty : text ≠ [])
    (each : ∀ char ∈ text, property char) : EndsIn property text :=
  ⟨text.dropLast, text.getLast nonempty, (List.dropLast_append_getLast nonempty).symm,
    each _ (List.getLast_mem nonempty)⟩

/-- The last character has the property. -/
theorem EndsIn.getLast {property : Char → Prop} (ends : EndsIn property text) :
    ∀ char ∈ text.getLast?, property char := by
  obtain ⟨before, last, rfl, holds⟩ := ends
  intro char final
  rw [List.getLast?_concat] at final
  obtain rfl : last = char := Option.some.inj final
  exact holds

/-- A joined text ends as its last part does. -/
theorem EndsIn.intercalate {property : Char → Prop} {joint : List Char} {texts : List (List Char)}
    (nonempty : texts ≠ []) (ends : ∀ text ∈ texts, EndsIn property text) :
    EndsIn property (joint.intercalate texts) := by
  induction texts with
  | nil => exact absurd rfl nonempty
  | cons text texts ih =>
      cases texts with
      | nil =>
          rw [List.intercalate_singleton]
          exact ends text List.mem_cons_self
      | cons next texts =>
          rw [List.intercalate_cons_cons]
          exact (ih (List.cons_ne_nil _ _)
            fun text inside => ends text (List.mem_cons_of_mem _ inside)).append_left _

/-- Blanks in front are trimmed. -/
theorem trim_cons_blank {char : Char} (blank : isBlank char = true) (text : List Char) :
    trim (char :: text) = trim text := by
  rw [trim, List.dropWhile_cons_of_pos blank, trim]

/-- Blanks behind are trimmed. -/
theorem trim_append_blank {char : Char} (blank : isBlank char = true) (text : List Char) :
    trim (text ++ [char]) = trim text := by
  rw [trim, trim, List.dropWhile_append]
  split <;> rename_i leading
  · rw [List.dropWhile_cons_of_pos blank, List.isEmpty_iff.mp leading]
    rfl
  · rw [List.reverse_append, List.reverse_singleton, List.singleton_append,
      List.dropWhile_cons_of_pos blank]

/-- Nothing is trimmed from a text between two characters that are no blanks. -/
theorem trim_eq_self (first : ∀ char ∈ text.head?, isBlank char = false)
    (last : ∀ char ∈ text.getLast?, isBlank char = false) : trim text = text := by
  have kept (text : List Char) (first : ∀ char ∈ text.head?, isBlank char = false) :
      text.dropWhile isBlank = text := by
    cases text with
    | nil => rfl
    | cons char text => exact List.dropWhile_cons_of_neg (by simp [first char rfl])
  rw [trim, kept text first, kept text.reverse (by rwa [List.head?_reverse]), List.reverse_reverse]

/-- Trimming stops at what is visible. -/
theorem dropWhile_isBlank_append {char : Char} (kept : isBlank char = false)
    (left right : List Char) :
    (left ++ char :: right).dropWhile isBlank = left.dropWhile isBlank ++ char :: right := by
  rw [List.dropWhile_append]
  split <;> rename_i blank
  · rw [List.isEmpty_iff.mp blank, List.dropWhile_cons_of_neg (by simp [kept])]
    rfl
  · rfl

/-- Trimming does not reach between two characters that are no blanks. -/
theorem trim_around {first last : Char} (keptFirst : isBlank first = false)
    (keptLast : isBlank last = false) (left right : List Char) :
    ∃ start stop, ∀ inner, trim (left ++ first :: (inner ++ last :: right)) =
      start ++ first :: (inner ++ last :: stop) := by
  refine ⟨left.dropWhile isBlank, (right.reverse.dropWhile isBlank).reverse, ?_⟩
  intro inner
  have turned : (left.dropWhile isBlank ++ first :: (inner ++ last :: right)).reverse =
      right.reverse ++ last :: (left.dropWhile isBlank ++ first :: inner).reverse := by
    simp
  rw [trim, dropWhile_isBlank_append keptFirst, turned, dropWhile_isBlank_append keptLast]
  simp

/-- A text without breaks is one piece. -/
theorem pieces_of_unbroken {isBreak : Char → Bool}
    (unbroken : ∀ char ∈ text, isBreak char = false) : pieces isBreak text = [text] := by
  induction text with
  | nil => rfl
  | cons char text ih =>
      have tail := ih fun other inside => unbroken other (List.mem_cons_of_mem _ inside)
      simp [pieces, unbroken char List.mem_cons_self, tail]

/-- A break cuts the first piece off. -/
theorem pieces_append_break {isBreak : Char → Bool} {stop : Char}
    (unbroken : ∀ char ∈ text, isBreak char = false) (breaks : isBreak stop = true)
    (rest : List Char) :
    pieces isBreak (text ++ stop :: rest) = text :: pieces isBreak rest := by
  induction text with
  | nil => simp [pieces, breaks]
  | cons char text ih =>
      have tail := ih fun other inside => unbroken other (List.mem_cons_of_mem _ inside)
      simp [pieces, unbroken char List.mem_cons_self, tail]

/-- Pieces joined by a break are cut apart again. -/
theorem pieces_intercalate_break {isBreak : Char → Bool} {stop : Char}
    (breaks : isBreak stop = true) {texts : List (List Char)} (nonempty : texts ≠ [])
    (unbroken : ∀ text ∈ texts, ∀ char ∈ text, isBreak char = false) :
    pieces isBreak ([stop].intercalate texts) = texts := by
  induction texts with
  | nil => exact absurd rfl nonempty
  | cons text texts ih =>
      have here := unbroken text List.mem_cons_self
      cases texts with
      | nil =>
          rw [List.intercalate_singleton]
          exact pieces_of_unbroken here
      | cons next texts =>
          have tail := ih (List.cons_ne_nil _ _)
            fun text inside => unbroken text (List.mem_cons_of_mem _ inside)
          rw [List.intercalate_cons_cons, List.append_assoc, List.singleton_append,
            pieces_append_break here breaks, tail]

/-- Words joined by spaces are the words of the joined text. -/
theorem words_intercalate_space {texts : List (List Char)} (present : texts ≠ [])
    (nonempty : ∀ text ∈ texts, text ≠ [])
    (unbroken : ∀ text ∈ texts, ∀ char ∈ text, isBlank char = false) :
    words ([' '].intercalate texts) = texts := by
  rw [words, pieces_intercalate_break rfl present unbroken, List.filter_eq_self]
  intro text listed
  simp [nonempty text listed]

/-- Nothing is trimmed from words that are joined by spaces. -/
theorem trim_intercalate_space {texts : List (List Char)} (present : texts ≠ [])
    (nonempty : ∀ text ∈ texts, text ≠ [])
    (unbroken : ∀ text ∈ texts, ∀ char ∈ text, isBlank char = false) :
    trim ([' '].intercalate texts) = [' '].intercalate texts := by
  apply trim_eq_self
  · intro char first
    obtain ⟨text, rest, rfl⟩ := List.exists_cons_of_ne_nil present
    obtain ⟨letter, letters, rfl⟩ := List.exists_cons_of_ne_nil (nonempty text List.mem_cons_self)
    have here := unbroken _ List.mem_cons_self letter List.mem_cons_self
    cases rest <;> simp_all [List.intercalate_cons_cons]
  · have ends : EndsIn (fun char => isBlank char = false) ([' '].intercalate texts) :=
      .intercalate present fun text inside =>
        .of_forall (nonempty text inside) (unbroken text inside)
    exact ends.getLast

/-- Numbers are written in digits. -/
theorem isDigit_of_mem_decimal {number : Nat} {char : Char} (inside : char ∈ decimal number) :
    char.isDigit = true :=
  Nat.isDigit_of_mem_toDigits (by decide) (by decide) inside

theorem decimal_ne_nil (number : Nat) : decimal number ≠ [] := Nat.toDigits_ne_nil

end Text

namespace Assembly

/-- Every digit extends the value before it. -/
theorem foldl_digits {digits : List Char} (decimal : ∀ char ∈ digits, char.isDigit = true)
    (start : Nat) :
    digits.foldl (fun total? char => do
      let total ← total?
      let digit ← Word.hexDigit? char
      if digit < 10 then some (10 * total + digit) else none) (some start) =
        some (Nat.ofDigitChars 10 digits start) := by
  induction digits generalizing start with
  | nil => rfl
  | cons char digits ih =>
      have tail := ih fun other inside => decimal other (List.mem_cons_of_mem _ inside)
      have here := Char.isDigit_iff_toNat.mp (decimal char List.mem_cons_self)
      have read : Word.hexDigit? char = some (char.toNat - '0'.toNat) := by
        rw [Word.hexDigit?, if_pos here]
      have small : char.toNat - '0'.toNat < 10 := by
        have above : char.toNat ≤ 57 := here.2
        change char.toNat - 48 < 10
        omega
      rw [List.foldl_cons, read, Nat.ofDigitChars_cons, ← tail]
      simp only [Option.bind_eq_bind, Option.bind_some, if_pos small]

/-- A printed number has its own value. -/
theorem magnitude?_decimal (number : Nat) : magnitude? 10 (Text.decimal number) = some number := by
  have nonempty : ¬ (Text.decimal number).isEmpty = true := by
    rw [List.isEmpty_iff]
    exact Text.decimal_ne_nil number
  rw [magnitude?, if_neg nonempty, foldl_digits fun _ => Text.isDigit_of_mem_decimal, Text.decimal,
    Nat.ofDigitChars_ten_toDigits]

/-- Digits are read in decimal, behind a minus sign as well as alone. -/
theorem literal?_digits {digits : List Char} {number : Nat}
    (decimal : ∀ char ∈ digits, char.isDigit = true) (read : magnitude? 10 digits = some number)
    (small : number < 2 ^ 64) :
    literal? digits = some (number : Int) ∧ literal? ('-' :: digits) = some (-number : Int) := by
  cases digits with
  | nil => cases read
  | cons first rest =>
      have digit := decimal first List.mem_cons_self
      have noMinus : first ≠ '-' := by
        rintro rfl
        exact absurd digit (by decide)
      have noDollar : first ≠ '$' := by
        rintro rfl
        exact absurd digit (by decide)
      have noLetter : first ≠ 'b' := by
        rintro rfl
        exact absurd digit (by decide)
      constructor <;> simpa [literal?, noMinus, noDollar, noLetter, read] using small

/-- A written number is a literal. -/
theorem literal?_decimal {number : Nat} (small : number < 2 ^ 64) :
    literal? (Text.decimal number) = some (number : Int) :=
  (literal?_digits (fun _ => Text.isDigit_of_mem_decimal) (magnitude?_decimal number) small).1

/-- A printed integer is a literal. -/
theorem literal?_integer {number : Int} (small : number.natAbs < 2 ^ 64) :
    literal? (Text.integer number) = some number := by
  cases number with
  | ofNat number => exact literal?_decimal small
  | negSucc number =>
      exact (literal?_digits (fun _ => Text.isDigit_of_mem_decimal) (magnitude?_decimal _) small).2

end Assembly

end WordMachine
