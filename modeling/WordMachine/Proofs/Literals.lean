import Mathlib.Data.Nat.Digits.Defs
import WordMachine.Proofs.LabelledJumps

namespace WordMachine.Assembly

/-- A digit is written as the character that prints it, or as the capital of that character. -/
def IsDigitOf (radix : Nat) (char : Char) (digit : Nat) : Prop :=
  digit < radix ∧ (char = Nat.digitChar digit ∨ char = (Nat.digitChar digit).toUpper)

instance (radix : Nat) (char : Char) (digit : Nat) : Decidable (IsDigitOf radix char digit) :=
  inferInstanceAs (Decidable (_ ∧ _))

/-- A text of digits stands for the number that the digits have by their places. -/
def Spells (radix : Nat) (text : List Char) (number : Nat) : Prop :=
  text ≠ [] ∧ ∃ digits, List.Forall₂ (IsDigitOf radix) text digits ∧
    number = Nat.ofDigits radix digits.reverse

/-- A numeral is decimal unless a mark in front of it says otherwise. -/
inductive Numeral : List Char → Nat → Prop
  | decimal {digits : List Char} {number : Nat} (spelled : Spells 10 digits number) :
      Numeral digits number
  | hexadecimal {digits : List Char} {number : Nat} (spelled : Spells 16 digits number) :
      Numeral ('$' :: digits) number
  | binary {digits : List Char} {number : Nat} (spelled : Spells 2 digits number) :
      Numeral ('b' :: digits) number

/-- A literal is a numeral below `2 ^ 64` with an optional minus sign in front of it. -/
inductive IsLiteral : List Char → Int → Prop
  | plain {text : List Char} {number : Nat} (numeral : Numeral text number)
      (small : number < 2 ^ 64) : IsLiteral text number
  | negated {text : List Char} {number : Nat} (numeral : Numeral text number)
      (small : number < 2 ^ 64) : IsLiteral ('-' :: text) (-number)

section Digits

variable {radix : Nat} {char : Char} {text : List Char} {number : Nat}

/-- Hexadecimal digits are low characters. -/
theorem toNat_lt_of_hexDigit? {digit : Nat} (read : Word.hexDigit? char = some digit) :
    char.toNat < 103 := by
  by_contra beyond
  have digits : ¬ ('0'.toNat ≤ char.toNat ∧ char.toNat ≤ '9'.toNat) := by
    rintro ⟨_, below⟩
    have last : '9'.toNat = 57 := rfl
    omega
  have letters : ¬ ('a'.toNat ≤ char.toNat ∧ char.toNat ≤ 'f'.toNat) := by
    rintro ⟨_, below⟩
    have last : 'f'.toNat = 102 := rfl
    omega
  have capitals : ¬ ('A'.toNat ≤ char.toNat ∧ char.toNat ≤ 'F'.toNat) := by
    rintro ⟨_, below⟩
    have last : 'F'.toNat = 70 := rfl
    omega
  rw [Word.hexDigit?, if_neg digits, if_neg letters, if_neg capitals] at read
  cases read

/-- A character is read as the hexadecimal digit that it is. -/
theorem hexDigit?_eq_some_iff {digit : Nat} :
    Word.hexDigit? char = some digit ↔ IsDigitOf 16 char digit := by
  constructor
  · intro read
    have each : ∀ code < 103, ∀ digit ∈ Word.hexDigit? (Char.ofNat code),
        IsDigitOf 16 (Char.ofNat code) digit := by decide +kernel
    have low := toNat_lt_of_hexDigit? read
    rw [← Char.ofNat_toNat char] at read ⊢
    exact each char.toNat low digit read
  · rintro ⟨small, rfl | rfl⟩ <;> interval_cases digit <;> rfl

/-- One more digit behind the number read so far. -/
def readDigit (radix : Nat) (total? : Option Nat) (char : Char) : Option Nat := do
  let total ← total?
  let digit ← Word.hexDigit? char
  if digit < radix then some (radix * total + digit) else none

/-- A digit is added behind the digits before it. -/
theorem readDigit_eq_some_iff (small : radix ≤ 16) {total : Nat} :
    readDigit radix (some total) char = some number ↔
      ∃ digit, IsDigitOf radix char digit ∧ number = radix * total + digit := by
  simp only [readDigit, Option.bind_eq_bind, Option.bind_some, Option.bind_eq_some_iff,
    hexDigit?_eq_some_iff]
  constructor
  · rintro ⟨digit, ⟨_, written⟩, read⟩
    split at read
    · rename_i below
      exact ⟨digit, ⟨below, written⟩, (Option.some.inj read).symm⟩
    · cases read
  · rintro ⟨digit, ⟨below, written⟩, rfl⟩
    exact ⟨digit, ⟨below.trans_le small, written⟩, if_pos below⟩

/-- Nothing is read behind a wrong digit. -/
theorem foldl_readDigit_none (radix : Nat) (text : List Char) :
    text.foldl (readDigit radix) none = none := by
  induction text with
  | nil => rfl
  | cons char rest ih => exact ih

/-- Digits are read one after the other. -/
theorem foldl_readDigit_cons (start : Nat) :
    (char :: text).foldl (readDigit radix) (some start) = some number ↔
      ∃ next, readDigit radix (some start) char = some next ∧
        text.foldl (readDigit radix) (some next) = some number := by
  rw [List.foldl_cons]
  cases readDigit radix (some start) char with
  | none => simp [foldl_readDigit_none]
  | some next => simp

/-- The digits read later have the lower places. -/
theorem foldl_readDigit (small : radix ≤ 16) (start : Nat) :
    text.foldl (readDigit radix) (some start) = some number ↔
      ∃ digits, List.Forall₂ (IsDigitOf radix) text digits ∧
        number = radix ^ text.length * start + Nat.ofDigits radix digits.reverse := by
  induction text generalizing start with
  | nil => simp [eq_comm]
  | cons char rest ih =>
      have places {digits : List Nat} (spelled : List.Forall₂ (IsDigitOf radix) rest digits)
          (digit : Nat) :
          radix ^ rest.length * (radix * start + digit) + Nat.ofDigits radix digits.reverse =
            radix ^ (char :: rest).length * start +
              Nat.ofDigits radix (digit :: digits).reverse := by
        rw [List.reverse_cons, Nat.ofDigits_append, Nat.ofDigits_singleton, List.length_reverse,
          ← spelled.length_eq, List.length_cons, pow_succ]
        ring
      simp only [foldl_readDigit_cons, readDigit_eq_some_iff small, ih, List.forall₂_cons_left_iff]
      constructor
      · rintro ⟨_, ⟨digit, written, rfl⟩, digits, spelled, rfl⟩
        exact ⟨digit :: digits, ⟨digit, digits, written, spelled, rfl⟩, places spelled digit⟩
      · rintro ⟨_, ⟨digit, digits, written, spelled, rfl⟩, rfl⟩
        exact ⟨_, ⟨digit, written, rfl⟩, digits, spelled, (places spelled digit).symm⟩

/-- A text is read as the number that it spells. -/
theorem magnitude?_eq_some_iff (small : radix ≤ 16) :
    magnitude? radix text = some number ↔ Spells radix text number := by
  have fold : magnitude? radix text =
      if text.isEmpty then none else text.foldl (readDigit radix) (some 0) := rfl
  rw [fold, Spells]
  cases text with
  | nil => simp
  | cons char rest =>
      rw [if_neg (by simp), foldl_readDigit small]
      simp

end Digits

section Literals

variable {text : List Char} {number : Nat} {value : Int}

/-- A decimal text opens with a character that is neither a mark nor a minus sign. -/
theorem Spells.head_ne (spelled : Spells 10 text number) {char : Char}
    (first : text.head? = some char) : char ≠ '-' ∧ char ≠ '$' ∧ char ≠ 'b' := by
  obtain ⟨_, digits, written, _⟩ := spelled
  cases written with
  | nil => cases first
  | @cons _ digit _ _ here _ =>
      obtain rfl := Option.some.inj first
      obtain ⟨small, rfl | rfl⟩ := here <;> interval_cases digit <;> decide

/-- The number that a numeral stands for. -/
def numeral? : List Char → Option Nat
  | '$' :: digits => magnitude? 16 digits
  | 'b' :: digits => magnitude? 2 digits
  | digits => magnitude? 10 digits

/-- A text is read as the number of its numeral. -/
theorem numeral?_eq_some_iff : numeral? text = some number ↔ Numeral text number := by
  constructor
  · intro read
    unfold numeral? at read
    split at read
    · exact .hexadecimal ((magnitude?_eq_some_iff (by decide)).mp read)
    · exact .binary ((magnitude?_eq_some_iff (by decide)).mp read)
    · exact .decimal ((magnitude?_eq_some_iff (by decide)).mp read)
  · intro numeral
    cases numeral with
    | hexadecimal spelled => exact (magnitude?_eq_some_iff (by decide)).mpr spelled
    | binary spelled => exact (magnitude?_eq_some_iff (by decide)).mpr spelled
    | decimal spelled =>
        obtain ⟨first, rest, rfl⟩ := List.exists_cons_of_ne_nil spelled.1
        obtain ⟨_, noDollar, noLetter⟩ := spelled.head_ne rfl
        simpa [numeral?, noDollar, noLetter] using
          (magnitude?_eq_some_iff (by decide)).mpr spelled

/-- A minus sign stands in front of a numeral. -/
theorem literal?_minus (text : List Char) :
    literal? ('-' :: text) =
      (numeral? text).bind fun number => if number < 2 ^ 64 then some (-(number : Int)) else none := by
  simp only [literal?, valueCount_eq, Option.bind_eq_bind, if_true]
  split <;> simp [numeral?, *]

/-- Without a minus sign a literal is a numeral. -/
theorem literal?_of_head_ne (noMinus : text.head? ≠ some '-') :
    literal? text =
      (numeral? text).bind fun number => if number < 2 ^ 64 then some (number : Int) else none := by
  cases text with
  | nil => rfl
  | cons first rest =>
      have other : first ≠ '-' := fun same => noMinus (congrArg some same)
      simp only [literal?, List.cons.injEq, other, false_and, imp_self, implies_true,
        valueCount_eq, Bool.false_eq_true, if_false, Option.bind_eq_bind]
      split <;> simp [numeral?, *]

/-- A numeral has no sign. -/
theorem Numeral.head_ne (numeral : Numeral text number) : text.head? ≠ some '-' := by
  cases numeral with
  | decimal spelled => exact fun first => (spelled.head_ne first).1 rfl
  | hexadecimal _ => exact fun first => absurd (Option.some.inj first) (by decide)
  | binary _ => exact fun first => absurd (Option.some.inj first) (by decide)

/-- Exactly the literals have a value. -/
theorem literal?_eq_some_iff : literal? text = some value ↔ IsLiteral text value := by
  constructor
  · intro read
    by_cases minus : text.head? = some '-'
    · obtain ⟨rest, rfl⟩ := List.head?_eq_some_iff.mp minus
      rw [literal?_minus] at read
      obtain ⟨number, numeral, limited⟩ := Option.bind_eq_some_iff.mp read
      split at limited
      · rename_i small
        obtain rfl := Option.some.inj limited
        exact .negated (numeral?_eq_some_iff.mp numeral) small
      · cases limited
    · rw [literal?_of_head_ne minus] at read
      obtain ⟨number, numeral, limited⟩ := Option.bind_eq_some_iff.mp read
      split at limited
      · rename_i small
        obtain rfl := Option.some.inj limited
        exact .plain (numeral?_eq_some_iff.mp numeral) small
      · cases limited
  · intro isLiteral
    cases isLiteral with
    | plain numeral small =>
        rw [literal?_of_head_ne numeral.head_ne, numeral?_eq_some_iff.mpr numeral]
        exact if_pos small
    | negated numeral small =>
        rw [literal?_minus, numeral?_eq_some_iff.mpr numeral]
        exact if_pos small

/-- A text is rejected exactly when it is no literal. -/
theorem literal?_eq_none_iff : literal? text = none ↔ ¬ ∃ value, IsLiteral text value := by
  simp only [← literal?_eq_some_iff, Option.eq_none_iff_forall_ne_some, not_exists]

/-- A literal has a single value. -/
theorem IsLiteral.unique {other : Int} (isLiteral : IsLiteral text value)
    (again : IsLiteral text other) : value = other :=
  Option.some.inj ((literal?_eq_some_iff.mpr isLiteral).symm.trans (literal?_eq_some_iff.mpr again))

/-- The only operands refused for their values are those that do not fit. -/
theorem operandWord_eq_error {width : Nat} (positive : 1 ≤ width) (narrow : width ≤ 64)
    (misfit : ¬ Fits width value) :
    operandWord width value = .error (.operandOutOfRange value width) := by
  have refused : ∀ word, operandWord width value ≠ .ok word := fun word made =>
    misfit ((operandWord_eq_ok_iff positive narrow).mp made).1
  unfold operandWord at refused ⊢
  split
  · rfl
  · rename_i inside
    rw [if_neg inside] at refused
    split at refused
    · exact absurd rfl (refused _)
    · exact absurd rfl (refused _)

end Literals

section Operands

variable {source name text operand : List Char} {mode : Mode} {index : Nat} {value : Int}

/-- A label may be defined before or behind the instructions that refer to it. -/
def IsDefined (source label : List Char) : Prop :=
  ∃ statement ∈ statements (Text.lines source), Defines label statement

/-- Behind the sigil of a distance, a defined label or a label that is no literal is taken as a
label. -/
def TakenAsLabel (source : List Char) (mode : Mode) (text : List Char) : Prop :=
  mode = .relative ∧ isLabel text = true ∧
    (IsDefined source text ∨ ¬ ∃ value, IsLiteral text value)

/-- An operand refers to a label when it is read as the distance to the target of the label, and
as a fault if the label has no target. -/
structure RefersTo (source : List Char) (index : Nat) (operand label : List Char) : Prop where
  distance : ∀ target, IsTarget (statements (Text.lines source)) label target →
    readOperand (firstPass source).1 index operand = .ok (.relative, (target : Int) - index)
  undefined : ¬ IsDefined source label →
    readOperand (firstPass source).1 index operand =
      .error (.undefinedLabel (String.ofList label))

/-- A label is defined exactly when the first pass has collected it. -/
theorem isDefined_iff :
    IsDefined source name ↔ ((firstPass source).1.lookup name).isSome = true := by
  constructor
  · intro defined
    obtain ⟨target, isTarget⟩ := exists_isTarget defined
    rw [lookup_of_target isTarget]
    rfl
  · intro known
    obtain ⟨target, found⟩ := Option.isSome_iff_exists.mp known
    exact defined_of_lookup found

/-- An operand that is looked up refers to its label. -/
theorem RefersTo.of_resolve
    (resolved : readOperand (firstPass source).1 index operand =
      resolve (firstPass source).1 index name) : RefersTo source index operand name := by
  constructor
  · intro target isTarget
    rw [resolved, resolve, lookup_of_target isTarget]
  · intro undefined
    rw [isDefined_iff, Bool.not_eq_true, Option.isSome_eq_false_iff, Option.isNone_iff_eq_none]
      at undefined
    rw [resolved, resolve, undefined]

/-- The text behind a sigil is read as a literal unless it is taken as a label. -/
theorem readOperand_sigil (plain : ¬ TakenAsLabel source mode text) :
    readOperand (firstPass source).1 index (mode.sigil :: text) =
      match literal? text with
      | some value => .ok (mode, value)
      | none => .error (.invalidLiteral (String.ofList text)) := by
  have marked : ¬ isLabel (mode.sigil :: text) = true := by
    cases mode <;> simp [isLabel, isLetter, Mode.sigil]
  have sigil : Mode.ofSigil? ((mode.sigil :: text).headD ' ') = some mode :=
    Mode.ofSigil?_eq_some_iff.mpr rfl
  have unlabelled : ¬ (mode == .relative && isLabel text &&
      (((firstPass source).1.lookup text).isSome || (literal? text).isNone)) = true := by
    rw [TakenAsLabel, isDefined_iff, ← literal?_eq_none_iff] at plain
    simpa [and_assoc] using plain
  rw [readOperand, if_neg marked]
  simp only [sigil, List.tail_cons]
  exact if_neg unlabelled

/-- A label behind the sigil of a distance gives way to a literal of the same text only when it is
not defined. -/
theorem refersTo_distance_iff (labelled : isLabel name = true) :
    RefersTo source index (Mode.relative.sigil :: name) name ↔
      IsDefined source name ∨ ¬ ∃ value, IsLiteral name value := by
  constructor
  · intro refers
    by_contra neither
    obtain ⟨undefined, isLiteral⟩ := not_or.mp neither
    obtain ⟨value, isLiteral⟩ := not_not.mp isLiteral
    have plain : ¬ TakenAsLabel source .relative name := fun taken => neither taken.2.2
    have unknown := refers.undefined undefined
    rw [readOperand_sigil plain, literal?_eq_some_iff.mpr isLiteral] at unknown
    cases unknown
  · intro preferred
    rw [isDefined_iff, ← literal?_eq_none_iff] at preferred
    exact .of_resolve (readOperand_distance labelled preferred)

/-- A literal that fits is read as the word of its remainder. -/
theorem readsOperand_sigil_iff {width : Nat} (positive : 1 ≤ width) (narrow : width ≤ 64)
    (plain : ¬ TakenAsLabel source mode text) {result : Mode × Word} :
    ReadsOperand width (firstPass source).1 index (mode.sigil :: text) result ↔
      result.1 = mode ∧ ∃ value, IsLiteral text value ∧ Fits width value ∧
        result.2 = Word.ofNat width (residue width value) := by
  simp only [ReadsOperand, readOperand_sigil plain, operandWord_eq_ok_iff positive narrow,
    residue, ← literal?_eq_some_iff]
  cases literal? text with
  | none => simp
  | some known => simp [and_assoc, eq_comm]

/-- A text behind a sigil is accepted exactly when it is a literal that fits or names a label. -/
theorem operand_literals_exact {width : Nat} (positive : 1 ≤ width) (narrow : width ≤ 64)
    (source : List Char) (index : Nat) :
    (∀ (mode : Mode) (text : List Char), ¬ TakenAsLabel source mode text →
      ((∃ result, ReadsOperand width (firstPass source).1 index (mode.sigil :: text) result) ↔
        ∃ value, IsLiteral text value ∧ -2 ^ (width - 1) ≤ value ∧ value ≤ 2 ^ width - 1) ∧
      (∀ result value, IsLiteral text value →
        ReadsOperand width (firstPass source).1 index (mode.sigil :: text) result →
        result.1 = mode ∧ result.2.width = width ∧
          (result.2.value : Int) = value % 2 ^ width) ∧
      ((¬ ∃ value, IsLiteral text value) →
        readOperand (firstPass source).1 index (mode.sigil :: text) =
          .error (.invalidLiteral (String.ofList text))) ∧
      ∀ value, IsLiteral text value → ¬ (-2 ^ (width - 1) ≤ value ∧ value ≤ 2 ^ width - 1) →
        readOperand (firstPass source).1 index (mode.sigil :: text) = .ok (mode, value) ∧
          operandWord width value = .error (.operandOutOfRange value width)) ∧
    ∀ name, isLabel name = true →
      RefersTo source index name name ∧
      (RefersTo source index (Mode.relative.sigil :: name) name ↔
        IsDefined source name ∨ ¬ ∃ value, IsLiteral name value) := by
  simp only [Int.le_sub_one_iff]
  refine ⟨?_, fun name labelled =>
    ⟨.of_resolve (readOperand_label labelled), refersTo_distance_iff labelled⟩⟩
  intro mode text plain
  refine ⟨⟨?_, ?_⟩, ?_, ?_, ?_⟩
  · rintro ⟨result, reads⟩
    obtain ⟨_, value, isLiteral, fits, _⟩ :=
      (readsOperand_sigil_iff positive narrow plain).mp reads
    exact ⟨value, isLiteral, fits⟩
  · rintro ⟨value, isLiteral, fits⟩
    exact ⟨(mode, _), (readsOperand_sigil_iff positive narrow plain).mpr
      ⟨rfl, value, isLiteral, fits, rfl⟩⟩
  · intro result value isLiteral reads
    obtain ⟨sameMode, known, knownLiteral, _, word⟩ :=
      (readsOperand_sigil_iff positive narrow plain).mp reads
    obtain rfl := isLiteral.unique knownLiteral
    refine ⟨sameMode, by rw [word, Word.width_ofNat], ?_⟩
    rw [word, Word.value_ofNat_of_lt (residue_lt width value), natCast_residue]
  · intro noLiteral
    rw [readOperand_sigil plain, literal?_eq_none_iff.mpr noLiteral]
  · intro value isLiteral misfit
    rw [readOperand_sigil plain, literal?_eq_some_iff.mpr isLiteral]
    exact ⟨rfl, operandWord_eq_error positive narrow misfit⟩

/-- A text that is a literal as well as a label names the label only if it is defined. -/
theorem operand_literals_exact_ambiguous :
    1 ≤ 8 ∧ 8 ≤ 64 ∧ ¬ TakenAsLabel "b10:".toList .immediate "-$80".toList ∧
      (∃ result, ReadsOperand 8 (firstPass "b10:".toList).1 0 "#-$80".toList result ∧
        result.2.value = 128) ∧
      readOperand (firstPass "b10:".toList).1 0 "#12z".toList = .error (.invalidLiteral "12z") ∧
      operandWord 8 256 = .error (.operandOutOfRange 256 8) ∧
      isLabel "b10".toList = true ∧
      RefersTo "b10:".toList 0 "!b10".toList "b10".toList ∧
      ¬ RefersTo "b11:".toList 0 "!b10".toList "b10".toList := by
  have narrow : 8 ≤ 64 := by decide
  have plain (text : List Char) : ¬ TakenAsLabel "b10:".toList .immediate text := by
    rintro ⟨distance, _⟩
    cases distance
  have labelled : isLabel "b10".toList = true := by decide
  have least : IsLiteral "-$80".toList (-128) := literal?_eq_some_iff.mp (by decide)
  have ambiguous : IsLiteral "b10".toList 2 := literal?_eq_some_iff.mp (by decide)
  have foreign : ¬ ∃ value, IsLiteral "12z".toList value := literal?_eq_none_iff.mp (by decide)
  obtain ⟨literals, labels⟩ := operand_literals_exact (by decide : 1 ≤ 8) narrow "b10:".toList 0
  obtain ⟨accepted, words, _, _⟩ := literals .immediate "-$80".toList (plain _)
  obtain ⟨_, _, refused, _⟩ := literals .immediate "12z".toList (plain _)
  obtain ⟨_, _, _, misfits⟩ := literals .immediate "256".toList (plain _)
  obtain ⟨_, others⟩ := operand_literals_exact (by decide : 1 ≤ 8) narrow "b11:".toList 0
  refine ⟨by decide, narrow, plain _, ?_, refused foreign, ?_, labelled, ?_, ?_⟩
  · obtain ⟨result, reads⟩ := accepted.mpr ⟨-128, least, by decide, by decide⟩
    have remainder : (-128 : Int) % 2 ^ 8 = 128 := by decide
    exact ⟨result, reads, Int.ofNat.inj ((words result _ least reads).2.2.trans remainder)⟩
  · exact (misfits 256 (literal?_eq_some_iff.mp (by decide)) (by decide)).2
  · exact (labels _ labelled).2.mpr (Or.inl (isDefined_iff.mpr (by decide +kernel)))
  · intro refers
    rcases (others _ labelled).2.mp refers with defined | unspelled
    · exact absurd (isDefined_iff.mp defined) (by decide +kernel)
    · exact unspelled ⟨2, ambiguous⟩

end Operands

end WordMachine.Assembly
