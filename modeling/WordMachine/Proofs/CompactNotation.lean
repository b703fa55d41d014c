import WordMachine.Proofs.PrintedInstruction
import WordMachine.Proofs.Surroundings

namespace WordMachine

/-- What leads joined texts leads the first of them. -/
theorem Text.append_intercalate_cons (lead joint text : List Char) (texts : List (List Char)) :
    lead ++ joint.intercalate (text :: texts) = joint.intercalate ((lead ++ text) :: texts) := by
  cases texts with
  | nil => rw [List.intercalate_singleton, List.intercalate_singleton]
  | cons next texts =>
      rw [List.intercalate_cons_cons, List.intercalate_cons_cons, List.append_assoc lead,
        List.append_assoc lead]

namespace Assembly

/-- A mnemonic is any text that reaches up to the operands. -/
structure MnemonicText where
  chars : List Char
  nonempty : chars ≠ []
  noBlank : ∀ char ∈ chars, Text.isBlank char = false
  noSigil : ∀ char ∈ chars, isSigil char = false
  noComment : ';' ∉ chars

/-- An operand is a sigil with any body behind it that stays one operand in both notations. -/
structure OperandText where
  mode : Mode
  body : List Char
  nonempty : body ≠ []
  trimmed : Text.trim body = body
  noComma : ',' ∉ body
  noComment : ';' ∉ body
  noFeed : '\n' ∉ body
  noSigil : ∀ char ∈ body.head?, isSigil char = false

def OperandText.chars (operand : OperandText) : List Char := operand.mode.sigil :: operand.body

def sigils (operands : List OperandText) : List Char := operands.map (·.mode.sigil)

/-- The spaced notation shows every operand behind its own sigil. -/
def spacedOperands (operands : List OperandText) : List Char :=
  ' ' :: [',', ' '].intercalate (operands.map OperandText.chars)

/-- A space may part the mnemonic from sigils. -/
def gap (parted : Bool) : List Char := if parted then [' '] else []

/-- The compact notation shows all sigils in front of the first operand. -/
def compactOperands (parted : Bool) (operands : List OperandText) : List Char :=
  gap parted ++ (sigils operands ++ [','].intercalate (operands.map OperandText.body))

def spacedLine (mnemonic : MnemonicText) (operands : List OperandText) : List Char :=
  mnemonic.chars ++ spacedOperands operands

def compactLine (mnemonic : MnemonicText) (parted : Bool) (operands : List OperandText) :
    List Char :=
  mnemonic.chars ++ compactOperands parted operands

theorem eq_space_of_mem_gap {parted : Bool} : ∀ char ∈ gap parted, char = ' ' := by
  cases parted <;> simp [gap]

section Sigils

variable {operands : List OperandText}

/-- The sigils of operands are all sigils. -/
theorem isSigil_of_mem_sigils : ∀ char ∈ sigils operands, isSigil char = true := by
  intro char listed
  obtain ⟨operand, _, rfl⟩ := List.mem_map.mp listed
  cases operand.mode <;> rfl

/-- The sigils in front of a body reach up to the body. -/
theorem takeWhile_sigils (operands : List OperandText) (operand : OperandText) :
    (sigils operands ++ operand.body).takeWhile isSigil = sigils operands ∧
      (sigils operands ++ operand.body).dropWhile isSigil = operand.body := by
  obtain ⟨first, rest, spelled⟩ := List.exists_cons_of_ne_nil operand.nonempty
  have stops : ¬ isSigil first = true := by
    rw [Bool.not_eq_true]
    exact operand.noSigil first (by rw [spelled]; rfl)
  rw [List.takeWhile_append_of_pos isSigil_of_mem_sigils,
    List.dropWhile_append_of_pos isSigil_of_mem_sigils, spelled,
    List.takeWhile_cons_of_neg stops, List.dropWhile_cons_of_neg stops, List.append_nil]
  exact ⟨rfl, rfl⟩

/-- Nothing is trimmed from a body behind sigils. -/
theorem trim_sigils (present : operands ≠ []) (operand : OperandText) :
    Text.trim (sigils operands ++ operand.body) = sigils operands ++ operand.body := by
  obtain ⟨first, rest, rfl⟩ := List.exists_cons_of_ne_nil present
  apply Text.trim_eq_self
  · intro char opens
    obtain rfl : first.mode.sigil = char := Option.some.inj opens
    cases first.mode <;> rfl
  · rw [List.getLast?_append_of_ne_nil _ operand.nonempty]
    exact Text.last_of_trim operand.trimmed

/-- No sigil breaks a line or an operand. -/
theorem clean_of_mem_sigils :
    ∀ char ∈ sigils operands, char ≠ ',' ∧ char ≠ ';' ∧ char ≠ '\n' := by
  intro char listed
  obtain ⟨operand, _, rfl⟩ := List.mem_map.mp listed
  cases operand.mode <;> decide

/-- The body of an operand ends neither the operand nor its line. -/
theorem OperandText.clean_body (operand : OperandText) :
    ∀ char ∈ operand.body, char ≠ ',' ∧ char ≠ ';' ∧ char ≠ '\n' := by
  intro char inside
  refine ⟨?_, ?_, ?_⟩ <;> rintro rfl
  · exact operand.noComma inside
  · exact operand.noComment inside
  · exact operand.noFeed inside

end Sigils

section Operands

/-- An operand is its sigil with its body behind it. -/
theorem OperandText.chars_eq (operand : OperandText) :
    operand.chars = sigils [operand] ++ operand.body := rfl

theorem OperandText.clean_chars (operand : OperandText) :
    ∀ char ∈ operand.chars, char ≠ ',' ∧ char ≠ ';' ∧ char ≠ '\n' := by
  intro char inside
  rw [chars_eq] at inside
  rcases List.mem_append.mp inside with sigil | inBody
  · exact clean_of_mem_sigils char sigil
  · exact operand.clean_body char inBody

theorem OperandText.isOperand (operand : OperandText) : IsOperand operand.chars where
  nonempty := List.cons_ne_nil _ _
  noComma := fun char inside => beq_eq_false_iff_ne.mpr (operand.clean_chars char inside).1
  trimmed := trim_sigils (List.cons_ne_nil operand []) operand
  sigils_length := by
    rw [chars_eq, (takeWhile_sigils [operand] operand).1]
    exact Nat.le_refl 1

variable {operands : List OperandText}

/-- The spaced notation is cut at its commas. -/
theorem splitOperands_spaced (present : operands ≠ []) :
    splitOperands (spacedOperands operands) = .ok (operands.map OperandText.chars) := by
  apply splitOperands_intercalate
  · simpa using present
  · exact List.forall_mem_map.mpr fun operand _ => operand.isOperand

/-- The compact notation collects all sigils in front of the first body. -/
theorem compactOperands_cons (parted : Bool) (first : OperandText) (rest : List OperandText) :
    compactOperands parted (first :: rest) =
      [','].intercalate ((gap parted ++ sigils (first :: rest) ++ first.body) ::
        rest.map OperandText.body) := by
  rw [compactOperands, ← List.append_assoc, List.map_cons, Text.append_intercalate_cons]

/-- The commas of a compact list stand between the bodies. -/
theorem pieces_compact (parted : Bool) (first : OperandText) (rest : List OperandText) :
    Text.pieces (· == ',') (compactOperands parted (first :: rest)) =
      (gap parted ++ sigils (first :: rest) ++ first.body) :: rest.map OperandText.body := by
  rw [compactOperands_cons]
  apply Text.pieces_intercalate_break rfl (List.cons_ne_nil _ _)
  rw [List.forall_mem_cons, List.forall_mem_map]
  constructor
  · intro char inside
    rw [beq_eq_false_iff_ne]
    rw [List.mem_append, List.mem_append] at inside
    rcases inside with (space | sigil) | inBody
    · rw [eq_space_of_mem_gap char space]
      decide
    · exact (clean_of_mem_sigils char sigil).1
    · exact (first.clean_body char inBody).1
  · intro operand _ char inside
    exact beq_eq_false_iff_ne.mpr (operand.clean_body char inside).1

/-- The first operand of a compact list has the sigils of all operands. -/
theorem listOperands_compact (parted : Bool) (first : OperandText) (rest : List OperandText) :
    listOperands (compactOperands parted (first :: rest)) =
      (sigils (first :: rest) ++ first.body) :: rest.map OperandText.body := by
  have trimmedFirst : Text.trim (gap parted ++ sigils (first :: rest) ++ first.body) =
      sigils (first :: rest) ++ first.body := by
    have blank : ∀ char ∈ gap parted, Text.isBlank char = true := fun char space =>
      eq_space_of_mem_gap char space ▸ rfl
    rw [List.append_assoc, Text.trim_append_left blank, trim_sigils (List.cons_ne_nil _ _)]
  have trimmedRest : (rest.map OperandText.body).map Text.trim = rest.map OperandText.body := by
    rw [List.map_map]
    exact List.map_congr_left fun operand _ => operand.trimmed
  apply listOperands_eq (pieces_compact parted first rest)
  · rw [List.map_cons, trimmedFirst, trimmedRest]
  · rw [List.forall_mem_cons, List.forall_mem_map]
    exact ⟨List.cons_ne_nil _ _, fun operand _ => operand.nonempty⟩

/-- Both notations list the same operands. -/
theorem splitOperands_compact (parted : Bool) (present : operands ≠ []) :
    splitOperands (compactOperands parted operands) = .ok (operands.map OperandText.chars) := by
  obtain ⟨first, rest, rfl⟩ := List.exists_cons_of_ne_nil present
  have run := takeWhile_sigils (first :: rest) first
  have count : (sigils (first :: rest)).length = rest.length + 1 := List.length_map _
  have spread : List.zipWith List.cons (sigils (first :: rest))
      ((first :: rest).map OperandText.body) = (first :: rest).map OperandText.chars := by
    rw [sigils, List.zipWith_map, List.zipWith_self]
    rfl
  rw [splitOperands, listOperands_compact]
  simp only [run.1, run.2, List.length_map]
  by_cases single : (sigils (first :: rest)).length ≤ 1
  · -- the only sigil stays in front of the only operand
    obtain rfl : rest = [] := List.length_eq_zero_iff.mp (by omega)
    rw [if_pos single]
    rfl
  · rw [if_neg single, if_neg (by rw [count]; exact fun differ => differ rfl)]
    exact congrArg Except.ok spread

end Operands

section Lines

variable {operands : List OperandText}

/-- The spaced notation stays on its line. -/
theorem clean_spacedOperands :
    ∀ char ∈ spacedOperands operands, char ≠ ';' ∧ char ≠ '\n' := by
  rw [spacedOperands, List.forall_mem_cons]
  refine ⟨by decide, Text.forall_mem_intercalate (by simp) ?_⟩
  exact List.forall_mem_map.mpr fun operand _ char inside => (operand.clean_chars char inside).2

/-- The compact notation stays on its line. -/
theorem clean_compactOperands (parted : Bool) :
    ∀ char ∈ compactOperands parted operands, char ≠ ';' ∧ char ≠ '\n' := by
  rw [compactOperands, List.forall_mem_append, List.forall_mem_append]
  refine ⟨?_, fun char sigil => (clean_of_mem_sigils char sigil).2,
    Text.forall_mem_intercalate (by simp) ?_⟩
  · intro char space
    rw [eq_space_of_mem_gap char space]
    decide
  · exact List.forall_mem_map.mpr fun operand _ char inside => (operand.clean_body char inside).2

/-- The last body ends the line in both notations. -/
theorem OperandText.body_ends (operand : OperandText) :
    Text.EndsIn (fun char => Text.isBlank char = false) operand.body :=
  ⟨operand.body.dropLast, operand.body.getLast operand.nonempty,
    (List.dropLast_append_getLast operand.nonempty).symm,
    Text.last_of_trim operand.trimmed _ (List.getLast?_eq_some_getLast operand.nonempty)⟩

end Lines

/-- A text behind a mnemonic shows operands when it is read as their list. -/
structure Shows (operands : List OperandText) (rest : List Char) : Prop where
  stops : ∀ char ∈ rest.head?, (Text.isBlank char || isSigil char) = true
  clean : ∀ char ∈ rest, char ≠ ';' ∧ char ≠ '\n'
  ends : Text.EndsIn (fun char => Text.isBlank char = false) rest
  hasSigil : ∃ mode : Mode, mode.sigil ∈ rest
  lists : splitOperands rest = .ok (operands.map OperandText.chars)

/-- The spaced notation shows its operands. -/
theorem shows_spaced {operands : List OperandText} (present : operands ≠ []) :
    Shows operands (spacedOperands operands) where
  stops := fun char opens => Option.some.inj opens ▸ rfl
  clean := clean_spacedOperands
  ends := by
    have joined : Text.EndsIn (fun char => Text.isBlank char = false)
        ([',', ' '].intercalate (operands.map OperandText.chars)) :=
      .intercalate (by simpa using present) (List.forall_mem_map.mpr fun operand _ =>
        operand.body_ends.append_left [operand.mode.sigil])
    exact joined.append_left [' ']
  hasSigil := by
    obtain ⟨first, rest, rfl⟩ := List.exists_cons_of_ne_nil present
    refine ⟨first.mode, List.mem_cons_of_mem _ ?_⟩
    rw [List.map_cons, OperandText.chars_eq, ← Text.append_intercalate_cons]
    exact List.mem_append_left _ List.mem_cons_self
  lists := splitOperands_spaced present

/-- The compact notation shows its operands. -/
theorem shows_compact {operands : List OperandText} (parted : Bool) (present : operands ≠ []) :
    Shows operands (compactOperands parted operands) where
  stops := by
    obtain ⟨first, rest, rfl⟩ := List.exists_cons_of_ne_nil present
    intro char opens
    cases parted with
    | true => exact Option.some.inj opens ▸ rfl
    | false =>
        obtain rfl : first.mode.sigil = char := Option.some.inj opens
        cases first.mode <;> rfl
  clean := clean_compactOperands parted
  ends := by
    have joined : Text.EndsIn (fun char => Text.isBlank char = false)
        ([','].intercalate (operands.map OperandText.body)) :=
      .intercalate (by simpa using present)
        (List.forall_mem_map.mpr fun operand _ => operand.body_ends)
    exact (joined.append_left _).append_left _
  hasSigil := by
    obtain ⟨first, rest, rfl⟩ := List.exists_cons_of_ne_nil present
    exact ⟨first.mode, List.mem_append_right _ (List.mem_append_left _ List.mem_cons_self)⟩
  lists := splitOperands_compact parted present

namespace Shows

variable {operands : List OperandText} {rest other : List Char}

theorem isPlain (shown : Shows operands rest) (mnemonic : MnemonicText) :
    Text.IsPlain (mnemonic.chars ++ rest) where
  nonempty := List.append_ne_nil_of_left_ne_nil mnemonic.nonempty rest
  noFeed := by
    intro inside
    rcases List.mem_append.mp inside with inMnemonic | inRest
    · exact absurd (mnemonic.noBlank _ inMnemonic) (by decide)
    · exact (shown.clean _ inRest).2 rfl
  noComment := by
    intro inside
    rcases List.mem_append.mp inside with inMnemonic | inRest
    · exact mnemonic.noComment inMnemonic
    · exact (shown.clean _ inRest).1 rfl
  trimmed := by
    apply Text.trim_eq_self
    · intro char opens
      rw [List.head?_append_of_ne_nil _ mnemonic.nonempty] at opens
      exact mnemonic.noBlank char (List.mem_of_mem_head? opens)
    · exact (shown.ends.append_left mnemonic.chars).getLast

/-- A mnemonic with operands behind it is an instruction. -/
theorem isInstruction (shown : Shows operands rest) (mnemonic : MnemonicText) :
    isInstruction (mnemonic.chars ++ rest) = true := by
  obtain ⟨mode, inside⟩ := shown.hasSigil
  exact isInstruction_of_sigil (List.mem_append_right _ inside)

/-- The mnemonic is cut off the operands behind it. -/
theorem splitMnemonic_eq (shown : Shows operands rest) (mnemonic : MnemonicText) :
    splitMnemonic (mnemonic.chars ++ rest) = (mnemonic.chars, rest) :=
  splitMnemonic_append
    (fun char inside => ⟨mnemonic.noBlank char inside, mnemonic.noSigil char inside⟩) shown.stops

/-- The notation of the operands does not matter for the encoding of a line. -/
theorem encodedAlike (shown : Shows operands rest) (otherShown : Shows operands other)
    (mnemonic : MnemonicText) :
    EncodedAlike (mnemonic.chars ++ rest) (mnemonic.chars ++ other) := by
  apply EncodedAlike.of_split
  · rw [shown.splitMnemonic_eq, otherShown.splitMnemonic_eq]
  · rw [shown.splitMnemonic_eq, otherShown.splitMnemonic_eq, shown.lists, otherShown.lists]

end Shows

end Assembly

open Assembly

/-- A source assembles alike whether an instruction is written in compact or in spaced notation. -/
theorem assemble_compact_eq_spaced (width : Nat) {before after : List Char}
    (opens : Text.OpensLine before) (closes : Text.ClosesLine after) (mnemonic : MnemonicText)
    (parted : Bool) {operands : List OperandText} (present : operands ≠ []) :
    assemble (String.ofList (before ++ compactLine mnemonic parted operands ++ after)) width =
        assemble (String.ofList (before ++ spacedLine mnemonic operands ++ after)) width ∧
      ∃ number index : Nat,
        (instructionLines (before ++ compactLine mnemonic parted operands ++ after))[index]? =
            some ⟨number, compactLine mnemonic parted operands⟩ ∧
          (instructionLines (before ++ spacedLine mnemonic operands ++ after))[index]? =
            some ⟨number, spacedLine mnemonic operands⟩ := by
  have compact := shows_compact parted present
  have spaced := shows_spaced present
  rw [assemble, assemble, String.toList_ofList, String.toList_ofList]
  exact assemble_alike opens closes (compact.isPlain mnemonic) (spaced.isPlain mnemonic)
    (compact.isInstruction mnemonic) (spaced.isInstruction mnemonic)
    (compact.encodedAlike spaced mnemonic) width

/-- A line between a label and a comment has the same error in both notations. -/
theorem assemble_compact_eq_spaced_faulty :
    Text.OpensLine "top:\n  ".toList ∧ Text.ClosesLine " ; load\nJMP !top".toList ∧
      assemble "top:\n  mov%@#1,$1f,λ ; load\nJMP !top" 8 =
        assemble "top:\n  mov %1, @$1f, #λ ; load\nJMP !top" 8 ∧
      ∃ number index : Nat,
        (instructionLines "top:\n  mov%@#1,$1f,λ ; load\nJMP !top".toList)[index]? =
            some ⟨number, "mov%@#1,$1f,λ".toList⟩ ∧
          (instructionLines "top:\n  mov %1, @$1f, #λ ; load\nJMP !top".toList)[index]? =
            some ⟨number, "mov %1, @$1f, #λ".toList⟩ := by
  have opens : Text.OpensLine "top:\n  ".toList := by decide +kernel
  have closes : Text.ClosesLine " ; load\nJMP !top".toList := by decide +kernel
  have letters : ∀ char ∈ ['m', 'o', 'v'], isLetter char = true := List.all_eq_true.mp rfl
  let mnemonic : MnemonicText :=
    ⟨['m', 'o', 'v'], by decide, fun char inside => Text.isBlank_of_isLetter (letters char inside),
      fun char inside => isSigil_of_isLetter (letters char inside), by decide⟩
  let target : OperandText :=
    ⟨.register, ['1'], by decide, rfl, by decide, by decide, by decide,
      fun _ opens => Option.some.inj opens ▸ rfl⟩
  let source : OperandText :=
    ⟨.memory, ['$', '1', 'f'], by decide, rfl, by decide, by decide, by decide,
      fun _ opens => Option.some.inj opens ▸ rfl⟩
  let spare : OperandText :=
    ⟨.immediate, ['λ'], by decide, rfl, by decide, by decide, by decide,
      fun _ opens => Option.some.inj opens ▸ rfl⟩
  have present : [target, source, spare] ≠ [] := List.cons_ne_nil _ _
  have compact : "mov%@#1,$1f,λ".toList = compactLine mnemonic false [target, source, spare] :=
    rfl
  have spaced : "mov %1, @$1f, #λ".toList = spacedLine mnemonic [target, source, spare] := rfl
  have compactSource : "top:\n  mov%@#1,$1f,λ ; load\nJMP !top".toList =
      "top:\n  ".toList ++ "mov%@#1,$1f,λ".toList ++ " ; load\nJMP !top".toList := by
    decide +kernel
  have spacedSource : "top:\n  mov %1, @$1f, #λ ; load\nJMP !top".toList =
      "top:\n  ".toList ++ "mov %1, @$1f, #λ".toList ++ " ; load\nJMP !top".toList := by
    decide +kernel
  have same := assemble_compact_eq_spaced 8 opens closes mnemonic false present
  rw [← compact, ← spaced, ← compactSource, ← spacedSource, String.ofList_toList,
    String.ofList_toList] at same
  exact ⟨opens, closes, same⟩

end WordMachine
