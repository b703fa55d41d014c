import WordMachine.Assembly.Basic

namespace WordMachine.Assembly

/-- The statements of a source are its lines without comments, as far as they are not empty. -/
def statements (lines : List (List Char)) : List (List Char) :=
  (lines.map Text.withoutComment).filter (!·.isEmpty)

/-- A statement that defines no label is an instruction. -/
def isInstruction (statement : List Char) : Bool := (labelOf? statement).isNone

def Defines (label statement : List Char) : Prop := labelOf? statement = some label

/-- The target of a label counts the instructions before the last definition of the label. -/
def IsTarget (statements : List (List Char)) (label : List Char) (target : Nat) : Prop :=
  ∃ before definition after, statements = before ++ definition :: after ∧
    Defines label definition ∧ (∀ later ∈ after, ¬ Defines label later) ∧
    (before.filter isInstruction).length = target

/-- A line without content is no statement. -/
theorem statements_cons_empty {line : List Char} (lines : List (List Char))
    (empty : (Text.withoutComment line).isEmpty = true) :
    statements (line :: lines) = statements lines := by
  simp [statements, empty]

/-- A line with content is a statement. -/
theorem statements_cons {line : List Char} (lines : List (List Char))
    (nonempty : ¬ (Text.withoutComment line).isEmpty = true) :
    statements (line :: lines) = Text.withoutComment line :: statements lines := by
  simp [statements, nonempty]

theorem Defines.isLabel {label statement : List Char} (defines : Defines label statement) :
    isLabel label = true := by
  unfold Defines labelOf? at defines
  split at defines
  · split at defines
    · rename_i spelled
      cases defines
      exact spelled
    · cases defines
  · cases defines

/-- Every label with a definition has a target. -/
theorem exists_isTarget {statements : List (List Char)} {label : List Char}
    (defined : ∃ statement ∈ statements, Defines label statement) :
    ∃ target, IsTarget statements label target := by
  induction statements with
  | nil =>
      obtain ⟨_, impossible, _⟩ := defined
      cases impossible
  | cons statement rest ih =>
      by_cases later : ∃ statement ∈ rest, Defines label statement
      · obtain ⟨_, before, definition, after, rfl, defines, last, _⟩ := ih later
        exact ⟨_, statement :: before, definition, after, rfl, defines, last, rfl⟩
      · obtain ⟨found, inside, defines⟩ := defined
        rcases List.mem_cons.mp inside with rfl | inRest
        · exact ⟨_, [], found, rest, rfl, defines, fun other listed hit =>
            later ⟨other, listed, hit⟩, rfl⟩
        · exact absurd ⟨found, inRest, defines⟩ later

/-- The first statement is the last definition of the label, or the rest has a target. -/
theorem IsTarget.of_cons {first : List Char} {rest : List (List Char)} {label : List Char}
    {target : Nat} (isTarget : IsTarget (first :: rest) label target) :
    (Defines label first ∧ (∀ later ∈ rest, ¬ Defines label later) ∧ target = 0) ∨
      ∃ fewer, IsTarget rest label fewer ∧
        target = fewer + if isInstruction first then 1 else 0 := by
  obtain ⟨before, definition, after, split, defines, last, counted⟩ := isTarget
  cases before with
  | nil =>
      obtain ⟨rfl, rfl⟩ := List.cons.inj split
      exact Or.inl ⟨defines, last, counted.symm⟩
  | cons same before =>
      rw [List.cons_append] at split
      obtain ⟨rfl, tail⟩ := List.cons.inj split
      refine Or.inr ⟨_, ⟨before, definition, after, tail, defines, last, rfl⟩, ?_⟩
      rw [← counted, List.filter_cons]
      split <;> simp

section Collect

variable {line : List Char} (number index : Nat) (labels : Labels) (lines : List (List Char))

/-- A line without content is passed over. -/
theorem collect_cons_empty (empty : (Text.withoutComment line).isEmpty = true) :
    collect number index labels (line :: lines) = collect (number + 1) index labels lines := by
  rw [collect, if_pos empty]

/-- A label stands for the number of instruction lines so far. -/
theorem collect_cons_label {label : List Char}
    (nonempty : ¬ (Text.withoutComment line).isEmpty = true)
    (defines : labelOf? (Text.withoutComment line) = some label) :
    collect number index labels (line :: lines) =
      collect (number + 1) index ((label, index) :: labels) lines := by
  rw [collect, if_neg nonempty, defines]

/-- An instruction line counts. -/
theorem collect_cons_instruction (nonempty : ¬ (Text.withoutComment line).isEmpty = true)
    (plain : labelOf? (Text.withoutComment line) = none) :
    collect number index labels (line :: lines) =
      ((collect (number + 1) (index + 1) labels lines).1,
        ⟨number, Text.withoutComment line⟩ ::
          (collect (number + 1) (index + 1) labels lines).2) := by
  rw [collect, if_neg nonempty, plain]

/-- The first pass keeps the instructions in order. -/
theorem collect_texts :
    (collect number index labels lines).2.map Line.text =
      (statements lines).filter isInstruction := by
  induction lines generalizing number index labels with
  | nil => rfl
  | cons line rest ih =>
      by_cases empty : (Text.withoutComment line).isEmpty = true
      · rw [collect_cons_empty number index labels rest empty, ih, statements_cons_empty rest empty]
      · rw [statements_cons rest empty]
        cases plain : labelOf? (Text.withoutComment line) with
        | some label =>
            have skipped : isInstruction (Text.withoutComment line) = false := by
              simp [isInstruction, plain]
            rw [collect_cons_label number index labels rest empty plain, ih,
              List.filter_cons_of_neg (by simp [skipped])]
        | none =>
            have kept : isInstruction (Text.withoutComment line) = true := by
              simp [isInstruction, plain]
            rw [collect_cons_instruction number index labels rest empty plain, List.map_cons, ih,
              List.filter_cons_of_pos kept]

/-- A label without a definition in the lines keeps its meaning. -/
theorem collect_lookup_of_undefined {label : List Char}
    (undefined : ∀ statement ∈ statements lines, ¬ Defines label statement) :
    (collect number index labels lines).1.lookup label = labels.lookup label := by
  induction lines generalizing number index labels with
  | nil => rfl
  | cons line rest ih =>
      by_cases empty : (Text.withoutComment line).isEmpty = true
      · rw [statements_cons_empty rest empty] at undefined
        rw [collect_cons_empty number index labels rest empty, ih _ _ _ undefined]
      · rw [statements_cons rest empty] at undefined
        have here := undefined _ List.mem_cons_self
        have later := fun statement inside => undefined statement (List.mem_cons_of_mem _ inside)
        cases plain : labelOf? (Text.withoutComment line) with
        | none => rw [collect_cons_instruction number index labels rest empty plain, ih _ _ _ later]
        | some other =>
            have differ : (label == other) = false := by
              rw [beq_eq_false_iff_ne]
              rintro rfl
              exact here plain
            rw [collect_cons_label number index labels rest empty plain, ih _ _ _ later,
              List.lookup_cons, differ]

/-- After the first pass a label stands for its target. -/
theorem collect_lookup_of_target {label : List Char} {target : Nat}
    (isTarget : IsTarget (statements lines) label target) :
    (collect number index labels lines).1.lookup label = some (index + target) := by
  induction lines generalizing number index labels target with
  | nil =>
      obtain ⟨before, _, _, impossible, _⟩ := isTarget
      cases before <;> cases impossible
  | cons line rest ih =>
      by_cases empty : (Text.withoutComment line).isEmpty = true
      · rw [statements_cons_empty rest empty] at isTarget
        rw [collect_cons_empty number index labels rest empty, ih _ _ _ isTarget]
      · rw [statements_cons rest empty] at isTarget
        rcases isTarget.of_cons with ⟨defines, last, rfl⟩ | ⟨fewer, later, rfl⟩
        · rw [collect_cons_label number index labels rest empty defines,
            collect_lookup_of_undefined _ _ _ _ last, List.lookup_cons_self, Nat.add_zero]
        · cases plain : labelOf? (Text.withoutComment line) with
          | some other =>
              have skipped : isInstruction (Text.withoutComment line) = false := by
                simp [isInstruction, plain]
              rw [collect_cons_label number index labels rest empty plain, ih _ _ _ later, skipped]
              rfl
          | none =>
              have kept : isInstruction (Text.withoutComment line) = true := by
                simp [isInstruction, plain]
              rw [collect_cons_instruction number index labels rest empty plain, ih _ _ _ later,
                kept, if_pos rfl, Nat.add_assoc, Nat.add_comm 1]

end Collect

end WordMachine.Assembly
