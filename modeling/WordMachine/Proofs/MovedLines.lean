/-
This file moves instruction lines to another place of a source.
-/

import WordMachine.Proofs.Literals
import WordMachine.Proofs.Contents

namespace WordMachine.Assembly

/-- The operands of an instruction line, which has none if its sigils are at fault. -/
def lineOperands (text : List Char) : List (List Char) :=
  match splitOperands (splitMnemonic text).2 with
  | .ok operands => operands
  | .error _ => []

/-- An instruction line names a label by an operand that is the label, or the label behind the sigil
of a distance. -/
def LineNames (text label : List Char) : Prop :=
  label ∈ lineOperands text ∨ Mode.relative.sigil :: label ∈ lineOperands text

instance (text label : List Char) : Decidable (LineNames text label) :=
  inferInstanceAs (Decidable (_ ∨ _))

/-- The distance from an instruction to the target of a label. -/
def distance? (labels : Labels) (index : Nat) (label : List Char) : Option Int :=
  (labels.lookup label).map fun target : Nat => (target : Int) - index

def Line.moved (move : Nat → Nat) (line : Line) : Line := { line with number := move line.number }

def Error.moved (move : Nat → Nat) (error : Error) : Error := { error with line := move error.line }

section Distances

variable {labels others : Labels} {index place width : Nat}

/-- A label is looked up alike at equal distances. -/
theorem resolve_congr {label : List Char}
    (same : distance? labels index label = distance? others place label) :
    resolve labels index label = resolve others place label := by
  have byDistance (labels : Labels) (index : Nat) : resolve labels index label =
      (distance? labels index label).elim (.error (.undefinedLabel (String.ofList label)))
        fun distance => .ok (.relative, distance) := by
    rw [resolve, distance?]
    cases labels.lookup label <;> rfl
  rw [byDistance, byDistance, same]

/-- An operand is read through the distances of the labels that it may name. -/
theorem readOperand_congr {operand : List Char}
    (same : ∀ label, operand = label ∨ operand = Mode.relative.sigil :: label →
      distance? labels index label = distance? others place label) :
    readOperand labels index operand = readOperand others place operand := by
  unfold readOperand
  split
  · exact resolve_congr (same operand (Or.inl rfl))
  cases operand with
  | nil => rfl
  | cons sigil text =>
      simp only [List.headD_cons, List.tail_cons]
      cases found : Mode.ofSigil? sigil with
      | none => rfl
      | some mode =>
          cases mode with
          | relative =>
              have named := same text (Or.inr (by rw [Mode.ofSigil?_eq_some_iff.mp found]))
              have known : (labels.lookup text).isSome = (others.lookup text).isSome := by
                have sameKnown := congrArg Option.isSome named
                rwa [distance?, distance?, Option.isSome_map, Option.isSome_map] at sameKnown
              simp only [known, resolve_congr named]
              rfl
          | register | memory | immediate => rfl

/-- Operands that are read alike give the same words. -/
theorem readOperands_congr {operands : List (List Char)}
    (same : ∀ operand ∈ operands,
      readOperand labels index operand = readOperand others place operand) :
    readOperands width labels index operands = readOperands width others place operands := by
  induction operands with
  | nil => rfl
  | cons operand rest ih =>
      rw [List.forall_mem_cons] at same
      rw [readOperands, readOperands, same.1, ih same.2]

/-- A line is encoded through the distances of the labels that it names. -/
theorem encodeLine_congr {text : List Char}
    (same : ∀ label, LineNames text label →
      distance? labels index label = distance? others place label) :
    encodeLine width labels index text = encodeLine width others place text := by
  simp only [encodeLine, readInstruction]
  cases split : splitOperands (splitMnemonic text).2 with
  | error fault => rfl
  | ok operands =>
      have listed : lineOperands text = operands := by rw [lineOperands, split]
      have read : readOperands width labels index operands =
          readOperands width others place operands := by
        apply readOperands_congr
        intro operand inside
        rw [← listed] at inside
        apply readOperand_congr
        rintro label (rfl | rfl)
        · exact same _ (Or.inl inside)
        · exact same label (Or.inr inside)
      simp only [bind, Except.bind, read]

/-- Lines that move together with the labels they name are encoded as before. -/
theorem encodeLines_moved (width index : Nat) (move : Nat → Nat) (shift : Nat)
    {lines : List Line}
    (same : ∀ line ∈ lines, ∀ label, LineNames line.text label →
      others.lookup label = (labels.lookup label).map (· + shift)) :
    encodeLines width others (index + shift) (lines.map (Line.moved move)) =
      ((encodeLines width labels index lines).1,
        (encodeLines width labels index lines).2.map (Error.moved move)) := by
  induction lines generalizing index with
  | nil => rfl
  | cons line rest ih =>
      rw [List.forall_mem_cons] at same
      have alike : encodeLine width others (index + shift) line.text =
          encodeLine width labels index line.text := by
        apply encodeLine_congr
        intro label names
        rw [distance?, distance?, same.1 label names, Option.map_map]
        apply congrArg (fun change => (labels.lookup label).map change)
        funext target
        simp
      rw [List.map_cons, encodeLines_cons, encodeLines_cons, Nat.add_right_comm, ih _ same.2,
        List.map_append]
      simp only [lineChunk, lineErrors, Line.moved, alike]
      cases encodeLine width labels index line.text <;> rfl

/-- Lines are encoded one after the other. -/
theorem encodeLines_append (first second : List Line) :
    encodeLines width labels index (first ++ second) =
      ((encodeLines width labels index first).1 ++
          (encodeLines width labels (index + first.length) second).1,
        (encodeLines width labels index first).2 ++
          (encodeLines width labels (index + first.length) second).2) := by
  induction first generalizing index with
  | nil => rfl
  | cons line rest ih =>
      rw [List.cons_append, encodeLines_cons, ih, encodeLines_cons, List.length_cons,
        Nat.add_comm rest.length, Nat.add_assoc, List.append_assoc, List.append_assoc]

end Distances

section Numbers

/-- The instruction lines among contents, where the first content has the given number. -/
def contentLines (number : Nat) (contents : List (List Char)) : List Line :=
  ((contents.zipIdx number).filter fun content =>
    !content.1.isEmpty && isInstruction content.1).map fun content => ⟨content.2, content.1⟩

/-- The instruction lines of a source lie in its contents. -/
theorem instructionLines_eq (source : List Char) :
    instructionLines source = contentLines 1 (Text.contents source) := by
  rw [instructionLines, numberedLines, contentLines, Text.contents, List.zipIdx_map,
    List.filter_map, List.map_map]
  rfl

/-- Lines behind others are numbered on. -/
theorem contentLines_append (number : Nat) (first second : List (List Char)) :
    contentLines number (first ++ second) =
      contentLines number first ++ contentLines (number + first.length) second := by
  rw [contentLines, List.zipIdx_append, List.filter_append, List.map_append]
  rfl

theorem contentLines_cons (number : Nat) (content : List Char) (contents : List (List Char)) :
    contentLines number (content :: contents) =
      contentLines number [content] ++ contentLines (number + 1) contents :=
  contentLines_append number [content] contents

theorem contentLines_singleton_moved (number shift : Nat) (content : List Char) :
    contentLines (number + shift) [content] =
      (contentLines number [content]).map (Line.moved (· + shift)) := by
  unfold contentLines
  rw [List.zipIdx_singleton, List.zipIdx_singleton, List.filter_singleton, List.filter_singleton]
  cases !content.isEmpty && isInstruction content <;> rfl

/-- Contents without instructions have no instruction lines. -/
theorem contentLines_eq_nil {contents : List (List Char)}
    (lacks : ∀ content ∈ contents, content = [] ∨ isInstruction content = false) (number : Nat) :
    contentLines number contents = [] := by
  rw [contentLines, List.map_eq_nil_iff, List.filter_eq_nil_iff]
  rintro ⟨content, place⟩ listed
  have inside := List.fst_mem_of_mem_zipIdx listed
  rcases lacks content inside with rfl | plain
  · simp
  · simp [plain]

/-- Contents that move are numbered from their new place. -/
theorem contentLines_moved (number shift : Nat) (contents : List (List Char)) :
    contentLines (number + shift) contents =
      (contentLines number contents).map (Line.moved (· + shift)) := by
  induction contents generalizing number with
  | nil => rfl
  | cons content rest ih =>
      rw [contentLines_cons, contentLines_cons number, contentLines_singleton_moved,
        Nat.add_right_comm, ih, List.map_append]

/-- Instruction lines are numbered among the contents. -/
theorem number_of_mem_contentLines {number : Nat} {contents : List (List Char)} {line : Line}
    (listed : line ∈ contentLines number contents) :
    number ≤ line.number ∧ line.number < number + contents.length := by
  obtain ⟨⟨content, place⟩, kept, rfl⟩ := List.mem_map.mp listed
  obtain ⟨lower, upper, _⟩ := List.mem_zipIdx (List.mem_of_mem_filter kept)
  exact ⟨lower, upper⟩

/-- Lines move alike by moves that agree on their numbers. -/
theorem map_moved_congr {lines : List Line} {move other : Nat → Nat}
    (same : ∀ line ∈ lines, move line.number = other line.number) :
    lines.map (Line.moved move) = lines.map (Line.moved other) := by
  apply List.map_congr_left
  intro line listed
  rw [Line.moved, Line.moved, same line listed]

end Numbers

section Targets

variable {label : List Char} {target : Nat} {first second : List (List Char)}

/-- Statements behind the last definition do not move the target. -/
theorem IsTarget.append_left (isTarget : IsTarget first label target)
    (undefined : ∀ statement ∈ second, ¬ Defines label statement) :
    IsTarget (first ++ second) label target := by
  obtain ⟨before, definition, after, rfl, defines, last, counted⟩ := isTarget
  refine ⟨before, definition, after ++ second, by simp, defines, ?_, counted⟩
  exact List.forall_mem_append.mpr ⟨last, undefined⟩

/-- Instructions in front move the target. -/
theorem IsTarget.append_right (isTarget : IsTarget second label target)
    (first : List (List Char)) :
    IsTarget (first ++ second) label (target + (first.filter isInstruction).length) := by
  obtain ⟨before, definition, after, rfl, defines, last, counted⟩ := isTarget
  refine ⟨first ++ before, definition, after, by simp, defines, last, ?_⟩
  rw [List.filter_append, List.length_append, counted, Nat.add_comm]

/-- Only instructions and definitions of a label concern its target. -/
def concerns (label statement : List Char) : Bool :=
  isInstruction statement || labelOf? statement == some label

/-- The definition of a label concerns it. -/
theorem Defines.concerns {statement : List Char} (defines : Defines label statement) :
    concerns label statement = true := by
  have named : labelOf? statement = some label := defines
  simp [Assembly.concerns, named]

/-- The target of a label depends only on what concerns it. -/
theorem IsTarget.of_filter_eq (isTarget : IsTarget first label target)
    (same : first.filter (concerns label) = second.filter (concerns label)) :
    IsTarget second label target := by
  obtain ⟨before, definition, after, rfl, defines, last, counted⟩ := isTarget
  have instructions (statements : List (List Char)) :
      (statements.filter (concerns label)).filter isInstruction =
        statements.filter isInstruction := by
    rw [List.filter_filter]
    apply List.filter_congr
    intro statement _
    cases plain : isInstruction statement <;> simp [concerns, plain]
  rw [List.filter_append, List.filter_cons_of_pos (defines.concerns)] at same
  obtain ⟨front, rest, rfl, sameFront, sameRest⟩ := List.filter_eq_append_iff.mp same.symm
  obtain ⟨skipped, behind, rfl, skips, _, sameBehind⟩ := List.filter_eq_cons_iff.mp sameRest
  refine ⟨front ++ skipped, definition, behind, by simp, defines, ?_, ?_⟩
  · intro later listed here
    have kept : later ∈ behind.filter (concerns label) :=
      List.mem_filter.mpr ⟨listed, Defines.concerns here⟩
    rw [sameBehind] at kept
    exact last later (List.mem_of_mem_filter kept) here
  · have none : skipped.filter (concerns label) = [] := List.filter_eq_nil_iff.mpr skips
    rw [← counted, ← instructions before, ← sameFront, ← instructions (front ++ skipped),
      List.filter_append, none, List.append_nil]

/-- The labels that a source defines. -/
def definedLabels (source : List Char) : List (List Char) :=
  (statements (Text.lines source)).filterMap labelOf?

/-- A label is defined exactly when it is listed among the definitions. -/
theorem isDefined_iff_mem {source : List Char} :
    IsDefined source label ↔ label ∈ definedLabels source :=
  List.mem_filterMap.symm

/-- Where the targets of a label move, the first pass finds the label moved. -/
theorem lookup_of_moved_targets {source edited : List Char} (shift : Nat)
    (targets : ∀ target, IsTarget (statements (Text.lines source)) label target →
      IsTarget (statements (Text.lines edited)) label (target + shift))
    (defined : IsDefined edited label → IsDefined source label) :
    (firstPass edited).1.lookup label = ((firstPass source).1.lookup label).map (· + shift) := by
  by_cases known : IsDefined source label
  · obtain ⟨target, isTarget⟩ := exists_isTarget known
    rw [lookup_of_target isTarget, lookup_of_target (targets target isTarget), Option.map_some]
  · have unknown {text : List Char} (undefined : ¬ IsDefined text label) :
        (firstPass text).1.lookup label = none := by
      rw [isDefined_iff, Bool.not_eq_true] at undefined
      exact Option.isSome_eq_false_iff.mp undefined |> Option.isNone_iff_eq_none.mp
    rw [unknown known, unknown fun still => known (defined still), Option.map_none]

end Targets

end WordMachine.Assembly
