import WordMachine.Proofs.MovedLines

namespace WordMachine

namespace Assembly

/-- A source names a label in one of its instruction lines. -/
def NamesInSource (source label : List Char) : Prop :=
  ∃ line ∈ instructionLines source, LineNames line.text label

instance (source label : List Char) : Decidable (NamesInSource source label) :=
  inferInstanceAs (Decidable (∃ line ∈ instructionLines source, LineNames line.text label))

/-- A line without an instruction is blank, holds only a comment or defines a label. -/
def LacksInstruction (raw : List Char) : Prop :=
  Text.withoutComment raw = [] ∨ ∃ label, Defines label (Text.withoutComment raw)

/-- The number of new lines in front of the last of so many old ones. -/
def newBefore (rows : List (List (List Char) × List Char)) (count : Nat) : Nat :=
  ((rows.take count).flatMap Prod.fst).length

/-- New lines stand in front of each old line and behind all of them. -/
structure Insertion where
  rows : List (List (List Char) × List Char)
  last : List (List Char)

namespace Insertion

def oldLines (insertion : Insertion) : List (List Char) := insertion.rows.map Prod.snd

def newLines (insertion : Insertion) : List (List Char) :=
  insertion.rows.flatMap Prod.fst ++ insertion.last

def allLines (insertion : Insertion) : List (List Char) :=
  insertion.rows.flatMap (fun row => row.1 ++ [row.2]) ++ insertion.last

/-- The number that an old line has between the new ones. -/
def renumber (insertion : Insertion) (number : Nat) : Nat :=
  number + newBefore insertion.rows number

end Insertion

/-- The definition of a label is no instruction. -/
theorem Defines.not_isInstruction {label statement : List Char}
    (defines : Defines label statement) : isInstruction statement = false := by
  have named : labelOf? statement = some label := defines
  rw [isInstruction, named]
  rfl

section Joined

variable {first second : List Char}

/-- The instruction lines of joined sources are those of the first and then, moved, those of the
second. -/
theorem instructionLines_joined (first second : List Char) :
    instructionLines (first ++ '\n' :: second) =
      instructionLines first ++
        (instructionLines second).map (Line.moved (· + (1 + first.count '\n'))) := by
  obtain ⟨gap, blank, joined, count⟩ := Text.contents_append_feed first second
  have noLines : contentLines (1 + (Text.contents first).length) gap = [] :=
    contentLines_eq_nil (fun content inside => Or.inl (blank content inside)) _
  rw [instructionLines_eq, joined, contentLines_append, contentLines_append, noLines,
    List.append_nil, count, ← instructionLines_eq, contentLines_moved, ← instructionLines_eq]

/-- The statements of joined texts follow each other. -/
theorem statements_joined (first second : List Char) :
    statements (Text.lines (first ++ '\n' :: second)) =
      statements (Text.lines first) ++ statements (Text.lines second) := by
  obtain ⟨gap, blank, joined, _⟩ := Text.contents_append_feed first second
  have noStatements : gap.filter (!·.isEmpty) = [] := by
    rw [List.filter_eq_nil_iff]
    intro content inside
    simp [blank content inside]
  change (Text.contents _).filter _ = _
  rw [joined, List.filter_append, List.filter_append, noStatements, List.append_nil]
  rfl

/-- Joined texts define the labels of both. -/
theorem isDefined_joined {label : List Char} :
    IsDefined (first ++ '\n' :: second) label ↔ IsDefined first label ∨ IsDefined second label := by
  simp only [IsDefined, statements_joined, List.mem_append, or_and_right, exists_or]

/-- A label that the second source leaves alone has its target in the first. -/
theorem lookup_joined_of_first {label : List Char} (undefined : ¬ IsDefined second label) :
    (firstPass (first ++ '\n' :: second)).1.lookup label =
      ((firstPass first).1.lookup label).map (· + 0) := by
  apply lookup_of_moved_targets
  · intro target isTarget
    rw [statements_joined]
    exact isTarget.append_left fun statement inside defines =>
      undefined ⟨statement, inside, defines⟩
  · exact fun defined => (isDefined_joined.mp defined).resolve_right undefined

/-- A label that the first source leaves alone has its target in the second, behind the instructions
of the first. -/
theorem lookup_joined_of_second {label : List Char} (undefined : ¬ IsDefined first label) :
    (firstPass (first ++ '\n' :: second)).1.lookup label =
      ((firstPass second).1.lookup label).map (· + (instructionLines first).length) := by
  have count : (instructionLines first).length =
      ((statements (Text.lines first)).filter isInstruction).length := by
    rw [← collect_texts 1 0 [], List.length_map, collect_lines]
    rfl
  apply lookup_of_moved_targets
  · intro target isTarget
    rw [statements_joined, count]
    exact isTarget.append_right _
  · exact fun defined => (isDefined_joined.mp defined).resolve_left undefined

/-- Joined sources assemble one after the other when neither names a label of the other. -/
theorem encodeLines_joined (width : Nat)
    (apart : ∀ label, IsDefined second label → ¬ NamesInSource first label)
    (apartBehind : ∀ label, IsDefined first label → ¬ NamesInSource second label) :
    encodeLines width (firstPass (first ++ '\n' :: second)).1 0
        (instructionLines (first ++ '\n' :: second)) =
      ((encodeLines width (firstPass first).1 0 (instructionLines first)).1 ++
          (encodeLines width (firstPass second).1 0 (instructionLines second)).1,
        (encodeLines width (firstPass first).1 0 (instructionLines first)).2 ++
          (encodeLines width (firstPass second).1 0 (instructionLines second)).2.map
            (Error.moved (· + (1 + first.count '\n')))) := by
  have lookups : ∀ line ∈ instructionLines first, ∀ label, LineNames line.text label →
      (firstPass (first ++ '\n' :: second)).1.lookup label =
        ((firstPass first).1.lookup label).map (· + 0) :=
    fun line listed label names =>
      lookup_joined_of_first fun defined => apart label defined ⟨line, listed, names⟩
  have lookupsBehind : ∀ line ∈ instructionLines second, ∀ label, LineNames line.text label →
      (firstPass (first ++ '\n' :: second)).1.lookup label =
        ((firstPass second).1.lookup label).map (· + (instructionLines first).length) :=
    fun line listed label names =>
      lookup_joined_of_second fun defined => apartBehind label defined ⟨line, listed, names⟩
  have front := encodeLines_moved width 0 id 0 lookups
  have behind := encodeLines_moved width 0 (· + (1 + first.count '\n')) _ lookupsBehind
  have lineStays : Line.moved id = id := rfl
  have errorStays : Error.moved id = id := rfl
  rw [lineStays, errorStays, List.map_id, List.map_id] at front
  rw [instructionLines_joined, encodeLines_append, behind]
  exact congrArg₂ _ (congrArg (· ++ _) (congrArg Prod.fst front))
    (congrArg (· ++ _) (congrArg Prod.snd front))

end Joined

section Inserted

variable {source edited label : List Char} {insertion : Insertion}

/-- A line that lacks an instruction is empty or defines labels only. -/
theorem isInstruction_of_lacks {raw : List Char} (lacks : LacksInstruction raw) :
    Text.withoutComment raw = [] ∨ isInstruction (Text.withoutComment raw) = false :=
  lacks.imp_right fun ⟨_, defines⟩ => defines.not_isInstruction

theorem newBefore_cons (block : List (List Char)) (line : List Char)
    (rows : List (List (List Char) × List Char)) (count : Nat) :
    newBefore ((block, line) :: rows) (count + 1) = block.length + newBefore rows count := by
  rw [newBefore, List.take_succ_cons, List.flatMap_cons, List.length_append]
  rfl

/-- New lines in front of old ones move the instruction lines behind them. -/
theorem contentLines_rows {last : List (List Char)}
    {rows : List (List (List Char) × List Char)} (number shift : Nat)
    (lacks : ∀ raw ∈ rows.flatMap Prod.fst ++ last, LacksInstruction raw) :
    contentLines (number + shift)
        ((rows.flatMap (fun row => row.1 ++ [row.2]) ++ last).map Text.withoutComment) =
      (contentLines number ((rows.map Prod.snd).map Text.withoutComment)).map
        (Line.moved fun old => old + (shift + newBefore rows (old + 1 - number))) := by
  have noLines {raws : List (List Char)} (lacks : ∀ raw ∈ raws, LacksInstruction raw)
      (number : Nat) : contentLines number (raws.map Text.withoutComment) = [] :=
    contentLines_eq_nil (List.forall_mem_map.mpr fun raw inside =>
      isInstruction_of_lacks (lacks raw inside)) number
  induction rows generalizing number shift with
  | nil => exact noLines lacks _
  | cons row rest ih =>
      obtain ⟨block, line⟩ := row
      rw [List.flatMap_cons, List.append_assoc, List.forall_mem_append] at lacks
      have whole : ((block, line) :: rest).flatMap (fun row => row.1 ++ [row.2]) ++ last =
          block ++ line :: (rest.flatMap (fun row => row.1 ++ [row.2]) ++ last) := by simp
      have here : contentLines (number + (shift + block.length)) [Text.withoutComment line] =
          (contentLines number [Text.withoutComment line]).map (Line.moved fun old =>
            old + (shift + newBefore ((block, line) :: rest) (old + 1 - number))) := by
        rw [contentLines_singleton_moved]
        apply map_moved_congr
        intro old listed
        obtain ⟨lower, upper⟩ := number_of_mem_contentLines listed
        rw [List.length_singleton] at upper
        have single : old.number + 1 - number = 0 + 1 := by omega
        rw [single, newBefore_cons]
        rfl
      have later : contentLines (number + 1 + (shift + block.length))
            ((rest.flatMap (fun row => row.1 ++ [row.2]) ++ last).map Text.withoutComment) =
          (contentLines (number + 1) ((rest.map Prod.snd).map Text.withoutComment)).map
            (Line.moved fun old =>
              old + (shift + newBefore ((block, line) :: rest) (old + 1 - number))) := by
        rw [ih (number + 1) (shift + block.length) lacks.2]
        apply map_moved_congr
        intro old listed
        obtain ⟨lower, _⟩ := number_of_mem_contentLines listed
        have behind : old.number + 1 - number = old.number + 1 - (number + 1) + 1 := by omega
        rw [behind, newBefore_cons, Nat.add_assoc shift]
      rw [whole, List.map_append, contentLines_append, noLines lacks.1, List.nil_append,
        List.length_map, List.map_cons, contentLines_cons, Nat.add_assoc number, here,
        Nat.add_right_comm, later, ← List.map_append, ← contentLines_cons]
      rfl

/-- The old instruction lines only get other numbers. -/
theorem instructionLines_inserted
    (sourceLines : Text.contents source = insertion.oldLines.map Text.withoutComment)
    (editedLines : Text.contents edited = insertion.allLines.map Text.withoutComment)
    (lacks : ∀ raw ∈ insertion.newLines, LacksInstruction raw) :
    instructionLines edited =
      (instructionLines source).map (Line.moved insertion.renumber) := by
  rw [instructionLines_eq, instructionLines_eq, sourceLines, editedLines]
  have moved := contentLines_rows 1 0 lacks
  simp only [Nat.zero_add, Nat.add_sub_cancel] at moved
  exact moved

/-- A filter that drops all new lines keeps the same old ones. -/
theorem filter_rows {keep : List Char → Bool} {last : List (List Char)}
    {rows : List (List (List Char) × List Char)}
    (dropped : ∀ raw ∈ rows.flatMap Prod.fst ++ last, ¬ keep raw = true) :
    (rows.flatMap (fun row => row.1 ++ [row.2]) ++ last).filter keep =
      (rows.map Prod.snd).filter keep := by
  induction rows with
  | nil => exact List.filter_eq_nil_iff.mpr dropped
  | cons row rest ih =>
      rw [List.flatMap_cons, List.append_assoc, List.forall_mem_append] at dropped
      rw [List.flatMap_cons, List.append_assoc, List.append_assoc, List.filter_append,
        List.filter_eq_nil_iff.mpr dropped.1, List.nil_append, List.filter_append, ih dropped.2,
        List.map_cons, ← List.filter_append, List.singleton_append]

/-- New lines leave the statements that concern a label which they do not define. -/
theorem filter_concerns_inserted
    (sourceLines : Text.contents source = insertion.oldLines.map Text.withoutComment)
    (editedLines : Text.contents edited = insertion.allLines.map Text.withoutComment)
    (lacks : ∀ raw ∈ insertion.newLines, LacksInstruction raw)
    (undefined : ∀ raw ∈ insertion.newLines, ¬ Defines label (Text.withoutComment raw)) :
    (statements (Text.lines source)).filter (concerns label) =
      (statements (Text.lines edited)).filter (concerns label) := by
  have byContents (text : List Char) :
      (statements (Text.lines text)).filter (concerns label) =
        (Text.contents text).filter fun content => !content.isEmpty && concerns label content :=
    List.filter_filter.trans (List.filter_congr fun content _ => Bool.and_comm _ _)
  rw [byContents, byContents, sourceLines, editedLines, List.filter_map, List.filter_map,
    Insertion.allLines, filter_rows, Insertion.oldLines]
  intro raw inside
  rcases lacks raw inside with blank | ⟨other, defines⟩
  · simp [blank]
  · have differ : labelOf? (Text.withoutComment raw) ≠ some label := undefined raw inside
    simp [concerns, defines.not_isInstruction, differ]

/-- New lines leave the target of a label which they do not define. -/
theorem lookup_inserted
    (sourceLines : Text.contents source = insertion.oldLines.map Text.withoutComment)
    (editedLines : Text.contents edited = insertion.allLines.map Text.withoutComment)
    (lacks : ∀ raw ∈ insertion.newLines, LacksInstruction raw)
    (undefined : ∀ raw ∈ insertion.newLines, ¬ Defines label (Text.withoutComment raw)) :
    (firstPass edited).1.lookup label = ((firstPass source).1.lookup label).map (· + 0) := by
  have same := filter_concerns_inserted sourceLines editedLines lacks undefined
  apply lookup_of_moved_targets
  · exact fun target isTarget => isTarget.of_filter_eq same
  · rintro ⟨statement, listed, defines⟩
    have kept : statement ∈ (statements (Text.lines source)).filter (concerns label) := by
      rw [same]
      exact List.mem_filter.mpr ⟨listed, defines.concerns⟩
    exact ⟨statement, List.mem_of_mem_filter kept, defines⟩

/-- The old lines are encoded as before when they name none of the new labels. -/
theorem encodeLines_inserted (width : Nat)
    (sourceLines : Text.contents source = insertion.oldLines.map Text.withoutComment)
    (editedLines : Text.contents edited = insertion.allLines.map Text.withoutComment)
    (lacks : ∀ raw ∈ insertion.newLines, LacksInstruction raw)
    (apart : ∀ raw ∈ insertion.newLines, ∀ label, Defines label (Text.withoutComment raw) →
      ¬ NamesInSource source label) :
    encodeLines width (firstPass edited).1 0 (instructionLines edited) =
      ((encodeLines width (firstPass source).1 0 (instructionLines source)).1,
        (encodeLines width (firstPass source).1 0 (instructionLines source)).2.map
          (Error.moved insertion.renumber)) := by
  rw [instructionLines_inserted sourceLines editedLines lacks]
  apply encodeLines_moved width 0 insertion.renumber 0
  intro line listed label names
  exact lookup_inserted sourceLines editedLines lacks fun raw inside defines =>
    apart raw inside label defines ⟨line, listed, names⟩

end Inserted

end Assembly

open Assembly

/-- The assembly encodes the instruction lines with the labels of the first pass. -/
theorem assemble_eq_encodeLines (source : String) (width : Nat) :
    ((assemble source width).program.bits, (assemble source width).errors) =
      encodeLines width (firstPass source.toList).1 0 (instructionLines source.toList) := by
  have lines : (firstPass source.toList).2 = instructionLines source.toList :=
    collect_lines 1 0 [] _
  rw [← lines]
  rfl

/-- Joined sources assemble to joined programs, and lines without instructions may be put anywhere.
-/
theorem assemble_composes (width : Nat) :
    (∀ first second : String,
      (∀ label, IsDefined second.toList label → ¬ NamesInSource first.toList label) →
      (∀ label, IsDefined first.toList label → ¬ NamesInSource second.toList label) →
      (assemble (first ++ "\n" ++ second) width).program.bits =
          (assemble first width).program.bits ++ (assemble second width).program.bits ∧
        (assemble (first ++ "\n" ++ second) width).errors =
          (assemble first width).errors ++
            (assemble second width).errors.map
              (Error.moved (· + (1 + first.toList.count '\n')))) ∧
    ∀ (source edited : String) (insertion : Insertion),
      Text.contents source.toList = insertion.oldLines.map Text.withoutComment →
      Text.contents edited.toList = insertion.allLines.map Text.withoutComment →
      (∀ raw ∈ insertion.newLines, LacksInstruction raw) →
      (∀ raw ∈ insertion.newLines, ∀ label, Defines label (Text.withoutComment raw) →
        ¬ NamesInSource source.toList label) →
      (assemble edited width).program.bits = (assemble source width).program.bits ∧
        (assemble edited width).errors =
          (assemble source width).errors.map (Error.moved insertion.renumber) := by
  constructor
  · intro first second apart apartBehind
    have text : (first ++ "\n" ++ second).toList = first.toList ++ '\n' :: second.toList := by
      simp
    rw [← Prod.mk.injEq, assemble_eq_encodeLines, text,
      encodeLines_joined width apart apartBehind, ← assemble_eq_encodeLines,
      ← assemble_eq_encodeLines]
  · intro source edited insertion sourceLines editedLines lacks apart
    rw [← Prod.mk.injEq, assemble_eq_encodeLines,
      encodeLines_inserted width sourceLines editedLines lacks apart, ← assemble_eq_encodeLines]

/-- A label after a faulty line and unused labels between the lines meet the conditions. -/
theorem assemble_composes_faulty :
    (∀ label, IsDefined "JNZ !far\nADD %0, #999\nfar:".toList label →
        ¬ NamesInSource "go: ; again\nJMP go\r".toList label) ∧
      (∀ label, IsDefined "go: ; again\nJMP go\r".toList label →
        ¬ NamesInSource "JNZ !far\nADD %0, #999\nfar:".toList label) ∧
      (assemble ("go: ; again\nJMP go\r" ++ "\n" ++ "JNZ !far\nADD %0, #999\nfar:") 8).errors =
        [⟨4, .operandOutOfRange 999 8⟩] ∧
      (assemble "; start\n\nJNZ !far\nnear:\nADD %0, #999\nfar:\nend:" 8).program.bits =
        (assemble "JNZ !far\nADD %0, #999\nfar:" 8).program.bits ∧
      (assemble "; start\n\nJNZ !far\nnear:\nADD %0, #999\nfar:\nend:" 8).errors =
        [⟨5, .operandOutOfRange 999 8⟩] := by
  obtain ⟨joined, inserted⟩ := assemble_composes 8
  have apart : ∀ label, IsDefined "JNZ !far\nADD %0, #999\nfar:".toList label →
      ¬ NamesInSource "go: ; again\nJMP go\r".toList label := by
    intro label defined
    have each : ∀ label ∈ definedLabels "JNZ !far\nADD %0, #999\nfar:".toList,
        ¬ NamesInSource "go: ; again\nJMP go\r".toList label := by decide +kernel
    exact each label (isDefined_iff_mem.mp defined)
  have apartBehind : ∀ label, IsDefined "go: ; again\nJMP go\r".toList label →
      ¬ NamesInSource "JNZ !far\nADD %0, #999\nfar:".toList label := by
    intro label defined
    have each : ∀ label ∈ definedLabels "go: ; again\nJMP go\r".toList,
        ¬ NamesInSource "JNZ !far\nADD %0, #999\nfar:".toList label := by decide +kernel
    exact each label (isDefined_iff_mem.mp defined)
  let insertion : Insertion :=
    ⟨[(["; start".toList, []], "JNZ !far".toList), (["near:".toList], "ADD %0, #999".toList),
      ([], "far:".toList)], ["end:".toList]⟩
  have lacks : ∀ raw ∈ insertion.newLines, LacksInstruction raw := by
    intro raw inside
    have listed : raw = "; start".toList ∨ raw = [] ∨ raw = "near:".toList ∨
        raw = "end:".toList := by
      simpa [insertion, Insertion.newLines] using inside
    have near : labelOf? (Text.withoutComment "near:".toList) = some "near".toList := by
      decide +kernel
    have final : labelOf? (Text.withoutComment "end:".toList) = some "end".toList := by
      decide +kernel
    rcases listed with rfl | rfl | rfl | rfl
    · exact Or.inl (by decide +kernel)
    · exact Or.inl (by decide +kernel)
    · exact Or.inr ⟨_, near⟩
    · exact Or.inr ⟨_, final⟩
  have unnamed : ∀ raw ∈ insertion.newLines, ∀ label ∈ labelOf? (Text.withoutComment raw),
      ¬ NamesInSource "JNZ !far\nADD %0, #999\nfar:".toList label := by decide +kernel
  obtain ⟨bits, errors⟩ := inserted "JNZ !far\nADD %0, #999\nfar:"
    "; start\n\nJNZ !far\nnear:\nADD %0, #999\nfar:\nend:" insertion (by decide +kernel)
    (by decide +kernel) lacks unnamed
  refine ⟨apart, apartBehind, ?_, bits, ?_⟩
  · rw [(joined _ _ apart apartBehind).2]
    decide +kernel
  · rw [errors]
    decide +kernel

end WordMachine
