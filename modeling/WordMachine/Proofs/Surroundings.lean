/-
This file describes a line of assembly in its surroundings.
-/

import Mathlib.Data.List.DropRight
import WordMachine.Proofs.LineErrors
import WordMachine.Proofs.PrintedText

namespace WordMachine

namespace Text

variable {text : List Char}

section Lines

/-- A line feed in front makes an empty line. -/
theorem lines_cons_feed (text : List Char) : lines ('\n' :: text) = [] :: lines text := by
  simp [lines]

/-- A carriage return just before a line feed makes no difference. -/
theorem lines_cons_paired (feed : text.head? = some '\n') : lines ('\r' :: text) = lines text := by
  obtain ⟨rest, rfl⟩ := List.head?_eq_some_iff.mp feed
  simp [lines]

/-- Any other character stays in its line. -/
theorem lines_cons_open {char : Char} (noFeed : char ≠ '\n')
    (unpaired : ¬ (char = '\r' ∧ text.head? = some '\n')) :
    lines (char :: text) = (char :: (lines text).headD []) :: (lines text).tail := by
  have single : ∀ rest, char = '\r' → text = '\n' :: rest → False := by
    rintro rest rfl rfl
    exact unpaired ⟨rfl, rfl⟩
  rw [lines.eq_4 char text single noFeed]
  cases lines text <;> rfl

/-- A text has lines unless it is empty. -/
theorem lines_ne_nil (nonempty : text ≠ []) : lines text ≠ [] := by
  fun_cases lines text <;> simp_all

/-- The lines behind a line feed do not depend on the text before it. -/
theorem lines_append_closed {start : List Char} (closed : ∀ char ∈ start.getLast?, char = '\n')
    (rest : List Char) : lines (start ++ rest) = lines start ++ lines rest := by
  induction start with
  | nil => rfl
  | cons char start ih =>
      cases start with
      | nil =>
          obtain rfl : char = '\n' := closed char rfl
          exact lines_cons_feed rest
      | cons next start =>
          have tail := ih fun other last => closed other (by rwa [List.getLast?_cons_cons])
          have sameHead : ((next :: start) ++ rest).head? = (next :: start).head? := rfl
          rw [List.cons_append]
          by_cases feed : char = '\n'
          · subst feed
            rw [lines_cons_feed, lines_cons_feed, tail, List.cons_append]
          by_cases paired : char = '\r' ∧ (next :: start).head? = some '\n'
          · obtain ⟨rfl, follows⟩ := paired
            rw [lines_cons_paired follows, lines_cons_paired (sameHead.trans follows), tail]
          · obtain ⟨first, more, cut⟩ :=
              List.exists_cons_of_ne_nil (lines_ne_nil (List.cons_ne_nil next start))
            rw [lines_cons_open feed paired, lines_cons_open feed (by rwa [sameHead]), tail, cut]
            rfl

/-- A text without line feeds opens the first line of what follows it. -/
theorem lines_append_open {line : List Char} (nonempty : line ≠ [])
    (noFeed : ∀ char ∈ line, char ≠ '\n') (noReturn : ∀ char ∈ line.getLast?, char ≠ '\r')
    (after : List Char) :
    lines (line ++ after) = (line ++ (lines after).headD []) :: (lines after).tail := by
  induction line with
  | nil => exact absurd rfl nonempty
  | cons char line ih =>
      have here := noFeed char List.mem_cons_self
      rw [List.cons_append]
      cases line with
      | nil =>
          have last : char ≠ '\r' := noReturn char rfl
          exact lines_cons_open here fun paired => last paired.1
      | cons next line =>
          have later : next ≠ '\n' := noFeed next (List.mem_cons_of_mem _ List.mem_cons_self)
          have tail := ih (List.cons_ne_nil _ _)
            (fun other inside => noFeed other (List.mem_cons_of_mem _ inside))
            (fun other last => noReturn other (by rwa [List.getLast?_cons_cons]))
          have unpaired : ¬ (char = '\r' ∧ (next :: line ++ after).head? = some '\n') :=
            fun paired => later (Option.some.inj paired.2)
          rw [lines_cons_open here unpaired, tail]
          rfl

/-- What opens the first line opens the text before its first line feed. -/
theorem takeWhile_head_lines (inside : Char → Bool) (text : List Char) :
    ((lines text).headD []).takeWhile inside <+:
      text.takeWhile fun char => inside char && char != '\n' := by
  induction text with
  | nil => exact List.nil_prefix
  | cons char rest ih =>
      by_cases feed : char = '\n'
      · subst feed
        rw [lines_cons_feed]
        exact List.nil_prefix
      by_cases paired : char = '\r' ∧ rest.head? = some '\n'
      · obtain ⟨rfl, next⟩ := paired
        obtain ⟨more, rfl⟩ := List.head?_eq_some_iff.mp next
        rw [lines_cons_paired next, lines_cons_feed]
        exact List.nil_prefix
      rw [lines_cons_open feed paired, List.headD_cons]
      by_cases kept : inside char = true
      · rw [List.takeWhile_cons_of_pos kept, List.takeWhile_cons_of_pos (by simpa [kept] using feed)]
        exact List.cons_prefix_cons.mpr ⟨rfl, ih⟩
      · rw [List.takeWhile_cons_of_neg kept]
        exact List.nil_prefix

end Lines

section Trim

/-- Blanks in front are trimmed. -/
theorem trim_append_left {lead : List Char} (blank : ∀ char ∈ lead, isBlank char = true)
    (text : List Char) : trim (lead ++ text) = trim text := by
  rw [trim, List.dropWhile_append_of_pos blank, trim]

/-- Blanks behind are trimmed. -/
theorem trim_append_right {trail : List Char} (blank : ∀ char ∈ trail, isBlank char = true)
    (text : List Char) : trim (text ++ trail) = trim text := by
  induction trail using List.reverseRecOn with
  | nil => rw [List.append_nil]
  | append_singleton trail char ih =>
      have last : isBlank char = true := blank char (by simp)
      rw [← List.append_assoc, trim_append_blank last,
        ih fun other inside => blank other (List.mem_append_left _ inside)]

/-- A trimmed text does not end in a blank. -/
theorem last_of_trim (trimmed : trim text = text) :
    ∀ char ∈ text.getLast?, isBlank char = false := by
  intro char last
  rw [← trimmed, trim, List.getLast?_reverse] at last
  have kept := List.head?_dropWhile_not isBlank (text.dropWhile isBlank).reverse
  rw [last] at kept
  simpa using kept

end Trim

/-- Only blanks stand behind the last line feed. -/
def OpensLine (before : List Char) : Prop :=
  ∀ char ∈ before.rtakeWhile (· != '\n'), isBlank char = true

/-- Only blanks stand before the first line feed and before any comment. -/
def ClosesLine (after : List Char) : Prop :=
  ∀ char ∈ after.takeWhile (fun char => char != ';' && char != '\n'), isBlank char = true

instance : DecidablePred OpensLine := fun _ => List.decidableBAll _ _

instance : DecidablePred ClosesLine := fun _ => List.decidableBAll _ _

/-- A plain text lies in one line and has no comment and no blanks at its ends. -/
structure IsPlain (text : List Char) : Prop where
  nonempty : text ≠ []
  noFeed : '\n' ∉ text
  noComment : ';' ∉ text
  trimmed : trim text = text

/-- Blanks and a comment around a plain text do not count. -/
theorem IsPlain.withoutComment_between (plain : IsPlain text) {lead tail : List Char}
    (leadBlank : ∀ char ∈ lead, isBlank char = true)
    (tailBlank : ∀ char ∈ tail.takeWhile (· != ';'), isBlank char = true) :
    withoutComment (lead ++ text ++ tail) = text := by
  have kept : ∀ char ∈ lead ++ text, (char != ';') = true := by
    intro char inside
    rw [bne_iff_ne]
    rintro rfl
    rcases List.mem_append.mp inside with inLead | inText
    · exact absurd (leadBlank _ inLead) (by decide)
    · exact plain.noComment inText
  rw [withoutComment, List.takeWhile_append_of_pos kept, trim_append_right tailBlank,
    trim_append_left leadBlank, plain.trimmed]

/-- A plain text that fills a line of a source changes no other line. -/
theorem exists_lines_around {before after : List Char} (opens : OpensLine before)
    (closes : ClosesLine after) :
    ∃ above lead tail below, ∀ text, IsPlain text →
      lines (before ++ text ++ after) = above ++ (lead ++ text ++ tail) :: below ∧
        withoutComment (lead ++ text ++ tail) = text := by
  have split := List.rdropWhile_append_rtakeWhile (p := (· != '\n')) (l := before)
  set head := before.rdropWhile (· != '\n')
  set lead := before.rtakeWhile (· != '\n')
  have closed : ∀ char ∈ head.getLast?, char = '\n' := by
    intro char last
    obtain ⟨nonempty, rfl⟩ := List.mem_getLast?_eq_getLast last
    simpa using List.rdropWhile_last_not (· != '\n') before nonempty
  refine ⟨lines head, lead, (lines after).headD [], (lines after).tail, fun text plain => ?_⟩
  have noFeed : ∀ char ∈ lead ++ text, char ≠ '\n' := by
    intro char inside
    rcases List.mem_append.mp inside with inLead | inText
    · simpa using List.mem_rtakeWhile_imp inLead
    · rintro rfl
      exact plain.noFeed inText
  have noReturn : ∀ char ∈ (lead ++ text).getLast?, char ≠ '\r' := by
    intro char last
    rw [List.getLast?_append_of_ne_nil _ plain.nonempty] at last
    rintro rfl
    exact absurd (last_of_trim plain.trimmed _ last) (by decide)
  have nonempty : lead ++ text ≠ [] := List.append_ne_nil_of_right_ne_nil _ plain.nonempty
  constructor
  · rw [← split, List.append_assoc head, List.append_assoc head, lines_append_closed closed,
      lines_append_open nonempty noFeed noReturn]
  · apply plain.withoutComment_between opens
    intro char inside
    exact closes char ((takeWhile_head_lines (· != ';') after).subset inside)

end Text

namespace Assembly

/-- Two texts are encoded alike wherever they stand. -/
def EncodedAlike (text other : List Char) : Prop :=
  ∀ width labels index, encodeLine width labels index text = encodeLine width labels index other

/-- A line is encoded by its mnemonic and its operands. -/
theorem EncodedAlike.of_split {text other : List Char}
    (mnemonic : (splitMnemonic text).1 = (splitMnemonic other).1)
    (operands : splitOperands (splitMnemonic text).2 = splitOperands (splitMnemonic other).2) :
    EncodedAlike text other := by
  intro width labels index
  simp only [encodeLine, readInstruction, mnemonic, operands]

/-- A sigil belongs to no label. -/
theorem sigil_not_mem_of_isLabel {label : List Char} (labelled : isLabel label = true)
    (mode : Mode) : mode.sigil ∉ label := by
  intro inside
  cases label with
  | nil => cases inside
  | cons first rest =>
      simp only [isLabel, Bool.and_eq_true, List.all_eq_true] at labelled
      rcases List.mem_cons.mp inside with rfl | later
      · have opens := labelled.1
        cases mode <;> exact absurd opens (by decide)
      · have goesOn := labelled.2 _ later
        cases mode <;> exact absurd goesOn (by decide)

/-- A text with a sigil is an instruction. -/
theorem isInstruction_of_sigil {text : List Char} {mode : Mode} (inside : mode.sigil ∈ text) :
    isInstruction text = true := by
  rw [isInstruction, Option.isNone_iff_eq_none, Option.eq_none_iff_forall_ne_some]
  intro label defines
  have labelled : isLabel label = true := Defines.isLabel defines
  unfold labelOf? at defines
  split at defines
  · rename_i colon
    split at defines
    · cases defines
      rw [← List.dropLast_append_getLast? _ colon, List.mem_append, List.mem_singleton] at inside
      rcases inside with inLabel | atEnd
      · exact sigil_not_mem_of_isLabel labelled mode inLabel
      · cases mode <;> cases atEnd
    · cases defines
  · cases defines

/-- Two instructions with one encoding may stand for each other between the same lines. -/
theorem collect_alike {raw other : List Char} (holds : holdsInstruction raw = true)
    (otherHolds : holdsInstruction other = true)
    (alike : EncodedAlike (Text.withoutComment raw) (Text.withoutComment other))
    (above below : List (List Char)) (number index : Nat) (labels : Labels) :
    (collect number index labels (above ++ raw :: below)).1 =
        (collect number index labels (above ++ other :: below)).1 ∧
      ∀ width known start,
        encodeLines width known start (collect number index labels (above ++ raw :: below)).2 =
          encodeLines width known start
            (collect number index labels (above ++ other :: below)).2 := by
  induction above generalizing number index labels with
  | nil =>
      rw [List.nil_append, List.nil_append, collect_cons_of_holds number index labels holds,
        collect_cons_of_holds number index labels otherHolds]
      refine ⟨rfl, fun width known start => ?_⟩
      simp only [encodeLines_cons, lineChunk, lineErrors, alike width known start]
  | cons line above ih =>
      rw [List.cons_append, List.cons_append]
      by_cases here : holdsInstruction line = true
      · rw [collect_cons_of_holds number index labels here,
          collect_cons_of_holds number index labels here]
        obtain ⟨sameLabels, sameLines⟩ := ih (number + 1) (index + 1) labels
        refine ⟨sameLabels, fun width known start => ?_⟩
        rw [encodeLines_cons, encodeLines_cons, sameLines]
      · obtain ⟨more, skipped⟩ := collect_cons_of_lacks number index labels here
        rw [skipped, skipped]
        exact ih (number + 1) index more

/-- Lines behind others are numbered on. -/
theorem numberedLines_append (number : Nat) (above below : List (List Char)) :
    numberedLines number (above ++ below) =
      numberedLines number above ++ numberedLines (number + above.length) below := by
  unfold numberedLines
  rw [List.zipIdx_append, List.filter_append, List.map_append]

variable {before after : List Char}

/-- Instructions that are encoded alike may stand for each other in a source. -/
theorem assemble_alike (opens : Text.OpensLine before) (closes : Text.ClosesLine after)
    {text other : List Char} (plain : Text.IsPlain text) (plainOther : Text.IsPlain other)
    (instruction : isInstruction text = true) (instructionOther : isInstruction other = true)
    (alike : EncodedAlike text other) (width : Nat) :
    assembleChars (before ++ text ++ after) width =
        assembleChars (before ++ other ++ after) width ∧
      ∃ number index : Nat,
        (instructionLines (before ++ text ++ after))[index]? = some ⟨number, text⟩ ∧
          (instructionLines (before ++ other ++ after))[index]? = some ⟨number, other⟩ := by
  obtain ⟨above, lead, tail, below, around⟩ := Text.exists_lines_around opens closes
  have holds {text : List Char} (plain : Text.IsPlain text)
      (instruction : isInstruction text = true) :
      holdsInstruction (lead ++ text ++ tail) = true := by
    rw [holdsInstruction, (around text plain).2, instruction, Bool.and_true,
      List.isEmpty_eq_false_iff.mpr plain.nonempty]
    rfl
  have placed {text : List Char} (plain : Text.IsPlain text)
      (instruction : isInstruction text = true) :
      (instructionLines (before ++ text ++ after))[(numberedLines 1 above).length]? =
        some ⟨1 + above.length, text⟩ := by
    rw [instructionLines, (around text plain).1, numberedLines_append, numberedLines_cons,
      if_pos (holds plain instruction), List.getElem?_append_right (Nat.le_refl _), Nat.sub_self,
      (around text plain).2]
    rfl
  refine ⟨?_, _, _, placed plain instruction, placed plainOther instructionOther⟩
  obtain ⟨sameLabels, sameLines⟩ := collect_alike (holds plain instruction)
    (holds plainOther instructionOther)
    (by rwa [(around text plain).2, (around other plainOther).2]) above below 1 0 []
  rw [assembleChars, assembleChars, (around text plain).1, (around other plainOther).1]
  simp only [sameLabels, sameLines]

end Assembly

end WordMachine
