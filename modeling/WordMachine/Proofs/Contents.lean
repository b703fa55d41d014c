/-
The contents of a text are its lines without comments and without blanks at their ends.
-/

import WordMachine.Proofs.Surroundings

namespace WordMachine.Text

/-- The contents of a text are its lines without comments. -/
def contents (text : List Char) : List (List Char) := (lines text).map withoutComment

/-- A carriage return at the end of a line belongs to the line feed behind it. -/
def withoutReturn (line : List Char) : List Char :=
  if line.getLast? = some '\r' then line.dropLast else line

theorem withoutReturn_cons (char : Char) {line : List Char} (nonempty : line ≠ []) :
    withoutReturn (char :: line) = char :: withoutReturn line := by
  obtain ⟨next, rest, rfl⟩ := List.exists_cons_of_ne_nil nonempty
  unfold withoutReturn
  rw [List.getLast?_cons_cons, List.dropLast_cons_cons]
  split <;> rfl

/-- A carriage return at the end of a line does not count. -/
theorem withoutComment_withoutReturn (line : List Char) :
    withoutComment (withoutReturn line) = withoutComment line := by
  unfold withoutReturn
  split
  · rename_i last
    have whole := List.dropLast_append_getLast? _ last
    rw [withoutComment, withoutComment]
    nth_rewrite 2 [← whole]
    by_cases commented : ∀ char ∈ line.dropLast, (char != ';') = true
    · have kept : ['\r'].takeWhile (· != ';') = ['\r'] := rfl
      rw [List.takeWhile_append_of_pos commented, kept, trim_append_blank rfl,
        List.takeWhile_eq_self_iff.mpr commented]
    · rw [List.takeWhile_append, if_neg]
      intro reached
      exact commented (List.takeWhile_eq_self_iff.mp
        (List.IsPrefix.eq_of_length (List.takeWhile_prefix _) reached))
  · rfl

section Lines

variable {line : List Char}

/-- A line without line feeds ends at the next line feed. -/
theorem lines_append_of_noFeed (noFeed : '\n' ∉ line) (rest : List Char) :
    lines (line ++ '\n' :: rest) = withoutReturn line :: lines rest := by
  induction line with
  | nil => exact lines_cons_feed rest
  | cons char line ih =>
      obtain ⟨here, later⟩ := not_or.mp (List.mem_cons.not.mp noFeed)
      cases line with
      | nil =>
          by_cases carriage : char = '\r'
          · subst carriage
            exact (lines_cons_paired rfl).trans (lines_cons_feed rest)
          · have kept : withoutReturn [char] = [char] := by simp [withoutReturn, carriage]
            rw [kept, List.singleton_append, lines_cons_open (Ne.symm here) fun paired =>
              carriage paired.1, lines_cons_feed]
            rfl
      | cons next line =>
          have unpaired : ¬ (char = '\r' ∧ (next :: line ++ '\n' :: rest).head? = some '\n') :=
            fun paired => later (Option.some.inj paired.2 ▸ List.mem_cons_self)
          rw [List.cons_append, lines_cons_open (Ne.symm here) unpaired, ih later,
            withoutReturn_cons char (List.cons_ne_nil _ _)]
          rfl

/-- A text without line feeds is one line. -/
theorem lines_of_noFeed (nonempty : line ≠ []) (noFeed : '\n' ∉ line) : lines line = [line] := by
  induction line with
  | nil => exact absurd rfl nonempty
  | cons char line ih =>
      obtain ⟨here, later⟩ := not_or.mp (List.mem_cons.not.mp noFeed)
      have unpaired : ¬ (char = '\r' ∧ line.head? = some '\n') :=
        fun paired => later (List.mem_of_mem_head? paired.2)
      rw [lines_cons_open (Ne.symm here) unpaired]
      cases line with
      | nil => rfl
      | cons next line =>
          rw [ih (List.cons_ne_nil _ _) later]
          rfl

/-- Every line of a text that ends in a line feed has a line feed of its own. -/
theorem length_lines_of_closed {text : List Char} (closed : ∀ char ∈ text.getLast?, char = '\n') :
    (lines text).length = text.count '\n' := by
  induction text with
  | nil => rfl
  | cons char rest ih =>
      cases rest with
      | nil =>
          obtain rfl : char = '\n' := closed char rfl
          rfl
      | cons next rest =>
          have tail := ih fun other last => closed other (by rwa [List.getLast?_cons_cons])
          by_cases feed : char = '\n'
          · subst feed
            rw [lines_cons_feed, List.length_cons, tail, List.count_cons_self]
          by_cases paired : char = '\r' ∧ (next :: rest).head? = some '\n'
          · obtain ⟨rfl, follows⟩ := paired
            rw [lines_cons_paired follows, tail, List.count_cons_of_ne feed]
          · obtain ⟨first, more, cut⟩ :=
              List.exists_cons_of_ne_nil (lines_ne_nil (List.cons_ne_nil next rest))
            rw [cut] at tail
            rw [lines_cons_open feed paired, cut, List.count_cons_of_ne feed, ← tail]
            rfl

end Lines

/-- Two texts keep their contents when a line feed joins them. -/
theorem contents_append_feed (first second : List Char) :
    ∃ gap, (∀ content ∈ gap, content = []) ∧
      contents (first ++ '\n' :: second) = contents first ++ gap ++ contents second ∧
      (contents first ++ gap).length = 1 + first.count '\n' := by
  have split := List.rdropWhile_append_rtakeWhile (p := (· != '\n')) (l := first)
  set head := first.rdropWhile (· != '\n')
  set lead := first.rtakeWhile (· != '\n')
  have closed : ∀ char ∈ head.getLast?, char = '\n' := by
    intro char last
    obtain ⟨nonempty, rfl⟩ := List.mem_getLast?_eq_getLast last
    simpa using List.rdropWhile_last_not (· != '\n') first nonempty
  have noFeed : '\n' ∉ lead := fun inside => by simpa using List.mem_rtakeWhile_imp inside
  have feeds : first.count '\n' = (lines head).length := by
    rw [← split, List.count_append, List.count_eq_zero.mpr noFeed, Nat.add_zero,
      length_lines_of_closed closed]
  have joined : contents (first ++ '\n' :: second) =
      (lines head).map withoutComment ++ withoutComment lead :: contents second := by
    rw [contents, ← split, List.append_assoc, lines_append_closed closed,
      lines_append_of_noFeed noFeed, List.map_append, List.map_cons, withoutComment_withoutReturn]
    rfl
  have alone : contents first = (lines head).map withoutComment ++ contents lead := by
    rw [contents, ← split, lines_append_closed closed, List.map_append]
    rfl
  rw [joined, alone, feeds, Nat.add_comm 1]
  by_cases empty : lead = []
  · rw [empty]
    exact ⟨[[]], by simp, by simp [contents, lines]; rfl, by simp [contents, lines]⟩
  · have single : contents lead = [withoutComment lead] := by
      rw [contents, lines_of_noFeed empty noFeed, List.map_singleton]
    rw [single]
    exact ⟨[], by simp, by simp, by simp⟩

end WordMachine.Text
