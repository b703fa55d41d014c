/-
This file describes the texts of JSON values with blanks at will between their tokens.
-/

import Mathlib.Data.List.DropRight
import WordMachine.Proofs.JsonSpelling

namespace WordMachine.Json

def Blank (text : List Char) : Prop := ∀ char ∈ text, isBlank char = true

mutual

/-- The texts of the values whose numbers are whole. -/
inductive Writes : Json → List Char → Prop where
  | null : Writes .null "null".toList
  | bool (value : Bool) : Writes (.bool value) (toString value).toList
  | number (number : Int) : Writes (.number (Text.integer number)) (Text.integer number)
  | string (text : List Char) : Writes (.string (spell text)) (quoted (spell text))
  | noItems : Writes (.array []) ['[', ']']
  | array {items : List Json} {text : List Char} (written : WritesItems items text) :
      Writes (.array items) ('[' :: text)
  | noMembers : Writes (.object []) ['\x7b', '\x7d']
  | object {members : List (List Char × Json)} {text : List Char}
      (written : WritesMembers members text) : Writes (.object members) ('\x7b' :: text)

/-- The items of an array up to its closing bracket. -/
inductive WritesItems : List Json → List Char → Prop where
  | last {item : Json} {before text after : List Char} (blankBefore : Blank before)
      (written : Writes item text) (blankAfter : Blank after) :
      WritesItems [item] (before ++ (text ++ (after ++ [']'])))
  | cons {item : Json} {items : List Json} {before text others : List Char}
      (blankBefore : Blank before) (written : Writes item text)
      (further : WritesItems items others) :
      WritesItems (item :: items) (before ++ (text ++ ',' :: others))

/-- The members of an object up to its closing brace. -/
inductive WritesMembers : List (List Char × Json) → List Char → Prop where
  | last {item : Json} {before gap text after : List Char} (key : List Char)
      (blankBefore : Blank before) (blankGap : Blank gap) (written : Writes item text)
      (blankAfter : Blank after) :
      WritesMembers [(spell key, item)]
        (before ++ ('"' :: (spell key ++ '"' :: ':' :: (gap ++ (text ++ (after ++ ['\x7d']))))))
  | cons {item : Json} {members : List (List Char × Json)} {before gap text others : List Char}
      (key : List Char) (blankBefore : Blank before) (blankGap : Blank gap)
      (written : Writes item text) (further : WritesMembers members others) :
      WritesMembers ((spell key, item) :: members)
        (before ++ ('"' :: (spell key ++ '"' :: ':' :: (gap ++ (text ++ ',' :: others)))))

end

section Blanks

variable {before rest : List Char} {bound : Nat}

/-- There are four blanks. -/
theorem isBlank_cases {char : Char} (blank : isBlank char = true) :
    char = ' ' ∨ char = '\n' ∨ char = '\r' ∨ char = '\t' := by
  simpa [isBlank, or_assoc] using blank

/-- Blanks in front are skipped. -/
theorem skipBlanks_append (blank : Blank before) (rest : List Char) :
    skipBlanks (before ++ rest) = skipBlanks rest :=
  List.dropWhile_append_of_pos blank

/-- Skipping stops at what is visible. -/
theorem skipBlanks_cons {char : Char} (visible : isBlank char = false) (rest : List Char) :
    skipBlanks (char :: rest) = char :: rest := by
  simp [skipBlanks, visible]

theorem skipBlanks_skipBlanks (text : List Char) :
    skipBlanks (skipBlanks text) = skipBlanks text :=
  List.dropWhile_idempotent isBlank text

/-- A value is read behind blanks. -/
theorem value_skipBlanks (bound : Nat) (text : List Char) :
    value bound (skipBlanks text) = value bound text := by
  cases bound with
  | zero => rfl
  | succ bound => rw [value, value, skipBlanks_skipBlanks]

/-- Items are read behind blanks. -/
theorem items_skipBlanks (bound : Nat) (text : List Char) :
    items bound (skipBlanks text) = items bound text := by
  cases bound with
  | zero => rfl
  | succ bound => rw [items, items, value_skipBlanks]

/-- Members are read behind blanks. -/
theorem members_skipBlanks (bound : Nat) (text : List Char) :
    members bound (skipBlanks text) = members bound text := by
  cases bound with
  | zero => rfl
  | succ bound => rw [members, members, skipBlanks_skipBlanks]

theorem endsNumber_cons {char : Char} : EndsNumber (char :: rest) ↔
    isDigit char = false ∧ char ≠ '.' ∧ char ≠ 'e' ∧ char ≠ 'E' :=
  ⟨fun ends => ends char rfl, fun noPart _ same => Option.some.inj same ▸ noPart⟩

/-- No blank belongs to a number. -/
theorem endsNumber_blank {char : Char} (blank : isBlank char = true) :
    EndsNumber (char :: rest) := by
  rw [endsNumber_cons]
  rcases isBlank_cases blank with rfl | rfl | rfl | rfl <;> decide

/-- A number ends at blanks too. -/
theorem endsNumber_append (blank : Blank before) (ends : EndsNumber rest) :
    EndsNumber (before ++ rest) := by
  cases before with
  | nil => exact ends
  | cons first before => exact endsNumber_blank (blank first List.mem_cons_self)

/-- A number ends at the marks of lists and objects. -/
theorem endsNumber_mark (mark : Char) (known : mark ∈ [',', ']', '\x7d']) (rest : List Char) :
    EndsNumber (mark :: rest) := by
  rw [endsNumber_cons]
  simp only [List.mem_cons, List.not_mem_nil, or_false] at known
  rcases known with rfl | rfl | rfl <;> decide

end Blanks

section Heads

/-- A number opens with its sign or with a digit. -/
theorem exists_head_integer (number : Int) :
    ∃ first more, Text.integer number = first :: more ∧ (isDigit first = true ∨ first = '-') := by
  cases number with
  | ofNat number =>
      obtain ⟨first, more, shape, digit⟩ := exists_head_decimal number
      exact ⟨first, more, shape, .inl digit⟩
  | negSucc number => exact ⟨_, _, rfl, .inr rfl⟩

/-- No other value and no mark opens as a number does. -/
theorem head_number_ne {first other : Char} (head : isDigit first = true ∨ first = '-')
    (foreign : isDigit other = false ∧ other ≠ '-') : first ≠ other := by
  rintro rfl
  rcases head with digit | sign
  · exact Bool.noConfusion (digit.symm.trans foreign.1)
  · exact foreign.2 sign

theorem not_blank_head_number {first : Char} (head : isDigit first = true ∨ first = '-') :
    isBlank first = false := by
  cases blank : isBlank first with
  | false => rfl
  | true =>
      rcases isBlank_cases blank with rfl | rfl | rfl | rfl <;>
        exact absurd rfl (head_number_ne head (by decide))

/-- Every text of a value opens with a visible character that closes nothing. -/
theorem Writes.exists_head {json : Json} {text : List Char} (written : Writes json text) :
    ∃ first more, text = first :: more ∧ isBlank first = false ∧ first ≠ ']' := by
  cases written with
  | null | noItems | noMembers => exact ⟨_, _, rfl, rfl, by decide⟩
  | array _ | object _ | string _ => exact ⟨_, _, rfl, rfl, by decide⟩
  | bool value => cases value <;> exact ⟨_, _, rfl, rfl, by decide⟩
  | number number =>
      obtain ⟨first, more, shape, head⟩ := exists_head_integer number
      exact ⟨first, more, shape, not_blank_head_number head, head_number_ne head (by decide)⟩

end Heads

section Reading

variable {rest : List Char} {bound : Nat}

/-- A whole number is read as a value. -/
theorem value_number (number : Int) (ends : EndsNumber rest) :
    value (bound + 1) (Text.integer number ++ rest) =
      some (.number (Text.integer number), rest) := by
  have body := numberBody_integer number ends
  obtain ⟨first, more, shape, head⟩ := exists_head_integer number
  rw [shape] at body ⊢
  rw [value, List.cons_append, skipBlanks_cons (not_blank_head_number head)]
  split
  case h_7 =>
    rw [← List.cons_append, body]
    rfl
  all_goals
    rename_i same
    exact absurd (List.cons.inj same).1 (head_number_ne head (by decide))

/-- The first item of an array is not taken for its closing bracket. -/
theorem WritesItems.skipBlanks_ne {items : List Json} {text : List Char}
    (written : WritesItems items text) (rest more : List Char) :
    skipBlanks (text ++ rest) ≠ ']' :: more := by
  cases written with
  | last blankBefore written _ | cons blankBefore written _ =>
      obtain ⟨first, others, rfl, visible, noClose⟩ := written.exists_head
      rw [List.append_assoc, skipBlanks_append blankBefore, List.append_assoc, List.cons_append,
        skipBlanks_cons visible]
      exact fun same => noClose (List.cons.inj same).1

/-- Written members do not start with the end of an object. -/
theorem WritesMembers.skipBlanks_ne {members : List (List Char × Json)} {text : List Char}
    (written : WritesMembers members text) (rest more : List Char) :
    skipBlanks (text ++ rest) ≠ '\x7d' :: more := by
  cases written with
  | last _ blankBefore | cons _ blankBefore =>
      rw [List.append_assoc, skipBlanks_append blankBefore, List.cons_append,
        skipBlanks_cons (by decide)]
      exact fun same => absurd (List.cons.inj same).1 (by decide)

mutual

/-- A text of a value is read as that value and the reader stops behind it. -/
theorem Writes.value_eq {json : Json} {text : List Char} (written : Writes json text)
    {before rest : List Char} (blank : Blank before) (ends : EndsNumber rest) {bound : Nat}
    (within : text.length < bound) :
    value bound (before ++ (text ++ rest)) = some (json, rest) := by
  rw [← value_skipBlanks, skipBlanks_append blank, value_skipBlanks]
  obtain ⟨bound, rfl⟩ := Nat.exists_eq_succ_of_ne_zero (Nat.ne_zero_of_lt within)
  cases written with
  | null | noItems | noMembers => rfl
  | bool value => cases value <;> rfl
  | number number => exact value_number number ends
  | string text =>
      have body := stringBody_spell text rest
      simp [value, quoted, skipBlanks_cons, isBlank, body]
  | array written =>
      have read := written.items_eq rest (Nat.lt_of_succ_lt_succ within)
      -- the branch of an empty array is left out by what is known of the first item
      have noClose := written.skipBlanks_ne rest
      rw [List.cons_append]
      simp only [value, skipBlanks_cons (by decide : isBlank '[' = false)]
      rw [items_skipBlanks, read]
      rfl
  | object written =>
      have read := written.members_eq rest (Nat.lt_of_succ_lt_succ within)
      have noClose := written.skipBlanks_ne rest
      rw [List.cons_append]
      simp only [value, skipBlanks_cons (by decide : isBlank '\x7b' = false)]
      rw [members_skipBlanks, read]
      rfl

/-- Written items are read as a list. -/
theorem WritesItems.items_eq {list : List Json} {text : List Char}
    (written : WritesItems list text) (rest : List Char) {bound : Nat}
    (within : text.length < bound) : items bound (text ++ rest) = some (list, rest) := by
  obtain ⟨bound, rfl⟩ := Nat.exists_eq_succ_of_ne_zero (Nat.ne_zero_of_lt within)
  cases written with
  | @last _ _ text after blankBefore written blankAfter =>
      have shorter : text.length < bound := by grind
      have ends := endsNumber_append blankAfter (endsNumber_mark ']' (by decide) rest)
      have read := written.value_eq blankBefore ends shorter
      simp only [List.append_assoc, List.cons_append, List.nil_append, items]
      rw [read]
      simp [skipBlanks_append blankAfter, skipBlanks_cons, isBlank]
  | @cons _ _ _ text others blankBefore written further =>
      have shorter : text.length < bound ∧ others.length < bound := by grind
      have ends := endsNumber_mark ',' (by decide) (others ++ rest)
      have read := written.value_eq blankBefore ends shorter.1
      have others := further.items_eq rest shorter.2
      simp only [List.append_assoc, List.cons_append, items]
      rw [read]
      simp [skipBlanks_cons, isBlank, others]

/-- Written members are read as an object. -/
theorem WritesMembers.members_eq {list : List (List Char × Json)} {text : List Char}
    (written : WritesMembers list text) (rest : List Char) {bound : Nat}
    (within : text.length < bound) : members bound (text ++ rest) = some (list, rest) := by
  obtain ⟨bound, rfl⟩ := Nat.exists_eq_succ_of_ne_zero (Nat.ne_zero_of_lt within)
  cases written with
  | @last _ _ _ text after key blankBefore blankGap written blankAfter =>
      have shorter : text.length < bound := by grind
      have ends := endsNumber_append blankAfter (endsNumber_mark '\x7d' (by decide) rest)
      have read := written.value_eq blankGap ends shorter
      simp only [List.append_assoc, List.cons_append, List.nil_append, members]
      rw [skipBlanks_append blankBefore, skipBlanks_cons (by decide)]
      simp only [stringBody_spell, Option.bind_eq_bind, Option.bind_some]
      simp [skipBlanks_append blankAfter, skipBlanks_cons, isBlank, read]
  | @cons _ _ _ _ text others key blankBefore blankGap written further =>
      have shorter : text.length < bound ∧ others.length < bound := by grind
      have ends := endsNumber_mark ',' (by decide) (others ++ rest)
      have read := written.value_eq blankGap ends shorter.1
      have others := further.members_eq rest shorter.2
      simp only [List.append_assoc, List.cons_append, members]
      rw [skipBlanks_append blankBefore, skipBlanks_cons (by decide)]
      simp only [stringBody_spell, Option.bind_eq_bind, Option.bind_some]
      simp [skipBlanks_cons, isBlank, read, others]

end

/-- A text of a value with blanks around it is read as a whole. -/
theorem Writes.parse_eq {json : Json} {text : List Char} (written : Writes json text)
    {before after : List Char} (blankBefore : Blank before) (blankAfter : Blank after) :
    parse (before ++ (text ++ after)) = some json := by
  have ends : EndsNumber after := by
    cases after with
    | nil => exact nofun
    | cons first after => exact endsNumber_blank (blankAfter first List.mem_cons_self)
  have within : text.length < (before ++ (text ++ after)).length + 1 := by grind
  have read := written.value_eq blankBefore ends within
  have empty : skipBlanks after = [] := List.dropWhile_eq_nil_iff.mpr blankAfter
  rw [parse, read]
  simp [empty]

end Reading

section Forms

/-- A value whose numbers are whole and whose texts are spelled as they are written here. -/
inductive Plain : Json → Prop where
  | null : Plain .null
  | bool (value : Bool) : Plain (.bool value)
  | number (number : Int) : Plain (.number (Text.integer number))
  | string (text : List Char) : Plain (.string (spell text))
  | array {items : List Json} (all : ∀ item ∈ items, Plain item) : Plain (.array items)
  | object {members : List (List Char × Json)}
      (keys : ∀ member ∈ members, ∃ key, member.1 = spell key)
      (all : ∀ member ∈ members, Plain member.2) : Plain (.object members)

theorem blank_nil : Blank [] := nofun

theorem blank_newLine (depth : Nat) : Blank (newLine depth) := by
  intro char inside
  rcases List.mem_cons.mp inside with rfl | inside
  · rfl
  · rw [List.eq_of_mem_replicate inside]
    rfl

theorem blank_space : Blank [' '] := by
  intro char inside
  rw [List.mem_singleton.mp inside]
  rfl

variable {form : Json → List Char} {before gap after : List Char}

/-- Every way to write the items one by one gives a text of an array. -/
theorem writesItems_of_form (forms : List Json → List Char) (blankBefore : Blank before)
    (blankAfter : Blank after) (single : ∀ item, forms [item] = before ++ form item)
    (several : ∀ item next rest,
      forms (item :: next :: rest) = before ++ form item ++ [','] ++ forms (next :: rest))
    {items : List Json} (nonempty : items ≠ []) (all : ∀ item ∈ items, Writes item (form item)) :
    WritesItems items (forms items ++ (after ++ [']'])) := by
  induction items with
  | nil => exact absurd rfl nonempty
  | cons item items ih =>
      have written := all item List.mem_cons_self
      cases items with
      | nil =>
          rw [single, List.append_assoc]
          exact .last blankBefore written blankAfter
      | cons next items =>
          have others := ih (List.cons_ne_nil _ _)
            fun item inside => all item (List.mem_cons_of_mem _ inside)
          rw [several]
          simpa using WritesItems.cons blankBefore written others

/-- Every way to write the members one by one gives a text of an object. -/
theorem writesMembers_of_form (forms : List (List Char × Json) → List Char)
    (blankBefore : Blank before) (blankGap : Blank gap) (blankAfter : Blank after)
    (single : ∀ key item, forms [(key, item)] = before ++ quoted key ++ (':' :: gap) ++ form item)
    (several : ∀ key item next rest, forms ((key, item) :: next :: rest) =
      before ++ quoted key ++ (':' :: gap) ++ form item ++ [','] ++ forms (next :: rest))
    {members : List (List Char × Json)} (nonempty : members ≠ [])
    (keys : ∀ member ∈ members, ∃ key, member.1 = spell key)
    (all : ∀ member ∈ members, Writes member.2 (form member.2)) :
    WritesMembers members (forms members ++ (after ++ ['\x7d'])) := by
  induction members with
  | nil => exact absurd rfl nonempty
  | cons member members ih =>
      obtain ⟨_, item⟩ := member
      obtain ⟨key, rfl⟩ := keys _ List.mem_cons_self
      have written := all _ List.mem_cons_self
      cases members with
      | nil =>
          rw [single, quoted]
          simpa using WritesMembers.last key blankBefore blankGap written blankAfter
      | cons next members =>
          have others := ih (List.cons_ne_nil _ _)
            (fun _ inside => keys _ (List.mem_cons_of_mem _ inside))
            fun _ inside => all _ (List.mem_cons_of_mem _ inside)
          rw [several, quoted]
          simpa using WritesMembers.cons key blankBefore blankGap written others

/-- The compact form is a text of its value. -/
theorem Plain.writes_compact {json : Json} (plain : Plain json) : Writes json json.compact := by
  induction plain with
  | null => exact .null
  | bool value => exact .bool value
  | number number => exact .number number
  | string text => exact .string text
  | @array items _ all =>
      cases items with
      | nil => exact .noItems
      | cons item items =>
          exact .array (writesItems_of_form compactItems blank_nil blank_nil
            (fun _ => rfl) (fun _ _ _ => rfl) (List.cons_ne_nil _ _) all)
  | @object members keys _ all =>
      cases members with
      | nil => exact .noMembers
      | cons member members =>
          exact .object (writesMembers_of_form compactMembers blank_nil blank_nil blank_nil
            (fun _ _ => rfl) (fun _ _ _ _ => rfl) (List.cons_ne_nil _ _) keys all)

/-- The indented form is a text of its value. -/
theorem Plain.writes_pretty {json : Json} (plain : Plain json) :
    ∀ depth, Writes json (json.pretty depth) := by
  induction plain with
  | null => exact fun _ => .null
  | bool value => exact fun _ => .bool value
  | number number => exact fun _ => .number number
  | string text => exact fun _ => .string text
  | @array items _ all =>
      intro depth
      cases items with
      | nil => exact .noItems
      | cons item items =>
          have written := writesItems_of_form (prettyItems (depth + 1)) (blank_newLine _)
            (blank_newLine depth) (fun _ => rfl) (fun _ _ _ => rfl) (List.cons_ne_nil _ _)
            fun item inside => all item inside (depth + 1)
          rw [pretty]
          simpa using Writes.array written
  | @object members keys _ all =>
      intro depth
      cases members with
      | nil => exact .noMembers
      | cons member members =>
          have written := writesMembers_of_form (prettyMembers (depth + 1))
            (blank_newLine _) blank_space (blank_newLine depth) (fun _ _ => rfl)
            (fun _ _ _ _ => rfl) (List.cons_ne_nil _ _) keys
            fun member inside => all member inside (depth + 1)
          rw [pretty]
          simpa using Writes.object written

/-- Both written forms of a value are read as the value. -/
theorem Plain.parse_forms {json : Json} (plain : Plain json) (depth : Nat) :
    parse json.compact = some json ∧ parse (json.pretty depth) = some json := by
  have compact := plain.writes_compact.parse_eq blank_nil blank_nil
  have pretty := (plain.writes_pretty depth).parse_eq blank_nil blank_nil
  rw [List.nil_append, List.append_nil] at compact pretty
  exact ⟨compact, pretty⟩

end Forms

end WordMachine.Json
