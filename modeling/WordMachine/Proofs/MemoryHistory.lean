/-
This file describes what any sequence of writes and clears does to a memory.
-/

import WordMachine.Proofs.WellFormed

namespace WordMachine

/-- A memory is changed by a write to an address word or to a number, or as a whole. -/
inductive Change where
  | write (address word : Word)
  | writeAt (address : Nat) (word : Word)
  | clear
deriving DecidableEq

namespace Change

/-- No word of the change is wider than a cell, and its address lies below the capacity. -/
def Fits (width capacity : Nat) : Change → Prop
  | .write address word => address.width ≤ width ∧ address.value < capacity ∧ word.width ≤ width
  | .writeAt address word => address < capacity ∧ word.width ≤ width
  | .clear => True

instance (width capacity : Nat) : (change : Change) → Decidable (change.Fits width capacity)
  | .write _ _ => inferInstanceAs (Decidable (_ ∧ _ ∧ _))
  | .writeAt _ _ => inferInstanceAs (Decidable (_ ∧ _))
  | .clear => inferInstanceAs (Decidable True)

/-- The address as a number, and the word that is written there. -/
def target? : Change → Option (Nat × Word)
  | .write address word => some (address.value, word)
  | .writeAt address word => some (address, word)
  | .clear => none

/-- The change writes the word to the address with success. -/
def Writes (width capacity : Nat) (change : Change) (address : Nat) (word : Word) : Prop :=
  change.Fits width capacity ∧ change.target? = some (address, word)

/-- What was written to the address before the change is still its last write. -/
def Passes (width capacity : Nat) (change : Change) (address : Nat) : Prop :=
  change ≠ .clear ∧ ∀ word, ¬ change.Writes width capacity address word

end Change

/-- The word was written to the address with success, and neither a clear nor another successful
write to this address came later. -/
def LastWrite (width capacity : Nat) (changes : List Change) (address : Nat) (word : Word) : Prop :=
  ∃ before change after, changes = before ++ change :: after ∧
    change.Writes width capacity address word ∧
    ∀ later ∈ after, later.Passes width capacity address

/-- The last write is the latest change or survives it. -/
theorem lastWrite_concat {width capacity : Nat} {changes : List Change} {change : Change}
    {address : Nat} {word : Word} :
    LastWrite width capacity (changes ++ [change]) address word ↔
      change.Writes width capacity address word ∨
        change.Passes width capacity address ∧ LastWrite width capacity changes address word := by
  constructor
  · rintro ⟨before, writer, after, split, writes, passes⟩
    -- the latest change is the writer exactly when nothing comes after the writer
    rcases List.eq_nil_or_concat after with rfl | ⟨others, last, rfl⟩
    · obtain ⟨_, same⟩ := List.append_inj' split rfl
      obtain rfl : change = writer := List.singleton_inj.mp same
      exact Or.inl writes
    · rw [List.concat_eq_append] at split passes
      rw [← List.cons_append, ← List.append_assoc] at split
      obtain ⟨earlier, same⟩ := List.append_inj' split rfl
      obtain rfl : change = last := List.singleton_inj.mp same
      refine Or.inr ⟨passes change (by simp), before, writer, others, earlier, writes, ?_⟩
      exact fun later inside => passes later (List.mem_append_left _ inside)
  · rintro (writes | ⟨passing, before, writer, after, rfl, writes, passes⟩)
    · exact ⟨changes, change, [], rfl, writes, by simp⟩
    · refine ⟨before, writer, after ++ [change], by simp, writes, ?_⟩
      intro later inside
      rcases List.mem_append.mp inside with listed | last
      · exact passes later listed
      · exact List.mem_singleton.mp last ▸ passing

namespace Memory

variable {memory next : Memory}

section Addresses

/-- An address word that is no wider than a cell names the cell of its number. -/
theorem addressOf_of_le (narrow : memory.width ≤ 64) {address : Word}
    (fits : address.width ≤ memory.width) :
    memory.addressOf address =
      (memory.checkRange address.value >>= fun _ => pure address.value) := by
  rw [addressOf, if_neg (Nat.not_lt.mpr fits), Word.unsigned_eq (fits.trans narrow)]

/-- An address with more bits than a cell is refused. -/
theorem addressOf_of_lt {address : Word} (wide : memory.width < address.width) :
    memory.addressOf address = .error (.addressTooWide memory.name address.text) :=
  if_pos wide

/-- A read by a word is a read by its number. -/
theorem read_eq_readAt (narrow : memory.width ≤ 64) {address : Word}
    (fits : address.width ≤ memory.width) : memory.read address = memory.readAt address.value := by
  rw [read, addressOf_of_le narrow fits, readAt, bind_assoc]
  rfl

/-- A write by a word is a write by its number. -/
theorem write_eq_writeAt (narrow : memory.width ≤ 64) {address : Word}
    (fits : address.width ≤ memory.width) (word : Word) :
    memory.write address word = memory.writeAt address.value word := by
  rw [write, addressOf_of_le narrow fits, writeAt, bind_assoc]
  rfl

/-- A cell inside the memory is read. -/
theorem readAt_of_lt {address : Nat} (inside : address < memory.capacity) :
    memory.readAt address = .ok (memory.cell address) := by
  rw [readAt, checkRange, if_pos inside]
  rfl

/-- Only cells inside the memory are read. -/
theorem lt_capacity_of_readAt {address : Nat} {word : Word}
    (found : memory.readAt address = .ok word) : address < memory.capacity := by
  by_contra outside
  rw [readAt, checkRange, if_neg outside] at found
  cases found

end Addresses

section Changes

/-- The result of a change alone, which fails without an effect. -/
def attempt (memory : Memory) : Change → Except MemoryError Memory
  | .write address word => memory.write address word
  | .writeAt address word => memory.writeAt address word
  | .clear => .ok memory.clear

def after (memory : Memory) (change : Change) : Memory :=
  match memory.attempt change with
  | .ok changed => changed
  | .error _ => memory

def afterAll (memory : Memory) (changes : List Change) : Memory := changes.foldl after memory

/-- The memory after a change that succeeds. -/
def changed (memory : Memory) (change : Change) : Memory :=
  match change.target? with
  | some (address, word) =>
      { memory with cells := memory.cells.insert address (word.padded memory.width) }
  | none => memory.clear

/-- A change succeeds exactly when it fits. -/
theorem attempt_eq_ok_iff (narrow : memory.width ≤ 64) {change : Change} :
    memory.attempt change = .ok next ↔
      change.Fits memory.width memory.capacity ∧ next = memory.changed change := by
  cases change with
  | write address word =>
      by_cases fits : address.width ≤ memory.width
      · rw [attempt, write_eq_writeAt narrow fits, writeAt_eq_ok_iff]
        simp [Change.Fits, changed, Change.target?, fits]
      · rw [attempt, write, addressOf_of_lt (Nat.lt_of_not_le fits)]
        simp [Change.Fits, fits, bind, Except.bind]
  | writeAt address word => exact writeAt_eq_ok_iff
  | clear => simp [attempt, Change.Fits, changed, Change.target?, eq_comm]

/-- A change that fits is made. -/
theorem after_of_fits (narrow : memory.width ≤ 64) {change : Change}
    (fits : change.Fits memory.width memory.capacity) :
    memory.after change = memory.changed change := by
  rw [after, (attempt_eq_ok_iff narrow).mpr ⟨fits, rfl⟩]

/-- A change that does not fit is not made. -/
theorem after_of_not_fits (narrow : memory.width ≤ 64) {change : Change}
    (unfit : ¬ change.Fits memory.width memory.capacity) : memory.after change = memory := by
  rw [after]
  split
  · rename_i success
    exact absurd ((attempt_eq_ok_iff narrow).mp success).1 unfit
  · rfl

/-- A change keeps the shape of the memory. -/
theorem after_shape (narrow : memory.width ≤ 64) (change : Change) :
    (memory.after change).name = memory.name ∧ (memory.after change).width = memory.width ∧
      (memory.after change).capacity = memory.capacity := by
  by_cases fits : change.Fits memory.width memory.capacity
  · rw [after_of_fits narrow fits]
    cases change <;> exact ⟨rfl, rfl, rfl⟩
  · rw [after_of_not_fits narrow fits]
    exact ⟨rfl, rfl, rfl⟩

/-- After a change, a cell holds the word that the change wrote there, or what it held before. -/
theorem getElem?_after (narrow : memory.width ≤ 64) {change : Change} {address : Nat}
    {stored : Word} :
    (memory.after change).cells[address]? = some stored ↔
      (∃ word, change.Writes memory.width memory.capacity address word ∧
        stored = word.padded memory.width) ∨
      change.Passes memory.width memory.capacity address ∧
        memory.cells[address]? = some stored := by
  by_cases fits : change.Fits memory.width memory.capacity
  · rw [after_of_fits narrow fits, changed]
    cases target : change.target? with
    | none =>
        obtain rfl : change = .clear := by
          cases change with
          | clear => rfl
          | write _ _ | writeAt _ _ => cases target
        simp [Memory.clear, Change.Writes, Change.Passes, target]
    | some place =>
        obtain ⟨index, word⟩ := place
        have kept : change ≠ .clear := by
          rintro rfl
          cases target
        by_cases same : index = address
        · simp [Change.Writes, Change.Passes, fits, target, kept, same, eq_comm]
        · simp [Change.Writes, Change.Passes, fits, target, kept, same, Std.ExtTreeMap.getElem?_insert]
  · rw [after_of_not_fits narrow fits]
    have passes : change.Passes memory.width memory.capacity address := by
      refine ⟨?_, fun word writes => fits writes.1⟩
      rintro rfl
      exact fits trivial
    simp [passes, Change.Writes, fits]

/-- The latest change comes last. -/
theorem afterAll_concat (memory : Memory) (changes : List Change) (change : Change) :
    memory.afterAll (changes ++ [change]) = (memory.afterAll changes).after change := by
  rw [afterAll, List.foldl_append]
  rfl

/-- All changes keep the shape of the memory. -/
theorem afterAll_shape (narrow : memory.width ≤ 64) (changes : List Change) :
    (memory.afterAll changes).name = memory.name ∧
      (memory.afterAll changes).width = memory.width ∧
        (memory.afterAll changes).capacity = memory.capacity := by
  induction changes generalizing memory with
  | nil => exact ⟨rfl, rfl, rfl⟩
  | cons change rest ih =>
      obtain ⟨name, width, capacity⟩ := memory.after_shape narrow change
      rw [← name, ← width, ← capacity]
      exact ih (width.trans_le narrow)

/-- A memory that starts empty stores exactly the last writes. -/
theorem getElem?_afterAll (narrow : memory.width ≤ 64) (fresh : memory.cells = ∅)
    {changes : List Change} {address : Nat} {stored : Word} :
    (memory.afterAll changes).cells[address]? = some stored ↔
      ∃ word, LastWrite memory.width memory.capacity changes address word ∧
        stored = word.padded memory.width := by
  -- the induction takes the latest change off, since it decides what the last write is
  induction changes using List.reverseRecOn generalizing stored with
  | nil => simp [afterAll, fresh, LastWrite]
  | append_singleton changes change ih =>
      obtain ⟨_, width, capacity⟩ := afterAll_shape narrow changes
      rw [afterAll_concat, getElem?_after (width.trans_le narrow), width, capacity, ih]
      simp only [lastWrite_concat, or_and_right, exists_or, and_assoc, exists_and_left]

end Changes

section Contents

/-- A read of the address gives the word, whether the address is a number or spelled as a word that
is no wider than a cell. -/
def Yields (memory : Memory) (address : Nat) (stored : Word) : Prop :=
  memory.readAt address = .ok stored ∧
    ∀ spelling : Word, spelling.width ≤ memory.width → spelling.value = address →
      memory.read spelling = .ok stored

/-- A cell inside the memory yields its word. -/
theorem yields_cell (narrow : memory.width ≤ 64) {address : Nat}
    (inside : address < memory.capacity) : memory.Yields address (memory.cell address) := by
  refine ⟨readAt_of_lt inside, fun spelling fits same => ?_⟩
  rw [read_eq_readAt narrow fits, same, readAt_of_lt inside]

/-- The dump lists what is stored. -/
theorem mem_dump_iff {address : Nat} {stored : Word} :
    (address, stored) ∈ memory.dump ↔ memory.cells[address]? = some stored :=
  Std.ExtTreeMap.mem_toList_iff_getElem?_eq_some

/-- The dump is sorted by addresses. -/
theorem dump_sorted (memory : Memory) : (memory.dump.map Prod.fst).Pairwise (· < ·) := by
  have ordered : memory.cells.keys.Pairwise (fun first second => compare first second = .lt) :=
    Std.ExtTreeMap.ordered_keys
  rw [dump, Std.ExtTreeMap.map_fst_toList_eq_keys]
  exact ordered.imp Nat.compare_eq_lt.mp

/-- The dump lists every cell once. -/
theorem length_dump (memory : Memory) : memory.dump.length = memory.populated :=
  Std.ExtTreeMap.length_toList

end Contents

/-- A memory holds exactly the last successful writes, whatever else was tried. -/
theorem history_keeps_last_writes (name : String) (width capacity : Nat) (narrow : width ≤ 64)
    (changes : List Change) :
    (∀ memory : Memory, memory.width = width → memory.capacity = capacity → ∀ change : Change,
      ((∃ next, memory.attempt change = .ok next) ↔ change.Fits width capacity) ∧
        (¬ change.Fits width capacity → memory.after change = memory)) ∧
    (∀ address < capacity,
      (∀ word, LastWrite width capacity changes address word →
        ((empty name width capacity).afterAll changes).Yields address (word.padded width)) ∧
      ((∀ word, ¬ LastWrite width capacity changes address word) →
        ((empty name width capacity).afterAll changes).Yields address (Word.zero width))) ∧
    (∀ spelling : Word, width < spelling.width →
      ((empty name width capacity).afterAll changes).read spelling =
        .error (.addressTooWide name spelling.text)) ∧
    (∀ address stored, (address, stored) ∈ ((empty name width capacity).afterAll changes).dump ↔
      ∃ word, LastWrite width capacity changes address word ∧ stored = word.padded width) ∧
    (((empty name width capacity).afterAll changes).dump.map Prod.fst).Pairwise (· < ·) ∧
    ((empty name width capacity).afterAll changes).populated =
      ((empty name width capacity).afterAll changes).dump.length := by
  obtain ⟨sameName, sameWidth, sameCapacity⟩ :=
    (empty name width capacity).afterAll_shape narrow changes
  have stores {address : Nat} {stored : Word} :
      ((empty name width capacity).afterAll changes).cells[address]? = some stored ↔
        ∃ word, LastWrite width capacity changes address word ∧ stored = word.padded width :=
    getElem?_afterAll narrow rfl
  generalize (empty name width capacity).afterAll changes = memory at *
  have yields {address : Nat} (inside : address < capacity) :
      memory.Yields address (memory.cell address) :=
    yields_cell (sameWidth.trans_le narrow) (inside.trans_eq sameCapacity.symm)
  refine ⟨?_, ?_, ?_, fun _ _ => mem_dump_iff.trans stores, memory.dump_sorted,
    memory.length_dump.symm⟩
  · rintro other rfl rfl change
    refine ⟨?_, after_of_not_fits narrow⟩
    simp only [attempt_eq_ok_iff narrow, exists_and_left, exists_eq, and_true]
  · intro address inside
    constructor
    · intro word last
      have held : memory.cell address = word.padded width := by
        rw [cell, stores.mpr ⟨word, last, rfl⟩, Option.getD_some]
      exact held ▸ yields inside
    · intro never
      have vacant : memory.cells[address]? = none := by
        rw [Option.eq_none_iff_forall_ne_some]
        intro stored present
        obtain ⟨word, last, _⟩ := stores.mp present
        exact never word last
      have zero : memory.cell address = Word.zero width := by
        rw [cell, vacant, Option.getD_none, sameWidth]
        rfl
      exact zero ▸ yields inside
  · intro spelling wide
    rw [read, addressOf_of_lt (sameWidth.trans_lt wide), sameName]
    rfl

/-- A write by a single bit survives an earlier clear and a later write beyond the capacity. -/
theorem history_keeps_last_writes_short_address :
    LastWrite 8 256 [.writeAt 1 Word.one, .clear, .write Word.one ⟨[true, false, true]⟩,
        .writeAt 256 Word.one] 1 ⟨[true, false, true]⟩ ∧
      ((empty "RAM" 8 256).afterAll [.writeAt 1 Word.one, .clear,
        .write Word.one ⟨[true, false, true]⟩, .writeAt 256 Word.one]).Yields 1
          ⟨[false, false, false, false, false, true, false, true]⟩ := by
  have last : LastWrite 8 256 [.writeAt 1 Word.one, .clear, .write Word.one ⟨[true, false, true]⟩,
      .writeAt 256 Word.one] 1 ⟨[true, false, true]⟩ := by
    refine ⟨[.writeAt 1 Word.one, .clear], _, [.writeAt 256 Word.one], rfl, ⟨by decide, rfl⟩, ?_⟩
    rw [List.forall_mem_singleton]
    exact ⟨by decide, fun word writes => absurd writes.1 (by decide)⟩
  obtain ⟨_, reads, _⟩ := history_keeps_last_writes "RAM" 8 256 (by decide) [.writeAt 1 Word.one,
    .clear, .write Word.one ⟨[true, false, true]⟩, .writeAt 256 Word.one]
  exact ⟨last, (reads 1 (by decide)).1 _ last⟩

/-- Nine bits do not spell the address of a cell of eight bits, although their number is the address
of a cell that was written. -/
theorem wide_spelling_refused :
    (Word.ofNat 9 1).value = 1 ∧
      LastWrite 8 256 [.writeAt 1 ⟨[true, false, true]⟩] 1 ⟨[true, false, true]⟩ ∧
      ((empty "RAM" 8 256).afterAll [.writeAt 1 ⟨[true, false, true]⟩]).read (Word.ofNat 9 1) =
        .error (.addressTooWide "RAM" "000000001") :=
  ⟨by decide, ⟨[], _, [], rfl, ⟨by decide, rfl⟩, by simp⟩, by decide +kernel⟩

end Memory

end WordMachine
