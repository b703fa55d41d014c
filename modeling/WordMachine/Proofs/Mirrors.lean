/-
This file relates traced computations on words to traced computations on numbers.
-/

import WordMachine.Proofs.NumberMachine
import WordMachine.Proofs.Signed
import WordMachine.Proofs.Soundness

namespace WordMachine

namespace Traced

/-- Two traced computations agree in their value and in their events. -/
@[ext] theorem ext {A : Type} {first second : Traced A} (sameValue : first.value = second.value)
    (sameEvents : first.events = second.events) : first = second := by
  cases first
  cases second
  cases sameValue
  cases sameEvents
  rfl

instance : LawfulMonad Traced :=
  LawfulMonad.mk' Traced (fun _ => ext rfl (List.append_nil _)) (fun _ _ => rfl)
    (fun _ _ _ => ext rfl (List.append_assoc _ _ _))

/-- The second computation gives the view of the first one's value, and both report the same. -/
structure Mirrors {A B : Type} (view : A → B) (first : Traced A) (second : Traced B) : Prop where
  value : second.value = view first.value
  events : second.events = first.events

variable {A B C D : Type} {view : A → B} {view' : C → D}

theorem Mirrors.pure {result : A} {viewed : B} (same : viewed = view result) :
    Mirrors view (Pure.pure result) (Pure.pure viewed) := ⟨same, rfl⟩

/-- Composed computations mirror each other part by part. -/
theorem Mirrors.bind {first : Traced A} {second : Traced B} {next : A → Traced C}
    {next' : B → Traced D} (here : Mirrors view first second)
    (after : Mirrors view' (next first.value) (next' (view first.value))) :
    Mirrors view' (first >>= next) (second >>= next') := by
  constructor
  · rw [value_bind, value_bind, here.value, after.value]
  · rw [events_bind, events_bind, here.value, here.events, after.events]

theorem Mirrors.emit {event viewed : Event} (same : viewed = event) :
    Mirrors id (emit event) (emit viewed) := by
  rw [same]
  exact ⟨rfl, rfl⟩

end Traced

namespace Word

/-- The bits of a number are counted from its highest power of two. -/
theorem bitCount_eq {number width : Nat} (lower : 2 ^ width ≤ number)
    (upper : number < 2 ^ (width + 1)) : bitCount number = width + 1 := by
  have nonzero : number ≠ 0 := by
    have positive := Nat.two_pow_pos width
    omega
  rw [bitCount, (Nat.log2_eq_iff nonzero).2 ⟨lower, upper⟩]

/-- A word that is wider than the width has its top bit set. -/
def Tight (width : Nat) (word : Word) : Prop :=
  word.width ≤ width ∨ ∃ top, width ≤ top ∧ word.width = top + 1 ∧ 2 ^ top ≤ word.value

/-- Counting up never writes a leading zero beyond the width. -/
theorem Tight.increment {width : Nat} {word : Word} (tight : Tight width word)
    (positive : 1 ≤ width) : Tight width word.increment := by
  have grown := width_add word one
  rw [width_one, value_one] at grown
  rw [Tight, value_increment, Word.increment, grown]
  rcases tight with narrow | ⟨top, above, wide, reached⟩
  · by_cases carry : 2 ^ max word.width 1 ≤ word.value + 1
    · rw [if_pos carry]
      by_cases room : max word.width 1 + 1 ≤ width
      · exact Or.inl room
      · have full : max word.width 1 = width := by omega
        rw [full] at carry ⊢
        exact Or.inr ⟨width, Nat.le_refl _, rfl, carry⟩
    · rw [if_neg carry]
      left
      omega
  · have longer : max word.width 1 = top + 1 := by omega
    right
    rw [longer]
    by_cases carry : 2 ^ (top + 1) ≤ word.value + 1
    · rw [if_pos carry]
      exact ⟨top + 1, by omega, rfl, carry⟩
    · rw [if_neg carry]
      exact ⟨top, above, rfl, by omega⟩

end Word

namespace Memory

variable {memory : Memory} {width capacity : Nat}

/-- Below this address lie the cells that the capacity holds and the width can name. -/
def reach (memory : Memory) : Nat := min (2 ^ memory.width) memory.capacity

/-- The error for an address beyond the reach. -/
def refusal (memory : Memory) (address : Nat) : MemoryError :=
  if 2 ^ memory.width ≤ address then
    .addressTooWide memory.name (Word.ofNat (bitCount address) address).text
  else .addressOutOfRange memory.name address memory.capacity

/-- A tight address reaches a cell exactly when its number lies within the reach. -/
theorem addressOf_of_tight (narrow : memory.width ≤ 64) {address : Word}
    (tight : address.Tight memory.width) :
    memory.addressOf address =
      if address.value < memory.reach then .ok address.value
      else .error (memory.refusal address.value) := by
  unfold addressOf reach refusal
  rcases tight with inside | ⟨top, above, wide, reached⟩
  · have small := Word.value_lt_of_width_le inside
    rw [if_neg (Nat.not_lt.2 inside), if_neg (Nat.not_le.2 small),
      Word.unsigned_eq (inside.trans narrow)]
    unfold checkRange
    by_cases reached : address.value < memory.capacity
    · rw [if_pos reached, if_pos (Nat.lt_min.2 ⟨small, reached⟩)]
      rfl
    · rw [if_neg reached, if_neg (fun both => reached (Nat.lt_min.1 both).2)]
      rfl
  · have bound := Word.value_lt address
    have large : 2 ^ memory.width ≤ address.value :=
      (Nat.pow_le_pow_right (by decide) above).trans reached
    rw [wide] at bound
    have shown : Word.ofNat (bitCount address.value) address.value = address := by
      rw [Word.bitCount_eq reached bound]
      exact (Word.eq_ofNat wide).symm
    rw [if_pos (by omega), if_pos large, shown,
      if_neg (fun both => absurd (Nat.lt_min.1 both).1 (Nat.not_lt.2 large))]

/-- The numbers of a memory are at fault exactly beyond the reach. -/
theorem numbers_fault? (memory : Memory) (address : Nat) :
    memory.numbers.fault? memory.width address =
      if address < memory.reach then none else some (memory.refusal address) := by
  unfold NumberMemory.fault? reach refusal numbers
  by_cases wide : 2 ^ memory.width ≤ address
  · rw [if_pos wide, if_pos wide,
      if_neg (fun both => absurd (Nat.lt_min.1 both).1 (Nat.not_lt.2 wide))]
  · rw [if_neg wide, if_neg wide]
    by_cases beyond : memory.capacity ≤ address
    · rw [if_pos beyond,
        if_neg (fun both => absurd (Nat.lt_min.1 both).2 (Nat.not_lt.2 beyond))]
    · rw [if_neg beyond, if_pos (Nat.lt_min.2 ⟨Nat.lt_of_not_le wide, Nat.lt_of_not_le beyond⟩)]

/-- A tight address reaches a cell exactly when its number does. -/
theorem Holds.addressOf_eq (holds : memory.Holds width capacity) (narrow : width ≤ 64)
    {address : Word} (tight : address.Tight width) :
    memory.addressOf address =
      match memory.numbers.fault? width address.value with
      | none => .ok address.value
      | some cause => .error cause := by
  obtain rfl := holds.width_eq
  rw [addressOf_of_tight narrow tight, numbers_fault?]
  split <;> rfl

/-- A read agrees with the read of the numbers. -/
theorem Holds.read_mirrors (holds : memory.Holds width capacity) (narrow : width ≤ 64)
    {address : Word} (tight : address.Tight width) :
    Traced.Mirrors Word.value (Machine.readOr width (memory.read address))
      (memory.numbers.read width address.value) := by
  unfold Memory.read NumberMemory.read
  rw [holds.addressOf_eq narrow tight]
  cases memory.numbers.fault? width address.value with
  | none => exact ⟨rfl, rfl⟩
  | some cause => exact ⟨(Word.value_zero width).symm, rfl⟩

/-- A store changes one cell. -/
theorem Holds.store_eq (holds : memory.Holds width capacity) (address : Nat) {word : Word}
    (fits : word.width = width) :
    memory.store address word =
      .ok { memory with cells := memory.cells.insert address word } := by
  unfold Memory.store
  rw [holds.width_eq, fits, if_neg (Nat.lt_irrefl _), Word.padded_of_le _ fits.ge]

/-- A cell holds the word that was stored last. -/
theorem cell_insert (memory : Memory) (address : Nat) (word : Word) (other : Nat) :
    { memory with cells := memory.cells.insert address word }.cell other =
      if other = address then word else memory.cell other := by
  unfold cell
  rw [Std.ExtTreeMap.getElem?_insert]
  by_cases same : other = address
  · simp [same]
  · simp [same, Ne.symm same]

theorem numbers_insert (memory : Memory) (address : Nat) (word : Word) :
    { memory with cells := memory.cells.insert address word }.numbers =
      { memory.numbers with
        cells := Function.update memory.numbers.cells address word.value } := by
  unfold numbers
  congr 1
  funext other
  rw [cell_insert, Function.update_apply]
  split <;> rfl

/-- A write agrees with the write of the numbers. -/
theorem Holds.write_mirrors (holds : memory.Holds width capacity) (narrow : width ≤ 64)
    {address word : Word} (tight : address.Tight width) (fits : word.width = width) :
    Traced.Mirrors Memory.numbers (Machine.writeOr memory (memory.write address word))
      (memory.numbers.write width address.value word.value) := by
  unfold Memory.write NumberMemory.write
  rw [holds.addressOf_eq narrow tight]
  cases memory.numbers.fault? width address.value with
  | none =>
      have stored := holds.store_eq address.value fits
      constructor
      · change _ = (Machine.writeOr memory (memory.store address.value word)).value.numbers
        rw [stored]
        exact (numbers_insert memory address.value word).symm
      · change _ = (Machine.writeOr memory (memory.store address.value word)).events
        rw [stored]
        rfl
  | some cause => exact ⟨rfl, rfl⟩

end Memory

end WordMachine
