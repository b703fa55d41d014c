import WordMachine.Proofs.LastingProperties
import WordMachine.Proofs.Outputs
import WordMachine.Proofs.Success

namespace WordMachine

namespace Memory

variable {memory written : Memory} {width capacity : Nat}

/-- Every stored cell lies inside the capacity. -/
def Inside (memory : Memory) : Prop :=
  ∀ address word, memory.cells[address]? = some word → address < memory.capacity

/-- The later memory holds no new cell beyond the address space. -/
def KeepsFar (width : Nat) (earlier later : Memory) : Prop :=
  ∀ address word, 2 ^ width ≤ address → later.cells[address]? = some word →
    earlier.cells[address]? = some word

theorem KeepsFar.refl (width : Nat) (memory : Memory) : memory.KeepsFar width memory :=
  fun _ _ _ stored => stored

/-- What is kept twice is kept. -/
theorem KeepsFar.trans {first second third : Memory} (before : first.KeepsFar width second)
    (after : second.KeepsFar width third) : first.KeepsFar width third :=
  fun address word far stored => before address word far (after address word far stored)

/-- A clear stores nothing. -/
theorem KeepsFar.clear (width : Nat) (memory : Memory) : memory.KeepsFar width memory.clear := by
  intro address word _ stored
  simp [Memory.clear] at stored

theorem empty_inside (name : String) (width capacity : Nat) :
    (empty name width capacity).Inside := by
  simp [Inside, empty]

theorem Inside.clear (memory : Memory) : memory.clear.Inside := by
  simp [Inside, Memory.clear]

/-- A cell is the one stored last or was stored before. -/
theorem stored_of_insert {address other : Nat} {word found : Word}
    (stored : (memory.cells.insert address word)[other]? = some found) :
    (other = address ∧ found = word) ∨ memory.cells[other]? = some found := by
  rw [Std.ExtTreeMap.getElem?_insert] at stored
  split at stored <;> rename_i same
  · exact Or.inl ⟨(Std.LawfulEqCmp.eq_of_compare same).symm, (Option.some.inj stored).symm⟩
  · exact Or.inr stored

theorem checkRange_eq_ok_iff {address : Nat} :
    memory.checkRange address = .ok () ↔ address < memory.capacity := by
  unfold checkRange
  split <;> simp [*]

theorem store_eq_ok_iff {address : Nat} {word : Word} :
    memory.store address word = .ok written ↔
      word.width ≤ memory.width ∧ written =
        { memory with cells := memory.cells.insert address (word.padded memory.width) } := by
  unfold store
  split <;> rename_i size
  · simp [Nat.not_le.mpr size]
  · simp [Nat.le_of_not_lt size, eq_comm]

/-- A direct write succeeds when its address and its word fit. -/
theorem writeAt_eq_ok_iff {address : Nat} {word : Word} :
    memory.writeAt address word = .ok written ↔
      (address < memory.capacity ∧ word.width ≤ memory.width) ∧ written =
        { memory with cells := memory.cells.insert address (word.padded memory.width) } := by
  rw [writeAt, bind_eq_ok_iff]
  constructor
  · rintro ⟨_, range, stores⟩
    obtain ⟨fits, shape⟩ := store_eq_ok_iff.mp stores
    exact ⟨⟨checkRange_eq_ok_iff.mp range, fits⟩, shape⟩
  · rintro ⟨⟨within, fits⟩, shape⟩
    exact ⟨(), checkRange_eq_ok_iff.mpr within, store_eq_ok_iff.mpr ⟨fits, shape⟩⟩

/-- An address word reaches a cell inside the capacity and inside the address space. -/
theorem write_eq_ok {address word : Word} (success : memory.write address word = .ok written) :
    ∃ index < memory.capacity, index < 2 ^ memory.width ∧
      written =
        { memory with cells := memory.cells.insert index (word.padded memory.width) } := by
  obtain ⟨index, named, stores⟩ := bind_eq_ok_iff.mp success
  unfold addressOf at named
  split at named
  · cases named
  · rename_i narrow
    obtain ⟨_, range, same⟩ := bind_eq_ok_iff.mp named
    obtain rfl := pure_eq_ok_iff.mp same
    refine ⟨address.unsigned, checkRange_eq_ok_iff.mp range, ?_, (store_eq_ok_iff.mp stores).2⟩
    exact (Nat.mod_le _ _).trans_lt (Word.value_lt_of_width_le (Nat.le_of_not_lt narrow))

/-- A cell that is stored inside keeps the memory inside. -/
theorem Inside.insert (inside : memory.Inside) {address : Nat} (within : address < memory.capacity)
    (word : Word) : { memory with cells := memory.cells.insert address word }.Inside := by
  intro other found stored
  rcases stored_of_insert stored with ⟨rfl, _⟩ | before
  · exact within
  · exact inside other found before

/-- A near cell that is stored keeps the far ones. -/
theorem KeepsFar.insert (memory : Memory) {address : Nat} (near : address < 2 ^ width)
    (word : Word) :
    memory.KeepsFar width { memory with cells := memory.cells.insert address word } := by
  intro other found far stored
  rcases stored_of_insert stored with ⟨rfl, _⟩ | before
  · omega
  · exact before

/-- A write by an address word stores nothing outside the capacity and nothing beyond the address
space. -/
theorem Holds.write_inside (holds : memory.Holds width capacity) (inside : memory.Inside)
    {address word : Word} (success : memory.write address word = .ok written) :
    written.Inside ∧ memory.KeepsFar width written := by
  obtain ⟨index, within, near, rfl⟩ := write_eq_ok success
  rw [holds.width_eq] at near
  exact ⟨inside.insert within _, .insert _ near _⟩

/-- A direct write stores its word at its address and nothing else. -/
theorem Holds.writeAt_inside (holds : memory.Holds width capacity) (inside : memory.Inside)
    {address : Nat} {word : Word} (success : memory.writeAt address word = .ok written) :
    written.Holds width capacity ∧ written.Inside ∧
      ∀ other found, written.cells[other]? = some found →
        memory.cells[other]? = some found ∨ (other = address ∧ found = word.padded width) := by
  obtain ⟨⟨within, fits⟩, shape⟩ := writeAt_eq_ok_iff.mp success
  refine ⟨holds.store (store_eq_ok_iff.mpr ⟨fits, shape⟩), ?_, ?_⟩
  · rw [shape]
    exact inside.insert within _
  · intro other found stored
    rw [shape, holds.width_eq] at stored
    exact (stored_of_insert stored).symm

end Memory

namespace Machine

/-- A sound machine is well-formed when its instruction register has the width too and all stored
cells lie inside their memories. -/
structure WellFormed (machine : Machine) : Prop extends machine.Sound where
  ir_width : machine.ir.width = machine.width
  ram_inside : machine.ram.Inside
  registers_inside : machine.registers.Inside

/-- A machine goes over to a well-formed machine of the same architecture that stores nothing new
beyond the address space. -/
structure Evolves (machine next : Machine) : Prop where
  architecture : next.architecture = machine.architecture
  wellFormed : next.WellFormed
  ram_far : machine.ram.KeepsFar machine.width next.ram
  registers_far : machine.registers.KeepsFar machine.width next.registers

variable {machine next : Machine}

/-- A new machine is well-formed. -/
theorem build_wellFormed {architecture : Architecture} (valid : architecture.validate = .ok ()) :
    (build architecture).WellFormed where
  toSound := build_sound valid
  ir_width := Word.width_zero _
  ram_inside := Memory.empty_inside _ _ _
  registers_inside := Memory.empty_inside _ _ _

/-- A machine that stays as it is evolves. -/
theorem WellFormed.evolves (formed : machine.WellFormed) : machine.Evolves machine :=
  ⟨rfl, formed, .refl _ _, .refl _ _⟩

/-- The width stays. -/
theorem Evolves.width (evolves : machine.Evolves next) : next.width = machine.width :=
  congrArg Architecture.bits evolves.architecture

/-- Evolutions follow each other. -/
theorem Evolves.trans {last : Machine} (before : machine.Evolves next)
    (after : next.Evolves last) : machine.Evolves last := by
  obtain ⟨sameShape, formed, ram, registers⟩ := after
  rw [before.width] at ram registers
  exact ⟨sameShape.trans before.architecture, formed, before.ram_far.trans ram,
    before.registers_far.trans registers⟩

theorem WellFormed.bank_inside (formed : machine.WellFormed) (bank : Bank) :
    (machine.bank bank).Inside := by
  cases bank with
  | ram => exact formed.ram_inside
  | registers => exact formed.registers_inside

/-- A machine stays well-formed when one of its memories gives way to another one of the same
shape. -/
theorem WellFormed.withBank (formed : machine.WellFormed) (bank : Bank) {memory : Memory}
    (holds : memory.Holds machine.width (bank.capacity machine.architecture))
    (inside : memory.Inside) : (machine.withBank bank memory).WellFormed := by
  have sound := formed.toSound.withBank bank holds
  cases bank with
  | ram => exact ⟨sound, formed.ir_width, inside, formed.registers_inside⟩
  | registers => exact ⟨sound, formed.ir_width, formed.ram_inside, inside⟩

/-- A machine evolves when one of its memories keeps its shape and its far cells. -/
theorem Evolves.withBank (evolves : machine.Evolves next) (bank : Bank) {memory : Memory}
    (holds : memory.Holds next.width (bank.capacity next.architecture)) (inside : memory.Inside)
    (far : (next.bank bank).KeepsFar next.width memory) :
    machine.Evolves (next.withBank bank memory) := by
  have formed := evolves.wellFormed.withBank bank holds inside
  cases bank with
  | ram => exact evolves.trans ⟨rfl, formed, far, .refl _ _⟩
  | registers => exact evolves.trans ⟨rfl, formed, .refl _ _, far⟩

/-- Everything but the memories may change as long as the machine stays sound. -/
theorem Evolves.of_memories_eq (evolves : machine.Evolves next) {last : Machine}
    (sound : last.Sound) (ir_width : last.ir.width = last.width)
    (architecture : last.architecture = next.architecture) (ram : last.ram = next.ram)
    (registers : last.registers = next.registers) : machine.Evolves last := by
  have formed := evolves.wellFormed
  refine evolves.trans ⟨architecture, ⟨sound, ir_width, ?_, ?_⟩, ?_, ?_⟩
  · exact ram ▸ formed.ram_inside
  · exact registers ▸ formed.registers_inside
  · exact ram ▸ .refl _ _
  · exact registers ▸ .refl _ _

/-- Operations lead from a well-formed machine to well-formed machines only. -/
theorem evolves_lasting (machine : Machine) : Lasting machine.Evolves where
  control evolves _ suits := by
    have formed := evolves.wellFormed
    exact evolves.of_memories_eq (sound_lasting.control formed.toSound suits)
      (suits.ir_width formed.toSound formed.ir_width) rfl rfl rfl
  progress evolves phase steps stepLimit last := by
    have formed := evolves.wellFormed
    exact evolves.of_memories_eq (sound_lasting.progress formed.toSound phase steps stepLimit last)
      formed.ir_width rfl rfl rfl
  write evolves bank _ _ _ written := by
    have formed := evolves.wellFormed
    have holds := formed.toSound.bank bank
    obtain ⟨inside, far⟩ := holds.write_inside (formed.bank_inside bank) written
    exact evolves.withBank bank (holds.write written) inside far
  clear evolves bank :=
    evolves.withBank bank (evolves.wellFormed.toSound.bank bank).clear (Memory.Inside.clear _)
      (.clear _ _)

/-- A run keeps the machine well-formed, ends, and puts out words of the width. -/
theorem WellFormed.run (formed : machine.WellFormed) (start : Nat) :
    machine.Evolves (machine.run start).value.machine ∧
      (machine.phase ≠ .running → (machine.run start).value.machine.phase ≠ .running) ∧
      ∀ word ∈ (machine.run start).outputs, word.width = machine.width := by
  have positive := formed.toSound.width_pos
  refine ⟨(evolves_lasting machine).run formed.evolves start, ?_⟩
  rcases Nat.lt_or_ge start (2 ^ machine.width) with fits | wide
  · have started : (machine.started start).Sound :=
      sound_lasting.withPhase (sound_lasting.withPc formed.toSound (Word.width_ofNat _ _)) .running
    have shown (count : Nat) : ∀ word ∈ ((machine.started start).iterate count).outputs,
        word.width = machine.width :=
      started.iterate_outputs_width count
    by_cases halting :
        ∃ count ≤ machine.stepLimit + 1, (machine.started start).HaltsFirst count
    · obtain ⟨count, within, halts⟩ := halting
      rw [outputs_run_of_halts positive fits within halts, run_of_halts positive fits within halts]
      exact ⟨fun _ => by simp [halts.1], shown count⟩
    · push Not at halting
      rw [outputs_run_of_exceeds positive fits halting, run_of_exceeds positive fits halting]
      exact ⟨fun _ => by simp, shown _⟩
  · rw [outputs_run_of_wide positive wide, run_of_wide positive wide]
    exact ⟨id, by simp⟩

end Machine

end WordMachine
