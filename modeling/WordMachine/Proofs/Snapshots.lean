import WordMachine.Proofs.Histories
import WordMachine.Proofs.ImageGrammar
import WordMachine.Proofs.JsonForms

namespace WordMachine

/-- Only words of the width are put into the control registers. -/
def Action.KeepsWidth (width : Nat) : Action → Prop
  | .setPc word | .setIr word => word.width = width
  | _ => True

/-- The watched machines that a new machine of a valid architecture can become. -/
inductive Watched.Reached (architecture : Architecture) : Watched → Prop where
  | built (valid : architecture.validate = .ok ()) (listeners : Listeners) :
      Reached architecture ⟨.build architecture, listeners⟩
  | after {watched : Watched} {action : Action} (reached : Reached architecture watched)
      (keeps : action.KeepsWidth architecture.bits) : Reached architecture (watched.after action)

section Reached

variable {architecture : Architecture} {machine : Machine} {watched : Watched}

/-- The control registers of a fitted machine are all that can keep it from being well-formed. -/
theorem Machine.FittedTo.wellFormed (fitted : machine.FittedTo architecture)
    (valid : architecture.validate = .ok ()) (pc_width : machine.pc.width = architecture.bits)
    (ir_width : machine.ir.width = architecture.bits) : machine.WellFormed := by
  obtain ⟨rfl, control_width, ram, registers⟩ := fitted
  exact ⟨⟨valid, control_width, pc_width, ram.holds, registers.holds⟩, ir_width, ram.inside,
    registers.inside⟩

namespace Watched

/-- A reached machine is fitted to its architecture. -/
theorem Reached.fitted (reached : watched.Reached architecture) :
    watched.machine.FittedTo architecture := by
  induction reached with
  | built _ _ => exact Machine.build_fitted architecture
  | after _ _ ih => exact after_fitted ih _

theorem Reached.valid (reached : watched.Reached architecture) :
    architecture.validate = .ok () := by
  induction reached with
  | built valid _ => exact valid
  | after _ _ ih => exact ih

/-- A reached machine is well-formed. -/
theorem Reached.wellFormed (reached : watched.Reached architecture) :
    watched.machine.WellFormed := by
  induction reached with
  | built valid _ => exact Machine.build_wellFormed valid
  | @after watched action reached keeps formed =>
      have fitted := reached.fitted
      have pc_width := formed.pc_width
      have ir_width := formed.ir_width
      have next := fun action => (after_fitted fitted action).wellFormed reached.valid
      rw [Machine.width, fitted.architecture_eq] at pc_width ir_width
      cases action with
      | operation operation => exact (formed.perform operation).wellFormed
      | setPc word => exact next (.setPc word) keeps ir_width
      | setIr word => exact next (.setIr word) pc_width keeps
      | changeRam change => exact next (.changeRam change) pc_width ir_width
      | changeRegisters change => exact next (.changeRegisters change) pc_width ir_width
      | setFlags flags => exact next (.setFlags flags) pc_width ir_width
      | readRam _ | readRegister _ | listen _ _ | clearListeners => exact formed

end Watched

end Reached

section Listing

/-- An entry shows the text of a word, the number that its digits spell and their reading in two's
complement. -/
structure RegisterSnapshot.Shows (entry : RegisterSnapshot) (word : Word) : Prop where
  bits : entry.bits = word.text
  unsigned : entry.unsigned = Nat.ofDigitChars 2 entry.bits.toList 0
  signed : entry.signed =
    if 2 ^ entry.bits.length ≤ 2 * entry.unsigned then
      (entry.unsigned : Int) - 2 ^ entry.bits.length
    else entry.unsigned

/-- A snapshot lists exactly the registers that are not zero, in the order of their indices. -/
structure Snapshot.ListsRegisters (snapshot : Snapshot) (architecture : Architecture)
    (registers : Memory) : Prop where
  sorted : (snapshot.registers.map (·.index)).Pairwise (· < ·)
  inside : ∀ entry ∈ snapshot.registers, entry.index < architecture.registerCount
  digits : ∀ entry ∈ snapshot.registers,
    entry.bits.length = architecture.bits ∧ Image.IsBinary entry.bits.toList
  shown : ∀ entry ∈ snapshot.registers,
    ∃ word, registers.readAt entry.index = .ok word ∧ entry.Shows word
  listed_iff : ∀ index word, registers.readAt index = .ok word →
    ((∃ entry ∈ snapshot.registers, entry.index = index) ↔ word.value ≠ 0)

variable {machine : Machine}

namespace Word

theorem toList_text (word : Word) : word.text.toList = word.chars := String.toList_ofList

theorem length_text (word : Word) : word.text.length = word.width := by
  rw [← String.length_toList, toList_text, chars, List.length_map, width]

/-- The digits of a word stand for its number. -/
theorem ofDigitChars_chars (word : Word) : Nat.ofDigitChars 2 word.chars 0 = word.value := by
  obtain ⟨bits⟩ := word
  have read (start : Nat) : Nat.ofDigitChars 2 (bits.map bitChar) start =
      bits.foldl (fun total bit => 2 * total + bit.toNat) start := by
    induction bits generalizing start with
    | nil => rfl
    | cons bit rest ih =>
        rw [List.map_cons, Nat.ofDigitChars_cons, ih, List.foldl_cons]
        cases bit <;> rfl
  exact read 0

/-- Machine words of one width are equal when their unsigned readings are. -/
theorem eq_of_unsigned_eq {first second : Word} (narrow : second.width ≤ 64)
    (sameWidth : first.width = second.width) (same : first.unsigned = second.unsigned) :
    first = second := by
  rw [unsigned_eq narrow, unsigned_eq (sameWidth.trans_le narrow)] at same
  exact eq_of_value_eq sameWidth same

/-- A word is known by its text. -/
theorem eq_of_text_eq {first second : Word} (same : first.text = second.text) :
    first = second := by
  have injective : Function.Injective bitChar := by decide
  have chars : first.chars = second.chars := String.ofList_injective same
  have bits := List.map_injective_iff.mpr injective chars
  cases first
  cases second
  exact congrArg Word.mk bits

end Word

/-- A cell that is not zero is stored. -/
theorem Memory.Inside.mem_dump_iff_readAt {memory : Memory} (inside : memory.Inside)
    {address : Nat} {word : Word} (nonzero : word.value ≠ 0) :
    (address, word) ∈ memory.dump ↔ memory.readAt address = .ok word := by
  rw [mem_dump_iff]
  constructor
  · intro stored
    rw [readAt_of_lt (inside address word stored), cell, stored]
    rfl
  · intro found
    rw [readAt_of_lt (lt_capacity_of_readAt found)] at found
    have same : memory.cell address = word := Except.ok.inj found
    cases stored : memory.cells[address]? with
    | some other =>
        rw [cell, stored] at same
        exact congrArg some same
    | none =>
        rw [cell, stored] at same
        exact absurd (same ▸ Word.value_zero memory.width) nonzero

/-- A listed register shows its word. -/
theorem RegisterSnapshot.shows_ofCell (index : Nat) {word : Word} (narrow : word.width ≤ 64) :
    (ofCell index word).Shows word where
  bits := rfl
  unsigned := by
    change word.unsigned = Nat.ofDigitChars 2 word.text.toList 0
    rw [Word.toList_text, Word.ofDigitChars_chars, Word.unsigned_eq narrow]
  signed := by
    change word.signed = if 2 ^ word.text.length ≤ 2 * word.unsigned then
      (word.unsigned : Int) - 2 ^ word.text.length else word.unsigned
    rw [Word.length_text, Word.unsigned_eq narrow]
    exact Word.signed_eq narrow

namespace Machine

/-- An entry tells the word of a register that is not zero. -/
theorem WellFormed.mem_snapshot_iff (formed : machine.WellFormed) {entry : RegisterSnapshot} :
    entry ∈ machine.snapshot.registers ↔
      ∃ word, machine.registers.readAt entry.index = .ok word ∧ word.value ≠ 0 ∧
        entry = .ofCell entry.index word := by
  have stored {index : Nat} {word : Word} (nonzero : word.value ≠ 0) :
      (index, word) ∈ machine.registers.dump ↔ machine.registers.readAt index = .ok word :=
    formed.registers_inside.mem_dump_iff_readAt nonzero
  constructor
  · intro listed
    obtain ⟨⟨index, word⟩, kept, rfl⟩ := List.mem_map.mp listed
    obtain ⟨dumped, nonzero⟩ := List.mem_filter.mp kept
    have nonzero : word.value ≠ 0 := by simpa [Word.isZero_eq] using nonzero
    exact ⟨word, (stored nonzero).mp dumped, nonzero, rfl⟩
  · rintro ⟨word, found, nonzero, shown⟩
    have kept : (!word.isZero) = true := by simpa [Word.isZero_eq] using nonzero
    rw [shown]
    exact List.mem_map_of_mem (List.mem_filter.mpr ⟨(stored nonzero).mpr found, kept⟩)

/-- Registers are listed in order. -/
theorem snapshot_sorted (machine : Machine) :
    (machine.snapshot.registers.map (·.index)).Pairwise (· < ·) := by
  have indices : machine.snapshot.registers.map (·.index) =
      (machine.registers.dump.filter fun cell => !cell.2.isZero).map Prod.fst := by
    rw [snapshot, List.map_map]
    rfl
  rw [indices]
  exact machine.registers.dump_sorted.sublist (List.filter_sublist.map Prod.fst)

/-- Registers have the width. -/
theorem WellFormed.register_width (formed : machine.WellFormed) {index : Nat} {word : Word}
    (found : machine.registers.readAt index = .ok word) : word.width = machine.width := by
  rw [Memory.readAt_of_lt (Memory.lt_capacity_of_readAt found)] at found
  rw [← Except.ok.inj found]
  exact formed.registers.cell_width index

/-- The snapshot of a well-formed machine lists its registers. -/
theorem WellFormed.snapshot_lists (formed : machine.WellFormed) :
    machine.snapshot.ListsRegisters machine.architecture machine.registers where
  sorted := machine.snapshot_sorted
  inside := by
    intro entry listed
    obtain ⟨_, found, _⟩ := formed.mem_snapshot_iff.mp listed
    exact (Memory.lt_capacity_of_readAt found).trans_eq formed.registers.capacity_eq
  digits := by
    intro entry listed
    obtain ⟨word, found, _, shown⟩ := formed.mem_snapshot_iff.mp listed
    have width := formed.register_width found
    have narrow := width.trans_le formed.toSound.width_le
    have showing := RegisterSnapshot.shows_ofCell entry.index narrow
    rw [← shown] at showing
    rw [showing.bits, Word.length_text, Word.toList_text]
    exact ⟨width, Image.isBinary_chars word⟩
  shown := by
    intro entry listed
    obtain ⟨word, found, _, shown⟩ := formed.mem_snapshot_iff.mp listed
    have narrow := (formed.register_width found).trans_le formed.toSound.width_le
    exact ⟨word, found, shown ▸ RegisterSnapshot.shows_ofCell entry.index narrow⟩
  listed_iff := by
    intro index word found
    constructor
    · rintro ⟨entry, listed, rfl⟩
      obtain ⟨other, read, nonzero, _⟩ := formed.mem_snapshot_iff.mp listed
      rw [← Except.ok.inj (read.symm.trans found)]
      exact nonzero
    · intro nonzero
      exact ⟨.ofCell index word, formed.mem_snapshot_iff.mpr ⟨word, found, nonzero, rfl⟩, rfl⟩

/-- A register that is not zero is told by the entries. -/
theorem WellFormed.readAt_of_registers_eq {other : Machine} (formed : machine.WellFormed)
    (otherFormed : other.WellFormed)
    (same : machine.snapshot.registers = other.snapshot.registers) {index : Nat} {word : Word}
    (found : machine.registers.readAt index = .ok word) (nonzero : word.value ≠ 0) :
    other.registers.readAt index = .ok word := by
  have listed : RegisterSnapshot.ofCell index word ∈ machine.snapshot.registers :=
    formed.mem_snapshot_iff.mpr ⟨word, found, nonzero, rfl⟩
  rw [same] at listed
  obtain ⟨read, otherFound, _, shown⟩ := otherFormed.mem_snapshot_iff.mp listed
  have told : word = read := Word.eq_of_text_eq (congrArg RegisterSnapshot.bits shown)
  rw [told]
  exact otherFound

end Machine

end Listing

section Determination

variable {architecture : Architecture} {machine other : Machine}

namespace Machine

/-- A register that no entry tells is zero. -/
theorem FittedTo.readAt_eq (fitted : machine.FittedTo architecture)
    (otherFitted : other.FittedTo architecture) (formed : machine.WellFormed)
    (otherFormed : other.WellFormed)
    (same : machine.snapshot.registers = other.snapshot.registers) (index : Nat) :
    machine.registers.readAt index = other.registers.readAt index := by
  have shape := fitted.registers.holds
  have otherShape := otherFitted.registers.holds
  rcases Nat.lt_or_ge index architecture.registerCount with inside | outside
  · have found := Memory.readAt_of_lt (inside.trans_eq shape.capacity_eq.symm)
    have otherFound := Memory.readAt_of_lt (inside.trans_eq otherShape.capacity_eq.symm)
    by_cases zero : (machine.registers.cell index).value = 0
    · by_cases otherZero : (other.registers.cell index).value = 0
      · have equal : machine.registers.cell index = other.registers.cell index :=
          Word.eq_of_value_eq ((shape.cell_width index).trans (otherShape.cell_width index).symm)
            (zero.trans otherZero.symm)
        rw [found, otherFound, equal]
      · rw [otherFound]
        exact otherFormed.readAt_of_registers_eq formed same.symm otherFound otherZero
    · rw [found]
      exact (formed.readAt_of_registers_eq otherFormed same found zero).symm
  · have refused {memory : Memory} (proper : memory.Proper "register" architecture.bits
        architecture.registerCount) :
        memory.readAt index =
          .error (.addressOutOfRange "register" index architecture.registerCount) := by
      rw [Memory.readAt, Memory.checkRange, proper.name_eq, proper.holds.capacity_eq,
        if_neg (Nat.not_lt.mpr outside)]
      rfl
    rw [refused fitted.registers, refused otherFitted.registers]

end Machine

end Determination

namespace Watched

variable {architecture : Architecture} {watched : Watched}

/-- The words of a machine are read through 64 bits, so that only its counts can be too large. -/
theorem Reached.snapshot_fits (reached : watched.Reached architecture)
    (registerCount : architecture.registerCount < 2 ^ 64)
    (ramCells : architecture.ramCells < 2 ^ 64)
    (steps : watched.machine.steps < 2 ^ 64) : watched.machine.snapshot.Fits := by
  have formed := reached.wellFormed
  have shape := reached.fitted.architecture_eq
  have positive := formed.toSound.width_pos
  have narrow := formed.toSound.width_le
  have below (word : Word) : word.unsigned < 2 ^ 64 := by
    rw [Word.unsigned, valueCount_eq]
    exact Nat.mod_lt _ (by decide)
  refine ⟨?_, below _, below _, steps, ?_⟩
  · change watched.machine.architecture.Fits
    rw [Machine.width, shape] at narrow
    rw [shape]
    exact ⟨by omega, registerCount, ramCells⟩
  · intro entry listed
    have inside := formed.snapshot_lists.inside entry listed
    obtain ⟨word, found, _, shown⟩ := formed.mem_snapshot_iff.mp listed
    have width := formed.register_width found
    have short := width.trans_le narrow
    have signed := (Word.signed_isSigned short (positive.trans_eq width.symm)).widen short
    rw [shape] at inside
    rw [shown]
    exact ⟨inside.trans registerCount, below word, signed⟩

/-- A snapshot lists the registers that are not zero, determines what it shows, and is read back. -/
theorem snapshots_faithful (reached : watched.Reached architecture) :
    let machine := watched.machine
    machine.snapshot.ListsRegisters architecture machine.registers ∧
      (∀ (otherArchitecture : Architecture) (other : Watched), other.Reached otherArchitecture →
        other.machine.snapshot = machine.snapshot →
        otherArchitecture = architecture ∧
          other.machine.architecture = machine.architecture ∧
          other.machine.pc = machine.pc ∧
          other.machine.ir = machine.ir ∧
          other.machine.flags = machine.flags ∧
          other.machine.phase = machine.phase ∧
          other.machine.steps = machine.steps ∧
          ∀ index, other.machine.registers.readAt index = machine.registers.readAt index) ∧
      (architecture.registerCount < 2 ^ 64 → architecture.ramCells < 2 ^ 64 →
        machine.steps < 2 ^ 64 → machine.snapshot.Fits) ∧
      (∀ snapshot : Snapshot, snapshot.Fits →
        snapshot.toJson.ReadsBack Snapshot.ofJson? snapshot) ∧
      (∀ program : Program, program.width < 2 ^ 64 →
        program.toJson.ReadsBack Program.ofJson? program) ∧
      (∀ control : Control, control.width < 2 ^ 64 →
        control.toJson.ReadsBack Control.ofJson? control) ∧
      ∀ memory : Memory, memory.Fits →
        memory.toJson.ReadsBack Memory.ofJson? memory ∧
          ∀ cells : List (Nat × Word), cells.Perm memory.dump →
            (memory.toJsonWith cells).ReadsBack Memory.ofJson? memory := by
  intro machine
  have formed : machine.WellFormed := reached.wellFormed
  have fitted : machine.FittedTo architecture := reached.fitted
  refine ⟨?_, ?_, reached.snapshot_fits, ?_, ?_, ?_, ?_⟩
  · have lists := formed.snapshot_lists
    rw [fitted.architecture_eq] at lists
    exact lists
  · intro otherArchitecture other otherReached same
    have otherFormed := otherReached.wellFormed
    have otherFitted := otherReached.fitted
    have sameShape : other.machine.architecture = machine.architecture :=
      congrArg Snapshot.architecture same
    have shape : otherArchitecture = architecture :=
      otherFitted.architecture_eq.symm.trans (sameShape.trans fitted.architecture_eq)
    subst shape
    have width : other.machine.width = machine.width := congrArg Architecture.bits sameShape
    have pc : other.machine.pc = machine.pc :=
      Word.eq_of_unsigned_eq (formed.pc_width.trans_le formed.toSound.width_le)
        (otherFormed.pc_width.trans (width.trans formed.pc_width.symm))
        (congrArg Snapshot.pc same)
    have ir : other.machine.ir = machine.ir :=
      Word.eq_of_unsigned_eq (formed.ir_width.trans_le formed.toSound.width_le)
        (otherFormed.ir_width.trans (width.trans formed.ir_width.symm))
        (congrArg Snapshot.ir same)
    exact ⟨rfl, sameShape, pc, ir, congrArg Snapshot.flags same, congrArg Snapshot.phase same,
      congrArg Snapshot.steps same, otherFitted.readAt_eq fitted otherFormed formed
        (congrArg Snapshot.registers same)⟩
  · exact fun snapshot fits => snapshot.plain_toJson.readsBack fits.ofJson?_toJson
  · exact fun program fits => program.plain_toJson.readsBack (Program.ofJson?_toJson fits)
  · exact fun control fits => control.plain_toJson.readsBack (Control.ofJson?_toJson fits)
  · intro memory fits
    have back (cells : List (Nat × Word)) (order : cells.Perm memory.dump) :
        (memory.toJsonWith cells).ReadsBack Memory.ofJson? memory :=
      (memory.plain_toJsonWith cells).readsBack (fits.ofJson?_toJsonWith order)
    rw [memory.toJson_eq]
    exact ⟨back memory.dump (.refl _), back⟩

/-- A register that was set to zero is not listed. -/
theorem snapshots_faithful_stored_zero :
    let built : Watched := ⟨.build ⟨3, 2, 4⟩, .empty⟩
    let word : Word := ⟨[true, false, true]⟩
    let once := built.after (.changeRegisters (.writeAt 1 word))
    let twice := once.after (.changeRegisters (.writeAt 0 (.zero 3)))
    once.Reached ⟨3, 2, 4⟩ ∧ twice.Reached ⟨3, 2, 4⟩ ∧
      twice.machine.registers.populated = 2 ∧
      twice.machine.snapshot.registers = [⟨1, "101", 5, -3⟩] ∧
      twice.machine.snapshot.ListsRegisters ⟨3, 2, 4⟩ twice.machine.registers ∧
      once.machine.snapshot = twice.machine.snapshot ∧
      once.machine.registers.readAt 0 = twice.machine.registers.readAt 0 ∧
      twice.machine.snapshot.toJson.ReadsBack Snapshot.ofJson? twice.machine.snapshot := by
  intro built word once twice
  have onceReached : once.Reached ⟨3, 2, 4⟩ := .after (.built rfl .empty) trivial
  have twiceReached : twice.Reached ⟨3, 2, 4⟩ := .after onceReached trivial
  have same : once.machine.snapshot = twice.machine.snapshot := by decide +kernel
  obtain ⟨lists, determined, fits, back, _⟩ := snapshots_faithful twiceReached
  obtain ⟨_, _, _, _, _, _, _, registers⟩ := determined _ once onceReached same
  exact ⟨onceReached, twiceReached, by decide +kernel, by decide +kernel, lists, same, registers 0,
    back _ (fits (by decide) (by decide) (by decide))⟩

end Watched

end WordMachine
