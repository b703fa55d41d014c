/-
This file follows a program whose instructions name no addresses through the steps of a machine.
-/

import WordMachine.Proofs.LabelledJumps
import WordMachine.Proofs.Outputs

namespace WordMachine

/-- No operand of the opcode is an address. -/
def Opcode.AddressFree (opcode : Opcode) : Prop :=
  .memory ∉ opcode.modes ∧ ∀ condition, opcode ≠ .jump condition .absolute

namespace Instruction

/-- The instruction consists of words of the width and does not depend on its address. -/
structure Independent (width : Nat) (instruction : Instruction) : Prop where
  code_lt : instruction.opcode.code < 2 ^ width
  first_width : instruction.first.width = width
  second_width : instruction.second.width = width
  addressFree : instruction.opcode.AddressFree

/-- A distance leads to an instruction of a program or to its end. -/
def JumpsInside (instruction : Instruction) (index count : Nat) : Prop :=
  ∀ condition, instruction.opcode = .jump condition .relative →
    0 ≤ index + instruction.first.signed ∧ index + instruction.first.signed ≤ count

/-- The index of the instruction that comes next. -/
def successor (instruction : Instruction) (flags : Flags) (index : Nat) : Nat :=
  match instruction.opcode with
  | .halt => index
  | .jump condition .relative =>
      if condition.holds flags then (index + instruction.first.signed).toNat else index + 1
  | _ => index + 1

/-- A halt names no address. -/
theorem independent_halt (width : Nat) : (bare .halt width).Independent width where
  code_lt := Nat.two_pow_pos width
  first_width := Word.width_zero width
  second_width := Word.width_zero width
  addressFree := ⟨List.not_mem_nil, fun _ => Opcode.noConfusion⟩

/-- Trimming names no new address. -/
theorem Independent.trimmed {width : Nat} {instruction : Instruction}
    (independent : instruction.Independent width) :
    (instruction.trimmed width).Independent width where
  code_lt := independent.code_lt
  first_width := width_trimmed_first independent.first_width
  second_width := width_trimmed_second independent.second_width
  addressFree := independent.addressFree

end Instruction

/-- The instructions work at every address. -/
structure Relocatable (width : Nat) (instructions : List Instruction) : Prop where
  independent : ∀ instruction ∈ instructions, instruction.Independent width
  jumpsInside : ∀ (index : Nat) (instruction : Instruction),
    instructions[index]? = some instruction →
    instruction.JumpsInside index instructions.length

/-- The instruction that is fetched at an index, where the zeros behind a program are a halt. -/
def instructionAt (width : Nat) (instructions : List Instruction) (index : Nat) : Instruction :=
  match instructions[index]? with
  | some instruction => instruction.trimmed width
  | none => .bare .halt width

section InstructionAt

variable {width : Nat} {instructions : List Instruction} {index : Nat}

/-- Behind the program stands a halt. -/
theorem instructionAt_of_le (behind : instructions.length ≤ index) :
    instructionAt width instructions index = .bare .halt width := by
  rw [instructionAt, List.getElem?_eq_none behind]

/-- Inside the program its instructions are fetched. -/
theorem instructionAt_of_lt (inside : index < instructions.length) :
    instructionAt width instructions index = instructions[index].trimmed width := by
  rw [instructionAt, List.getElem?_eq_getElem inside]

/-- Behind the program there are only halts. -/
theorem lt_of_instructionAt_ne_halt
    (other : (instructionAt width instructions index).opcode ≠ .halt) :
    index < instructions.length := by
  by_contra outside
  rw [instructionAt_of_le (Nat.le_of_not_lt outside)] at other
  exact other rfl

namespace Relocatable

/-- No instruction that is fetched names an address. -/
theorem independent_at (relocatable : Relocatable width instructions) (index : Nat) :
    (instructionAt width instructions index).Independent width := by
  rcases Nat.lt_or_ge index instructions.length with inside | behind
  · rw [instructionAt_of_lt inside]
    exact (relocatable.independent _ (List.getElem_mem inside)).trimmed
  · rw [instructionAt_of_le behind]
    exact Instruction.independent_halt width

/-- Every jump that is fetched stays in the program. -/
theorem jumpsInside_at (relocatable : Relocatable width instructions) (index : Nat) :
    (instructionAt width instructions index).JumpsInside index instructions.length := by
  intro condition jump
  have inside : index < instructions.length :=
    lt_of_instructionAt_ne_halt (by rw [jump]; exact Opcode.noConfusion)
  rw [instructionAt_of_lt inside, Instruction.trimmed_opcode] at jump
  have used : 1 ≤ instructions[index].opcode.modes.length := by rw [jump]; exact Nat.le_refl 1
  rw [instructionAt_of_lt inside, Instruction.trimmed_first_of_used used]
  exact relocatable.jumpsInside index _ (List.getElem?_eq_getElem inside) condition jump

/-- The next instruction lies in the program or at its end. -/
theorem successor_le (relocatable : Relocatable width instructions) (flags : Flags)
    (within : index ≤ instructions.length) :
    (instructionAt width instructions index).successor flags index ≤ instructions.length := by
  have jumps := relocatable.jumpsInside_at index
  have inside : (instructionAt width instructions index).opcode ≠ .halt →
      index < instructions.length := lt_of_instructionAt_ne_halt
  unfold Instruction.successor
  split
  · exact within
  · rename_i condition jump
    split
    · obtain ⟨_, upper⟩ := jumps condition jump
      omega
    · exact inside (by rw [jump]; exact Opcode.noConfusion)
  · rename_i other _
    exact inside other

end Relocatable

/-- The instructions of a program that is encoded are relocatable as they are stored. -/
theorem relocatable_of_push {program : Program} (narrow : width ≤ 64)
    (encodes : instructions.foldlM Program.push (.empty width) = .ok program)
    (addressFree : ∀ instruction ∈ instructions, instruction.opcode.AddressFree)
    (jumpsInside : ∀ (index : Nat) (instruction : Instruction),
      instructions[index]? = some instruction →
      (instruction.widened width).JumpsInside index instructions.length) :
    Relocatable width (instructions.map (Instruction.widened width)) := by
  obtain ⟨encoded, _⟩ := Program.foldlM_push_eq_ok encodes
  constructor
  · intro stored listed
    obtain ⟨instruction, member, rfl⟩ := List.mem_map.mp listed
    obtain ⟨bits, encodesOne⟩ := encoded instruction member
    obtain ⟨_, firstFits, secondFits, _⟩ := Instruction.encode_eq_ok encodesOne
    have code : instruction.opcode.code < 2 ^ width :=
      Instruction.code_lt_of_encode narrow encodesOne
    exact ⟨code, (Word.width_padded _ _).trans (Nat.max_eq_left firstFits),
      (Word.width_padded _ _).trans (Nat.max_eq_left secondFits), addressFree instruction member⟩
  · intro index stored placed
    rw [List.getElem?_map, Option.map_eq_some_iff] at placed
    obtain ⟨instruction, placed, rfl⟩ := placed
    rw [List.length_map]
    exact jumpsInside index instruction placed

end InstructionAt

namespace Machine

/-- The machine with another memory and another program counter. -/
def moved (machine : Machine) (ram : Memory) (pc : Word) : Machine :=
  { machine with ram := ram, control := { machine.control with pc := pc } }

section Execution

variable (machine : Machine) {instruction : Instruction}

/-- An instruction without addresses does the same with any memory at any place. -/
theorem execute_moved (free : instruction.opcode.AddressFree) (ram : Memory) (pc : Word) :
    ∃ next, (machine.moved ram pc).execute instruction =
      ⟨(machine.execute instruction).value.moved ram next,
        (machine.execute instruction).events⟩ := by
  obtain ⟨opcode, first, second⟩ := instruction
  obtain ⟨direct, absolute⟩ := free
  cases opcode with
  | halt => exact ⟨pc, rfl⟩
  | idle => exact ⟨_, rfl⟩
  | move transfer =>
      cases transfer with
      | registerFromImmediate | registerFromRegister => exact ⟨_, rfl⟩
      | registerFromMemory | memoryFromImmediate | memoryFromRegister =>
          simp [Opcode.modes, Transfer.source, Transfer.destination] at direct
  | out cell =>
      cases cell with
      | register => exact ⟨_, rfl⟩
      | memory => simp [Opcode.modes, Cell.mode] at direct
  | binary operation source =>
      cases source with
      | register | immediate => cases operation <;> exact ⟨_, rfl⟩
      | memory => simp [Opcode.modes, Source.mode] at direct
  | increment | decrement => exact ⟨_, rfl⟩
  | jump condition target =>
      cases target with
      | absolute => exact absurd rfl (absolute condition)
      | relative =>
          simp only [execute]
          by_cases holds : condition.holds machine.flags = true
          · have same : condition.holds (machine.moved ram pc).flags = true := holds
            rw [if_pos holds, if_pos same]
            exact ⟨_, rfl⟩
          · have same : ¬ condition.holds (machine.moved ram pc).flags = true := holds
            rw [if_neg holds, if_neg same]
            exact ⟨_, rfl⟩

/-- An instruction without addresses leaves the memory alone. -/
theorem execute_ram (free : instruction.opcode.AddressFree) :
    (machine.execute instruction).value.ram = machine.ram := by
  obtain ⟨next, executed⟩ := execute_moved machine free machine.ram machine.pc
  have value : (machine.execute instruction).value =
      (machine.execute instruction).value.moved machine.ram next :=
    congrArg Traced.value executed
  rw [value]
  rfl

/-- A machine that is moved fetches the same when it reads the same opcode. -/
theorem fetched_moved {ram : Memory} {pc : Word}
    (sameOpcode : ((machine.moved ram pc).readRam pc).value = (machine.readRam machine.pc).value) :
    (machine.moved ram pc).fetched = machine.fetched.moved ram pc := by
  change { (machine.moved ram pc) with
    control := { (machine.moved ram pc).control with
      ir := ((machine.moved ram pc).readRam pc).value }
    steps := machine.steps + 1 } = _
  rw [sameOpcode]
  rfl

end Execution

/-- The program lies in a memory of zeros, and the machine stands at one of its instructions or at
its end. -/
structure StandsAt (machine : Machine) (instructions : List Instruction) (start index : Nat) :
    Prop where
  sound : machine.Sound
  contains : machine.ram.Contains start (instructions.flatMap (Instruction.words machine.width))
  elsewhere : ∀ address, address < start ∨ start + 3 * instructions.length ≤ address →
    machine.ram.cell address = Word.zero machine.width
  fits : start + 3 * instructions.length ≤ 2 ^ machine.width
  room : start + 3 * instructions.length ≤ machine.architecture.ramCells
  within : index ≤ instructions.length
  pc : machine.pc.value = (start + 3 * index) % 2 ^ machine.width

namespace StandsAt

variable {machine : Machine} {instructions : List Instruction} {start index : Nat}

/-- Inside the program the program counter has not wrapped around. -/
theorem pc_of_lt (stands : machine.StandsAt instructions start index)
    (inside : index < instructions.length) : machine.pc.value = start + 3 * index := by
  have fits := stands.fits
  rw [stands.pc, Nat.mod_eq_of_lt (by omega)]

/-- The cell behind a program is zero, even when the program ends with the address space. -/
theorem cell_of_end (stands : machine.StandsAt instructions start instructions.length) :
    machine.ram.cell machine.pc.value = Word.zero machine.width := by
  rw [stands.pc]
  rcases Nat.lt_or_eq_of_le stands.fits with below | full
  · rw [Nat.mod_eq_of_lt below]
    exact stands.elsewhere _ (Or.inr (Nat.le_refl _))
  · -- the program counter has wrapped around, and the program does not reach down to it
    rw [full, Nat.mod_self]
    refine stands.elsewhere 0 (Or.inl (Nat.pos_of_ne_zero ?_))
    rintro rfl
    have divides : 3 ∣ 2 ^ machine.width := ⟨instructions.length, by omega⟩
    have two := Nat.Prime.dvd_of_dvd_pow Nat.prime_three divides
    omega

/-- A step reads the instruction that the machine stands at. -/
theorem fetch (stands : machine.StandsAt instructions start index) :
    (machine.readRam machine.pc).value =
        Word.ofNat machine.width (instructionAt machine.width instructions index).opcode.code ∧
      (machine.fetchOperands (instructionAt machine.width instructions index).opcode).value =
        instructionAt machine.width instructions index := by
  have sound := stands.sound
  have fits := stands.fits
  have room := stands.room
  rcases Nat.lt_or_eq_of_le stands.within with inside | rfl
  · have here := stands.pc_of_lt inside
    have cells := stands.contains.instruction_at (List.getElem?_eq_getElem inside)
    rw [← here] at cells
    rw [instructionAt_of_lt inside]
    exact ⟨congrArg Traced.value (sound.readRam_of_contains (by omega) (by omega) cells),
      sound.fetchOperands_of_contains (by omega) (by omega) cells⟩
  · rw [instructionAt_of_le (Nat.le_refl _)]
    refine ⟨?_, rfl⟩
    rw [sound.readRam_of_zero sound.pc_width.le stands.cell_of_end]
    exact Word.eq_of_value_eq (by simp) (by simp [Instruction.bare, Opcode.code])

/-- The next step executes the instruction that the machine stands at. -/
theorem fetches (relocatable : Relocatable machine.width instructions)
    (stands : machine.StandsAt instructions start index) :
    machine.Fetches (instructionAt machine.width instructions index) := by
  refine ⟨?_, stands.fetch.2⟩
  rw [stands.fetch.1]
  exact Instruction.ofWord?_ofNat_code stands.sound.width_le
    (relocatable.independent_at index).code_lt

/-- A step puts out what its instruction does. -/
theorem step_outputs (relocatable : Relocatable machine.width instructions)
    (stands : machine.StandsAt instructions start index) :
    machine.step.outputs =
      (machine.fetched.execute (instructionAt machine.width instructions index)).outputs := by
  have fetches := stands.fetches relocatable
  rw [outputs_step_known fetches.1, fetches.2, outputs_execute]

/-- The next address is the one of the next instruction. -/
theorem residue_next (stands : machine.StandsAt instructions start index) :
    residue machine.width (machine.pc.value + 3) =
      (start + 3 * (index + 1)) % 2 ^ machine.width := by
  have here : residue machine.width (machine.pc.value + 3) =
      (machine.pc.value + 3) % 2 ^ machine.width := residue_natCast _ _
  rw [here, stands.pc, Nat.mod_add_mod, Nat.mul_succ, Nat.add_assoc]

/-- A jump leads to the instruction that its distance names. -/
theorem residue_jump (stands : machine.StandsAt instructions start index)
    (inside : index < instructions.length) {distance : Word}
    (fits : distance.width = machine.width) (positive : 0 ≤ index + distance.signed) :
    residue machine.width (machine.pc.value + 3 * distance.value) =
      (start + 3 * (index + distance.signed).toNat) % 2 ^ machine.width := by
  have narrow : distance.width ≤ 64 := fits.trans_le stands.sound.width_le
  have remainder : distance.value = residue machine.width distance.signed := by
    rw [residue, ← fits, Word.signed_emod narrow, Int.toNat_natCast]
  have apart : distance.signed = ((index + distance.signed).toNat : Int) - index := by omega
  rw [stands.pc_of_lt inside, remainder, ← residue_distance, ← apart]

/-- The program counter moves to the next instruction and wraps around at the width. -/
theorem target_eq (relocatable : Relocatable machine.width instructions)
    (stands : machine.StandsAt instructions start index) :
    machine.numbers.target (instructionAt machine.width instructions index).numbers =
      (start + 3 * (instructionAt machine.width instructions index).successor machine.flags index) %
        2 ^ machine.width := by
  have independent := relocatable.independent_at index
  have jumps := relocatable.jumpsInside_at index
  have inside : (instructionAt machine.width instructions index).opcode ≠ .halt →
      index < instructions.length := lt_of_instructionAt_ne_halt
  generalize instructionAt machine.width instructions index = instruction at *
  obtain ⟨opcode, first, second⟩ := instruction
  cases opcode with
  | halt => exact stands.pc
  | idle | move _ | out _ | binary _ _ | increment | decrement => exact stands.residue_next
  | jump condition target =>
      cases target with
      | absolute => exact absurd rfl (independent.addressFree.2 condition)
      | relative =>
          obtain ⟨positive, _⟩ := jumps condition rfl
          by_cases holds : condition.holds machine.flags = true
          · have taken : condition.holds machine.numbers.flags = true := holds
            simp only [NumberMachine.target, Instruction.numbers, Instruction.successor, holds,
              taken, if_true]
            exact stands.residue_jump (inside Opcode.noConfusion) independent.first_width positive
          · have passed : ¬ condition.holds machine.numbers.flags = true := holds
            simp only [NumberMachine.target, Instruction.numbers, Instruction.successor, holds,
              passed]
            exact stands.residue_next

/-- A step leaves the program where it is and goes to the next instruction. -/
theorem step (relocatable : Relocatable machine.width instructions)
    (stands : machine.StandsAt instructions start index) :
    machine.step.value.1.StandsAt instructions start
      ((instructionAt machine.width instructions index).successor machine.flags index) := by
  have independent := relocatable.independent_at index
  have fetches := stands.fetches relocatable
  obtain ⟨_, _, _, _, _, frame, _⟩ := step_frame machine
  have shape : machine.step.value.1.architecture = machine.architecture := by rw [frame]
  have width : machine.step.value.1.width = machine.width := congrArg Architecture.bits shape
  have ram : machine.step.value.1.ram = machine.ram := by
    rw [fetches.step_value]
    exact execute_ram machine.fetched independent.addressFree
  constructor
  · exact sound_lasting.step stands.sound
  · rw [ram, width]
    exact stands.contains
  · rw [ram, width]
    exact stands.elsewhere
  · rw [width]
    exact stands.fits
  · rw [shape]
    exact stands.room
  · exact relocatable.successor_le machine.flags stands.within
  · rw [width, ← stands.target_eq relocatable]
    exact stands.sound.step_pc fetches

/-- The phase does not matter. -/
theorem withPhase (stands : machine.StandsAt instructions start index) (phase : Phase) :
    { machine with phase := phase }.StandsAt instructions start index :=
  ⟨sound_lasting.withPhase stands.sound phase, stands.contains, stands.elsewhere, stands.fits, stands.room,
    stands.within, stands.pc⟩

end StandsAt

/-- A program that is loaded into a new machine lies in a memory of zeros. -/
theorem load_standsAt {architecture : Architecture} {instructions : List Instruction}
    {start : Nat} (limit : Nat) (valid : architecture.validate = .ok ())
    (relocatable : Relocatable architecture.bits instructions) (nonempty : instructions ≠ [])
    (room : start + 3 * instructions.length ≤ min (2 ^ architecture.bits) architecture.ramCells) :
    ∃ ram, ((build architecture).withStepLimit limit).load
          (instructions.flatMap (Instruction.bits architecture.bits)) start =
        pure { (build architecture).withStepLimit limit with ram := ram } ∧
      ({ (build architecture).withStepLimit limit with ram := ram }.started start).StandsAt
        instructions start 0 := by
  have fits : start + 3 * instructions.length ≤ 2 ^ architecture.bits :=
    room.trans (Nat.min_le_left _ _)
  have within : start + 3 * instructions.length ≤ architecture.ramCells :=
    room.trans (Nat.min_le_right _ _)
  have count := Instruction.length_flatMap_words architecture.bits instructions
  have positive := List.length_pos_iff.mpr nonempty
  have wordsFit := Instruction.width_of_mem_words fun instruction listed =>
    ⟨(relocatable.independent instruction listed).first_width,
      (relocatable.independent instruction listed).second_width⟩
  have names : start < 2 ^ architecture.bits := by omega
  have fresh : ((build architecture).withStepLimit limit).Sound :=
    sound_lasting.withStepLimit (build_sound valid) limit
  obtain ⟨ram, loaded, sound, contains, elsewhere⟩ :=
    fresh.load_words wordsFit names (by rw [count]; exact fits) (by rw [count]; exact within)
  rw [List.flatMap_assoc] at loaded
  refine ⟨ram, loaded, ?_⟩
  constructor
  · exact sound_lasting.withPhase (sound_lasting.withPc sound (Word.width_ofNat _ _)) .running
  · exact contains
  · intro address apart
    rw [← count] at apart
    exact (elsewhere address apart).trans (Memory.cell_empty _ _ _ _)
  · exact fits
  · exact within
  · exact Nat.zero_le _
  · exact Word.value_ofNat _ _

end Machine

end WordMachine
