import WordMachine.Proofs.BoundedRun
import WordMachine.Proofs.Encoding

namespace WordMachine

theorem Traced.mk_bind {A B : Type} (value : A) (events : List Event) (next : A → Traced B) :
    (⟨value, events⟩ : Traced A) >>= next =
      ⟨(next value).value, events ++ (next value).events⟩ := rfl

/-- The words lie in neighbouring cells from an address on. -/
def Memory.Contains (memory : Memory) (start : Nat) (words : List Word) : Prop :=
  ∀ (index : Nat) (inside : index < words.length), memory.cell (start + index) = words[index]

namespace Memory

variable {before middle after memory : Memory} {start : Nat} {words : List Word}

/-- Words are written to neighbouring addresses from a start on, as far as the memory reaches. -/
structure Receives (before after : Memory) (start : Nat) (words : List Word) : Prop where
  name_eq : after.name = before.name
  width_eq : after.width = before.width
  capacity_eq : after.capacity = before.capacity
  written : ∀ {index : Nat} (inside : index < words.length), start + index < before.reach →
    after.cells[start + index]? = some (words[index].padded before.width)
  unchanged : ∀ {other : Nat},
    other < start ∨ start + words.length ≤ other ∨ before.reach ≤ other →
      after.cells[other]? = before.cells[other]?

/-- Each of the neighbouring addresses beyond the reach is reported, in order. -/
def refusals (memory : Memory) (start count : Nat) : List Event :=
  ((List.range' start count).filter fun address => memory.reach ≤ address).map
    fun address => .fault (.memory (memory.refusal address))

/-- A memory receives no words by staying as it is. -/
theorem Receives.refl (memory : Memory) (start : Nat) : memory.Receives memory start [] :=
  ⟨rfl, rfl, rfl, fun inside => absurd inside (Nat.not_lt_zero _), fun _ => rfl⟩

/-- Words that are received do not change the reach. -/
theorem Receives.reach_eq (received : before.Receives after start words) :
    after.reach = before.reach := by
  rw [reach, received.width_eq, received.capacity_eq, reach]

theorem Receives.refusals_eq (received : before.Receives after start words) :
    after.refusals = before.refusals := by
  funext start count
  unfold refusals refusal
  rw [received.reach_eq, received.name_eq, received.width_eq, received.capacity_eq]

/-- The first word is written before the others, and no later write touches its cell. -/
theorem Receives.cons {word : Word} (first : before.Receives middle start [word])
    (rest : middle.Receives after (start + 1) words) :
    before.Receives after start (word :: words) where
  name_eq := rest.name_eq.trans first.name_eq
  width_eq := rest.width_eq.trans first.width_eq
  capacity_eq := rest.capacity_eq.trans first.capacity_eq
  written := by
    intro index inside reached
    cases index with
    | zero =>
        have kept := rest.unchanged (Or.inl (Nat.lt_succ_self start))
        exact kept.trans (first.written Nat.one_pos reached)
    | succ index =>
        have shifted : start + (index + 1) = start + 1 + index := by omega
        rw [shifted] at reached ⊢
        rw [rest.written (Nat.lt_of_succ_lt_succ inside) (first.reach_eq ▸ reached), first.width_eq]
        rfl
  unchanged := by
    intro other outside
    rw [List.length_cons] at outside
    rw [rest.unchanged (by rw [first.reach_eq]; omega),
      first.unchanged (by rw [List.length_singleton]; omega)]

/-- The first refusal stands in front of the others. -/
theorem refusals_succ (memory : Memory) (start count : Nat) :
    memory.refusals start (count + 1) =
      memory.refusals start 1 ++ memory.refusals (start + 1) count := by
  unfold refusals
  rw [Nat.add_comm count, ← List.range'_append_1, List.filter_append, List.map_append]

/-- Nothing is refused if all the addresses lie within the reach. -/
theorem refusals_eq_nil_iff {memory : Memory} {start count : Nat} :
    memory.refusals start count = [] ↔ count = 0 ∨ start + count ≤ memory.reach := by
  have bounds : memory.refusals start count = [] ↔
      ∀ address, start ≤ address ∧ address < start + count → address < memory.reach := by
    simp [refusals, List.filter_eq_nil_iff]
  rw [bounds]
  constructor
  · intro reached
    rcases Nat.eq_zero_or_pos count with none | some
    · exact .inl none
    · have last := reached (start + count - 1) (by omega)
      omega
  · rintro (rfl | within) address inside <;> omega

/-- Words within the reach are not refused. -/
theorem refusals_of_le {memory : Memory} {start count : Nat}
    (within : start + count ≤ memory.reach) : memory.refusals start count = [] :=
  refusals_eq_nil_iff.mpr (.inr within)

/-- The other cells stay as they were. -/
theorem Receives.cell_eq (received : before.Receives after start words) {other : Nat}
    (outside : other < start ∨ start + words.length ≤ other ∨ before.reach ≤ other) :
    after.cell other = before.cell other := by
  rw [cell, received.unchanged outside, received.width_eq, cell]

/-- Words of the full width within the reach are kept as they are. -/
theorem Receives.contains (received : before.Receives after start words)
    (within : start + words.length ≤ before.reach)
    (fits : ∀ word ∈ words, word.width = before.width) :
    after.Contains start words := by
  intro index inside
  have whole := fits words[index] (List.getElem_mem inside)
  rw [cell, received.written inside (by omega), Option.getD_some, Word.padded_of_le _ whole.ge]

/-- The memory after a write within the reach. -/
def stored (memory : Memory) (address : Nat) (word : Word) : Memory :=
  { memory with cells := memory.cells.insert address (word.padded memory.width) }

/-- A tight address is written within the reach and refused beyond it. -/
theorem writeOr_receives (narrow : memory.width ≤ 64) {address word : Word}
    (tight : address.Tight memory.width) (fits : word.width ≤ memory.width) :
    ∃ after, Machine.writeOr memory (memory.write address word) =
        ⟨after, memory.refusals address.value 1⟩ ∧
      memory.Receives after address.value [word] := by
  have located := addressOf_of_tight narrow tight
  by_cases reached : address.value < memory.reach
  · have written : memory.write address word = .ok (memory.stored address.value word) := by
      rw [write, located, if_pos reached]
      exact if_neg (Nat.not_lt.mpr fits)
    have silent : memory.refusals address.value 1 = [] := by
      simp [refusals, Nat.not_le.mpr reached]
    refine ⟨memory.stored address.value word, ?_, ⟨rfl, rfl, rfl, ?_, ?_⟩⟩
    · rw [written, silent]
      rfl
    · intro index inside _
      obtain rfl : index = 0 := Nat.lt_one_iff.mp inside
      exact Std.ExtTreeMap.getElem?_insert_self
    · intro other outside
      have apart : ¬ compare address.value other = .eq := by
        rw [Nat.compare_eq_eq]
        simp only [List.length_singleton] at outside
        omega
      rw [stored, Std.ExtTreeMap.getElem?_insert, if_neg apart]
  · have refused : memory.write address word = .error (memory.refusal address.value) := by
      rw [write, located, if_neg reached]
      rfl
    have reported : memory.refusals address.value 1 =
        [.fault (.memory (memory.refusal address.value))] := by
      simp [refusals, Nat.le_of_not_lt reached]
    refine ⟨memory, ?_, ⟨rfl, rfl, rfl, ?_, fun _ => rfl⟩⟩
    · rw [refused, reported]
      rfl
    · intro index inside within
      obtain rfl : index = 0 := Nat.lt_one_iff.mp inside
      exact absurd within reached

end Memory

namespace Machine

variable {machine : Machine}

/-- An address within the memory names its cell. -/
theorem Sound.addressOf_eq_ok (sound : machine.Sound) {address : Word}
    (tight : address.Tight machine.width) (fits : address.value < 2 ^ machine.width)
    (room : address.value < machine.architecture.ramCells) :
    machine.ram.addressOf address = .ok address.value := by
  have capacity : machine.ram.numbers.capacity = machine.architecture.ramCells :=
    sound.ram.capacity_eq
  rw [sound.ram.addressOf_eq sound.width_le tight, NumberMemory.fault?,
    if_neg (Nat.not_le.mpr fits), capacity, if_neg (Nat.not_le.mpr room)]

/-- A read inside the memory gives the cell. -/
theorem Sound.readRam_eq (sound : machine.Sound) {address : Word}
    (tight : address.Tight machine.width) (fits : address.value < 2 ^ machine.width)
    (room : address.value < machine.architecture.ramCells) :
    machine.readRam address = pure (machine.ram.cell address.value) := by
  rw [readRam, Memory.read, sound.addressOf_eq_ok tight fits room]
  rfl

/-- A zero cell reads as zero, and so does an address outside the memory. -/
theorem Sound.readRam_of_zero (sound : machine.Sound) {address : Word}
    (narrow : address.width ≤ machine.width)
    (zero : machine.ram.cell address.value = Word.zero machine.width) :
    (machine.readRam address).value = Word.zero machine.width := by
  rw [readRam, Memory.read, sound.ram.addressOf_eq sound.width_le (Or.inl narrow)]
  cases machine.ram.numbers.fault? machine.width address.value with
  | none => exact zero
  | some cause => rfl

theorem writeRam_receives (narrow : machine.ram.width ≤ 64) {address word : Word}
    (tight : address.Tight machine.ram.width) (fits : word.width ≤ machine.ram.width) :
    ∃ ram, machine.writeRam address word =
        ⟨{ machine with ram := ram }, machine.ram.refusals address.value 1⟩ ∧
      machine.ram.Receives ram address.value [word] := by
  obtain ⟨ram, wrote, received⟩ := Memory.writeOr_receives narrow tight fits
  refine ⟨ram, ?_, received⟩
  rw [writeRam, wrote]
  exact Traced.ext rfl (List.append_nil _)

/-- Loading writes the words one after another and reports those beyond the reach. -/
theorem loadWords_receives (positive : 1 ≤ machine.ram.width) (narrow : machine.ram.width ≤ 64)
    (address : Word) {words : List Word} (tight : address.Tight machine.ram.width)
    (fits : ∀ word ∈ words, word.width ≤ machine.ram.width) :
    ∃ ram, machine.loadWords address words =
        ⟨{ machine with ram := ram }, machine.ram.refusals address.value words.length⟩ ∧
      machine.ram.Receives ram address.value words := by
  induction words generalizing machine address with
  | nil => exact ⟨machine.ram, rfl, .refl _ _⟩
  | cons word rest ih =>
      obtain ⟨middle, wrote, received⟩ :=
        writeRam_receives narrow tight (fits word List.mem_cons_self)
      have sameWidth := received.width_eq
      have restFits : ∀ word ∈ rest, word.width ≤ middle.width :=
        fun word inside => (fits word (List.mem_cons_of_mem _ inside)).trans sameWidth.ge
      obtain ⟨ram, others, all⟩ := @ih { machine with ram := middle }
        (positive.trans sameWidth.ge) (sameWidth.trans_le narrow) address.increment
        (sameWidth ▸ tight.increment positive) restFits
      rw [Word.value_increment] at others all
      have events : machine.ram.refusals address.value (rest.length + 1) =
          machine.ram.refusals address.value 1 ++
            middle.refusals (address.value + 1) rest.length := by
        rw [received.refusals_eq]
        exact machine.ram.refusals_succ _ _
      refine ⟨ram, ?_, received.cons all⟩
      rw [loadWords, wrote, Traced.mk_bind, others, List.length_cons, events]

/-- Loading writes the words from the address on and nothing else. -/
theorem Sound.loadWords_eq (sound : machine.Sound) (address : Word) {words : List Word}
    (tight : address.Tight machine.width) (fits : address.value + words.length ≤ 2 ^ machine.width)
    (room : address.value + words.length ≤ machine.architecture.ramCells)
    (wordsFit : ∀ word ∈ words, word.width = machine.width) :
    ∃ ram, machine.loadWords address words = pure { machine with ram := ram } ∧
      { machine with ram := ram }.Sound ∧ ram.Contains address.value words ∧
      ∀ other, other < address.value ∨ address.value + words.length ≤ other →
        ram.cell other = machine.ram.cell other := by
  have sameWidth := sound.ram.width_eq
  have within : address.value + words.length ≤ machine.ram.reach := by
    rw [Memory.reach, sameWidth, sound.ram.capacity_eq]
    exact Nat.le_min.mpr ⟨fits, room⟩
  rw [← sameWidth] at tight wordsFit
  obtain ⟨ram, loaded, received⟩ := loadWords_receives (sound.width_pos.trans sameWidth.ge)
    (sameWidth.trans_le sound.width_le) address tight fun word inside => (wordsFit word inside).le
  rw [Memory.refusals_of_le within] at loaded
  have kept := sound_lasting.loadWords sound address words
  rw [loaded] at kept
  exact ⟨ram, loaded, kept, received.contains within wordsFit,
    fun other outside => received.cell_eq (outside.imp_right Or.inl)⟩

/-- Bits are loaded as the words that they are cut into. -/
theorem load_receives (bits : List Bool) {address : Nat}
    (positive : 1 ≤ machine.width) (narrow : machine.width ≤ 64)
    (sameWidth : machine.ram.width = machine.width) (fits : address < 2 ^ machine.width) :
    ∃ ram, machine.load bits address =
        ⟨{ machine with ram := ram },
          machine.ram.refusals address (blockCount machine.width bits.length)⟩ ∧
      machine.ram.Receives ram address ((List.range (blockCount machine.width bits.length)).map
        (Word.cut machine.width bits)) := by
  have start : (Word.ofNat machine.width address).value = address := Word.value_ofNat_of_lt fits
  have wordFits : ∀ word ∈ (List.range (blockCount machine.width bits.length)).map
      (Word.cut machine.width bits), word.width ≤ machine.ram.width := by
    intro word listed
    obtain ⟨index, _, rfl⟩ := List.mem_map.mp listed
    exact (Word.width_cut_le _ _ _).trans sameWidth.ge
  obtain ⟨ram, loaded, received⟩ := loadWords_receives (positive.trans sameWidth.ge)
    (sameWidth.trans_le narrow) (Word.ofNat machine.width address)
    (Or.inl ((Word.width_ofNat _ _).trans sameWidth.symm).le) wordFits
  rw [start, List.length_map, List.length_range] at loaded
  rw [start] at received
  refine ⟨ram, ?_, received⟩
  rw [load, addressWord_eq_ok positive fits]
  dsimp only
  rw [chunks_eq_cut positive, loaded]

/-- Loading writes the words of a program one behind the other, reports those beyond the reach, and
changes nothing else. -/
theorem load_exact (machine : Machine) (bits : List Bool) (address : Nat)
    (valid : machine.architecture.validate = .ok ()) (sameWidth : machine.ram.width = machine.width)
    (sameCapacity : machine.ram.capacity = machine.architecture.ramCells) :
    (2 ^ machine.width ≤ address →
      machine.load bits address =
        ⟨machine, [.fault (.memory (.addressTooWide machine.ram.name (toString address)))]⟩) ∧
    (address < 2 ^ machine.width →
      let loaded := machine.load bits address
      let ram := loaded.value.ram
      let count := blockCount machine.width bits.length
      let room := min (2 ^ machine.width) machine.architecture.ramCells
      loaded.value = { machine with ram := ram } ∧
      loaded.events = ((List.range' address count).filter fun place => room ≤ place).map
        (fun place => .fault (.memory (machine.ram.refusal place))) ∧
      (ram.name = machine.ram.name ∧ ram.width = machine.ram.width ∧
        ram.capacity = machine.ram.capacity) ∧
      (∀ index < count, address + index < room →
        ram.cells[address + index]? =
          some ((Word.cut machine.width bits index).padded machine.width)) ∧
      ∀ other, other < address ∨ address + count ≤ other ∨ room ≤ other →
        ram.cells[other]? = machine.ram.cells[other]?) := by
  have positive : 1 ≤ machine.width := ((Architecture.validate_eq_ok_iff _).mp valid).1
  have narrow : machine.width ≤ 64 := ((Architecture.validate_eq_ok_iff _).mp valid).2.1
  constructor
  · intro wide
    rw [load, addressWord_eq_error positive wide]
    rfl
  · intro fits loaded ram count room
    have reach : machine.ram.reach = room := by rw [Memory.reach, sameWidth, sameCapacity]
    obtain ⟨after, result, received⟩ := load_receives bits positive narrow sameWidth fits
    have same : ram = after := congrArg (fun loaded => loaded.value.ram) result
    have length : ((List.range count).map (Word.cut machine.width bits)).length = count := by
      rw [List.length_map, List.length_range]
    refine ⟨?_, ?_, ?_, ?_, ?_⟩
    · rw [same]
      exact congrArg Traced.value result
    · rw [← reach]
      exact congrArg Traced.events result
    · rw [same]
      exact ⟨received.name_eq, received.width_eq, received.capacity_eq⟩
    · intro index inside within
      rw [same, received.written (inside.trans_eq length.symm) (within.trans_eq reach.symm),
        List.getElem_map, List.getElem_range, sameWidth]
    · intro other outside
      rw [same]
      exact received.unchanged (by rw [length, reach]; exact outside)

/-- Of five bits that are loaded at the last address of two-bit words, one word fits. -/
theorem load_exact_last_address :
    let machine := build ⟨2, 1, 8⟩
    let loaded := machine.load [true, true, true, false, true] 3
    (⟨2, 1, 8⟩ : Architecture).validate = .ok () ∧
      loaded.events = [.fault (.memory (.addressTooWide "RAM" "100")),
        .fault (.memory (.addressTooWide "RAM" "101"))] ∧
      loaded.value.ram.cells[3]? = some ⟨[true, true]⟩ ∧ loaded.value.ram.cells[0]? = none := by
  intro machine loaded
  have valid : (⟨2, 1, 8⟩ : Architecture).validate = .ok () := rfl
  obtain ⟨_, events, _, written, unchanged⟩ :=
    (load_exact machine [true, true, true, false, true] 3 valid rfl rfl).2 (by decide)
  refine ⟨valid, events.trans (by decide +kernel), ?_, ?_⟩
  · exact written 0 (by decide) (by decide)
  · exact (unchanged 0 (by decide)).trans (by decide +kernel)

/-- Loading the bits of words writes the words and nothing else. -/
theorem Sound.load_words (sound : machine.Sound) {address : Nat} {words : List Word}
    (wordsFit : ∀ word ∈ words, word.width = machine.width) (names : address < 2 ^ machine.width)
    (fits : address + words.length ≤ 2 ^ machine.width)
    (room : address + words.length ≤ machine.architecture.ramCells) :
    ∃ ram, machine.load (words.flatMap Word.bits) address = pure { machine with ram := ram } ∧
      { machine with ram := ram }.Sound ∧ ram.Contains address words ∧
      ∀ other, other < address ∨ address + words.length ≤ other →
        ram.cell other = machine.ram.cell other := by
  have start : (Word.ofNat machine.width address).value = address := Word.value_ofNat_of_lt names
  obtain ⟨ram, loaded, soundAfter, contains, outside⟩ :=
    sound.loadWords_eq (Word.ofNat machine.width address)
      (Or.inl (Word.width_ofNat _ _).le) (by rw [start]; exact fits) (by rw [start]; exact room)
      wordsFit
  rw [start] at contains outside
  refine ⟨ram, ?_, soundAfter, contains, outside⟩
  rw [Machine.load, addressWord_eq_ok sound.width_pos names]
  dsimp only
  rw [chunks_words sound.width_pos wordsFit, loaded]

/-- Loading a program of instructions writes their words. -/
theorem Sound.load_ofInstructions (sound : machine.Sound) {address : Nat}
    {instructions : List Instruction}
    (canonical : ∀ instruction ∈ instructions, instruction.Canonical machine.width)
    (names : address < 2 ^ machine.width)
    (fits : address + 3 * instructions.length ≤ 2 ^ machine.width)
    (room : address + 3 * instructions.length ≤ machine.architecture.ramCells) :
    ∃ ram, machine.load (Program.ofInstructions machine.width instructions).bits address =
        pure { machine with ram := ram } ∧
      { machine with ram := ram }.Sound ∧
      ram.Contains address (instructions.flatMap (Instruction.words machine.width)) := by
  have count := Instruction.length_flatMap_words machine.width instructions
  have wordsFit := Instruction.width_of_mem_words fun instruction listed =>
    ⟨(canonical instruction listed).first_width, (canonical instruction listed).second_width⟩
  obtain ⟨ram, loaded, soundAfter, contains, _⟩ :=
    sound.load_words wordsFit names (by rw [count]; exact fits) (by rw [count]; exact room)
  rw [List.flatMap_assoc] at loaded
  exact ⟨ram, loaded, soundAfter, contains⟩

/-- The opcode of an instruction is read at the first of its cells. -/
theorem Sound.readRam_of_contains (sound : machine.Sound) {instruction : Instruction}
    (fits : machine.pc.value + 3 ≤ 2 ^ machine.width)
    (room : machine.pc.value + 3 ≤ machine.architecture.ramCells)
    (contains : machine.ram.Contains machine.pc.value (instruction.words machine.width)) :
    machine.readRam machine.pc = pure (Word.ofNat machine.width instruction.opcode.code) := by
  rw [sound.readRam_eq (Or.inl sound.pc_width.le) (by omega) (by omega)]
  exact congrArg pure (contains 0 (show 0 < 3 by decide))

/-- The operands of an instruction are fetched from the cells after its opcode. -/
theorem Sound.fetchOperands_of_contains (sound : machine.Sound) {instruction : Instruction}
    (fits : machine.pc.value + 3 ≤ 2 ^ machine.width)
    (room : machine.pc.value + 3 ≤ machine.architecture.ramCells)
    (contains : machine.ram.Contains machine.pc.value (instruction.words machine.width)) :
    (machine.fetchOperands instruction.opcode).value = instruction.trimmed machine.width := by
  have here : machine.pc.Tight machine.width := Or.inl sound.pc_width.le
  have next := Word.value_increment machine.pc
  have afterNext := Word.value_increment machine.pc.increment
  have first : machine.readRam machine.pc.increment = pure instruction.first := by
    rw [sound.readRam_eq (here.increment sound.width_pos) (by omega) (by omega), next]
    exact congrArg pure (contains 1 (show 1 < 3 by decide))
  have second : machine.readRam machine.pc.increment.increment = pure instruction.second := by
    rw [sound.readRam_eq ((here.increment sound.width_pos).increment sound.width_pos)
      (by omega) (by omega), afterNext, next]
    exact congrArg pure (contains 2 (show 2 < 3 by decide))
  unfold fetchOperands Instruction.trimmed
  match instruction.opcode.modes with
  | [] => rfl
  | [_] => simp [first]
  | _ :: _ :: _ => simp [first, second]

/-- A step on the cells of a canonical instruction fetches that instruction. -/
theorem Sound.fetches_of_contains (sound : machine.Sound) {instruction : Instruction}
    (canonical : instruction.Canonical machine.width)
    (fits : machine.pc.value + 3 ≤ 2 ^ machine.width)
    (room : machine.pc.value + 3 ≤ machine.architecture.ramCells)
    (contains : machine.ram.Contains machine.pc.value (instruction.words machine.width)) :
    machine.Fetches instruction := by
  constructor
  · rw [sound.readRam_of_contains fits room contains]
    exact Instruction.ofWord?_ofNat_code sound.width_le canonical.code_lt
  · have operands := (sound_lasting.fetched sound).fetchOperands_of_contains fits room contains
    exact operands.trans canonical.trimmed_eq

end Machine

/-- Each instruction of a list has its own three cells. -/
theorem Memory.Contains.instruction_at {memory : Memory} {width start : Nat}
    {instructions : List Instruction}
    (contains : memory.Contains start (instructions.flatMap (Instruction.words width)))
    {index : Nat} {instruction : Instruction} (placed : instructions[index]? = some instruction) :
    memory.Contains (start + 3 * index) (instruction.words width) := by
  induction instructions generalizing start index with
  | nil => cases placed
  | cons first rest ih =>
      rw [List.flatMap_cons] at contains
      cases index with
      | zero =>
          cases placed
          intro offset inside
          have cell := contains offset (by rw [List.length_append]; omega)
          rw [List.getElem_append_left inside] at cell
          exact cell
      | succ index =>
          have tail : memory.Contains (start + 3) (rest.flatMap (Instruction.words width)) := by
            intro offset inside
            have length : (first.words width).length = 3 := rfl
            have cell := contains (3 + offset) (by rw [List.length_append, length]; omega)
            rw [List.getElem_append_right (by rw [length]; omega)] at cell
            simpa [length, Nat.add_assoc] using cell
          have later := ih tail placed
          rw [Nat.mul_succ, Nat.add_comm _ 3, ← Nat.add_assoc]
          exact later

end WordMachine
