import WordMachine.Proofs.AssembledProgram
import WordMachine.Proofs.Loading
import WordMachine.Proofs.StepNumbers

namespace WordMachine

namespace Assembly

/-- An operand names a label by itself or behind the sigil of a distance. -/
def NamesLabel (statements : List (List Char)) (operand label : List Char) : Prop :=
  isLabel label = true ∧
    (operand = label ∨
      operand = Mode.relative.sigil :: label ∧
        ((∃ statement ∈ statements, Defines label statement) ∨ literal? label = none))

/-- An instruction line has this operand and no other. -/
def HasOperand (text operand : List Char) : Prop :=
  splitOperands (splitMnemonic text).2 = .ok [operand]

variable {width index : Nat} {labels : Labels}

/-- A bare label is looked up. -/
theorem readOperand_label {label : List Char} (labelled : isLabel label = true) :
    readOperand labels index label = resolve labels index label := by
  rw [readOperand, if_pos labelled]

/-- Behind the sigil of a distance a label comes before a literal. -/
theorem readOperand_distance {label : List Char} (labelled : isLabel label = true)
    (preferred : (labels.lookup label).isSome = true ∨ literal? label = none) :
    readOperand labels index (Mode.relative.sigil :: label) = resolve labels index label := by
  have sigil : ¬ isLabel (Mode.relative.sigil :: label) = true := by
    simp [isLabel, isLetter, Mode.sigil]
  have mode : Mode.ofSigil? ((Mode.relative.sigil :: label).headD ' ') = some .relative := rfl
  have chosen : (Mode.relative == Mode.relative && isLabel label &&
      ((labels.lookup label).isSome || (literal? label).isNone)) = true := by
    rcases preferred with defined | wordless
    · simp [labelled, defined]
    · simp [labelled, wordless]
  rw [readOperand, if_neg sigil]
  simp only [mode, List.tail_cons]
  exact if_pos chosen

section Source

variable {source : List Char}

/-- The first pass knows the target of every label that is defined. -/
theorem lookup_of_target {label : List Char} {target : Nat}
    (isTarget : IsTarget (statements (Text.lines source)) label target) :
    (firstPass source).1.lookup label = some target := by
  rw [firstPass, collect_lookup_of_target 1 0 [] _ isTarget, Nat.zero_add]

/-- A label that the first pass knows is defined. -/
theorem defined_of_lookup {label : List Char} {target : Nat}
    (found : (firstPass source).1.lookup label = some target) :
    ∃ statement ∈ statements (Text.lines source), Defines label statement := by
  by_contra undefined
  push Not at undefined
  rw [firstPass, collect_lookup_of_undefined 1 0 [] _ undefined] at found
  cases found

/-- An operand that names a label is looked up. -/
theorem readOperand_of_namesLabel {operand label : List Char}
    (names : NamesLabel (statements (Text.lines source)) operand label) :
    readOperand (firstPass source).1 index operand = resolve (firstPass source).1 index label := by
  obtain ⟨labelled, rfl | ⟨rfl, defined | wordless⟩⟩ := names
  · exact readOperand_label labelled
  · obtain ⟨target, isTarget⟩ := exists_isTarget defined
    exact readOperand_distance labelled (Or.inl (by rw [lookup_of_target isTarget]; rfl))
  · exact readOperand_distance labelled (Or.inr wordless)

/-- An operand that names a label is read as the distance to its target. -/
theorem first_of_namesLabel (positive : 1 ≤ width) (narrow : width ≤ 64)
    {text operand label : List Char} {instruction : Instruction}
    (read : readInstruction width (firstPass source).1 index text = .ok instruction)
    (has : HasOperand text operand)
    (names : NamesLabel (statements (Text.lines source)) operand label) :
    ∃ target, IsTarget (statements (Text.lines source)) label target ∧
      instruction.first = Word.ofNat width (residue width ((target : Int) - index)) := by
  obtain ⟨operands, results, split, reads, _, first, _⟩ := readInstruction_eq_ok_iff.mp read
  obtain rfl : [operand] = operands := Except.ok.inj (has.symm.trans split)
  obtain ⟨result, _, ⟨value, resolved, fit⟩, none, rfl⟩ := List.forall₂_cons_left_iff.mp reads
  rw [readOperand_of_namesLabel names, resolve] at resolved
  cases found : (firstPass source).1.lookup label with
  | none => rw [found] at resolved; cases resolved
  | some target =>
      rw [found] at resolved
      obtain ⟨known, isTarget⟩ := exists_isTarget (defined_of_lookup found)
      obtain rfl : known = target :=
        Option.some.inj ((lookup_of_target isTarget).symm.trans found)
      obtain rfl : (known : Int) - index = value := congrArg Prod.snd (Except.ok.inj resolved)
      obtain ⟨_, word⟩ := (operandWord_eq_ok_iff positive narrow).mp fit
      exact ⟨known, isTarget, first.trans word⟩

end Source

end Assembly

/-- A distance between instructions leads to the target, also when it wraps around. -/
theorem residue_distance (width start index target : Nat) :
    residue width ((start + 3 * index : Nat) + 3 * residue width ((target : Int) - index)) =
      (start + 3 * target) % 2 ^ width := by
  rw [← residue_natCast]
  apply residue_eq_of_emod_eq
  rw [natCast_residue]
  have congruent : ((target : Int) - index) % 2 ^ width ≡ target - index [ZMOD 2 ^ width] :=
    Int.mod_modEq _ _
  calc ((start + 3 * index : Nat) + 3 * (((target : Int) - index) % 2 ^ width)) % 2 ^ width
      = ((start + 3 * index : Nat) + 3 * ((target : Int) - index)) % 2 ^ width :=
        (congruent.mul_left 3).add_left _
    _ = ((start + 3 * target : Nat) : Int) % 2 ^ width := by
        congr 1
        push_cast
        ring

namespace Machine

open Assembly

variable {machine : Machine}

/-- A program that assembles without errors is loaded as its instructions. -/
theorem Sound.loadSource_contains (sound : machine.Sound) {source : String} {address : Nat}
    {instructions : List Instruction}
    (canonical : ∀ instruction ∈ instructions, instruction.Canonical machine.width)
    (made : (assemble source machine.width).program =
      Program.ofInstructions machine.width instructions)
    (names : address < 2 ^ machine.width)
    (room : address + 3 * instructions.length ≤
      min (2 ^ machine.width) machine.architecture.ramCells) :
    (machine.loadSource source address).value.1.ram.Contains address
      (instructions.flatMap (Instruction.words machine.width)) := by
  obtain ⟨ram, loaded, _, contains⟩ := sound.load_ofInstructions canonical names
    (room.trans (Nat.min_le_left _ _)) (room.trans (Nat.min_le_right _ _))
  have image : (machine.loadSource source address).value.1 =
      (machine.load (assemble source machine.width).program.bits address).value := rfl
  rw [image, made, loaded]
  exact contains

/-- A jump over the distance between two instructions lands on the second of them. -/
theorem Sound.jump_lands (sound : machine.Sound) {instruction : Instruction}
    {condition : Condition} {start index target : Nat} (fetches : machine.Fetches instruction)
    (jump : instruction.opcode = .jump condition .relative)
    (holds : condition.holds machine.flags = true)
    (here : machine.pc.value = start + 3 * index)
    (distance : instruction.first =
      Word.ofNat machine.width (residue machine.width ((target : Int) - index))) :
    machine.step.value.1.pc =
      Word.ofNat machine.width ((start + 3 * target) % 2 ^ machine.width) := by
  have first : instruction.first.value = residue machine.width ((target : Int) - index) := by
    rw [distance, Word.value_ofNat_of_lt (residue_lt _ _)]
  have taken : condition.holds machine.numbers.flags = true := holds
  have landed : machine.numbers.target instruction.numbers =
      residue machine.width (machine.pc.value + 3 * instruction.first.value) := by
    simp only [NumberMachine.target, Instruction.numbers, jump, taken, if_true]
    rfl
  have next := (sound_lasting.step sound).pc_width
  rw [step_width] at next
  rw [Word.eq_ofNat next, sound.step_pc fetches, landed, here, first, residue_distance]

/-- A loaded program executes as written, and its jumps land on the targets of their labels. -/
theorem loaded_program_executes (machine : Machine) (source : String) (address : Nat)
    (sound : machine.Sound) (assembles : (assemble source machine.width).errors = [])
    (room : address + 3 * (assemble source machine.width).program.size ≤
      min (2 ^ machine.width) machine.architecture.ramCells)
    (index : Nat) (inside : index < (assemble source machine.width).program.size)
    (other : Machine) (otherSound : other.Sound)
    (sameShape : other.architecture = machine.architecture)
    (unchanged : ∀ offset < 3 * (assemble source machine.width).program.size,
      other.ram.cell (address + offset) =
        (machine.loadSource source address).value.1.ram.cell (address + offset))
    (here : other.pc = Word.ofNat machine.width (address + 3 * index)) :
    ∃ bits instruction text,
      (machine.loadSource source address).value.2.instructions[index]? = some bits ∧
      Instruction.decode bits machine.width = .ok instruction ∧
      (instructionTexts source.toList)[index]? = some text ∧
      other.step.value =
        ({ (other.fetched.execute instruction).value with lastInstruction := some instruction },
          some instruction.opcode) ∧
      ∀ operand label condition, HasOperand text operand →
        NamesLabel (statements (Text.lines source.toList)) operand label →
        instruction.opcode = .jump condition .relative →
        condition.holds other.flags = true →
        (∃ target, IsTarget (statements (Text.lines source.toList)) label target) ∧
        ∀ target, IsTarget (statements (Text.lines source.toList)) label target →
          other.step.value.1.pc =
            Word.ofNat machine.width ((address + 3 * target) % 2 ^ machine.width) := by
  have positive := sound.width_pos
  have narrow := sound.width_le
  have sameWidth : other.width = machine.width := congrArg Architecture.bits sameShape
  obtain ⟨instructions, reads, made⟩ := assemble_reads positive narrow assembles
  have size : (assemble source machine.width).program.size = instructions.length := by
    rw [made]
    exact Program.ofInstructions_size positive reads.canonical
  rw [size] at room inside unchanged
  have placed : instructions[index]? = some instructions[index] := List.getElem?_eq_getElem inside
  have canonical := reads.canonical _ (List.getElem_mem inside)
  have below : address + 3 * instructions.length ≤ 2 ^ machine.width :=
    room.trans (Nat.min_le_left _ _)
  have within : address + 3 * instructions.length ≤ machine.architecture.ramCells :=
    room.trans (Nat.min_le_right _ _)
  have contains := sound.loadSource_contains reads.canonical made (by omega) room
  have count := Instruction.length_flatMap_words machine.width instructions
  have same : other.ram.Contains address
      (instructions.flatMap (Instruction.words machine.width)) := by
    intro offset bound
    rw [unchanged offset (by omega), contains offset bound]
  have pc : other.pc.value = address + 3 * index := by
    rw [here, Word.value_ofNat_of_lt (by omega)]
  obtain ⟨text, textPlaced, read⟩ := reads.read_at placed
  rw [Nat.zero_add] at read
  have fetches := otherSound.fetches_of_contains (sameWidth.symm ▸ canonical)
    (by rw [pc, sameWidth]; omega) (by rw [pc, sameShape]; omega)
    (by rw [pc, sameWidth]; exact same.instruction_at placed)
  refine ⟨instructions[index].bits machine.width, instructions[index], text, ?_,
    canonical.decode_bits narrow, textPlaced, fetches.step_value, ?_⟩
  · have image : (machine.loadSource source address).value.2 =
        Program.ofInstructions machine.width instructions := made
    rw [image, Program.ofInstructions_instructions positive reads.canonical, List.getElem?_map,
      placed]
    rfl
  · intro operand label condition has names jump holds
    obtain ⟨target, isTarget, distance⟩ := first_of_namesLabel positive narrow read has names
    refine ⟨⟨target, isTarget⟩, fun known isKnown => ?_⟩
    obtain rfl : known = target :=
      Option.some.inj ((lookup_of_target isKnown).symm.trans (lookup_of_target isTarget))
    rw [← sameWidth] at distance ⊢
    exact otherSound.jump_lands fetches jump holds pc distance

/-- A jump to a label at the end of the program leaves the program. -/
theorem loaded_program_executes_end_label :
    (((build ⟨8, 1, 6⟩).loadSource "JMP end\nend:" 3).value.1.withPc
      (Word.ofNat 8 3)).step.value.1.pc = Word.ofNat 8 6 := by
  have sound : (build ⟨8, 1, 6⟩).Sound := build_sound rfl
  obtain ⟨_, instruction, text, _, _, placed, stepped, jumps⟩ :=
    loaded_program_executes (build ⟨8, 1, 6⟩) "JMP end\nend:" 3 sound (by decide +kernel)
      (by decide +kernel) 0 (by decide +kernel)
      (((build ⟨8, 1, 6⟩).loadSource "JMP end\nend:" 3).value.1.withPc (Word.ofNat 8 3))
      (sound_lasting.withPc (sound_lasting.loadSource sound _ _) rfl) (by decide +kernel) (fun _ _ => rfl) rfl
  have answered : (((build ⟨8, 1, 6⟩).loadSource "JMP end\nend:" 3).value.1.withPc
      (Word.ofNat 8 3)).step.value.2 = some (.jump .always .relative) := by decide +kernel
  rw [stepped] at answered
  have texts : instructionTexts "JMP end\nend:".toList = ["JMP end".toList] := by
    decide +kernel
  rw [texts] at placed
  obtain rfl : "JMP end".toList = text := Option.some.inj placed
  have has : HasOperand "JMP end".toList "end".toList := by rfl
  have names : NamesLabel (statements (Text.lines "JMP end\nend:".toList))
      "end".toList "end".toList := ⟨by decide +kernel, Or.inl rfl⟩
  have isTarget : IsTarget (statements (Text.lines "JMP end\nend:".toList))
      "end".toList 1 :=
    ⟨["JMP end".toList], "end:".toList, [], by decide +kernel, by rfl, by simp, by decide +kernel⟩
  exact (jumps "end".toList "end".toList .always has names (Option.some.inj answered)
    (by decide +kernel)).2 1 isTarget

end Machine

end WordMachine
