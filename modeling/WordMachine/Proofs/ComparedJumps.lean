import WordMachine.Proofs.Loading
import WordMachine.Proofs.StepNumbers

namespace WordMachine

/-- A number less than one turn away from zero loses no turn, or takes one. -/
theorem residue_of_small {width : Nat} {number : Int} (lower : -2 ^ width ≤ number)
    (upper : number < 2 ^ width) :
    (residue width number : Int) = if 0 ≤ number then number else number + 2 ^ width := by
  rw [natCast_residue]
  split
  · exact Int.emod_eq_of_lt (by assumption) upper
  · rw [← Int.add_emod_right]
    exact Int.emod_eq_of_lt (by omega) (by omega)

namespace Word

/-- The difference of the signed readings is no signed number of the width. -/
def DifferenceOverflows (first second : Word) : Prop :=
  first.signed - second.signed < -2 ^ (first.width - 1) ∨
    2 ^ (first.width - 1) ≤ first.signed - second.signed

variable {first second : Word} {width : Nat}

/-- The numbers of two words differ as much as their signed readings, up to turns. -/
theorem residue_signed_sub (narrow : width ≤ 64) (firstFits : first.width = width)
    (secondFits : second.width = width) :
    residue width (first.value - second.value) = residue width (first.signed - second.signed) := by
  have firstReading := signed_modEq narrow firstFits
  have secondReading := signed_modEq narrow secondFits
  exact residue_eq_of_emod_eq (firstReading.sub secondReading).symm

/-- The difference of two words vanishes exactly when they are equal. -/
theorem residue_sub_eq_zero_iff (firstFits : first.width = width)
    (secondFits : second.width = width) :
    residue width (first.value - second.value) = 0 ↔ first = second := by
  have firstSmall : (first.value : Int) < 2 ^ width := by
    exact_mod_cast value_lt_of_width_le firstFits.le
  have secondSmall : (second.value : Int) < 2 ^ width := by
    exact_mod_cast value_lt_of_width_le secondFits.le
  have turned := @residue_of_small width (first.value - second.value) (by omega) (by omega)
  constructor
  · intro vanishes
    apply eq_of_value_eq (firstFits.trans secondFits.symm)
    split at turned <;> omega
  · rintro rfl
    split at turned <;> omega

/-- The top bit of a difference is the signed order, unless the difference overflows. -/
theorem residue_sub_upper_iff (positive : 1 ≤ width) (narrow : width ≤ 64)
    (firstFits : first.width = width) (secondFits : second.width = width) :
    2 ^ width ≤ 2 * residue width (first.value - second.value) ↔
      Xor (first.signed < second.signed) (first.DifferenceOverflows second) := by
  subst firstFits
  have firstBounds := signed_bounds narrow positive
  have secondBounds := signed_bounds (secondFits.trans_le narrow) (positive.trans secondFits.ge)
  rw [secondFits] at secondBounds
  have doubled : (2 : Int) ^ first.width = 2 * 2 ^ (first.width - 1) := by
    rw [← Int.pow_succ', Nat.sub_add_cancel positive]
  have cast : ((2 ^ first.width : Nat) : Int) = 2 ^ first.width := by norm_cast
  have turned := @residue_of_small first.width (first.signed - second.signed) (by omega) (by omega)
  rw [residue_signed_sub narrow rfl secondFits, DifferenceOverflows, Xor]
  split at turned <;> omega

end Word

/-- What a condition says about two words that were compared. -/
def Condition.Compares : Condition → Word → Word → Prop
  | .always, _, _ => True
  | .carry, first, second => second.value ≤ first.value
  | .notCarry, first, second => first.value < second.value
  | .zero, first, second => first = second
  | .notZero, first, second => first ≠ second
  | .sign, first, second => Xor (first.signed < second.signed) (first.DifferenceOverflows second)
  | .notSign, first, second =>
      ¬ Xor (first.signed < second.signed) (first.DifferenceOverflows second)

/-- A condition holds on the flags of a comparison exactly when it is true of the words. -/
theorem Condition.holds_compared_iff (condition : Condition) {first second : Word} {width : Nat}
    (positive : 1 ≤ width) (narrow : width ≤ 64) (firstFits : first.width = width)
    (secondFits : second.width = width) :
    condition.holds (Outcome.subtract first second width).flags = true ↔
      condition.Compares first second := by
  have flags : (Outcome.subtract first second width).flags =
      (NumberOutcome.subtract width first.value second.value).flags :=
    congrArg NumberOutcome.flags
      (Outcome.subtract_numbers positive firstFits.le secondFits.le)
  rw [flags, NumberOutcome.subtract, NumberOutcome.ofResult]
  cases condition with
  | always => exact ⟨fun _ => trivial, fun _ => rfl⟩
  | carry => simp [holds, Compares]
  | notCarry => simp [holds, Compares]
  | zero =>
      rw [holds, decide_eq_true_eq]
      exact Word.residue_sub_eq_zero_iff firstFits secondFits
  | notZero =>
      rw [holds, Bool.not_eq_true', decide_eq_false_iff_not]
      exact not_congr (Word.residue_sub_eq_zero_iff firstFits secondFits)
  | sign =>
      rw [holds, decide_eq_true_eq]
      exact Word.residue_sub_upper_iff positive narrow firstFits secondFits
  | notSign =>
      rw [holds, Bool.not_eq_true', decide_eq_false_iff_not]
      exact not_congr (Word.residue_sub_upper_iff positive narrow firstFits secondFits)

/-- The mnemonics of the jumps that a comparison decides. -/
def comparisonJumps : List (String × Condition) :=
  [("JZ", .zero), ("JEQ", .zero), ("JNZ", .notZero), ("JNE", .notZero), ("JC", .carry),
    ("JNC", .notCarry), ("JLSS", .sign), ("JNGTR", .sign), ("JGTR", .notSign)]

/-- Every relation has a mnemonic for absolute and for relative jumps. -/
theorem lookup_comparisonJumps {mnemonic : String} {condition : Condition}
    (listed : (mnemonic, condition) ∈ comparisonJumps) (target : Target) :
    Opcode.lookup mnemonic [target.mode] = some (.jump condition target) := by
  have all : ∀ branch ∈ comparisonJumps, ∀ target ∈ Target.all,
      Opcode.lookup branch.1 [target.mode] = some (.jump branch.2 target) := by decide +kernel
  exact all _ listed target (by cases target <;> decide)

namespace Machine

variable {machine : Machine}

/-- Where a jump leads when it is taken: to an address, or so many instructions further. -/
def destination (machine : Machine) (target : Target) (operand : Word) : Nat :=
  match target with
  | .absolute => operand.value
  | .relative => machine.pc.value + 3 * operand.value

/-- A step on a jump goes to its destination or to the next instruction. -/
theorem Sound.step_jump_pc (sound : machine.Sound) {jump : Instruction} {condition : Condition}
    {target : Target} (opcode : jump.opcode = .jump condition target)
    (fetches : machine.Fetches jump) :
    machine.step.value.1.pc = Word.ofNat machine.width
      (if condition.holds machine.flags then machine.destination target jump.first
        else machine.pc.value + 3) := by
  have next := (sound_lasting.step sound).pc_width
  rw [step_width] at next
  have same : machine.numbers.flags = machine.flags := rfl
  rw [Word.eq_ofNat next, sound.step_pc fetches]
  simp only [NumberMachine.target, Instruction.numbers, opcode, same]
  split
  · cases target with
    | absolute => rfl
    | relative => exact Word.ofNat_residue _ _
  · exact Word.ofNat_residue _ _

/-- A comparison changes neither the memory nor a register. -/
theorem execute_compare (machine : Machine) (source : Source) (index operand : Word) :
    (machine.execute ⟨.binary .cmp source, index, operand⟩).value.ram = machine.ram ∧
      (machine.execute ⟨.binary .cmp source, index, operand⟩).value.registers =
        machine.registers := by
  -- The flags are left open, since the equality of the memories would compute them.
  obtain ⟨control, executed⟩ : ∃ control,
      (machine.execute ⟨.binary .cmp source, index, operand⟩).value =
        { machine with control := control } := ⟨_, rfl⟩
  rw [executed]
  exact ⟨rfl, rfl⟩

/-- A jump after a comparison is taken exactly when the compared words are in the relation of its
mnemonic. -/
theorem comparison_decides_jumps (sound : machine.Sound) {source : Source}
    {index operand first second : Word} (fits : operand.width = machine.width)
    (left : (machine.readRegister index).value = first)
    (right : (machine.fetchValue source.mode operand).value = second) :
    let comparison : Instruction := ⟨.binary .cmp source, index, operand⟩
    let compared := (machine.execute comparison).value
    (compared.ram = machine.ram ∧ compared.registers = machine.registers) ∧
    (machine.Fetches comparison →
      machine.step.value.1.ram = machine.ram ∧ machine.step.value.1.registers = machine.registers ∧
        machine.step.value.1.flags = compared.flags) ∧
    (∀ condition : Condition,
      condition.holds compared.flags = true ↔ condition.Compares first second) ∧
    ∀ later : Machine, later.Sound → later.flags = compared.flags →
      ∀ mnemonic condition, (mnemonic, condition) ∈ comparisonJumps →
        ∀ target jump, Opcode.lookup mnemonic [Target.mode target] = some jump.opcode →
          later.Fetches jump →
            (condition.Compares first second → later.step.value.1.pc =
              Word.ofNat later.width (later.destination target jump.first)) ∧
            (¬ condition.Compares first second → later.step.value.1.pc =
              Word.ofNat later.width (later.pc.value + 3)) := by
  subst left right
  intro comparison compared
  have holds (condition : Condition) : condition.holds compared.flags = true ↔
      condition.Compares (machine.readRegister index).value
        (machine.fetchValue source.mode operand).value :=
    condition.holds_compared_iff sound.width_pos sound.width_le (sound.readRegister_width index)
      (sound.fetchValue_width source.mode fits)
  refine ⟨machine.execute_compare source index operand, fun fetches => ?_, holds, ?_⟩
  · have kept := machine.fetched.execute_compare source index operand
    refine ⟨?_, ?_, fetches.binary_flags⟩
    · rw [fetches.step_value]
      exact kept.1
    · rw [fetches.step_value]
      exact kept.2
  · intro later laterSound sameFlags mnemonic condition listed target jump named fetches
    have opcode : jump.opcode = .jump condition target :=
      Option.some.inj (named.symm.trans (lookup_comparisonJumps listed target))
    have stepped := laterSound.step_jump_pc opcode fetches
    rw [sameFlags] at stepped
    constructor
    · intro related
      rw [stepped, if_pos ((holds condition).mpr related)]
    · intro unrelated
      rw [stepped, if_neg (fun taken => unrelated ((holds condition).mp taken))]

/-- The least signed number is compared with one: their difference overflows, so the jump for a
smaller number is not taken. -/
theorem comparison_decides_jumps_least :
    let loaded := ((build ⟨6, 1, 6⟩).load (assemble "CMP %0, #1\nJLSS %0" 6).program.bits 0).value
    let machine := (loaded.writeRegister (Word.zero 6) (Word.ofNat 6 32)).value
    let later := machine.step.value.1
    machine.Sound ∧
      machine.Fetches ⟨.binary .cmp .immediate, Word.zero 6, Word.ofNat 6 1⟩ ∧
      later.Fetches ⟨.jump .sign .absolute, Word.zero 6, Word.zero 6⟩ ∧
      (Word.ofNat 6 32).signed < (Word.ofNat 6 1).signed ∧
      later.step.value.1.pc = Word.ofNat 6 6 := by
  intro loaded machine later
  have sound : machine.Sound := sound_lasting.writeRegister (sound_lasting.load (build_sound rfl) _ _) _ _
  have fits : (Word.ofNat 6 1).width = machine.width := by decide +kernel
  have left : (machine.readRegister (Word.zero 6)).value = Word.ofNat 6 32 := by decide +kernel
  have right : (machine.fetchValue Source.immediate.mode (Word.ofNat 6 1)).value =
      Word.ofNat 6 1 := rfl
  have compares : machine.Fetches ⟨.binary .cmp .immediate, Word.zero 6, Word.ofNat 6 1⟩ := by
    decide +kernel
  have jumps : later.Fetches ⟨.jump .sign .absolute, Word.zero 6, Word.zero 6⟩ := by
    decide +kernel
  have least : (Word.ofNat 6 32).signed = -32 := by decide +kernel
  have one : (Word.ofNat 6 1).signed = 1 := by decide +kernel
  have less : (Word.ofNat 6 32).signed < (Word.ofNat 6 1).signed := by
    rw [least, one]
    decide
  have overflows : (Word.ofNat 6 32).DifferenceOverflows (Word.ofNat 6 1) := by
    rw [Word.DifferenceOverflows, least, one, Word.width_ofNat]
    decide
  have unrelated : ¬ Condition.sign.Compares (Word.ofNat 6 32) (Word.ofNat 6 1) := by
    rintro (⟨_, within⟩ | ⟨_, other⟩)
    · exact within overflows
    · exact other less
  obtain ⟨_, stepped, _, branches⟩ := comparison_decides_jumps sound fits left right
  have next := (branches later (sound_lasting.step sound) (stepped compares).2.2 "JLSS" .sign (by decide) .absolute
    _ (by decide +kernel) jumps).2 unrelated
  exact ⟨sound, compares, jumps, less, next.trans (by decide +kernel)⟩

end Machine

end WordMachine
