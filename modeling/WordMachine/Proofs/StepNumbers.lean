import WordMachine.Proofs.LastingProperties
import WordMachine.Proofs.Mirrors

namespace WordMachine

theorem residue_natCast (width number : Nat) : residue width number = number % 2 ^ width := by
  rw [residue, show ((2 : Int) ^ width) = ((2 ^ width : Nat) : Int) by norm_cast,
    ← Int.natCast_emod, Int.toNat_natCast]

theorem natCast_residue (width : Nat) (number : Int) :
    (residue width number : Int) = number % 2 ^ width :=
  Int.toNat_of_nonneg (Int.emod_nonneg _ (by positivity))

/-- A residue is a number of the width. -/
theorem residue_lt (width : Nat) (number : Int) : residue width number < 2 ^ width := by
  have bound : (residue width number : Int) < 2 ^ width := by
    rw [natCast_residue]
    exact Int.emod_lt_of_pos number (by positivity)
  exact_mod_cast bound

theorem Word.ofNat_residue (width number : Nat) :
    ofNat width (residue width number) = ofNat width number := by
  apply eq_of_value_eq
  · rw [width_ofNat, width_ofNat]
  · rw [value_ofNat, value_ofNat, residue_natCast, Nat.mod_mod]

/-- Numbers that differ by a multiple of the count of all numbers leave one remainder. -/
theorem residue_eq_of_emod_eq {width : Nat} {first second : Int}
    (same : first % 2 ^ width = second % 2 ^ width) :
    residue width first = residue width second := by
  rw [residue, residue, same]

/-- A difference can be counted from the top of the numbers of the width. -/
theorem residue_sub {width left right : Nat} (small : right ≤ 2 ^ width) :
    residue width (left - right) = (left + (2 ^ width - right)) % 2 ^ width := by
  rw [← residue_natCast]
  apply residue_eq_of_emod_eq
  rw [Nat.cast_add, Nat.cast_sub small, Nat.cast_pow, Nat.cast_ofNat,
    show (left : Int) + (2 ^ width - right) = left - right + 2 ^ width by ring,
    Int.add_emod_right]

/-- A negation can be counted from the top of any wider range of numbers. -/
theorem residue_neg {width wider number : Nat} (within : width ≤ wider)
    (small : number ≤ 2 ^ wider) :
    residue width (-number) = (2 ^ wider - number) % 2 ^ width := by
  rw [← residue_natCast]
  apply residue_eq_of_emod_eq
  rw [Nat.cast_sub small, Nat.cast_pow, Nat.cast_ofNat, ← Nat.add_sub_cancel' within, pow_add,
    show (2 : Int) ^ width * 2 ^ (wider - width) - number =
      -number + 2 ^ width * 2 ^ (wider - width) by ring,
    Int.add_mul_emod_self_left]

namespace Outcome

/-- The numbers in an outcome. -/
def numbers (outcome : Outcome) : NumberOutcome := ⟨outcome.word.value, outcome.flags⟩

theorem ofRaw_width (raw : Word) (width : Nat) : (ofRaw raw width).word.width = width :=
  Word.width_lowBits _ _

/-- A raw result is known by its residue. -/
theorem ofRaw_numbers {raw : Word} {width : Nat} {result : Int}
    (same : residue width result = raw.value % 2 ^ width) :
    (ofRaw raw width).numbers =
      .ofResult width result (decide (width < raw.width)) (decide (residue width result = 0)) := by
  rw [NumberOutcome.ofResult, same, numbers, ofRaw, Flags.ofRaw_eq, Word.value_lowBits]

/-- Addition agrees with that of the numbers. -/
theorem add_numbers {first second : Word} {width : Nat} (firstFits : first.width = width)
    (secondFits : second.width ≤ width) :
    (ofRaw (first.add second) width).numbers =
      .add width first.value second.value := by
  have same : residue width (first.value + second.value) =
      (first.add second).value % 2 ^ width := by
    rw [Word.value_add, ← Nat.cast_add, residue_natCast]
  rw [ofRaw_numbers same, NumberOutcome.add,
    decide_eq_decide.2 (Word.width_add_of_width_le firstFits secondFits)]

/-- Subtraction agrees with that of the numbers. -/
theorem subtract_numbers {first second : Word} {width : Nat} (positive : 1 ≤ width)
    (firstFits : first.width ≤ width) (secondFits : second.width ≤ width) :
    (subtract first second width).numbers = .subtract width first.value second.value := by
  have same : residue width (first.value - second.value) =
      (first.subtract second width).value % 2 ^ width := by
    rw [Word.value_subtract secondFits, residue_sub (Word.value_lt_of_width_le secondFits).le]
  rw [subtract, ofRaw_numbers same, NumberOutcome.subtract,
    decide_eq_decide.2 (Word.width_subtract positive firstFits secondFits)]

/-- The word that takes part in a multiplication in place of a factor. -/
theorem factor_value {word other : Word} {width : Nat} (fits : word.width = width)
    (otherFits : other.width = width) :
    (if (word.msb != other.msb) && word.msb then (word.negate width).lowBits width
      else word).value = NumberOutcome.factor width word.value other.value := by
  have small := Word.value_lt_of_width_le fits.le
  rw [Word.msb_eq, Word.msb_eq, fits, otherFits, NumberOutcome.factor]
  by_cases negative : 2 ^ width ≤ 2 * word.value
  · by_cases otherNegative : 2 ^ width ≤ 2 * other.value
    · simp [NumberOutcome.isNegative, negative, otherNegative]
    · have kept : (2 ^ width - word.value) % 2 ^ width = 2 ^ width - word.value :=
        Nat.mod_eq_of_lt (by have positive := Nat.two_pow_pos width; omega)
      simp [NumberOutcome.isNegative, negative, otherNegative, Word.value_negate fits.le, kept]
  · simp [NumberOutcome.isNegative, negative]

/-- A factor is zero when its number is. -/
theorem factor_eq_zero_iff {width number other : Nat} (small : number < 2 ^ width) :
    NumberOutcome.factor width number other = 0 ↔ number = 0 := by
  unfold NumberOutcome.factor
  split <;> rename_i signed
  · have positive := Nat.two_pow_pos width
    simp only [NumberOutcome.isNegative, Bool.and_eq_true, decide_eq_true_eq] at signed
    omega
  · rfl

/-- Multiplying the factors without their signs and then restoring the sign keeps the remainder
of the product. -/
theorem residue_factors {width left right : Nat} (leftSmall : left ≤ 2 ^ width)
    (rightSmall : right ≤ 2 ^ width) :
    ((left : Int) * right) % 2 ^ width =
      (if NumberOutcome.isNegative width left != NumberOutcome.isNegative width right then
        -((NumberOutcome.factor width left right : Int) * NumberOutcome.factor width right left)
      else NumberOutcome.factor width left right * NumberOutcome.factor width right left)
        % 2 ^ width := by
  unfold NumberOutcome.factor
  cases NumberOutcome.isNegative width left <;> cases NumberOutcome.isNegative width right
  · rfl
  · simp only [Bool.false_and, Bool.not_false, Bool.and_true, if_true, Bool.false_bne,
      Bool.false_eq_true, if_false]
    rw [Nat.cast_sub rightSmall, Nat.cast_pow, Nat.cast_ofNat,
      show -((left : Int) * (2 ^ width - right)) = left * right + 2 ^ width * -left by ring,
      Int.add_mul_emod_self_left]
  · simp only [Bool.false_and, Bool.not_false, Bool.and_true, if_true, Bool.bne_false,
      Bool.false_eq_true, if_false]
    rw [Nat.cast_sub leftSmall, Nat.cast_pow, Nat.cast_ofNat,
      show -(((2 : Int) ^ width - left) * right) = left * right + 2 ^ width * -right by ring,
      Int.add_mul_emod_self_left]
  · rfl

/-- Multiplication agrees with that of the numbers. -/
theorem multiply_numbers {first second : Word} {width : Nat} (firstFits : first.width = width)
    (secondFits : second.width = width) :
    (multiply first second width).numbers = .multiply width first.value second.value := by
  have firstSmall := Word.value_lt_of_width_le firstFits.le
  have secondSmall := Word.value_lt_of_width_le secondFits.le
  have swapped : ((first.msb != second.msb) && !first.msb) =
      ((second.msb != first.msb) && second.msb) := by
    cases first.msb <;> cases second.msb <;> rfl
  have leftValue := factor_value firstFits secondFits
  have rightValue := factor_value secondFits firstFits
  simp only [multiply, numbers, swapped]
  generalize (if (first.msb != second.msb) && first.msb then _ else first : Word) = left at *
  generalize (if (second.msb != first.msb) && second.msb then _ else second : Word) = right at *
  have product : (left.multiply right).value =
      NumberOutcome.factor width first.value second.value *
        NumberOutcome.factor width second.value first.value := by
    rw [Word.value_multiply, leftValue, rightValue]
  have result : ((if first.msb != second.msb then (left.multiply right).negate width
      else left.multiply right).lowBits width).value =
        residue width (first.value * second.value) := by
    have restored := residue_eq_of_emod_eq (residue_factors firstSmall.le secondSmall.le)
    have signs : (first.msb != second.msb) =
        (NumberOutcome.isNegative width first.value !=
          NumberOutcome.isNegative width second.value) := by
      rw [Word.msb_eq, Word.msb_eq, firstFits, secondFits]
      rfl
    rw [restored, Word.value_lowBits, ← signs, ← Nat.cast_mul, ← product]
    split
    · have bound := Word.value_lt_of_width_le (Nat.le_max_right width (left.multiply right).width)
      rw [Word.value_negate_max, residue_neg (Nat.le_max_left _ _) bound.le]
    · rw [residue_natCast]
  generalize (if first.msb != second.msb then _ else left.multiply right : Word) = signed at *
  rw [Word.msb_eq, Word.width_lowBits, result, Word.exceeds_eq, product, Word.isZero_eq,
    Word.isZero_eq, leftValue, rightValue, ← Bool.decide_or,
    decide_eq_decide.2 (or_congr (factor_eq_zero_iff firstSmall) (factor_eq_zero_iff secondSmall))]
  rfl

end Outcome

/-- Every binary operation on words gives the numbers of the operation on numbers. -/
theorem Binary.outcome_numbers (operation : Binary) {first second : Word} {width : Nat}
    (positive : 1 ≤ width) (firstFits : first.width = width) (secondFits : second.width = width) :
    (operation.outcome first second width).numbers =
      operation.numberOutcome width first.value second.value := by
  cases operation with
  | add => exact Outcome.add_numbers firstFits secondFits.le
  | sub | cmp => exact Outcome.subtract_numbers positive firstFits.le secondFits.le
  | mul => exact Outcome.multiply_numbers firstFits secondFits

/-- Results have the width. -/
theorem Binary.outcome_width (operation : Binary) (first second : Word) (width : Nat) :
    (operation.outcome first second width).word.width = width := by
  cases operation <;> exact Word.width_lowBits _ _

namespace Machine

variable {machine : Machine}

/-- A read of the memory agrees with that of the numbers. -/
theorem Sound.readRam_mirrors (sound : machine.Sound) {address : Word}
    (tight : address.Tight machine.width) :
    Traced.Mirrors Word.value (machine.readRam address)
      (machine.numbers.ram.read machine.width address.value) :=
  sound.ram.read_mirrors sound.width_le tight

/-- A read of a register agrees with that of the numbers. -/
theorem Sound.readRegister_mirrors (sound : machine.Sound) {index : Word}
    (fits : index.width = machine.width) :
    Traced.Mirrors Word.value (machine.readRegister index)
      (machine.numbers.registers.read machine.width index.value) :=
  sound.registers.read_mirrors sound.width_le (Or.inl fits.le)

/-- Fetching a value agrees with that of the numbers. -/
theorem Sound.fetchValue_mirrors (sound : machine.Sound) (mode : Mode) {operand : Word}
    (fits : operand.width = machine.width) :
    Traced.Mirrors Word.value (machine.fetchValue mode operand)
      (machine.numbers.fetchValue mode operand.value) := by
  cases mode with
  | register => exact sound.readRegister_mirrors fits
  | memory => exact sound.readRam_mirrors (Or.inl fits.le)
  | immediate | relative => exact Traced.Mirrors.pure rfl

theorem Sound.writeRegister_mirrors (sound : machine.Sound) {index word : Word}
    (indexFits : index.width = machine.width) (wordFits : word.width = machine.width) :
    Traced.Mirrors Memory.numbers
      (writeOr machine.registers (machine.registers.write index word))
      (machine.numbers.registers.write machine.width index.value word.value) :=
  sound.registers.write_mirrors sound.width_le (Or.inl indexFits.le) wordFits

/-- Storing a value agrees with that of the numbers. -/
theorem Sound.storeValue_mirrors (sound : machine.Sound) (mode : Mode) {operand word : Word}
    (operandFits : operand.width = machine.width) (wordFits : word.width = machine.width) :
    Traced.Mirrors numbers (machine.storeValue mode operand word)
      (machine.numbers.storeValue mode operand.value word.value) := by
  cases mode with
  | memory =>
      have written := sound.ram.write_mirrors sound.width_le (Or.inl operandFits.le) wordFits
      exact written.bind (.pure rfl)
  | register | immediate | relative =>
      exact (sound.writeRegister_mirrors operandFits wordFits).bind (.pure rfl)

/-- Storing a result agrees with that of the numbers. -/
theorem Sound.storeOutcome_mirrors (sound : machine.Sound) {index : Word} {outcome : Outcome}
    (indexFits : index.width = machine.width) (outcomeFits : outcome.word.width = machine.width) :
    Traced.Mirrors numbers (machine.storeOutcome index outcome)
      (machine.numbers.storeOutcome index.value outcome.numbers) :=
  (sound.writeRegister_mirrors indexFits outcomeFits).bind (.pure rfl)

/-- The operands are read at the numbers after the program counter, which do not wrap around. -/
theorem Sound.fetchOperands_mirrors (sound : machine.Sound) (opcode : Opcode) :
    Traced.Mirrors Instruction.numbers (machine.fetchOperands opcode)
      (machine.numbers.fetchOperands opcode) := by
  have zero : (Word.zero machine.width).value = 0 := Word.value_zero _
  have here : machine.pc.Tight machine.width := Or.inl sound.pc_width.le
  have firstRead := sound.readRam_mirrors (here.increment sound.width_pos)
  have secondRead :=
    sound.readRam_mirrors ((here.increment sound.width_pos).increment sound.width_pos)
  rw [Word.value_increment] at firstRead
  rw [Word.value_increment, Word.value_increment] at secondRead
  have numbers (first second : Word) :
      NumberInstruction.mk opcode first.value second.value =
        Instruction.numbers ⟨opcode, first, second⟩ := rfl
  unfold fetchOperands NumberMachine.fetchOperands
  match opcode.modes with
  | [] => exact ⟨by simp [Instruction.numbers, zero], rfl⟩
  | [_] => exact firstRead.bind ⟨by simp [Instruction.numbers, zero], rfl⟩
  | _ :: _ :: _ =>
      simp only [List.length_cons, Nat.le_add_left, if_true]
      exact firstRead.bind (secondRead.bind (.pure (numbers _ _)))

/-- Fetched operands have the width. -/
theorem Sound.fetchOperands_width (sound : machine.Sound) (opcode : Opcode) :
    (machine.fetchOperands opcode).value.first.width = machine.width ∧
      (machine.fetchOperands opcode).value.second.width = machine.width := by
  unfold fetchOperands
  split
  · exact ⟨Word.width_zero _, Word.width_zero _⟩
  · exact ⟨sound.readRam_width _, Word.width_zero _⟩
  · exact ⟨sound.readRam_width _, sound.readRam_width _⟩

/-- A jump sets the program counter to the remainder of its target. -/
theorem jumpTo_numbers (sameWidth : machine.control.width = machine.width) {address : Word}
    {target : Int} (same : (address.value : Int) % 2 ^ machine.width = target % 2 ^ machine.width) :
    (machine.jumpTo address).numbers =
      { machine.numbers with pc := residue machine.width target } := by
  rw [← residue_eq_of_emod_eq same, residue_natCast, ← sameWidth, ← Word.value_lowBits]
  rfl

/-- The program counter moves on like its number. -/
theorem Sound.advance_numbers (sound : machine.Sound) :
    machine.advance.numbers =
      { machine.numbers with pc := residue machine.width (machine.pc.value + 3) } := by
  apply jumpTo_numbers sound.control_width
  rw [Word.value_add]
  rfl

theorem Sound.withFlags_advance_numbers (sound : machine.Sound) (flags : Flags) :
    (machine.withFlags flags).advance.numbers =
      { machine.numbers with
        flags := flags
        pc := residue machine.width (machine.pc.value + 3) } := by
  rw [(sound_lasting.withFlags sound flags).advance_numbers]
  rfl

theorem Sound.storeOutcome_advance_numbers (sound : machine.Sound) (index : Word)
    (outcome : Outcome) :
    (machine.storeOutcome index outcome).value.advance.numbers =
      { (machine.storeOutcome index outcome).value.numbers with
        pc := residue machine.width (machine.pc.value + 3) } :=
  (sound_lasting.storeOutcome sound index outcome).advance_numbers

/-- A relative jump moves the program counter like its number. -/
theorem Sound.jumpBy_numbers (sound : machine.Sound) (distance : Word) :
    (machine.jumpBy distance).numbers =
      { machine.numbers with
        pc := residue machine.width (machine.pc.value + 3 * distance.value) } := by
  apply jumpTo_numbers sound.control_width
  have three : stride.value = 3 := rfl
  rw [Word.value_add, Word.value_lowBits, Word.value_multiply, three, Nat.mul_comm]
  push_cast
  exact Int.add_emod_emod ..

/-- A move agrees with that of the numbers. -/
theorem Sound.move_mirrors (sound : machine.Sound) (transfer : Transfer) {first second : Word}
    (firstFits : first.width = machine.width) (secondFits : second.width = machine.width) :
    Traced.Mirrors numbers (machine.execute ⟨.move transfer, first, second⟩)
      (machine.numbers.execute ⟨.move transfer, first.value, second.value⟩) := by
  have wordFits := sound.fetchValue_width transfer.source secondFits
  have stored := sound.storeValue_mirrors transfer.destination firstFits wordFits
  simp only [NumberMachine.execute, NumberMachine.perform, bind_assoc]
  refine (sound.fetchValue_mirrors transfer.source secondFits).bind (stored.bind (.pure ?_))
  cases transfer with
  | memoryFromImmediate | memoryFromRegister =>
      exact (sound_lasting.writeRam sound first _).advance_numbers.symm
  | registerFromImmediate | registerFromMemory | registerFromRegister =>
      exact (sound_lasting.writeRegister sound first _).advance_numbers.symm

/-- An output agrees with that of the numbers. -/
theorem Sound.out_mirrors (sound : machine.Sound) (cell : Cell) {first second : Word}
    (firstFits : first.width = machine.width) :
    Traced.Mirrors numbers (machine.execute ⟨.out cell, first, second⟩)
      (machine.numbers.execute ⟨.out cell, first.value, second.value⟩) := by
  have shown : Word.ofNat machine.numbers.width (machine.fetchValue cell.mode first).value.value =
      (machine.fetchValue cell.mode first).value :=
    (Word.eq_ofNat (sound.fetchValue_width cell.mode firstFits)).symm
  simp only [NumberMachine.execute, NumberMachine.perform, bind_assoc]
  exact (sound.fetchValue_mirrors cell.mode firstFits).bind
    ((Traced.Mirrors.emit (congrArg Event.out shown)).bind (.pure sound.advance_numbers.symm))

/-- An arithmetic instruction agrees with that of the numbers. -/
theorem Sound.binary_mirrors (sound : machine.Sound) (operation : Binary) (source : Source)
    {first second : Word} (firstFits : first.width = machine.width)
    (secondFits : second.width = machine.width) :
    Traced.Mirrors numbers (machine.execute ⟨.binary operation source, first, second⟩)
      (machine.numbers.execute ⟨.binary operation source, first.value, second.value⟩) := by
  have outcome := operation.outcome_numbers sound.width_pos (sound.readRegister_width first)
    (sound.fetchValue_width source.mode secondFits)
  have stored := sound.storeOutcome_mirrors firstFits (operation.outcome_width
    (machine.readRegister first).value (machine.fetchValue source.mode second).value machine.width)
  rw [outcome] at stored
  simp only [NumberMachine.execute, NumberMachine.perform, bind_assoc]
  refine (sound.readRegister_mirrors firstFits).bind
    ((sound.fetchValue_mirrors source.mode secondFits).bind ?_)
  cases operation with
  | cmp =>
      change Traced.Mirrors numbers (pure (machine.withFlags _).advance)
        (pure { machine.numbers with
          flags := (Binary.cmp.numberOutcome machine.width _ _).flags
          pc := residue machine.width (machine.pc.value + 3) })
      rw [← outcome]
      exact .pure
        (sound.withFlags_advance_numbers (Binary.cmp.outcome _ _ machine.width).flags).symm
  | add | sub | mul => exact stored.bind (.pure (sound.storeOutcome_advance_numbers _ _).symm)

/-- Counting a register up and down are the addition and the subtraction of one. -/
theorem Sound.count_mirrors (sound : machine.Sound) {first : Word}
    (firstFits : first.width = machine.width) {compute : Word → Outcome}
    {computeNumber : Nat → NumberOutcome}
    (outcomeFits : ∀ word, (compute word).word.width = machine.width)
    (same : ∀ word : Word, word.width = machine.width →
      (compute word).numbers = computeNumber word.value) :
    Traced.Mirrors numbers
      (do
        let word ← machine.readRegister first
        let machine ← machine.storeOutcome first (compute word)
        pure machine.advance)
      (do
        let number ← machine.numbers.registers.read machine.width first.value
        let performed ← machine.numbers.storeOutcome first.value (computeNumber number)
        pure { performed with pc := residue machine.width (machine.pc.value + 3) }) := by
  have stored := sound.storeOutcome_mirrors firstFits
    (outcomeFits (machine.readRegister first).value)
  rw [same _ (sound.readRegister_width first)] at stored
  exact (sound.readRegister_mirrors firstFits).bind
    (stored.bind (.pure (sound.storeOutcome_advance_numbers _ _).symm))

/-- A jump agrees with that of the numbers. -/
theorem Sound.jump_mirrors (sound : machine.Sound) (condition : Condition) (target : Target)
    {first second : Word} (firstFits : first.width = machine.width) :
    Traced.Mirrors numbers (machine.execute ⟨.jump condition target, first, second⟩)
      (machine.numbers.execute ⟨.jump condition target, first.value, second.value⟩) := by
  have kept : residue machine.width first.value = first.value := by
    rw [residue_natCast, Nat.mod_eq_of_lt (Word.value_lt_of_width_le firstFits.le)]
  have jumped : (machine.jumpTo first).numbers = { machine.numbers with pc := first.value } := by
    rw [jumpTo_numbers sound.control_width rfl, kept]
  simp only [Machine.execute, NumberMachine.execute, NumberMachine.perform, NumberMachine.target,
    pure_bind]
  change Traced.Mirrors numbers _ (pure { machine.numbers with
    pc := if condition.holds machine.flags then _ else _ })
  by_cases holds : condition.holds machine.flags
  · rw [if_pos holds, if_pos holds]
    cases target with
    | absolute => exact .pure jumped.symm
    | relative => exact .pure (sound.jumpBy_numbers first).symm
  · rw [if_neg holds, if_neg holds]
    exact .pure sound.advance_numbers.symm

/-- Executing an instruction of words agrees with executing its numbers. -/
theorem Sound.execute_mirrors (sound : machine.Sound) {instruction : Instruction}
    (firstFits : instruction.first.width = machine.width)
    (secondFits : instruction.second.width = machine.width) :
    Traced.Mirrors numbers (machine.execute instruction)
      (machine.numbers.execute instruction.numbers) := by
  obtain ⟨opcode, first, second⟩ := instruction
  cases opcode with
  | halt => exact .pure rfl
  | idle => exact .pure sound.advance_numbers.symm
  | move transfer => exact sound.move_mirrors transfer firstFits secondFits
  | out cell => exact sound.out_mirrors cell firstFits
  | binary operation source => exact sound.binary_mirrors operation source firstFits secondFits
  | increment =>
      simp only [Machine.execute, NumberMachine.execute, NumberMachine.perform, Instruction.numbers,
        bind_assoc]
      exact sound.count_mirrors firstFits (fun word => Outcome.ofRaw_width _ _) fun word fits =>
        Outcome.add_numbers fits (Word.width_one.trans_le sound.width_pos)
  | decrement =>
      simp only [Machine.execute, NumberMachine.execute, NumberMachine.perform, Instruction.numbers,
        bind_assoc]
      exact sound.count_mirrors firstFits (fun word => Outcome.ofRaw_width _ _) fun word fits =>
        Outcome.subtract_numbers sound.width_pos fits.le (Word.width_one.trans_le sound.width_pos)
  | jump condition target => exact sound.jump_mirrors condition target firstFits

section Target

variable {instruction : Instruction}

/-- Executing an instruction moves the program counter to the target of its numbers. -/
theorem Sound.execute_pc (sound : machine.Sound)
    (firstFits : instruction.first.width = machine.width)
    (secondFits : instruction.second.width = machine.width) :
    (machine.execute instruction).value.pc.value =
      machine.numbers.target instruction.numbers :=
  congrArg NumberMachine.pc (sound.execute_mirrors firstFits secondFits).value.symm

/-- The next step moves the program counter to the target of the fetched instruction. -/
theorem Sound.step_pc (sound : machine.Sound) (fetches : machine.Fetches instruction) :
    machine.step.value.1.pc.value = machine.numbers.target instruction.numbers := by
  have fetched := sound_lasting.fetched sound
  have operandsFit := fetched.fetchOperands_width instruction.opcode
  rw [fetches.2] at operandsFit
  rw [fetches.step_value]
  exact fetched.execute_pc operandsFit.1 operandsFit.2

end Target

theorem ofWord?_eq {word : Word} (narrow : word.width ≤ 64) :
    Opcode.ofWord? word = Opcode.ofCode? word.value := by
  rw [Opcode.ofWord?, Word.unsigned_eq narrow]

/-- A step agrees with that of the numbers. -/
theorem Sound.step_mirrors (sound : machine.Sound) :
    Traced.Mirrors (fun answer => (answer.1.numbers, answer.2)) machine.step
      machine.numbers.step := by
  have irWidth := sound.readRam_width machine.pc
  have pcNumber := Word.unsigned_eq (sound.pc_width.trans_le sound.width_le)
  have irNumber := Word.unsigned_eq (irWidth.trans_le sound.width_le)
  have decoding := ofWord?_eq (irWidth.trans_le sound.width_le)
  have shown (next : Machine) (nextSound : next.Sound) (sameWidth : next.width = machine.width) :
      Word.ofNat machine.width next.pc.value = next.pc := by
    rw [← sameWidth]
    exact (Word.eq_ofNat nextSound.pc_width).symm
  unfold Machine.step NumberMachine.step
  apply (sound.readRam_mirrors (Or.inl sound.pc_width.le)).bind
  dsimp only
  rw [← decoding]
  have fetched := sound_lasting.fetched sound
  cases decoded : Opcode.ofWord? (machine.readRam machine.pc).value with
  | none =>
      have next := fetched.advance_numbers
      have same := shown _ (sound_lasting.advance fetched) rfl
      rw [show machine.fetched.advance.pc.value = _ from congrArg NumberMachine.pc next] at same
      have cause : Fault.unknownOpcode (machine.readRam machine.pc).value.value machine.pc.value =
          .unknownOpcode (machine.readRam machine.pc).value.unsigned machine.pc.unsigned := by
        rw [irNumber, pcNumber]
      exact (Traced.Mirrors.emit (congrArg Event.fault cause)).bind
        ((Traced.Mirrors.emit (congrArg Event.step same)).bind (.pure (Prod.ext next.symm rfl)))
  | some opcode =>
      have operands := fetched.fetchOperands_mirrors opcode
      have fits := fetched.fetchOperands_width opcode
      have executed := fetched.execute_mirrors fits.1 fits.2
      have same := shown _
        (sound_lasting.execute fetched (machine.fetched.fetchOperands opcode).value)
        (execute_width _ _)
      exact operands.bind (executed.bind
        ((Traced.Mirrors.emit (congrArg Event.step same)).bind (.pure rfl)))

/-- A step of a sound machine is a step of its number machine: the next state, the answer and all
events agree, and the next machine is sound again. -/
theorem step_refines_numbers (machine : Machine) (sound : machine.Sound) :
    machine.numbers.step =
        ⟨(machine.step.value.1.numbers, machine.step.value.2), machine.step.events⟩ ∧
      machine.step.value.1.Sound := by
  have mirrored := sound.step_mirrors
  exact ⟨Traced.ext mirrored.value mirrored.events, sound_lasting.step sound⟩

/-- The machine of one bit without memory reads a fault at its last address and halts. -/
theorem step_refines_numbers_one_bit :
    ((build ⟨1, 1, 0⟩).withPc Word.one).Sound ∧
      ((build ⟨1, 1, 0⟩).withPc Word.one).numbers.step =
        ⟨(((build ⟨1, 1, 0⟩).withPc Word.one).step.value.1.numbers,
          ((build ⟨1, 1, 0⟩).withPc Word.one).step.value.2),
          ((build ⟨1, 1, 0⟩).withPc Word.one).step.events⟩ ∧
      ((build ⟨1, 1, 0⟩).withPc Word.one).step.value.1.Sound :=
  have valid : (⟨1, 1, 0⟩ : Architecture).validate = .ok () := rfl
  have fits : Word.one.width = (build ⟨1, 1, 0⟩).width := rfl
  have sound := sound_lasting.withPc (build_sound valid) fits
  ⟨sound, step_refines_numbers _ sound⟩

end Machine

end WordMachine
