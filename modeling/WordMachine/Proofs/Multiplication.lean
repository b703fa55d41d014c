import WordMachine.Proofs.Loading
import WordMachine.Proofs.StepNumbers
import WordMachine.Proofs.Success

namespace WordMachine

namespace Word

/-- The magnitude of the signed reading of a machine word. -/
theorem natAbs_signed {word : Word} {width : Nat} (narrow : width ≤ 64)
    (fits : word.width = width) :
    word.signed.natAbs =
      if NumberOutcome.isNegative width word.value then 2 ^ width - word.value
      else word.value := by
  have small := value_lt_of_width_le fits.le
  have cast : ((2 ^ width : Nat) : Int) = 2 ^ width := by norm_cast
  rw [signed_eq (fits.trans_le narrow), fits, NumberOutcome.isNegative]
  simp only [decide_eq_true_eq]
  split
  · omega
  · rfl

/-- A word reads as a negative number when its top bit is set. -/
theorem signed_neg_iff {word : Word} {width : Nat} (narrow : width ≤ 64)
    (fits : word.width = width) :
    word.signed < 0 ↔ NumberOutcome.isNegative width word.value = true := by
  have small := value_lt_of_width_le fits.le
  have cast : ((2 ^ width : Nat) : Int) = 2 ^ width := by norm_cast
  rw [signed_eq (fits.trans_le narrow), fits, NumberOutcome.isNegative, decide_eq_true_eq]
  split <;> omega

end Word

namespace Outcome

variable {first second : Word} {width : Nat}

/-- The product of the numbers and the product of the signed readings keep the same bits, so the
signs of the factors make no difference. -/
theorem multiply_modEq (narrow : width ≤ 64) (firstFits : first.width = width)
    (secondFits : second.width = width) :
    ((multiply first second width).word.value : Int) ≡ first.signed * second.signed
      [ZMOD 2 ^ width] := by
  have kept : (multiply first second width).word.value =
      residue width (first.value * second.value) :=
    congrArg NumberOutcome.number (multiply_numbers firstFits secondFits)
  have firstReading := Word.signed_modEq narrow firstFits
  have secondReading := Word.signed_modEq narrow secondFits
  calc ((multiply first second width).word.value : Int)
      = first.value * second.value % 2 ^ width := by rw [kept, natCast_residue]
    _ ≡ first.value * second.value [ZMOD 2 ^ width] := Int.mod_modEq _ _
    _ ≡ first.signed * second.signed [ZMOD 2 ^ width] :=
        (firstReading.mul secondReading).symm

/-- The zero flag tells whether a factor is zero. -/
theorem multiply_zero (firstFits : first.width = width) (secondFits : second.width = width) :
    (multiply first second width).flags.zero = decide (first.value = 0 ∨ second.value = 0) :=
  congrArg (fun outcome => outcome.flags.zero) (multiply_numbers firstFits secondFits)

/-- Two factors in the upper half of the numbers have a product beyond all numbers, unless the
width has a single bit. -/
theorem upper_half_mul {left right : Nat} (positive : 1 ≤ width) (leftSmall : left < 2 ^ width)
    (rightSmall : right < 2 ^ width) (leftUpper : 2 ^ width ≤ 2 * left)
    (rightUpper : 2 ^ width ≤ 2 * right) :
    2 ^ width ≤ left * right ↔
      2 ^ width ≤ (2 ^ width - left) * (2 ^ width - right) ∨ 2 ≤ width := by
  rcases Nat.eq_or_lt_of_le positive with rfl | wide
  · obtain rfl : left = 1 := by omega
    obtain rfl : right = 1 := by omega
    decide
  · have four : 2 ^ 2 ≤ 2 ^ width := Nat.pow_le_pow_right (by decide) wide
    have two : 2 ≤ right := by omega
    have product : 2 ^ width ≤ left * right :=
      calc 2 ^ width ≤ left * 2 := by omega
        _ ≤ left * right := Nat.mul_le_mul_left left two
    exact ⟨fun _ => Or.inr wide, fun _ => product⟩

/-- A product carries when the product of the factors as multiplied reaches the count of all
numbers. -/
theorem multiply_carry_iff (positive : 1 ≤ width) (narrow : width ≤ 64)
    (firstFits : first.width = width) (secondFits : second.width = width) :
    (multiply first second width).flags.carry = true ↔
      2 ^ width ≤ first.signed.natAbs * second.signed.natAbs ∨
        2 ≤ width ∧ first.signed < 0 ∧ second.signed < 0 := by
  have firstSmall := Word.value_lt_of_width_le firstFits.le
  have secondSmall := Word.value_lt_of_width_le secondFits.le
  have carry : (multiply first second width).flags.carry = decide (2 ^ width ≤
      NumberOutcome.factor width first.value second.value *
        NumberOutcome.factor width second.value first.value) :=
    congrArg (fun outcome => outcome.flags.carry) (multiply_numbers firstFits secondFits)
  rw [carry, decide_eq_true_eq, Word.natAbs_signed narrow firstFits,
    Word.natAbs_signed narrow secondFits, Word.signed_neg_iff narrow firstFits,
    Word.signed_neg_iff narrow secondFits, NumberOutcome.factor, NumberOutcome.factor]
  cases left : NumberOutcome.isNegative width first.value <;>
    cases right : NumberOutcome.isNegative width second.value
  · simp
  · simp
  · simp
  · have leftUpper := of_decide_eq_true left
    have rightUpper := of_decide_eq_true right
    simpa using upper_half_mul positive firstSmall secondSmall leftUpper rightUpper

end Outcome

namespace Memory

variable {memory : Memory} {width capacity : Nat} {index found : Word}

/-- A register that is read has an address. -/
theorem addressOf_of_read (narrow : memory.width ≤ 64) (readable : memory.read index = .ok found) :
    memory.addressOf index = .ok index.value ∧ memory.cell index.value = found := by
  obtain ⟨address, located, same⟩ := bind_eq_ok_iff.mp readable
  have cell := pure_eq_ok_iff.mp same
  unfold addressOf at located
  split at located
  · cases located
  · rename_i short
    obtain ⟨_, inside, here⟩ := bind_eq_ok_iff.mp located
    have number := Word.unsigned_eq ((Nat.le_of_not_lt short).trans narrow)
    obtain rfl := pure_eq_ok_iff.mp here
    rw [number] at inside cell
    rw [addressOf, if_neg short, number, inside]
    exact ⟨rfl, cell⟩

theorem Holds.read_width (holds : memory.Holds width capacity) (narrow : width ≤ 64)
    (readable : memory.read index = .ok found) : found.width = width := by
  rw [← (addressOf_of_read (holds.width_eq.trans_le narrow) readable).2]
  exact holds.cell_width index.value

/-- A cell that can be read can be written. -/
theorem Holds.write_of_read (holds : memory.Holds width capacity) (narrow : width ≤ 64)
    (readable : memory.read index = .ok found) {word : Word} (fits : word.width = width) :
    memory.write index word =
      .ok { memory with cells := memory.cells.insert index.value word } := by
  rw [Memory.write, (addressOf_of_read (holds.width_eq.trans_le narrow) readable).1]
  exact holds.store_eq index.value fits

end Memory

namespace Machine

variable {machine : Machine}

/-- The word that an operand names, unless it cannot be read. -/
def valueOf (machine : Machine) (mode : Mode) (operand : Word) : Except MemoryError Word :=
  match mode with
  | .register => machine.registers.read operand
  | .memory => machine.ram.read operand
  | .immediate | .relative => .ok operand

/-- A value that cannot be fetched is zero. -/
theorem fetchValue_eq_readOr (machine : Machine) (mode : Mode) (operand : Word) :
    machine.fetchValue mode operand = readOr machine.width (machine.valueOf mode operand) := by
  cases mode <;> rfl

theorem Sound.valueOf_width (sound : machine.Sound) (mode : Mode) {operand word : Word}
    (fits : operand.width = machine.width) (readable : machine.valueOf mode operand = .ok word) :
    word.width = machine.width := by
  have fetched := sound.fetchValue_width mode fits
  rw [fetchValue_eq_readOr, readable] at fetched
  exact fetched

/-- A result is stored with its flags. -/
theorem storeOutcome_of_write {index : Word} {outcome : Outcome} {registers : Memory}
    (written : machine.registers.write index outcome.word = .ok registers) :
    (machine.storeOutcome index outcome).value =
      { machine.withFlags outcome.flags with registers := registers } := by
  have stored : (machine.storeOutcome index outcome).value =
      { machine.withFlags outcome.flags with
        registers := (writeOr machine.registers
          (machine.registers.write index outcome.word)).value } := rfl
  rw [stored, written]
  rfl

/-- The program counter moves by three and wraps around at the width. -/
theorem advance_eq (sameWidth : machine.control.width = machine.width) :
    machine.advance = machine.withPc (Word.ofNat machine.width (machine.pc.value + 3)) := by
  have next : (machine.pc.add stride).lowBits machine.control.width =
      Word.ofNat machine.width (machine.pc.value + 3) := by
    rw [Word.lowBits_eq_ofNat, Word.value_add, sameWidth]
    rfl
  rw [← next]
  rfl

/-- A binary operation that keeps its result changes the destination register, the flags and the
program counter. -/
theorem Sound.execute_binary (sound : machine.Sound) {operation : Binary} (keeps : operation ≠ .cmp)
    {source : Source} {index operand first second : Word}
    (destination : machine.registers.read index = .ok first)
    (readable : machine.valueOf source.mode operand = .ok second) :
    (machine.execute ⟨.binary operation source, index, operand⟩).value =
      let outcome := operation.outcome first second machine.width
      { machine with
        control :=
          { machine.control with
            pc := Word.ofNat machine.width (machine.pc.value + 3)
            flags := outcome.flags }
        registers :=
          { machine.registers with
            cells := machine.registers.cells.insert index.value outcome.word } } := by
  have left : (machine.readRegister index).value = first := by
    rw [readRegister, destination]
    rfl
  have right : (machine.fetchValue source.mode operand).value = second := by
    rw [fetchValue_eq_readOr, readable]
    rfl
  have executed : (machine.execute ⟨.binary operation source, index, operand⟩).value =
      (machine.storeOutcome index
        (operation.outcome first second machine.width)).value.advance := by
    rw [← left, ← right]
    cases operation with
    | cmp => exact absurd rfl keeps
    | add | sub | mul => rfl
  have written := sound.registers.write_of_read sound.width_le destination
    (operation.outcome_width first second machine.width)
  have stored := sound_lasting.storeOutcome sound index (operation.outcome first second machine.width)
  rw [storeOutcome_of_write written] at stored
  rw [executed, storeOutcome_of_write written, advance_eq stored.control_width]
  rfl

/-- A multiplication stores the bits of the product of the signed readings and sets the flags by it.
-/
theorem multiplication_keeps_signed_product (sound : machine.Sound) {source : Source}
    {index operand first second : Word} (fits : operand.width = machine.width)
    (destination : machine.registers.read index = .ok first)
    (readable : machine.valueOf source.mode operand = .ok second) :
    let instruction : Instruction := ⟨.binary .mul source, index, operand⟩
    ∃ (product : Word) (carry : Bool),
      product.width = machine.width ∧
      (product.value : Int) ≡ first.signed * second.signed [ZMOD 2 ^ machine.width] ∧
      let multiplied : Machine :=
        { machine with
          control :=
            { machine.control with
              pc := Word.ofNat machine.width (machine.pc.value + 3)
              flags := ⟨carry, decide (first.value = 0 ∨ second.value = 0), product.msb⟩ }
          registers :=
            { machine.registers with
              cells := machine.registers.cells.insert index.value product } }
      (machine.execute instruction).value = multiplied ∧
        (Opcode.ofWord? (machine.readRam machine.pc).value = some instruction.opcode →
          (machine.fetched.fetchOperands instruction.opcode).value = instruction →
          machine.step.value.1 =
            { multiplied with
              control := { multiplied.control with ir := (machine.readRam machine.pc).value }
              steps := machine.steps + 1
              lastInstruction := some instruction }) := by
  intro instruction
  have firstFits := sound.registers.read_width sound.width_le destination
  have secondFits := sound.valueOf_width source.mode fits readable
  have keeps : Binary.mul ≠ .cmp := by decide
  refine ⟨(Outcome.multiply first second machine.width).word,
    (Outcome.multiply first second machine.width).flags.carry, Word.width_lowBits _ _,
    Outcome.multiply_modEq sound.width_le firstFits secondFits, ?_⟩
  rw [← Outcome.multiply_zero firstFits secondFits]
  intro multiplied
  constructor
  · exact sound.execute_binary keeps destination readable
  · intro decoded operands
    -- Fetching changes neither the registers nor the memory that the operand names.
    have executed := (sound_lasting.fetched sound).execute_binary keeps destination readable
    have fetches : machine.Fetches instruction := ⟨decoded, operands⟩
    rw [fetches.step_value]
    exact congrArg (fun next : Machine => { next with lastInstruction := some instruction })
      executed

/-- The least number of six bits is multiplied by three. -/
theorem multiplication_keeps_signed_product_least :
    let loaded := ((build ⟨6, 1, 3⟩).load (assemble "MUL %0, #3" 6).program.bits 0).value
    let machine := (loaded.writeRegister (Word.zero 6) (Word.ofNat 6 32)).value
    machine.Sound ∧
      machine.registers.read (Word.zero 6) = .ok (Word.ofNat 6 32) ∧
      machine.valueOf .immediate (Word.ofNat 6 3) = .ok (Word.ofNat 6 3) ∧
      ∃ product : Word, (product.value : Int) ≡ -32 * 3 [ZMOD 2 ^ 6] ∧
        machine.step.value.1.registers.cell 0 = product := by
  intro loaded machine
  have valid : (⟨6, 1, 3⟩ : Architecture).validate = .ok () := rfl
  have sound : machine.Sound := sound_lasting.writeRegister (sound_lasting.load (build_sound valid) _ _) _ _
  have destination : machine.registers.read (Word.zero 6) = .ok (Word.ofNat 6 32) := by
    decide +kernel
  have readable : machine.valueOf Source.immediate.mode (Word.ofNat 6 3) = .ok (Word.ofNat 6 3) :=
    rfl
  have fits : (Word.ofNat 6 3).width = machine.width := by decide +kernel
  obtain ⟨product, _, _, same, _, stepped⟩ :=
    multiplication_keeps_signed_product sound fits destination readable
  have after := stepped (by decide +kernel) (by decide +kernel)
  refine ⟨sound, destination, readable, product, same, ?_⟩
  rw [after, Memory.cell_insert]
  rfl

/-- A multiplication carries exactly when the product of the magnitudes does not fit the width, or
both factors are negative and have at least two bits. -/
theorem multiplication_carry_iff (sound : machine.Sound) {source : Source}
    {index operand first second : Word} (fits : operand.width = machine.width)
    (left : (machine.readRegister index).value = first)
    (right : (machine.fetchValue source.mode operand).value = second) :
    let instruction : Instruction := ⟨.binary .mul source, index, operand⟩
    let carries : Prop := 2 ^ machine.width ≤ first.signed.natAbs * second.signed.natAbs ∨
      2 ≤ machine.width ∧ first.signed < 0 ∧ second.signed < 0
    ((machine.execute instruction).value.flags.carry = true ↔ carries) ∧
      (machine.Fetches instruction → (machine.step.value.1.flags.carry = true ↔ carries)) := by
  subst left right
  intro instruction carries
  have executed : (machine.execute instruction).value.flags.carry = true ↔ carries := by
    rw [execute_binary_flags]
    exact Outcome.multiply_carry_iff sound.width_pos sound.width_le
      (sound.readRegister_width index) (sound.fetchValue_width source.mode fits)
  refine ⟨executed, fun fetches => ?_⟩
  rw [fetches.binary_flags]
  exact executed

/-- Minus sixteen times sixteen has the least magnitude that does not fit eight bits. -/
theorem multiplication_carry_iff_sixteen :
    let loaded := ((build ⟨8, 1, 3⟩).load (assemble "MUL %0, #16" 8).program.bits 0).value
    let machine := (loaded.writeRegister (Word.zero 8) (Word.ofNat 8 240)).value
    machine.Sound ∧
      machine.Fetches ⟨.binary .mul .immediate, Word.zero 8, Word.ofNat 8 16⟩ ∧
      (Word.ofNat 8 240).signed.natAbs * (Word.ofNat 8 16).signed.natAbs = 2 ^ 8 ∧
      machine.step.value.1.flags.carry = true := by
  intro loaded machine
  have sound : machine.Sound := sound_lasting.writeRegister (sound_lasting.load (build_sound rfl) _ _) _ _
  have fits : (Word.ofNat 8 16).width = machine.width := by decide +kernel
  have left : (machine.readRegister (Word.zero 8)).value = Word.ofNat 8 240 := by decide +kernel
  have right : (machine.fetchValue Source.immediate.mode (Word.ofNat 8 16)).value =
      Word.ofNat 8 16 := rfl
  have fetches : machine.Fetches ⟨.binary .mul .immediate, Word.zero 8, Word.ofNat 8 16⟩ := by
    decide +kernel
  have product : (Word.ofNat 8 240).signed.natAbs * (Word.ofNat 8 16).signed.natAbs = 2 ^ 8 := by
    decide +kernel
  refine ⟨sound, fetches, product, ?_⟩
  exact ((multiplication_carry_iff sound fits left right).2 fetches).mpr (by decide +kernel)

/-- Minus one times minus one sets the carry flag, although the product of the magnitudes is one. -/
theorem negative_factors_carry :
    let loaded := ((build ⟨8, 1, 3⟩).load (assemble "MUL %0, #-1" 8).program.bits 0).value
    let machine := (loaded.writeRegister (Word.zero 8) (Word.ofNat 8 255)).value
    machine.Fetches ⟨.binary .mul .immediate, Word.zero 8, Word.ofNat 8 255⟩ ∧
      (machine.readRegister (Word.zero 8)).value = Word.ofNat 8 255 ∧
      (Word.ofNat 8 255).signed.natAbs * (Word.ofNat 8 255).signed.natAbs < 2 ^ machine.width ∧
      machine.step.value.1.flags.carry = true := by
  decide +kernel

end Machine

end WordMachine
