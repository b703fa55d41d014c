import WordMachine.Proofs.Encoding

namespace WordMachine

namespace Instruction

variable {width : Nat} {instruction : Instruction}

/-- The code of the opcode and the operands fit a word of the width. -/
def Fits (width : Nat) (instruction : Instruction) : Prop :=
  instruction.opcode.code < 2 ^ width ∧ instruction.first.width ≤ width ∧
    instruction.second.width ≤ width

instance (width : Nat) (instruction : Instruction) : Decidable (instruction.Fits width) :=
  inferInstanceAs (Decidable (_ ∧ _ ∧ _))


/-- Every code is small, so that it is read back from a word of any width that it fits. -/
theorem unsigned_ofNat_code_iff {opcode : Opcode} :
    (Word.ofNat width opcode.code).unsigned = opcode.code ↔ opcode.code < 2 ^ width := by
  have small : opcode.code < 2 ^ 64 := by
    have bounded : ∀ opcode ∈ Opcode.all, opcode.code < 2 ^ 64 := by decide
    exact bounded opcode opcode.mem_all
  have cut : opcode.code % 2 ^ width < 2 ^ 64 := (Nat.mod_le _ _).trans_lt small
  rw [Word.unsigned, Word.value_ofNat, valueCount_eq, Nat.mod_eq_of_lt cut]
  exact Nat.mod_eq_iff_lt (Nat.two_pow_pos width).ne'

/-- Words of any width, also beyond 64 bits, encode exactly the instructions that fit them. -/
theorem encode_eq_ok_iff_fits {bits : List Bool} :
    instruction.encode width = .ok bits ↔
      instruction.Fits width ∧ bits = (instruction.widened width).bits width := by
  constructor
  · intro encoded
    obtain ⟨codeRead, firstFits, secondFits, same⟩ := encode_eq_ok encoded
    exact ⟨⟨unsigned_ofNat_code_iff.mp codeRead, firstFits, secondFits⟩, same⟩
  · rintro ⟨⟨codeFits, firstFits, secondFits⟩, rfl⟩
    exact encode_of_unsigned_eq (unsigned_ofNat_code_iff.mpr codeFits) firstFits secondFits

end Instruction

/-- A program grows by an instruction or by a placeholder. -/
inductive Entry where
  | pushed (instruction : Instruction)
  | placeholder
deriving DecidableEq

namespace Entry

variable {width : Nat} {entry : Entry}

/-- A placeholder fits every width. -/
def Fits (width : Nat) : Entry → Prop
  | .pushed instruction => instruction.Fits width
  | .placeholder => True

instance (width : Nat) : (entry : Entry) → Decidable (entry.Fits width)
  | .pushed instruction => inferInstanceAs (Decidable (instruction.Fits width))
  | .placeholder => inferInstanceAs (Decidable True)

/-- The instruction that stands in the program for the entry. -/
def stored (width : Nat) : Entry → Instruction
  | .pushed instruction => instruction.widened width
  | .placeholder => .bare .halt width

/-- A stored opcode fits the width. -/
theorem Fits.code_lt (fits : entry.Fits width) : (entry.stored width).opcode.code < 2 ^ width := by
  cases entry with
  | pushed instruction => exact fits.1
  | placeholder => exact Nat.two_pow_pos width

/-- Stored operands have the width. -/
theorem Fits.operands (fits : entry.Fits width) :
    (entry.stored width).first.width = width ∧ (entry.stored width).second.width = width := by
  cases entry with
  | pushed instruction =>
      obtain ⟨_, first, second⟩ := fits
      simp [stored, Instruction.widened, first, second]
  | placeholder => simp [stored, Instruction.bare]

end Entry

namespace Program

variable {program next : Program} {width : Nat}

/-- The result of an entry alone, which fails without an effect. -/
def attempt (program : Program) : Entry → Except InstructionError Program
  | .pushed instruction => program.push instruction
  | .placeholder => .ok program.pushPlaceholder

def after (program : Program) (entry : Entry) : Program :=
  match program.attempt entry with
  | .ok next => next
  | .error _ => program

def afterAll (program : Program) (entries : List Entry) : Program := entries.foldl after program

/-- A program grown by the bits of one more instruction. -/
def extended (program : Program) (instruction : Instruction) : Program :=
  { program with bits := program.bits ++ instruction.bits program.width }

/-- A placeholder has the bits of a bare halt. -/
theorem pushPlaceholder_eq (program : Program) :
    program.pushPlaceholder = program.extended (.bare .halt program.width) := by
  have zeros : (Word.ofNat program.width Opcode.halt.code).bits =
      List.replicate program.width false :=
    congrArg Word.bits (Word.eq_of_value_eq (by simp) (by simp [Opcode.code]) :
      Word.ofNat program.width Opcode.halt.code = Word.zero program.width)
  have count : program.instructionBits = program.width + (program.width + program.width) := by
    rw [instructionBits, wordsPerInstruction]
    omega
  rw [pushPlaceholder, extended, count, List.replicate_add, List.replicate_add]
  simp [Instruction.bits, Instruction.words, Instruction.bare, Word.zero, zeros]

/-- An entry is accepted exactly when it fits. -/
theorem attempt_eq_ok_iff {entry : Entry} :
    program.attempt entry = .ok next ↔
      entry.Fits program.width ∧ next = program.extended (entry.stored program.width) := by
  cases entry with
  | pushed instruction =>
      rw [attempt, push, bind_eq_ok_iff]
      simp only [Instruction.encode_eq_ok_iff_fits, pure_eq_ok_iff]
      constructor
      · rintro ⟨_, ⟨fits, rfl⟩, rfl⟩
        exact ⟨fits, rfl⟩
      · rintro ⟨fits, rfl⟩
        exact ⟨_, ⟨fits, rfl⟩, rfl⟩
  | placeholder =>
      rw [attempt, pushPlaceholder_eq]
      simp [Entry.Fits, Entry.stored, eq_comm]

/-- An entry that fits is stored at the end. -/
theorem after_of_fits {entry : Entry} (fits : entry.Fits program.width) :
    program.after entry = program.extended (entry.stored program.width) := by
  rw [after, attempt_eq_ok_iff.mpr ⟨fits, rfl⟩]

/-- An entry that does not fit changes nothing. -/
theorem after_of_not_fits {entry : Entry} (unfit : ¬ entry.Fits program.width) :
    program.after entry = program := by
  rw [after]
  split
  · rename_i success
    exact absurd (attempt_eq_ok_iff.mp success).1 unfit
  · rfl

/-- The instructions that a history leaves in a program of the width. -/
def accepted (width : Nat) (entries : List Entry) : List Instruction :=
  (entries.filter fun entry => decide (entry.Fits width)).map (Entry.stored width)

section Readings

variable {entries : List Entry}

end Readings

end Program

end WordMachine
