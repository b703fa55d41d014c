import WordMachine.Proofs.Encoding

namespace WordMachine.Instruction

variable {width : Nat} {instruction : Instruction} {bits : List Bool}

/-- Exactly the instructions that fit the width are encoded. -/
theorem encode_eq_ok_iff (narrow : width ≤ 64) :
    instruction.encode width = .ok bits ↔
      (instruction.opcode.code < 2 ^ width ∧ instruction.first.width ≤ width ∧
        instruction.second.width ≤ width) ∧
      bits = (instruction.widened width).bits width := by
  constructor
  · intro encoded
    obtain ⟨_, firstFits, secondFits, same⟩ := encode_eq_ok encoded
    exact ⟨⟨code_lt_of_encode narrow encoded, firstFits, secondFits⟩, same⟩
  · rintro ⟨⟨codeFits, firstFits, secondFits⟩, rfl⟩
    exact encode_eq narrow codeFits firstFits secondFits

/-- An opcode is found exactly for a word whose number is its code. -/
theorem decodeOpcode_eq_ok_iff {word : Word} {opcode : Opcode} (narrow : word.width ≤ 64) :
    decodeOpcode word = .ok opcode ↔ opcode.code = word.value := by
  rw [decodeOpcode, Opcode.ofWord?, Word.unsigned_eq narrow]
  constructor
  · intro decoded
    split at decoded
    · rename_i found known
      cases decoded
      exact (Opcode.ofCode?_eq_some_iff.mp known).symm
    · cases decoded
  · intro same
    rw [Opcode.ofCode?_eq_some_iff.mpr same.symm]

/-- Bits are decoded exactly to the instruction whose words they are. -/
theorem decode_eq_ok_iff (narrow : width ≤ 64) :
    decode bits width = .ok instruction ↔
      (bits.length = width * wordsPerInstruction ∧
        instruction.opcode.code = Word.value ⟨bits.take width⟩) ∧
      instruction.first = ⟨(bits.drop width).take width⟩ ∧
        instruction.second = ⟨bits.drop (2 * width)⟩ := by
  by_cases whole : bits.length = width * wordsPerInstruction
  · have opcodeWord : Word.width ⟨bits.take width⟩ ≤ 64 :=
      (List.length_take_le _ _).trans narrow
    rw [← decodeOpcode_eq_ok_iff opcodeWord, decode, if_neg (not_not_intro whole), bind_eq_ok_iff]
    simp only [pure_eq_ok_iff, whole, true_and]
    constructor
    · rintro ⟨opcode, decoded, rfl⟩
      exact ⟨decoded, rfl, rfl⟩
    · obtain ⟨opcode, first, second⟩ := instruction
      rintro ⟨decoded, rfl, rfl⟩
      exact ⟨opcode, decoded, rfl⟩
  · simp [decode, whole]

/-- The three words of a sequence of this length make it up. -/
theorem bits_of_decode (narrow : width ≤ 64) (decoded : decode bits width = .ok instruction) :
    instruction.first.width = width ∧ instruction.second.width = width ∧
      instruction.bits width = bits := by
  obtain ⟨⟨whole, code⟩, first, second⟩ := (decode_eq_ok_iff narrow).mp decoded
  rw [wordsPerInstruction] at whole
  have opcodeWidth : Word.width ⟨bits.take width⟩ = width := by
    rw [Word.width, List.length_take]
    omega
  -- a word is given by its width and its number, so that no other bits spell the code
  have opcodeWord : Word.ofNat width instruction.opcode.code = ⟨bits.take width⟩ := by
    have read := Word.ofNat_value ⟨bits.take width⟩
    rwa [opcodeWidth, ← code] at read
  refine ⟨?_, ?_, ?_⟩
  · rw [first, Word.width, List.length_take, List.length_drop]
    omega
  · rw [second, Word.width, List.length_drop]
    omega
  · have tail : bits.drop (2 * width) = (bits.drop width).drop width := by
      rw [List.drop_drop, Nat.two_mul]
    simp [Instruction.bits, words, opcodeWord, first, second, tail]

/-- Encoding and decoding are partial inverses of each other, defined on exactly what fits the
width. -/
theorem encode_decode_inverse (width : Nat) (narrow : width ≤ 64) :
    (∀ instruction : Instruction,
      ((∃ bits, instruction.encode width = .ok bits) ↔
        instruction.opcode.code < 2 ^ width ∧ instruction.first.width ≤ width ∧
          instruction.second.width ≤ width) ∧
      ∀ bits, instruction.encode width = .ok bits →
        bits.length = 3 * width ∧
          decode bits width = .ok ⟨instruction.opcode, instruction.first.padded width,
            instruction.second.padded width⟩) ∧
    ∀ bits : List Bool,
      ((∃ instruction, decode bits width = .ok instruction) ↔
        bits.length = 3 * width ∧
          ∃ opcode : Opcode, opcode.code = Word.value ⟨bits.take width⟩) ∧
      ∀ instruction, decode bits width = .ok instruction →
        instruction.encode width = .ok bits := by
  refine ⟨fun instruction => ⟨?_, ?_⟩, fun bits => ⟨?_, ?_⟩⟩
  · simp only [encode_eq_ok_iff narrow, exists_and_left, exists_eq, and_true]
  · intro bits encoded
    obtain ⟨⟨codeFits, firstFits, secondFits⟩, rfl⟩ := (encode_eq_ok_iff narrow).mp encoded
    have first : (instruction.first.padded width).width = width := by
      rw [Word.width_padded, Nat.max_eq_left firstFits]
    have second : (instruction.second.padded width).width = width := by
      rw [Word.width_padded, Nat.max_eq_left secondFits]
    refine ⟨?_, decode_bits narrow codeFits first second⟩
    rw [bits_length first second, wordsPerInstruction, Nat.mul_comm]
  · simp only [decode_eq_ok_iff narrow]
    constructor
    · rintro ⟨instruction, ⟨whole, code⟩, _⟩
      exact ⟨whole.trans (Nat.mul_comm _ _), instruction.opcode, code⟩
    · rintro ⟨whole, opcode, code⟩
      exact ⟨⟨opcode, _, _⟩, ⟨whole.trans (Nat.mul_comm _ _), code⟩, rfl, rfl⟩
  · intro instruction decoded
    obtain ⟨⟨_, code⟩, _⟩ := (decode_eq_ok_iff narrow).mp decoded
    obtain ⟨first, second, same⟩ := bits_of_decode narrow decoded
    have codeFits : instruction.opcode.code < 2 ^ width := by
      rw [code]
      exact Word.value_lt_of_width_le (List.length_take_le _ _)
    rw [encode_eq narrow codeFits first.le second.le, widened, Word.padded_of_le _ first.ge,
      Word.padded_of_le _ second.ge]
    exact congrArg Except.ok same

/-- In five bits, the idle instruction has no encoding, and an addition with a short operand comes
back with that operand padded. -/
theorem encode_decode_inverse_five_bits :
    (¬ ∃ bits, (bare .idle 5).encode 5 = .ok bits) ∧
      ∃ bits, encode ⟨.binary .add .immediate, ⟨[]⟩, ⟨[true, true]⟩⟩ 5 = .ok bits ∧
        decode bits 5 =
          .ok ⟨.binary .add .immediate, Word.zero 5, ⟨[false, false, false, true, true]⟩⟩ := by
  have inverse := (encode_decode_inverse 5 (by decide)).1
  refine ⟨fun encoded => absurd ((inverse _).1.mp encoded).1 (by decide), ?_⟩
  obtain ⟨bits, encoded⟩ :=
    (inverse ⟨.binary .add .immediate, ⟨[]⟩, ⟨[true, true]⟩⟩).1.mpr (by decide)
  exact ⟨bits, encoded, ((inverse _).2 bits encoded).2⟩

end WordMachine.Instruction
