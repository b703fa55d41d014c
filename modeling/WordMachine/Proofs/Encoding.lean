import WordMachine.Program.Basic
import WordMachine.Proofs.Signed
import WordMachine.Proofs.Success

namespace WordMachine

/-- Blocks of one positive length are the chunks of their concatenation. -/
theorem chunks_flatten {A : Type} {length : Nat} (positive : 1 ≤ length) {blocks : List (List A)}
    (sameLength : ∀ block ∈ blocks, block.length = length) :
    chunks length blocks.flatten = blocks := by
  have go (bound : Nat) (enough : blocks.flatten.length ≤ bound) :
      chunks.go length bound blocks.flatten = blocks := by
    induction blocks generalizing bound with
    | nil => cases bound <;> rfl
    | cons block rest ih =>
        have blockLength := sameLength block List.mem_cons_self
        rw [List.flatten_cons, List.length_append, blockLength] at enough
        obtain ⟨bound, rfl⟩ : ∃ less, bound = less + 1 :=
          Nat.exists_eq_add_one.mpr (by omega)
        have nonempty : (block ++ rest.flatten).isEmpty = false := by
          rw [List.isEmpty_eq_false_iff]
          intro empty
          rw [(List.append_eq_nil_iff.mp empty).1] at blockLength
          simp only [List.length_nil] at blockLength
          omega
        have tail := ih (fun block inside => sameLength block (List.mem_cons_of_mem _ inside)) bound
          (by omega)
        rw [List.flatten_cons, chunks.go, nonempty, Nat.max_eq_left positive, ← blockLength,
          List.take_left, List.drop_left, blockLength, tail]
        rfl
  exact go _ (Nat.le_refl _)

/-- The number of blocks of one length that a list fills or begins. -/
def blockCount (length total : Nat) : Nat := (total + length - 1) / length

theorem blockCount_zero {length : Nat} (positive : 1 ≤ length) : blockCount length 0 = 0 :=
  Nat.div_eq_of_lt (by omega)

/-- One block is cut off the front. -/
theorem blockCount_of_pos {length total : Nat} (positive : 1 ≤ length) (filled : 1 ≤ total) :
    blockCount length total = blockCount length (total - length) + 1 := by
  unfold blockCount
  rcases Nat.le_total length total with long | short
  · rw [← Nat.add_div_right _ positive]
    congr 1
    omega
  · have one : total + length - 1 = total - 1 + length := by omega
    rw [one, Nat.add_div_right _ positive, Nat.sub_eq_zero_of_le short,
      Nat.div_eq_of_lt (by omega), Nat.div_eq_of_lt (by omega)]

/-- A list is cut at the multiples of the length. -/
theorem chunks_eq_map {A : Type} {length : Nat} (positive : 1 ≤ length) (items : List A) :
    chunks length items =
      (List.range (blockCount length items.length)).map
        fun index => (items.drop (index * length)).take length := by
  have go (bound : Nat) (items : List A) (enough : items.length ≤ bound) :
      chunks.go length bound items =
        (List.range (blockCount length items.length)).map
          fun index => (items.drop (index * length)).take length := by
    induction bound generalizing items with
    | zero =>
        rw [Nat.le_zero.mp enough, blockCount_zero positive]
        rfl
    | succ bound ih =>
        cases items with
        | nil =>
            rw [List.length_nil, blockCount_zero positive]
            rfl
        | cons item rest =>
            have filled : 1 ≤ (item :: rest).length := Nat.le_add_left _ _
            have shorter : ((item :: rest).drop length).length ≤ bound := by
              rw [List.length_drop]
              omega
            rw [chunks.go, List.isEmpty_cons, Nat.max_eq_left positive, ih _ shorter,
              blockCount_of_pos positive filled, List.range_succ_eq_map, List.map_cons,
              List.map_map, List.length_drop]
            simp only [Bool.false_eq_true, if_false, Nat.zero_mul, List.drop_zero, List.cons.injEq,
              true_and]
            apply List.map_congr_left
            intro index _
            rw [Function.comp_apply, List.drop_drop, Nat.succ_mul, Nat.add_comm length]
  exact go _ items (Nat.le_refl _)

/-- The word of an index in a sequence of bits, of which the last word may be short. -/
def Word.cut (width : Nat) (bits : List Bool) (index : Nat) : Word :=
  ⟨(bits.drop (index * width)).take width⟩

theorem Word.width_cut_le (width : Nat) (bits : List Bool) (index : Nat) :
    (cut width bits index).width ≤ width :=
  List.length_take_le _ _

/-- The chunks of bits are the words of their indices. -/
theorem chunks_eq_cut {width : Nat} (positive : 1 ≤ width) (bits : List Bool) :
    (chunks width bits).map Word.mk =
      (List.range (blockCount width bits.length)).map (Word.cut width bits) := by
  rw [chunks_eq_map positive, List.map_map]
  rfl

/-- A list whose length is a multiple consists of blocks of one length. -/
theorem exists_blocks {A : Type} (length count : Nat) (items : List A)
    (whole : items.length = count * length) :
    ∃ blocks : List (List A), blocks.length = count ∧ blocks.flatten = items ∧
      ∀ block ∈ blocks, block.length = length := by
  induction count generalizing items with
  | zero =>
      rw [Nat.zero_mul, List.length_eq_zero_iff] at whole
      exact ⟨[], rfl, whole.symm, by simp⟩
  | succ count ih =>
      rw [Nat.succ_mul] at whole
      obtain ⟨blocks, number, joined, lengths⟩ := ih (items.drop length) (by
        rw [List.length_drop]
        omega)
      refine ⟨items.take length :: blocks, by simp [number], ?_, ?_⟩
      · rw [List.flatten_cons, joined, List.take_append_drop]
      · rw [List.forall_mem_cons, List.length_take]
        exact ⟨by omega, lengths⟩

/-- Blocks of one length add up to a multiple of it. -/
theorem length_flatten_of_length {A : Type} {length : Nat} {blocks : List (List A)}
    (sameLength : ∀ block ∈ blocks, block.length = length) :
    blocks.flatten.length = blocks.length * length := by
  rw [List.length_flatten, List.map_congr_left sameLength, List.map_const', List.sum_replicate,
    smul_eq_mul]

/-- The bits of words of one positive width are cut into these words. -/
theorem chunks_words {width : Nat} {words : List Word} (positive : 1 ≤ width)
    (sameWidth : ∀ word ∈ words, word.width = width) :
    (chunks width (words.flatMap Word.bits)).map Word.mk = words := by
  have lengths : ∀ block ∈ words.map Word.bits, block.length = width := by
    intro block inside
    obtain ⟨word, member, rfl⟩ := List.mem_map.mp inside
    exact sameWidth word member
  rw [List.flatMap_def, chunks_flatten positive lengths, List.map_map]
  exact List.map_id _

namespace Instruction

/-- The opcode fits a word, the operands are words, and the unused operands are zeros. -/
structure Canonical (width : Nat) (instruction : Instruction) : Prop where
  code_lt : instruction.opcode.code < 2 ^ width
  first_width : instruction.first.width = width
  second_width : instruction.second.width = width
  first_unused : instruction.opcode.modes.length < 1 → instruction.first = Word.zero width
  second_unused : instruction.opcode.modes.length < 2 → instruction.second = Word.zero width

/-- An instruction lies in memory as its opcode word and its operands. -/
def words (width : Nat) (instruction : Instruction) : List Word :=
  [Word.ofNat width instruction.opcode.code, instruction.first, instruction.second]

def bits (width : Nat) (instruction : Instruction) : List Bool :=
  (instruction.words width).flatMap Word.bits

/-- Narrow operands are padded to the width. -/
def widened (width : Nat) (instruction : Instruction) : Instruction :=
  ⟨instruction.opcode, instruction.first.padded width, instruction.second.padded width⟩

/-- The operands that an opcode does not use are zeros in the instruction that is fetched. -/
def trimmed (width : Nat) (instruction : Instruction) : Instruction where
  opcode := instruction.opcode
  first := if instruction.opcode.modes.length < 1 then Word.zero width else instruction.first
  second := if instruction.opcode.modes.length < 2 then Word.zero width else instruction.second

variable {width : Nat} {instruction : Instruction}

/-- Trimming keeps the opcode. -/
@[simp] theorem trimmed_opcode (width : Nat) (instruction : Instruction) :
    (instruction.trimmed width).opcode = instruction.opcode := rfl

/-- Trimming keeps an operand that is used. -/
theorem trimmed_first_of_used (used : 1 ≤ instruction.opcode.modes.length) :
    (instruction.trimmed width).first = instruction.first :=
  if_neg (Nat.not_lt.mpr used)

theorem width_trimmed_first (fits : instruction.first.width = width) :
    (instruction.trimmed width).first.width = width := by
  rw [trimmed, apply_ite Word.width, Word.width_zero, fits, ite_self]

theorem width_trimmed_second (fits : instruction.second.width = width) :
    (instruction.trimmed width).second.width = width := by
  rw [trimmed, apply_ite Word.width, Word.width_zero, fits, ite_self]

/-- The words of instructions have the width. -/
theorem width_of_mem_words {instructions : List Instruction}
    (fits : ∀ instruction ∈ instructions,
      instruction.first.width = width ∧ instruction.second.width = width) :
    ∀ word ∈ instructions.flatMap (words width), word.width = width := by
  intro word inside
  obtain ⟨instruction, listed, owned⟩ := List.mem_flatMap.mp inside
  obtain ⟨first, second⟩ := fits instruction listed
  simp only [words, List.mem_cons, List.not_mem_nil, or_false] at owned
  rcases owned with rfl | rfl | rfl
  · exact Word.width_ofNat _ _
  · exact first
  · exact second

/-- A canonical instruction is fetched as it is. -/
theorem Canonical.trimmed_eq (canonical : instruction.Canonical width) :
    instruction.trimmed width = instruction := by
  obtain ⟨opcode, first, second⟩ := instruction
  simp only [trimmed, mk.injEq, true_and, ite_eq_right_iff]
  exact ⟨fun unused => (canonical.first_unused unused).symm,
    fun unused => (canonical.second_unused unused).symm⟩

/-- An instruction takes three words. -/
theorem bits_length (firstFits : instruction.first.width = width)
    (secondFits : instruction.second.width = width) :
    (instruction.bits width).length = width * wordsPerInstruction := by
  have code := Word.width_ofNat width instruction.opcode.code
  simp only [Word.width] at firstFits secondFits code
  simp only [bits, words, List.flatMap_cons, List.flatMap_nil, List.length_append, List.length_nil,
    firstFits, secondFits, code, wordsPerInstruction]
  omega

/-- Instructions take three words each. -/
theorem length_flatMap_words (width : Nat) (instructions : List Instruction) :
    (instructions.flatMap (words width)).length = 3 * instructions.length := by
  simp [List.length_flatMap, words, Nat.mul_comm]

theorem unsigned_ofNat_code {opcode : Opcode} (narrow : width ≤ 64)
    (fits : opcode.code < 2 ^ width) : (Word.ofNat width opcode.code).unsigned = opcode.code := by
  rw [Word.unsigned_eq (by simpa using narrow), Word.value_ofNat_of_lt fits]

/-- An opcode is read back from the word of its code. -/
theorem ofWord?_ofNat_code {opcode : Opcode} (narrow : width ≤ 64)
    (fits : opcode.code < 2 ^ width) :
    Opcode.ofWord? (Word.ofNat width opcode.code) = some opcode := by
  rw [Opcode.ofWord?, unsigned_ofNat_code narrow fits, Opcode.ofCode?_code]

/-- An operand is encoded as a word of the width if it fits. -/
theorem encodeOperand_eq_ok {operand : Word} {bits : List Bool}
    (encodes : encodeOperand operand width = .ok bits) :
    operand.width ≤ width ∧ bits = (operand.padded width).bits := by
  unfold encodeOperand at encodes
  split at encodes
  · cases encodes
  · rename_i fits
    cases encodes
    exact ⟨Nat.le_of_not_lt fits, rfl⟩

/-- An instruction that is encoded fits the width, and its encoding holds its words. -/
theorem encode_eq_ok {bits : List Bool} (encoded : instruction.encode width = .ok bits) :
    (Word.ofNat width instruction.opcode.code).unsigned = instruction.opcode.code ∧
      instruction.first.width ≤ width ∧ instruction.second.width ≤ width ∧
      bits = (instruction.widened width).bits width := by
  rw [encode] at encoded
  split at encoded
  · cases encoded
  · rename_i same
    obtain ⟨_, first, encoded⟩ := bind_eq_ok_iff.mp encoded
    obtain ⟨_, second, encoded⟩ := bind_eq_ok_iff.mp encoded
    obtain rfl := pure_eq_ok_iff.mp encoded
    obtain ⟨firstFits, rfl⟩ := encodeOperand_eq_ok first
    obtain ⟨secondFits, rfl⟩ := encodeOperand_eq_ok second
    refine ⟨not_not.mp same, firstFits, secondFits, ?_⟩
    simp [Instruction.bits, words, widened]

/-- An instruction that is encoded has an opcode that fits a word. -/
theorem code_lt_of_encode (narrow : width ≤ 64) {bits : List Bool}
    (encoded : instruction.encode width = .ok bits) : instruction.opcode.code < 2 ^ width := by
  obtain ⟨same, _⟩ := encode_eq_ok encoded
  rw [Word.unsigned_eq (by simpa using narrow), Word.value_ofNat] at same
  rw [← same]
  exact Nat.mod_lt _ (Nat.two_pow_pos width)

/-- An instruction is encoded by its words, padded to the width, if its opcode can be read back and
its operands fit. -/
theorem encode_of_unsigned_eq
    (codeRead : (Word.ofNat width instruction.opcode.code).unsigned = instruction.opcode.code)
    (firstFits : instruction.first.width ≤ width) (secondFits : instruction.second.width ≤ width) :
    instruction.encode width = .ok ((instruction.widened width).bits width) := by
  have first : encodeOperand instruction.first width =
      .ok (instruction.first.padded width).bits := if_neg (Nat.not_lt.mpr firstFits)
  have second : encodeOperand instruction.second width =
      .ok (instruction.second.padded width).bits := if_neg (Nat.not_lt.mpr secondFits)
  simp [encode, codeRead, first, second, bits, words, widened, bind, Except.bind, pure,
    Except.pure]

/-- An instruction that fits the width is encoded by its words, padded to the width. -/
theorem encode_eq (narrow : width ≤ 64) (codeFits : instruction.opcode.code < 2 ^ width)
    (firstFits : instruction.first.width ≤ width) (secondFits : instruction.second.width ≤ width) :
    instruction.encode width = .ok ((instruction.widened width).bits width) :=
  encode_of_unsigned_eq (unsigned_ofNat_code narrow codeFits) firstFits secondFits

/-- Three words of the width decode to the opcode that the first one holds, with the others as its
operands. -/
theorem decode_words {opcode first second : Word} (opcodeFits : opcode.width = width)
    (firstFits : first.width = width) (secondFits : second.width = width) :
    decode (opcode.bits ++ (first.bits ++ second.bits)) width =
      (fun known => ⟨known, first, second⟩) <$> decodeOpcode opcode := by
  have opcodeLength : opcode.bits.length = width := opcodeFits
  have firstLength : first.bits.length = width := firstFits
  have secondLength : second.bits.length = width := secondFits
  have whole :
      (opcode.bits ++ (first.bits ++ second.bits)).length = width * wordsPerInstruction := by
    rw [List.length_append, List.length_append, opcodeLength, firstLength, secondLength,
      wordsPerInstruction]
    omega
  have last : (opcode.bits ++ (first.bits ++ second.bits)).drop (2 * width) = second.bits := by
    rw [Nat.two_mul, ← List.drop_drop, List.drop_left' opcodeLength, List.drop_left' firstLength]
  rw [decode, if_neg (not_not_intro whole), List.take_left' opcodeLength,
    List.drop_left' opcodeLength, List.take_left' firstLength, last]
  cases decodeOpcode opcode <;> rfl

/-- Decoding inverts the encoding of an instruction whose operands are words. -/
theorem decode_bits (narrow : width ≤ 64) (codeFits : instruction.opcode.code < 2 ^ width)
    (firstFits : instruction.first.width = width) (secondFits : instruction.second.width = width) :
    decode (instruction.bits width) width = .ok instruction := by
  have split : instruction.bits width = (Word.ofNat width instruction.opcode.code).bits ++
      (instruction.first.bits ++ instruction.second.bits) := by
    simp [bits, words]
  rw [split, decode_words (Word.width_ofNat _ _) firstFits secondFits, decodeOpcode,
    ofWord?_ofNat_code narrow codeFits]
  rfl

/-- A canonical instruction is encoded by its words. -/
theorem Canonical.encode_eq (canonical : instruction.Canonical width) (narrow : width ≤ 64) :
    instruction.encode width = .ok (instruction.bits width) := by
  have same : instruction.widened width = instruction := by
    rw [widened, Word.padded_of_le _ canonical.first_width.ge,
      Word.padded_of_le _ canonical.second_width.ge]
  rw [Instruction.encode_eq narrow canonical.code_lt canonical.first_width.le
    canonical.second_width.le, same]

/-- Canonical instructions are read back from their bits. -/
theorem Canonical.decode_bits (canonical : instruction.Canonical width) (narrow : width ≤ 64) :
    decode (instruction.bits width) width = .ok instruction :=
  Instruction.decode_bits narrow canonical.code_lt canonical.first_width canonical.second_width

end Instruction

namespace Program

/-- A program of whole instructions holds their bits one after another. -/
def ofInstructions (width : Nat) (instructions : List Instruction) : Program :=
  ⟨width, instructions.flatMap (Instruction.bits width)⟩

variable {width : Nat} {instructions : List Instruction}

/-- Every block of an encoded program takes three words. -/
theorem length_of_mem_bits
    (fits : ∀ instruction ∈ instructions,
      instruction.first.width = width ∧ instruction.second.width = width) :
    ∀ block ∈ instructions.map (Instruction.bits width),
      block.length = width * wordsPerInstruction := by
  intro block inside
  obtain ⟨instruction, member, rfl⟩ := List.mem_map.mp inside
  obtain ⟨first, second⟩ := fits instruction member
  exact Instruction.bits_length first second

/-- Instructions whose operands are words are the chunks of their bits. -/
theorem instructions_of_fits (positive : 1 ≤ width)
    (fits : ∀ instruction ∈ instructions,
      instruction.first.width = width ∧ instruction.second.width = width) :
    (ofInstructions width instructions).instructions =
      instructions.map (Instruction.bits width) := by
  have positiveBlock : 1 ≤ width * wordsPerInstruction := by
    rw [wordsPerInstruction]
    omega
  exact chunks_flatten positiveBlock (length_of_mem_bits fits)

theorem length_bits_of_fits
    (fits : ∀ instruction ∈ instructions,
      instruction.first.width = width ∧ instruction.second.width = width) :
    (ofInstructions width instructions).bits.length =
      instructions.length * (width * wordsPerInstruction) := by
  rw [ofInstructions, List.flatMap_def, length_flatten_of_length (length_of_mem_bits fits),
    List.length_map]

/-- The size of a program counts its instructions. -/
theorem size_of_fits (positive : 1 ≤ width)
    (fits : ∀ instruction ∈ instructions,
      instruction.first.width = width ∧ instruction.second.width = width) :
    (ofInstructions width instructions).size = instructions.length := by
  have positiveBlock : 0 < width * wordsPerInstruction := by
    rw [wordsPerInstruction]
    omega
  rw [size, length_bits_of_fits fits]
  exact Nat.mul_div_cancel _ positiveBlock

/-- The chunks of a program are the bits of its instructions. -/
theorem ofInstructions_instructions (positive : 1 ≤ width)
    (canonical : ∀ instruction ∈ instructions, instruction.Canonical width) :
    (ofInstructions width instructions).instructions =
      instructions.map (Instruction.bits width) :=
  instructions_of_fits positive fun instruction inside =>
    ⟨(canonical instruction inside).first_width, (canonical instruction inside).second_width⟩

/-- A canonical program has the size of its list of instructions. -/
theorem ofInstructions_size (positive : 1 ≤ width)
    (canonical : ∀ instruction ∈ instructions, instruction.Canonical width) :
    (ofInstructions width instructions).size = instructions.length :=
  size_of_fits positive fun instruction inside =>
    ⟨(canonical instruction inside).first_width, (canonical instruction inside).second_width⟩

/-- Pushing a canonical instruction onto a program of instructions appends it. -/
theorem push_ofInstructions (narrow : width ≤ 64) (before : List Instruction)
    {instruction : Instruction} (canonical : instruction.Canonical width) :
    (ofInstructions width before).push instruction =
      .ok (ofInstructions width (before ++ [instruction])) := by
  have encoded : instruction.encode (ofInstructions width before).width =
      .ok (instruction.bits width) := canonical.encode_eq narrow
  rw [push, encoded]
  simp [ofInstructions, bind, Except.bind, pure, Except.pure]

/-- A program is built from canonical instructions by pushing them in order. -/
theorem foldlM_push (narrow : width ≤ 64) (before : List Instruction)
    (canonical : ∀ instruction ∈ instructions, instruction.Canonical width) :
    instructions.foldlM push (ofInstructions width before) =
      .ok (ofInstructions width (before ++ instructions)) := by
  induction instructions generalizing before with
  | nil => simp [pure, Except.pure]
  | cons instruction rest ih =>
      have others := ih (before ++ [instruction]) fun instruction inside =>
        canonical instruction (List.mem_cons_of_mem _ inside)
      rw [List.foldlM_cons, push_ofInstructions narrow before (canonical _ List.mem_cons_self)]
      simpa [bind, Except.bind] using others

/-- The instructions that are pushed can be encoded, and their words follow the program. -/
theorem foldlM_push_eq_ok {program result : Program}
    (pushed : instructions.foldlM push program = .ok result) :
    (∀ instruction ∈ instructions, ∃ bits, instruction.encode program.width = .ok bits) ∧
      result.bits = program.bits ++ (instructions.map (Instruction.widened program.width)).flatMap
        (Instruction.bits program.width) := by
  induction instructions generalizing program with
  | nil =>
      obtain rfl : program = result := pure_eq_ok_iff.mp pushed
      simp
  | cons instruction rest ih =>
      rw [List.foldlM_cons, push, bind_assoc] at pushed
      obtain ⟨bits, encoded, pushed⟩ := bind_eq_ok_iff.mp pushed
      obtain ⟨others, held⟩ := ih pushed
      obtain ⟨_, _, _, rfl⟩ := Instruction.encode_eq_ok encoded
      refine ⟨?_, ?_⟩
      · rw [List.forall_mem_cons]
        exact ⟨⟨_, encoded⟩, others⟩
      · rw [held, List.map_cons, List.flatMap_cons, List.append_assoc]

end Program

end WordMachine
