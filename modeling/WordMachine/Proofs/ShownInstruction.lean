import WordMachine.Proofs.CodeWindow
import WordMachine.Proofs.Loading
import WordMachine.Proofs.MemoryHistory
import WordMachine.Proofs.PrintedInstruction

namespace WordMachine

/-- A word that holds an opcode spells its code. -/
theorem Opcode.eq_ofNat_of_ofWord? {word : Word} {opcode : Opcode} (narrow : word.width ≤ 64)
    (known : Opcode.ofWord? word = some opcode) : word = Word.ofNat word.width opcode.code := by
  have code := Opcode.ofCode?_eq_some_iff.mp known
  rw [Word.unsigned_eq narrow] at code
  rw [← code, Word.ofNat_value]

namespace Instruction

variable {width : Nat}

/-- The text of an instruction leaves the operands out that it does not use. -/
theorem chars_trimmed (width : Nat) (instruction : Instruction) :
    (instruction.trimmed width).chars = instruction.chars := by
  have texts : (instruction.trimmed width).operandTexts = instruction.operandTexts := by
    unfold operandTexts operands trimmed
    match instruction.opcode.modes with
    | [] => rfl
    | [_] => rfl
    | _ :: _ :: _ => simp
  rw [chars_eq, chars_eq, operandTail, operandTail, texts, trimmed_opcode]

/-- No instruction shows as question marks. -/
theorem not_marks_prefix_chars (instruction : Instruction) :
    ¬ "???".toList <+: instruction.chars := by
  intro marks
  have inside : '?' ∈ instruction.chars := marks.subset (by decide)
  exact instruction.ne_of_mem_chars inside (by decide) rfl

/-- The text of an instruction is not question marks. -/
theorem text_ne_marks (instruction : Instruction) : instruction.text ≠ "???" := by
  intro same
  refine instruction.not_marks_prefix_chars ?_
  rw [← same, text, String.toList_ofList]

/-- Three words show as the instruction with the opcode that the first one holds. -/
theorem disassemble_words_of_known {word first second : Word} {opcode : Opcode}
    (wordFits : word.width = width) (firstFits : first.width = width)
    (secondFits : second.width = width) (known : Opcode.ofWord? word = some opcode) :
    disassemble (word.bits ++ (first.bits ++ second.bits)) width =
      (⟨opcode, first, second⟩ : Instruction).chars := by
  rw [disassemble, decode_words wordFits firstFits secondFits, decodeOpcode, known]
  rfl

/-- Three words show as question marks if the first one holds no opcode. -/
theorem disassemble_words_of_unknown {word first second : Word} (wordFits : word.width = width)
    (firstFits : first.width = width) (secondFits : second.width = width)
    (unknown : Opcode.ofWord? word = none) :
    "???".toList <+: disassemble (word.bits ++ (first.bits ++ second.bits)) width := by
  rw [disassemble, decode_words wordFits firstFits secondFits, decodeOpcode, unknown]
  exact ⟨[' ', ';', ' '] ++ Word.chars ⟨word.bits ++ (first.bits ++ second.bits)⟩, rfl⟩

end Instruction

namespace Machine

variable {machine : Machine}

/-- The disassembly of the three cells from an address on. -/
def textAt (machine : Machine) (address : Nat) : List Char :=
  Instruction.disassemble
    ((List.range wordsPerInstruction).flatMap fun offset =>
      (machine.ram.cell (address + offset)).bits)
    machine.width

/-- The text shows three neighbouring cells. -/
theorem textAt_eq (machine : Machine) (address : Nat) :
    machine.textAt address =
      Instruction.disassemble ((machine.ram.cell address).bits ++
        ((machine.ram.cell (address + 1)).bits ++ (machine.ram.cell (address + 2)).bits))
        machine.width := by
  simp [textAt, wordsPerInstruction, List.range_succ]

/-- The three cells at the program counter hold the instruction that the next step fetches. -/
theorem Sound.fetches_cells (sound : machine.Sound) {opcode : Opcode}
    (fits : machine.pc.value + 3 ≤ 2 ^ machine.width)
    (room : machine.pc.value + 3 ≤ machine.architecture.ramCells)
    (known : Opcode.ofWord? (machine.ram.cell machine.pc.value) = some opcode) :
    machine.Fetches ((⟨opcode, machine.ram.cell (machine.pc.value + 1),
      machine.ram.cell (machine.pc.value + 2)⟩ : Instruction).trimmed machine.width) := by
  have opcodeWidth := sound.ram.cell_width machine.pc.value
  have spelled := Opcode.eq_ofNat_of_ofWord? (opcodeWidth.trans_le sound.width_le) known
  rw [opcodeWidth] at spelled
  have contains : machine.ram.Contains machine.pc.value
      ((⟨opcode, machine.ram.cell (machine.pc.value + 1),
        machine.ram.cell (machine.pc.value + 2)⟩ : Instruction).words machine.width) := by
    intro index inside
    match index with
    | 0 => exact spelled
    | 1 => rfl
    | 2 => rfl
  constructor
  · rw [sound.readRam_eq (Or.inl sound.pc_width.le) (by omega) (by omega)]
    exact known
  · exact (sound_lasting.fetched sound).fetchOperands_of_contains fits room contains

/-- A step executes the instruction that its three cells show, and skips cells that show question
marks. -/
theorem Sound.step_executes_text (sound : machine.Sound)
    (fits : machine.pc.value + 3 ≤ 2 ^ machine.width)
    (room : machine.pc.value + 3 ≤ machine.architecture.ramCells) :
    (machine.step.value.2 = none ∧ "???".toList <+: machine.textAt machine.pc.value) ∨
      ∃ instruction, machine.Fetches instruction ∧
        machine.textAt machine.pc.value = instruction.chars := by
  have width (address : Nat) := sound.ram.cell_width address
  rw [textAt_eq]
  cases held : Opcode.ofWord? (machine.ram.cell machine.pc.value) with
  | none =>
      left
      have read : machine.readRam machine.pc = pure (machine.ram.cell machine.pc.value) :=
        sound.readRam_eq (Or.inl sound.pc_width.le) (by omega) (by omega)
      have unknown : Opcode.ofWord? (machine.readRam machine.pc).value = none := by
        rw [read]
        exact held
      exact ⟨congrArg Prod.snd (step_unknown unknown),
        Instruction.disassemble_words_of_unknown (width _) (width _) (width _) held⟩
  | some opcode =>
      right
      refine ⟨_, sound.fetches_cells fits room held, ?_⟩
      rw [Instruction.chars_trimmed]
      exact Instruction.disassemble_words_of_known (width _) (width _) (width _) held

end Machine

namespace Debugger.Session

variable {session : Session}

/-- A line inside the memory shows its three cells. -/
theorem codeLine_text {address : Nat} (fits : address + 3 ≤ session.machine.ram.capacity) :
    (session.codeLine address).text = session.machine.textAt address := by
  have cells : (List.range wordsPerInstruction).map (fun offset => session.cell (address + offset)) =
      (List.range wordsPerInstruction).map fun offset =>
        session.machine.ram.cell (address + offset) := by
    apply List.map_congr_left
    intro offset inRange
    rw [List.mem_range, wordsPerInstruction] at inRange
    have inside : address + offset < session.machine.ram.capacity := by omega
    rw [cell, Memory.readAt_of_lt inside]
  rw [codeLine, cells, Machine.textAt, List.flatMap_map]

/-- The line that is marked as current shows the cells at the program counter. -/
theorem text_of_current {count : Nat} {line : CodeLine}
    (fits : session.address + 3 ≤ session.machine.ram.capacity)
    (listed : line ∈ session.windowLines count) (current : line.isCurrent = true) :
    line.address = session.address ∧ line.text = session.machine.textAt session.address := by
  have shown := eq_codeLine_of_mem listed
  rw [shown] at current
  have here : line.address = session.address := beq_iff_eq.mp current
  refine ⟨here, ?_⟩
  rw [shown, here]
  exact codeLine_text fits

/-- A window of one line overflows only if the instruction at the program counter does. -/
theorem WindowOverflows.address_of_one (overflows : session.WindowOverflows 1) :
    2 ^ 64 ≤ session.address + 3 := by
  have here := session.firstAddress_add 1
  obtain ⟨index, within, _, beyond⟩ := overflows
  omega

end Debugger.Session

namespace Machine

/-- The text at the program counter, which every window marks, is the text of what the next step
executes. -/
theorem shown_text_executed (machine : Machine) (sound : machine.Sound)
    (fits : machine.pc.value + 3 ≤ min (2 ^ machine.width) machine.architecture.ramCells)
    (small : machine.architecture.ramCells < 2 ^ 64) :
    (machine.step.value.2.isSome = true ↔
      ¬ "???".toList <+: machine.textAt machine.pc.value) ∧
    (machine.step.value.2.isSome = true →
      ∃ instruction, machine.Fetches instruction ∧
        machine.step.value.1.lastInstruction = some instruction ∧
        instruction.text = String.ofList (machine.textAt machine.pc.value)) ∧
    ∀ session : Debugger.Session, session.machine = machine → ∀ count, 1 ≤ count →
      (count = 1 ∨ machine.architecture.ramCells + 3 < 2 ^ 64 →
        ∃ lines, session.codeLines? count = some lines) ∧
      ∀ lines, session.codeLines? count = some lines →
        (∃ line ∈ lines, line.isCurrent = true) ∧
          ∀ line ∈ lines, line.isCurrent = true →
            line.address = machine.pc.value ∧ line.text = machine.textAt machine.pc.value := by
  obtain ⟨inWords, inMemory⟩ := Nat.le_min.mp fits
  have here : machine.pc.unsigned = machine.pc.value :=
    Word.unsigned_eq (sound.pc_width.trans_le sound.width_le)
  refine ⟨?_, ?_, ?_⟩
  · rcases sound.step_executes_text inWords inMemory with
      ⟨skipped, marks⟩ | ⟨instruction, fetches, text⟩
    · exact iff_of_false (by simp [skipped]) (not_not_intro marks)
    · rw [text, fetches.step_value]
      exact iff_of_true rfl instruction.not_marks_prefix_chars
  · intro answered
    rcases sound.step_executes_text inWords inMemory with
      ⟨skipped, _⟩ | ⟨instruction, fetches, text⟩
    · rw [skipped] at answered
      cases answered
    · refine ⟨instruction, fetches, ?_, ?_⟩
      · rw [fetches.step_value]
      · rw [text, Instruction.text]
  · rintro session rfl count positive
    have address : session.address = session.machine.pc.value := here
    have capacity := sound.ram.capacity_eq
    have room : session.address + 3 ≤ session.machine.ram.capacity := by
      rw [address, capacity]
      exact inMemory
    rw [← capacity] at small ⊢
    constructor
    · intro roomy
      refine ⟨_, Debugger.Session.codeLines?_eq_some_iff.mpr ⟨fun overflows => ?_, rfl⟩⟩
      rcases roomy with rfl | low
      · exact absurd overflows.address_of_one (Nat.not_le.mpr (room.trans_lt small))
      · have top := overflows.near_top
        omega
    · intro lines returned
      obtain ⟨_, rfl⟩ := Debugger.Session.codeLines?_eq_some_iff.mp returned
      refine ⟨⟨_, Debugger.Session.codeLine_mem_windowLines positive room, beq_self_eq_true _⟩, ?_⟩
      intro line listed current
      rw [← address]
      exact Debugger.Session.text_of_current room listed current

/-- A move that overwrites its own opcode has been shown and recorded as it was. -/
theorem shown_text_executed_overwritten :
    let machine := ((build ⟨8, 4, 256⟩).loadSource "MOV @0, #255" 0).value.1
    machine.Sound ∧
      machine.pc.value + 3 ≤ min (2 ^ machine.width) machine.architecture.ramCells ∧
      machine.architecture.ramCells < 2 ^ 64 ∧
      machine.step.value.1.lastInstruction.map Instruction.text = some "MOV @0, #-1" ∧
      machine.step.value.1.ram.cell 0 = Word.ofNat 8 255 := by
  intro machine
  have sound : machine.Sound := sound_lasting.loadSource (build_sound rfl) _ _
  have fits : machine.pc.value + 3 ≤ min (2 ^ machine.width) machine.architecture.ramCells := by
    decide +kernel
  have small : machine.architecture.ramCells < 2 ^ 64 := by decide +kernel
  have answered : machine.step.value.2.isSome = true := by decide +kernel
  have shown : machine.textAt machine.pc.value = "MOV @0, #-1".toList := by decide +kernel
  obtain ⟨instruction, _, recorded, text⟩ :=
    (shown_text_executed machine sound fits small).2.1 answered
  refine ⟨sound, fits, small, ?_, by decide +kernel⟩
  rw [recorded, Option.map_some, text, shown, String.ofList_toList]

end Machine

end WordMachine
