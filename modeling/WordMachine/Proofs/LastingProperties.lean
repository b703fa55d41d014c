import WordMachine.Proofs.Soundness

namespace WordMachine.Machine

/-- Control registers suit a machine if they hold words of the width whenever the machine does. -/
structure Suits (machine : Machine) (control : Control) : Prop where
  width_eq : control.width = machine.control.width
  pc_width : machine.Sound → control.pc.width = machine.width
  ir_width : machine.Sound → machine.ir.width = machine.width → control.ir.width = machine.width

section Suiting

variable (machine : Machine)

/-- A jump cuts the program counter to the width. -/
theorem suits_jump (address : Word) : machine.Suits (machine.control.jump address) where
  width_eq := rfl
  pc_width sound := (Word.width_lowBits _ _).trans sound.control_width
  ir_width _ kept := kept

/-- The flags have no width. -/
theorem suits_flags (flags : Flags) : machine.Suits { machine.control with flags := flags } where
  width_eq := rfl
  pc_width := Sound.pc_width
  ir_width _ kept := kept

/-- The program counter may take a word of the width. -/
theorem suits_pc {pc : Word} (fits : pc.width = machine.width) :
    machine.Suits { machine.control with pc := pc } where
  width_eq := rfl
  pc_width _ := fits
  ir_width _ kept := kept

/-- The instruction register takes over words of the memory. -/
theorem suits_fetched (address : Word) :
    machine.Suits { machine.control with ir := (machine.readRam address).value } where
  width_eq := rfl
  pc_width := Sound.pc_width
  ir_width sound _ := sound.readRam_width address

/-- A reset writes zeros of the width. -/
theorem suits_reset : machine.Suits machine.control.reset where
  width_eq := rfl
  pc_width sound := (Word.width_zero _).trans sound.control_width
  ir_width sound _ := (Word.width_zero _).trans sound.control_width

end Suiting

/-- A lasting property survives every single update that an operation of a machine is made of. -/
structure Lasting (Holds : Machine → Prop) : Prop where
  control : ∀ {machine : Machine}, Holds machine → ∀ {control : Control}, machine.Suits control →
    Holds { machine with control := control }
  progress : ∀ {machine : Machine}, Holds machine →
    ∀ (phase : Phase) (steps stepLimit : Nat) (last : Option Instruction),
      Holds { machine with
        phase := phase, steps := steps, stepLimit := stepLimit, lastInstruction := last }
  write : ∀ {machine : Machine}, Holds machine → ∀ {bank : Bank} {address word : Word}
    {memory : Memory}, (machine.bank bank).write address word = .ok memory →
      Holds (machine.withBank bank memory)
  clear : ∀ {machine : Machine}, Holds machine → ∀ bank : Bank,
    Holds (machine.withBank bank (machine.bank bank).clear)

/-- Soundness is a lasting property. -/
theorem sound_lasting : Lasting Sound where
  control sound _ suits :=
    ⟨sound.valid, suits.width_eq.trans sound.control_width, suits.pc_width sound, sound.ram,
      sound.registers⟩
  progress sound _ _ _ _ :=
    ⟨sound.valid, sound.control_width, sound.pc_width, sound.ram, sound.registers⟩
  write sound bank _ _ _ written := sound.withBank bank ((sound.bank bank).write written)
  clear sound bank := sound.withBank bank (sound.bank bank).clear

/-- The word of an address is as wide as the machine. -/
theorem width_of_addressWord {machine : Machine} {start : Nat} {pc : Word}
    (named : machine.addressWord start = .ok pc) : pc.width = machine.width := by
  unfold addressWord at named
  split at named
  · cases named
  · cases named
    exact Word.width_ofNat _ _

namespace Lasting

variable {Holds : Machine → Prop} {machine : Machine}

section Updates

/-- A write keeps a lasting property even if it fails. -/
theorem writeOr (lasting : Lasting Holds) (holds : Holds machine) (bank : Bank)
    (address word : Word) :
    Holds (machine.withBank bank
      (Machine.writeOr (machine.bank bank) ((machine.bank bank).write address word)).value) := by
  cases written : (machine.bank bank).write address word with
  | error cause => exact (machine.withBank_bank bank).symm ▸ holds
  | ok memory => exact lasting.write holds written

/-- A write to the memory keeps a lasting property. -/
theorem writeRam (lasting : Lasting Holds) (holds : Holds machine) (address word : Word) :
    Holds (machine.writeRam address word).value :=
  lasting.writeOr holds .ram address word

/-- A write to a register keeps a lasting property. -/
theorem writeRegister (lasting : Lasting Holds) (holds : Holds machine) (index word : Word) :
    Holds (machine.writeRegister index word).value :=
  lasting.writeOr holds .registers index word

/-- A jump keeps a lasting property. -/
theorem jumpTo (lasting : Lasting Holds) (holds : Holds machine) (address : Word) :
    Holds (machine.jumpTo address) :=
  lasting.control holds (machine.suits_jump address)

theorem advance (lasting : Lasting Holds) (holds : Holds machine) : Holds machine.advance :=
  lasting.jumpTo holds _

/-- A new address of the width keeps a lasting property. -/
theorem withPc (lasting : Lasting Holds) (holds : Holds machine) {pc : Word}
    (fits : pc.width = machine.width) : Holds (machine.withPc pc) :=
  lasting.control holds (machine.suits_pc fits)

/-- New flags keep a lasting property. -/
theorem withFlags (lasting : Lasting Holds) (holds : Holds machine) (flags : Flags) :
    Holds (machine.withFlags flags) :=
  lasting.control holds (machine.suits_flags flags)

theorem withPhase (lasting : Lasting Holds) (holds : Holds machine) (phase : Phase) :
    Holds { machine with phase := phase } :=
  lasting.progress holds phase machine.steps machine.stepLimit machine.lastInstruction

/-- Storing a result with its flags keeps a lasting property. -/
theorem storeOutcome (lasting : Lasting Holds) (holds : Holds machine) (index : Word)
    (outcome : Outcome) : Holds (machine.storeOutcome index outcome).value :=
  lasting.writeRegister (lasting.withFlags holds outcome.flags) index outcome.word

end Updates

section Operations

/-- An instruction is made of updates. -/
theorem execute (lasting : Lasting Holds) (holds : Holds machine) (instruction : Instruction) :
    Holds (machine.execute instruction).value := by
  obtain ⟨opcode, first, second⟩ := instruction
  cases opcode with
  | halt => exact lasting.withPhase holds .halted
  | idle => exact lasting.advance holds
  | move transfer =>
      cases transfer with
      | memoryFromImmediate | memoryFromRegister =>
          exact lasting.advance (lasting.writeRam holds _ _)
      | registerFromImmediate | registerFromMemory | registerFromRegister =>
          exact lasting.advance (lasting.writeRegister holds _ _)
  | out cell => exact lasting.advance holds
  | binary operation source =>
      cases operation with
      | cmp => exact lasting.advance (lasting.withFlags holds _)
      | add | sub | mul => exact lasting.advance (lasting.storeOutcome holds _ _)
  | increment | decrement => exact lasting.advance (lasting.storeOutcome holds _ _)
  | jump condition target =>
      simp only [Machine.execute]
      split
      · cases target with
        | absolute => exact lasting.jumpTo holds _
        | relative => exact lasting.jumpTo holds _
      · exact lasting.advance holds

/-- Fetching the opcode keeps a lasting property. -/
theorem fetched (lasting : Lasting Holds) (holds : Holds machine) : Holds machine.fetched := by
  have read := lasting.control holds (machine.suits_fetched machine.pc)
  exact lasting.progress read machine.phase (machine.steps + 1) machine.stepLimit
    machine.lastInstruction

/-- A step keeps every lasting property. -/
theorem step (lasting : Lasting Holds) (holds : Holds machine) : Holds machine.step.value.1 := by
  cases decoded : Opcode.ofWord? (machine.readRam machine.pc).value with
  | none =>
      rw [step_unknown decoded]
      exact lasting.advance (lasting.fetched holds)
  | some opcode =>
      rw [step_known decoded]
      exact lasting.progress (lasting.execute (lasting.fetched holds) _) _ _ _ _

/-- The loop of a run takes steps only and may halt the machine at its end. -/
theorem runLoop (lasting : Lasting Holds) (holds : Holds machine) (limit left : Nat)
    (newest : List Event) : Holds (Machine.runLoop limit left machine newest).1 := by
  induction left generalizing machine newest with
  | zero =>
      rw [runLoop_zero]
      split
      · exact lasting.withPhase (lasting.step holds) .halted
      · exact lasting.step holds
  | succ left ih =>
      rw [runLoop_succ]
      split
      · exact ih (lasting.step holds) _
      · exact lasting.step holds

/-- A run keeps a lasting property, even if it fails. -/
theorem run (lasting : Lasting Holds) (holds : Holds machine) (start : Nat) :
    Holds (machine.run start).value.machine := by
  rw [Machine.run]
  cases named : machine.addressWord start with
  | error cause => exact holds
  | ok pc =>
      have started := lasting.withPc holds (width_of_addressWord named)
      exact lasting.runLoop (lasting.withPhase started .running) _ _ []

/-- Loading words keeps a lasting property. -/
theorem loadWords (lasting : Lasting Holds) (holds : Holds machine) (address : Word)
    (words : List Word) : Holds (machine.loadWords address words).value := by
  induction words generalizing machine address with
  | nil => exact holds
  | cons word rest ih => exact ih (lasting.writeRam holds address word) address.increment

/-- Loading keeps a lasting property. -/
theorem load (lasting : Lasting Holds) (holds : Holds machine) (bits : List Bool) (address : Nat) :
    Holds (machine.load bits address).value := by
  rw [Machine.load]
  cases machine.addressWord address with
  | error cause => exact holds
  | ok start => exact lasting.loadWords holds start _

/-- Loading a source keeps a lasting property, whether or not it assembles. -/
theorem loadSource (lasting : Lasting Holds) (holds : Holds machine) (source : String)
    (address : Nat) : Holds (machine.loadSource source address).value.1 :=
  lasting.load holds _ address

/-- A reset keeps a lasting property. -/
theorem reset (lasting : Lasting Holds) (holds : Holds machine) (clearRam : Bool) :
    Holds (machine.reset clearRam).value := by
  have cleared := lasting.clear holds .registers
  have restarted := lasting.progress (lasting.control cleared (suits_reset _))
    .idle 0 machine.stepLimit none
  cases clearRam with
  | false => exact restarted
  | true => exact lasting.clear restarted .ram

end Operations

end Lasting

end WordMachine.Machine
