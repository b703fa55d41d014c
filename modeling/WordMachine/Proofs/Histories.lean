import WordMachine.Proofs.WellFormed

namespace WordMachine

/-- The operations that a host performs on a machine, of which the last two write a cell directly.
-/
inductive Operation where
  | compile (source : String)
  | load (bits : List Bool) (address : Nat)
  | loadSource (source : String) (address : Nat)
  | run (start : Nat)
  | step
  | reset (clearRam : Bool)
  | setStepLimit (limit : Nat)
  | writeRegister (index : Nat) (word : Word)
  | writeRam (address : Nat) (word : Word)
deriving DecidableEq

def Operation.isDirectWrite : Operation → Bool
  | .writeRegister _ _ | .writeRam _ _ => true
  | _ => false

namespace Memory

/-- Beyond the address space, the later memory holds only cells that the earlier one holds too and
words that were written directly. -/
def GainsFar (width : Nat) (writes : Nat → Word → Prop) (earlier later : Memory) : Prop :=
  ∀ address word, 2 ^ width ≤ address → later.cells[address]? = some word →
    earlier.cells[address]? = some word ∨
      ∃ written, writes address written ∧ word = written.padded width

/-- Gains follow each other. -/
theorem GainsFar.trans {width : Nat} {first second third : Memory}
    {writes early late : Nat → Word → Prop}
    (before : first.GainsFar width early second) (after : second.GainsFar width late third)
    (fromEarly : ∀ address word, early address word → writes address word)
    (fromLate : ∀ address word, late address word → writes address word) :
    first.GainsFar width writes third := by
  intro address word far stored
  rcases after address word far stored with between | ⟨written, wrote, same⟩
  · exact (before address word far between).imp_right fun ⟨written, wrote, same⟩ =>
      ⟨written, fromEarly address written wrote, same⟩
  · exact Or.inr ⟨written, fromLate address written wrote, same⟩

theorem KeepsFar.gains {width : Nat} {earlier later : Memory} (keeps : earlier.KeepsFar width later)
    (writes : Nat → Word → Prop) : earlier.GainsFar width writes later :=
  fun address word far stored => Or.inl (keeps address word far stored)

end Memory

namespace Machine

variable {machine : Machine}

/-- A direct write that fails changes nothing and is not reported as an event. -/
def perform (machine : Machine) : Operation → Traced Machine
  | .compile source => do
      let _ ← machine.compile source
      pure machine
  | .load bits address => machine.load bits address
  | .loadSource source address => do
      let (loaded, _) ← machine.loadSource source address
      pure loaded
  | .run start => do
      let finished ← machine.run start
      pure finished.machine
  | .step => do
      let (stepped, _) ← machine.step
      pure stepped
  | .reset clearRam => machine.reset clearRam
  | .setStepLimit limit => pure (machine.withStepLimit limit)
  | .writeRegister index word =>
      match machine.registers.writeAt index word with
      | .ok registers => pure { machine with registers := registers }
      | .error _ => pure machine
  | .writeRam address word =>
      match machine.ram.writeAt address word with
      | .ok ram => pure { machine with ram := ram }
      | .error _ => pure machine

/-- The operations of a history follow each other on one machine. -/
def performAll (machine : Machine) : List Operation → Traced Machine
  | [] => pure machine
  | operation :: rest => do
      let next ← machine.perform operation
      next.performAll rest

/-- All operations but direct writes are made of updates. -/
theorem Lasting.perform {Holds : Machine → Prop} (lasting : Lasting Holds) (holds : Holds machine)
    {operation : Operation} (indirect : operation.isDirectWrite = false) :
    Holds (machine.perform operation).value := by
  cases operation with
  | compile source => exact holds
  | load bits address => exact lasting.load holds bits address
  | loadSource source address => exact lasting.loadSource holds source address
  | run start => exact lasting.run holds start
  | step => exact lasting.step holds
  | reset clearRam => exact lasting.reset holds clearRam
  | setStepLimit limit =>
      exact lasting.progress holds machine.phase machine.steps limit machine.lastInstruction
  | writeRegister index word => cases indirect
  | writeRam address word => cases indirect

/-- The direct write to a memory. -/
def Bank.directWrite (bank : Bank) (address : Nat) (word : Word) : Operation :=
  match bank with
  | .ram => .writeRam address word
  | .registers => .writeRegister address word

/-- A direct write replaces its memory, or fails. -/
theorem perform_directWrite (machine : Machine) (bank : Bank) (address : Nat) (word : Word) :
    machine.perform (bank.directWrite address word) =
      match (machine.bank bank).writeAt address word with
      | .ok memory => pure (machine.withBank bank memory)
      | .error _ => pure machine := by
  cases bank <;> rfl

/-- What a history does to a well-formed machine, where far cells come from direct writes only. -/
structure History (machine : Machine) (operations : List Operation) (outcome : Traced Machine) :
    Prop where
  architecture : outcome.value.architecture = machine.architecture
  wellFormed : outcome.value.WellFormed
  settled : machine.phase ≠ .running → outcome.value.phase ≠ .running
  outputs_width : ∀ word ∈ outcome.outputs, word.width = machine.width
  ram_far : machine.ram.GainsFar machine.width
    (fun address word => .writeRam address word ∈ operations) outcome.value.ram
  registers_far : machine.registers.GainsFar machine.width
    (fun index word => .writeRegister index word ∈ operations) outcome.value.registers

/-- An operation without direct writes gains nothing. -/
theorem Evolves.history {operations : List Operation} {outcome : Traced Machine}
    (evolves : machine.Evolves outcome.value)
    (settled : machine.phase ≠ .running → outcome.value.phase ≠ .running)
    (outputs_width : ∀ word ∈ outcome.outputs, word.width = machine.width) :
    machine.History operations outcome where
  architecture := evolves.architecture
  wellFormed := evolves.wellFormed
  settled := settled
  outputs_width := outputs_width
  ram_far := evolves.ram_far.gains _
  registers_far := evolves.registers_far.gains _

/-- Loading words changes nothing but the memory. -/
theorem loadWords_frame (machine : Machine) (address : Word) (words : List Word) :
    ∃ ram, (machine.loadWords address words).value = { machine with ram := ram } := by
  induction words generalizing machine address with
  | nil => exact ⟨machine.ram, rfl⟩
  | cons word rest ih => exact ih (machine.writeRam address word).value address.increment

/-- Loading changes nothing but the memory. -/
theorem load_frame (machine : Machine) (bits : List Bool) (address : Nat) :
    ∃ ram, (machine.load bits address).value = { machine with ram := ram } := by
  rw [load]
  cases machine.addressWord address with
  | error cause => exact ⟨machine.ram, rfl⟩
  | ok start => exact loadWords_frame _ _ _

/-- Loading keeps the phase. -/
theorem load_phase (machine : Machine) (bits : List Bool) (address : Nat) :
    (machine.load bits address).value.phase = machine.phase := by
  obtain ⟨ram, loaded⟩ := machine.load_frame bits address
  rw [loaded]

/-- No step starts a machine. -/
theorem step_settled (settled : machine.phase ≠ .running) :
    machine.step.value.1.phase ≠ .running := by
  obtain ⟨_, _, _, _, _, stepped, halted | kept⟩ := step_frame machine
  · rw [stepped, halted]
    exact Phase.noConfusion
  · rw [stepped, kept]
    exact settled

/-- A direct write stores its word, or fails and changes nothing. -/
theorem WellFormed.directWrite_history (formed : machine.WellFormed) (bank : Bank) (address : Nat)
    (word : Word) :
    machine.History [bank.directWrite address word]
      (machine.perform (bank.directWrite address word)) := by
  rw [perform_directWrite]
  cases written : (machine.bank bank).writeAt address word with
  | error cause => exact formed.evolves.history id (by simp)
  | ok memory =>
      obtain ⟨holds, inside, stored⟩ :=
        (formed.toSound.bank bank).writeAt_inside (formed.bank_inside bank) written
      have far (other : Bank) : (machine.bank other).GainsFar machine.width
          (fun place found => other.directWrite place found ∈ [bank.directWrite address word])
          ((machine.withBank bank memory).bank other) := by
        by_cases same : other = bank
        · subst same
          rw [bank_withBank]
          intro place found _ present
          rcases stored place found present with before | ⟨rfl, rfl⟩
          · exact Or.inl before
          · exact Or.inr ⟨word, List.mem_singleton_self _, rfl⟩
        · rw [bank_withBank_of_ne same]
          exact (Memory.KeepsFar.refl _ _).gains _
      have kept : (machine.withBank bank memory).architecture = machine.architecture ∧
          (machine.withBank bank memory).phase = machine.phase := by
        cases bank <;> exact ⟨rfl, rfl⟩
      exact ⟨kept.1, formed.withBank bank holds inside, kept.2.trans_ne, by simp, far .ram,
        far .registers⟩

/-- Each operation makes a history of one. -/
theorem WellFormed.perform (formed : machine.WellFormed) (operation : Operation) :
    machine.History [operation] (machine.perform operation) := by
  have evolves : operation.isDirectWrite = false → machine.Evolves (machine.perform operation).value :=
    (evolves_lasting machine).perform formed.evolves
  cases operation with
  | compile source =>
      exact (evolves rfl).history id (by simp [Machine.perform])
  | load bits address =>
      refine (evolves rfl).history ?_ (by simp [Machine.perform])
      exact fun settled => (load_phase machine bits address).trans_ne settled
  | loadSource source address =>
      refine (evolves rfl).history ?_ (by simp [Machine.perform])
      exact fun settled => (load_phase machine _ address).trans_ne settled
  | run start =>
      obtain ⟨_, settled, width⟩ := formed.run start
      exact (evolves rfl).history settled (by simpa [Machine.perform] using width)
  | step =>
      have width := formed.toSound.step_outputs_width
      exact (evolves rfl).history step_settled
        (by simpa [Machine.perform] using width)
  | reset clearRam =>
      exact (evolves rfl).history (fun _ => Phase.noConfusion) nofun
  | setStepLimit limit =>
      exact (evolves rfl).history id (by simp [Machine.perform])
  | writeRegister index word => exact formed.directWrite_history .registers index word
  | writeRam address word => exact formed.directWrite_history .ram address word

theorem WellFormed.history_nil (formed : machine.WellFormed) :
    machine.History [] (pure machine) :=
  formed.evolves.history id (by simp)

/-- A history of one operation is continued by a history of the others. -/
theorem History.cons {operation : Operation} {operations : List Operation} {first : Traced Machine}
    {rest : Machine → Traced Machine} (here : machine.History [operation] first)
    (later : first.value.History operations (rest first.value)) :
    machine.History (operation :: operations) (first >>= rest) := by
  have sameWidth : first.value.width = machine.width := congrArg Architecture.bits here.architecture
  obtain ⟨sameShape, formed, settled, shown, ram, registers⟩ := later
  rw [sameWidth] at shown ram registers
  refine ⟨sameShape.trans here.architecture, formed, fun before => settled (here.settled before),
    ?_, here.ram_far.trans ram ?_ ?_, here.registers_far.trans registers ?_ ?_⟩
  · intro word put
    rw [Traced.outputs_bind, List.mem_append] at put
    exact put.elim (here.outputs_width word) (shown word)
  -- each direct write is the first operation or one of the rest
  · exact fun _ _ listed => List.mem_cons.mpr (Or.inl (List.mem_singleton.mp listed))
  · exact fun _ _ listed => List.mem_cons_of_mem _ listed
  · exact fun _ _ listed => List.mem_cons.mpr (Or.inl (List.mem_singleton.mp listed))
  · exact fun _ _ listed => List.mem_cons_of_mem _ listed

/-- Every sequence of operations makes a history. -/
theorem WellFormed.performAll (formed : machine.WellFormed) (operations : List Operation) :
    machine.History operations (machine.performAll operations) := by
  induction operations generalizing machine with
  | nil => exact formed.history_nil
  | cons operation rest ih =>
      have here := formed.perform operation
      exact here.cons (ih here.wellFormed)

/-- Every history leaves a well-formed machine, and only direct writes reach beyond the address
space. -/
theorem performAll_preserves_form (architecture : Architecture) (operations : List Operation)
    (valid : architecture.validate = .ok ()) :
    let outcome := (build architecture).performAll operations
    outcome.value.architecture = architecture ∧
      outcome.value.pc.width = architecture.bits ∧
      outcome.value.ir.width = architecture.bits ∧
      (∀ address word, outcome.value.ram.cells[address]? = some word →
        word.width = architecture.bits ∧ address < architecture.ramCells ∧
          (address < 2 ^ architecture.bits ∨ ∃ written,
            .writeRam address written ∈ operations ∧ word = written.padded architecture.bits)) ∧
      (∀ index word, outcome.value.registers.cells[index]? = some word →
        word.width = architecture.bits ∧ index < architecture.registerCount ∧
          (index < 2 ^ architecture.bits ∨ ∃ written,
            .writeRegister index written ∈ operations ∧
              word = written.padded architecture.bits)) ∧
      (∀ word, Event.out word ∈ outcome.events → word.width = architecture.bits) ∧
      outcome.value.phase ≠ .running ∧
      ∀ operation, operation.isDirectWrite = false → ∀ address word,
        2 ^ architecture.bits ≤ address →
        ((outcome.value.perform operation).value.ram.cells[address]? = some word →
          outcome.value.ram.cells[address]? = some word) ∧
        ((outcome.value.perform operation).value.registers.cells[address]? = some word →
          outcome.value.registers.cells[address]? = some word) := by
  intro outcome
  obtain ⟨sameShape, formed, settled, shown, ram, registers⟩ :=
    (build_wellFormed valid).performAll operations
  have shape : outcome.value.architecture = architecture := sameShape
  have width : outcome.value.width = architecture.bits := congrArg Architecture.bits shape
  -- a fresh machine stores nothing, so that a far cell comes from a direct write
  have fresh (address : Nat) (word : Word) :
      ¬ (∅ : Std.ExtTreeMap Nat Word)[address]? = some word := by simp
  refine ⟨shape, formed.pc_width.trans width, formed.ir_width.trans width, ?_, ?_, ?_,
    settled Phase.noConfusion, ?_⟩
  · intro address word stored
    have within := formed.ram_inside address word stored
    rw [formed.ram.capacity_eq] at within
    refine ⟨(formed.ram.stored stored).trans width, shape ▸ within, ?_⟩
    refine (Nat.lt_or_ge _ _).imp_right fun far => ?_
    exact (ram address word far stored).resolve_left (fresh address word)
  · intro index word stored
    have within := formed.registers_inside index word stored
    rw [formed.registers.capacity_eq] at within
    refine ⟨(formed.registers.stored stored).trans width, shape ▸ within, ?_⟩
    refine (Nat.lt_or_ge _ _).imp_right fun far => ?_
    exact (registers index word far stored).resolve_left (fresh index word)
  · exact fun word put => shown word (List.mem_filterMap.mpr ⟨_, put, rfl⟩)
  · intro operation indirect address word far
    have evolves := (evolves_lasting outcome.value).perform formed.evolves indirect
    rw [← width] at far
    exact ⟨evolves.ram_far address word far, evolves.registers_far address word far⟩

/-- A directly written cell beyond the address space outlasts a program that is loaded and run. -/
theorem performAll_preserves_form_far_cell :
    (⟨1, 1, 4⟩ : Architecture).validate = .ok () ∧
      ((build ⟨1, 1, 4⟩).performAll [.writeRam 3 Word.one, .load [true, true, false, true] 0,
        .setStepLimit 2, .run 0]).value.ram.cells[3]? = some Word.one ∧
      ∃ written, Operation.writeRam 3 written ∈ ([.writeRam 3 Word.one,
          .load [true, true, false, true] 0, .setStepLimit 2, .run 0] : List Operation) ∧
        Word.one = written.padded 1 := by
  have valid : (⟨1, 1, 4⟩ : Architecture).validate = .ok () := rfl
  have stored : ((build ⟨1, 1, 4⟩).performAll [.writeRam 3 Word.one,
      .load [true, true, false, true] 0, .setStepLimit 2, .run 0]).value.ram.cells[3]? =
        some Word.one := by decide +kernel
  obtain ⟨_, _, _, ram, _⟩ := performAll_preserves_form ⟨1, 1, 4⟩ [.writeRam 3 Word.one,
    .load [true, true, false, true] 0, .setStepLimit 2, .run 0] valid
  exact ⟨valid, stored, ((ram 3 Word.one stored).2.2).resolve_left (by decide)⟩

end Machine

end WordMachine
