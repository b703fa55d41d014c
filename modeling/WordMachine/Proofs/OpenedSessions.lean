import WordMachine.Proofs.Loading
import WordMachine.Proofs.SessionResets

namespace WordMachine

/-- The start is an address, and the words of the program fit into the memory from it on. -/
def Program.FitsAt (program : Program) (architecture : Architecture) (start : Nat) : Prop :=
  let count := blockCount architecture.bits program.bits.length
  start < 2 ^ architecture.bits ∧
    (count = 0 ∨ start + count ≤ min (2 ^ architecture.bits) architecture.ramCells)

instance (program : Program) (architecture : Architecture) (start : Nat) :
    Decidable (program.FitsAt architecture start) :=
  inferInstanceAs (Decidable (_ ∧ _))

/-- The fault that names a start which is no address. -/
def startFault (start : Nat) : Fault := .memory (.addressTooWide "RAM" (toString start))

namespace Machine

variable {architecture : Architecture} {start : Nat}

/-- A start beyond the address space is reported and loads nothing. -/
theorem build_load_of_wide (bits : List Bool) (positive : 1 ≤ architecture.bits)
    (wide : 2 ^ architecture.bits ≤ start) :
    (build architecture).load bits start = ⟨build architecture, [.fault (startFault start)]⟩ := by
  have refused : (build architecture).addressWord start = .error (.addressTooWide "RAM"
      (toString start)) := addressWord_eq_error positive wide
  rw [load, refused]
  rfl

/-- Loading reports nothing exactly if the program fits. -/
theorem build_load_events_eq_nil_iff (program : Program) (valid : architecture.validate = .ok ()) :
    ((build architecture).load program.bits start).events = [] ↔
      program.FitsAt architecture start := by
  obtain ⟨positive, narrow, _⟩ := (Architecture.validate_eq_ok_iff _).mp valid
  rcases Nat.lt_or_ge start (2 ^ architecture.bits) with fits | wide
  · obtain ⟨ram, loaded, _⟩ := (build architecture).load_receives program.bits positive narrow rfl
      fits
    rw [loaded]
    exact Memory.refusals_eq_nil_iff.trans (and_iff_right fits).symm
  · rw [build_load_of_wide _ positive wide]
    exact iff_of_false (List.cons_ne_nil _ _) fun inside => absurd inside.1 (Nat.not_lt.mpr wide)

end Machine

namespace Debugger.Session

variable {session : Session} {program : Program} {architecture : Architecture} {start : Nat}

/-- The events of the loading in a reset of the session. -/
def loadEvents (session : Session) : List Event :=
  ((session.machine.reset true).value.load session.program.bits session.start).events

/-- The session stands at its start, and the words of its program lie in the memory from there. -/
structure Placed (session : Session) : Prop where
  address_eq : session.address = session.start
  held : ∀ index < blockCount session.machine.width session.program.bits.length,
    session.machine.ram.readAt (session.start + index) =
      .ok ((Word.cut session.machine.width session.program.bits index).padded
        session.machine.width)

/-- The start is honoured or a fault is shown, and every failure of the loading is shown. -/
structure Honest (session : Session) : Prop where
  placed : session.Placed ∨ session.lastFault ≠ none
  shown : session.loadEvents ≠ [] → session.lastFault ≠ none

/-- The session is as a creation or a reset leaves it. -/
structure Opened (session : Session) (program : Program) (architecture : Architecture)
    (start : Nat) : Prop where
  serves : session.Serves program architecture start
  machine_eq : session.machine =
    (opening program architecture start).machine.withStepLimit session.machine.stepLimit
  lastFault_eq : session.lastFault = none

/-- A new session has been opened. -/
theorem opening_opened (program : Program) (architecture : Architecture) (start : Nat) :
    (opening program architecture start).Opened program architecture start :=
  ⟨opening_serves program architecture start, rfl, rfl⟩

/-- A reset session has been opened too. -/
theorem Serves.reset_opened (serves : session.Serves program architecture start) :
    session.reset.Opened program architecture start := by
  refine ⟨serves.reset, ?_, rfl⟩
  rw [serves.reset_eq]
  rfl

namespace Opened

variable (opened : session.Opened program architecture start)

include opened

theorem width_eq : session.machine.width = architecture.bits :=
  congrArg Architecture.bits opened.serves.fitted.architecture_eq

theorem ram_eq :
    session.machine.ram = ((Machine.build architecture).load program.bits start).value.ram := by
  rw [opened.machine_eq]
  rfl

theorem loadEvents_eq :
    session.loadEvents = ((Machine.build architecture).load program.bits start).events := by
  rw [loadEvents, opened.serves.fitted.reset_true, Machine.load_withStepLimit,
    opened.serves.program_eq, opened.serves.start_eq]

/-- The program counter keeps what a word holds of the start. -/
theorem address_eq (narrow : architecture.bits ≤ 64) :
    session.address = start % 2 ^ architecture.bits := by
  have pc : session.machine.pc = Word.ofNat architecture.bits start := by
    rw [opened.machine_eq]
    rfl
  rw [address, pc, Word.unsigned_eq ((Word.width_ofNat _ _).trans_le narrow), Word.value_ofNat]

/-- A program that fits is placed. -/
theorem placed (positive : 1 ≤ architecture.bits) (narrow : architecture.bits ≤ 64)
    (fits : program.FitsAt architecture start) : session.Placed := by
  obtain ⟨inWords, inside⟩ := fits
  obtain ⟨ram, loaded, received⟩ :=
    (Machine.build architecture).load_receives program.bits positive narrow rfl inWords
  have same : session.machine.ram = ram := by
    rw [opened.ram_eq, loaded]
  constructor
  · rw [opened.address_eq narrow, opened.serves.start_eq, Nat.mod_eq_of_lt inWords]
  · rw [opened.serves.start_eq, opened.serves.program_eq, opened.width_eq, same]
    intro index less
    have reached : start + index < min (2 ^ architecture.bits) architecture.ramCells := by omega
    have inRange : start + index < ram.capacity :=
      (Nat.lt_min.mp reached).2.trans_eq received.capacity_eq.symm
    have stored := received.written (by
      rw [List.length_map, List.length_range]
      exact less) reached
    rw [Memory.readAt_of_lt inRange, Memory.cell, stored, List.getElem_map, List.getElem_range]
    rfl

/-- Where all cells have an address, only a program that fits is placed. -/
theorem fitsAt_of_placed (narrow : architecture.bits ≤ 64)
    (addressed : architecture.ramCells ≤ 2 ^ architecture.bits) (placed : session.Placed) :
    program.FitsAt architecture start := by
  obtain ⟨here, held⟩ := placed
  rw [opened.serves.start_eq, opened.serves.program_eq, opened.width_eq] at held
  rw [opened.address_eq narrow, opened.serves.start_eq] at here
  have inWords : start < 2 ^ architecture.bits := by
    rw [← here]
    exact Nat.mod_lt _ (Nat.two_pow_pos _)
  refine ⟨inWords, ?_⟩
  rcases Nat.eq_zero_or_pos (blockCount architecture.bits program.bits.length) with none | some
  · exact .inl none
  · -- the last word can be read, so that it lies inside the memory
    right
    have last := Memory.lt_capacity_of_readAt (held _ (Nat.sub_one_lt_of_lt some))
    rw [opened.serves.fitted.ram.holds.capacity_eq] at last
    omega

/-- The loading reports nothing exactly if the program fits. -/
theorem loadEvents_eq_nil_iff (valid : architecture.validate = .ok ()) :
    session.loadEvents = [] ↔ program.FitsAt architecture start := by
  rw [opened.loadEvents_eq]
  exact Machine.build_load_events_eq_nil_iff program valid

/-- A failure of the loading is never shown, so that only a program that fits is honest. -/
theorem honest_iff (valid : architecture.validate = .ok ()) :
    session.Honest ↔ program.FitsAt architecture start := by
  obtain ⟨positive, narrow, _⟩ := (Architecture.validate_eq_ok_iff _).mp valid
  have silent := opened.loadEvents_eq_nil_iff valid
  constructor
  · intro honest
    rw [← silent]
    by_contra reported
    exact honest.shown reported opened.lastFault_eq
  · intro fits
    exact ⟨.inl (opened.placed positive narrow fits), fun reported =>
      absurd (silent.mpr fits) reported⟩

end Opened

/-- A new or reset session stands on its program at its start exactly if the program fits there, and
never shows a fault. -/
theorem opened_honest_iff_fits (program : Program) {architecture : Architecture} (start : Nat)
    (valid : architecture.validate = .ok ()) (past : List Interaction) :
    ∃ fresh : Session,
      create program architecture start = .ok fresh ∧
      let renewed := (fresh.afterAll past).reset
      fresh.status = .ready ∧ renewed.status = .reset ∧
        ∀ session ∈ [fresh, renewed],
          session.lastFault = none ∧
          session.address = start % 2 ^ architecture.bits ∧
          (session.loadEvents = [] ↔ program.FitsAt architecture start) ∧
          (session.Honest ↔ program.FitsAt architecture start) ∧
          (architecture.ramCells ≤ 2 ^ architecture.bits →
            (session.Placed ↔ program.FitsAt architecture start)) ∧
          (2 ^ architecture.bits ≤ start →
            session.loadEvents = [.fault (startFault start)] ∧
              (session.machine.run start).value.result = .error (startFault start)) := by
  obtain ⟨positive, narrow, _⟩ := (Architecture.validate_eq_ok_iff _).mp valid
  refine ⟨opening program architecture start, create_eq_ok program start valid, ?_⟩
  intro renewed
  have serves := (opening_serves program architecture start).afterAll past
  refine ⟨rfl, rfl, ?_⟩
  intro session listed
  have opened : session.Opened program architecture start := by
    rcases List.mem_pair.mp listed with rfl | rfl
    · exact opening_opened program architecture start
    · exact serves.reset_opened
  refine ⟨opened.lastFault_eq, opened.address_eq narrow, opened.loadEvents_eq_nil_iff valid,
    opened.honest_iff valid, ?_, ?_⟩
  · intro addressed
    exact ⟨opened.fitsAt_of_placed narrow addressed, opened.placed positive narrow⟩
  · intro wide
    constructor
    · rw [opened.loadEvents_eq, Machine.build_load_of_wide _ positive wide]
    · rw [← opened.width_eq] at positive wide
      rw [Machine.run_of_wide positive wide, opened.serves.fitted.ram.name_eq]
      rfl

/-- After a session went astray, a reset places the program again at the end of the memory. -/
theorem opened_honest_iff_fits_last_cells :
    (⟨8, 4, 256⟩ : Architecture).validate = .ok () ∧
      ∃ fresh : Session,
        create (assemble "HLT" 8).program ⟨8, 4, 256⟩ 253 = .ok fresh ∧
        (fresh.afterAll [.changeRam (.writeAt 253 (Word.ofNat 8 7)), .call .step]).reset.Honest := by
  have valid : (⟨8, 4, 256⟩ : Architecture).validate = .ok () := rfl
  obtain ⟨fresh, created, _, _, opened⟩ := opened_honest_iff_fits (assemble "HLT" 8).program 253
    valid [.changeRam (.writeAt 253 (Word.ofNat 8 7)), .call .step]
  have fits : (assemble "HLT" 8).program.FitsAt ⟨8, 4, 256⟩ 253 := by decide +kernel
  exact ⟨valid, fresh, created, ((opened _ (by simp)).2.2.2.1).mpr fits⟩

/-- A start beyond the address space leaves an empty memory and a program counter elsewhere, and the
session says that it is ready. -/
theorem opened_at_wide_start_not_honest :
    ∃ fresh : Session,
      create (assemble "HLT" 8).program ⟨8, 4, 256⟩ 300 = .ok fresh ∧
      fresh.lastFault = none ∧
      fresh.status.message = "Ready. Press 's' to step, 'r' to run, 'q' to quit." ∧
      fresh.address = 44 ∧ fresh.machine.ram.dump = [] ∧ ¬ fresh.Placed ∧ ¬ fresh.Honest := by
  have elsewhere : (opening (assemble "HLT" 8).program ⟨8, 4, 256⟩ 300).address = 44 := by
    decide +kernel
  have misplaced : ¬ (opening (assemble "HLT" 8).program ⟨8, 4, 256⟩ 300).Placed := by
    intro placed
    exact absurd (elsewhere.symm.trans placed.address_eq) (by decide)
  refine ⟨_, create_eq_ok _ _ rfl, rfl, by decide +kernel, elsewhere, by decide +kernel, misplaced,
    ?_⟩
  intro honest
  exact honest.placed.elim misplaced (fun shown => shown rfl)

end Debugger.Session

end WordMachine
