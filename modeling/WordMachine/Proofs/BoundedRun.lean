import WordMachine.Proofs.Mirrors
import WordMachine.Proofs.Signed
import WordMachine.Proofs.LastingProperties

namespace WordMachine

namespace Machine

/-- Steps follow each other whatever phase they end in, and their events are kept in order. -/
def iterate (machine : Machine) : Nat → Traced Machine
  | 0 => pure machine
  | count + 1 => do
      let (next, _) ← machine.step
      next.iterate count

/-- The machine is halted after this many steps, and not before. -/
def HaltsFirst (machine : Machine) (count : Nat) : Prop :=
  (machine.iterate count).value.phase = .halted ∧
    ∀ earlier < count, (machine.iterate earlier).value.phase ≠ .halted

@[simp] theorem iterate_zero (machine : Machine) : machine.iterate 0 = pure machine := rfl

theorem iterate_succ_value (machine : Machine) (count : Nat) :
    (machine.iterate (count + 1)).value = (machine.step.value.1.iterate count).value := rfl

theorem iterate_succ_events (machine : Machine) (count : Nat) :
    (machine.iterate (count + 1)).events =
      machine.step.events ++ (machine.step.value.1.iterate count).events := rfl

/-- Iterated steps are all counted. -/
theorem iterate_steps (machine : Machine) (count : Nat) :
    (machine.iterate count).value.steps = machine.steps + count := by
  induction count generalizing machine with
  | zero => rfl
  | succ count ih =>
      obtain ⟨_, _, _, _, _, stepped, _⟩ := step_frame machine
      rw [iterate_succ_value, ih, stepped, Nat.add_assoc, Nat.add_comm 1]

theorem iterate_width (machine : Machine) (count : Nat) :
    (machine.iterate count).value.width = machine.width := by
  induction count generalizing machine with
  | zero => rfl
  | succ count ih => rw [iterate_succ_value, ih, step_width]

/-- A running machine is running or halted after a step. -/
theorem step_phase_of_running {machine : Machine} (running : machine.phase = .running) :
    machine.step.value.1.phase = .running ∨ machine.step.value.1.phase = .halted := by
  obtain ⟨_, _, _, _, _, stepped, halted | kept⟩ := step_frame machine
  · exact Or.inr (by rw [stepped, halted])
  · exact Or.inl (by rw [stepped, kept, running])

/-- A running machine does not halt before its first step. -/
theorem HaltsFirst.pos {machine : Machine} {count : Nat} (halts : machine.HaltsFirst count)
    (running : machine.phase = .running) : 0 < count := by
  rw [Nat.pos_iff_ne_zero]
  rintro rfl
  have halted : machine.phase = .halted := halts.1
  rw [running] at halted
  cases halted

/-- After one step the first halt is one step closer. -/
theorem HaltsFirst.tail {machine : Machine} {count : Nat} (halts : machine.HaltsFirst (count + 1)) :
    machine.step.value.1.HaltsFirst count :=
  ⟨halts.1, fun earlier before => halts.2 (earlier + 1) (Nat.succ_lt_succ before)⟩

/-- The loop stops after a step that halts, even when it was the last one. -/
theorem runLoop_halted (limit left : Nat) {machine : Machine} (newest : List Event)
    (halted : machine.step.value.1.phase = .halted) :
    runLoop limit left machine newest =
      (machine.step.value.1, true, machine.step.events.reverse ++ newest) := by
  cases left <;> simp [runLoop_zero, runLoop_succ, halted, List.reverseAux_eq]

/-- The loop stops at the first halt that the remaining steps reach. -/
theorem runLoop_halts (limit : Nat) {left count : Nat} {machine : Machine} (newest : List Event)
    (running : machine.phase = .running) (halts : machine.HaltsFirst count)
    (within : count ≤ left + 1) :
    runLoop limit left machine newest =
      ((machine.iterate count).value, true, (machine.iterate count).events.reverse ++ newest) := by
  induction left generalizing machine count newest with
  | zero =>
      obtain rfl : count = 1 := by
        have positive := halts.pos running
        omega
      have halted : machine.step.value.1.phase = .halted := halts.1
      simp [runLoop_halted limit 0 newest halted, iterate_succ_value, iterate_succ_events]
  | succ left ih =>
      obtain ⟨further, rfl⟩ : ∃ further, count = further + 1 :=
        Nat.exists_eq_add_one.mpr (halts.pos running)
      rcases step_phase_of_running running with stepped | stepped
      · have rest := ih (machine.step.events.reverse ++ newest) stepped halts.tail
          (Nat.le_of_succ_le_succ within)
        rw [runLoop_succ, if_pos stepped, List.reverseAux_eq, rest]
        simp [iterate_succ_value, iterate_succ_events]
      · obtain rfl : further = 0 := by
          by_contra more
          exact halts.2 1 (by omega) stepped
        simp [runLoop_halted limit (left + 1) newest stepped, iterate_succ_value,
          iterate_succ_events]

/-- The loop takes all remaining steps and one more when none of them halts. -/
theorem runLoop_exceeds (limit : Nat) {left : Nat} {machine : Machine} (newest : List Event)
    (running : ∀ count ≤ left + 1, (machine.iterate count).value.phase = .running) :
    runLoop limit left machine newest =
      ({ (machine.iterate (left + 1)).value with phase := .halted }, false,
        .fault (.stepLimitExceeded limit) ::
          ((machine.iterate (left + 1)).events.reverse ++ newest)) := by
  induction left generalizing machine newest with
  | zero =>
      have stepped : machine.step.value.1.phase = .running := running 1 (by omega)
      simp [runLoop_zero, stepped, List.reverseAux_eq, iterate_succ_value, iterate_succ_events]
  | succ left ih =>
      have stepped : machine.step.value.1.phase = .running := running 1 (by omega)
      have remaining : ∀ count ≤ left + 1,
          (machine.step.value.1.iterate count).value.phase = .running :=
        fun count within => running (count + 1) (Nat.succ_le_succ within)
      rw [runLoop_succ, if_pos stepped, List.reverseAux_eq, ih _ remaining]
      simp [iterate_succ_value, iterate_succ_events]

/-- The last of the steps may be taken apart instead of the first. -/
theorem iterate_succ_last (machine : Machine) (count : Nat) :
    (machine.iterate (count + 1)).value = (machine.iterate count).value.step.value.1 := by
  induction count generalizing machine with
  | zero => rfl
  | succ count ih => rw [iterate_succ_value, ih, iterate_succ_value]

/-- The last step may be taken apart instead of the first. -/
theorem iterate_succ_last_events (machine : Machine) (count : Nat) :
    (machine.iterate (count + 1)).events =
      (machine.iterate count).events ++ (machine.iterate count).value.step.events := by
  induction count generalizing machine with
  | zero => simp [iterate_succ_events]
  | succ count ih =>
      rw [iterate_succ_events, ih, iterate_succ_events, iterate_succ_value, List.append_assoc]

/-- A running machine that does not halt keeps running. -/
theorem iterate_running {machine : Machine} {bound : Nat} (running : machine.phase = .running)
    (never : ∀ count ≤ bound, ¬ machine.HaltsFirst count) :
    ∀ count ≤ bound, (machine.iterate count).value.phase = .running := by
  intro count
  induction count using Nat.strong_induction_on with
  | _ count ih =>
      intro within
      cases count with
      | zero => exact running
      | succ before =>
          have earlier : ∀ count < before + 1, (machine.iterate count).value.phase = .running :=
            fun count less => ih count less (by omega)
          rw [iterate_succ_last]
          rcases step_phase_of_running (earlier before (by omega)) with kept | halted
          · exact kept
          · -- the earlier iterates run, so that this halt would be the first
            refine absurd ⟨?_, fun count less => ?_⟩ (never (before + 1) within)
            · rw [iterate_succ_last, halted]
            · rw [earlier count less]
              simp

def withStepLimit (machine : Machine) (limit : Nat) : Machine :=
  { machine with stepLimit := limit }

/-- A lasting property does not depend on the step limit. -/
theorem Lasting.withStepLimit {Holds : Machine → Prop} {machine : Machine}
    (lasting : Lasting Holds) (holds : Holds machine) (limit : Nat) :
    Holds (machine.withStepLimit limit) :=
  lasting.progress holds machine.phase machine.steps limit machine.lastInstruction

/-- The step limit has no part in a step. -/
theorem execute_withStepLimit (machine : Machine) (instruction : Instruction) (limit : Nat) :
    (machine.withStepLimit limit).execute instruction =
      ⟨(machine.execute instruction).value.withStepLimit limit,
        (machine.execute instruction).events⟩ := by
  obtain ⟨opcode, first, second⟩ := instruction
  cases opcode with
  | halt => rfl
  | idle => rfl
  | move transfer => cases transfer <;> rfl
  | out cell => rfl
  | binary operation source => cases operation <;> rfl
  | increment | decrement => rfl
  | jump condition target =>
      by_cases holds : condition.holds machine.flags = true
      · have same : condition.holds (machine.withStepLimit limit).flags = true :=
          holds
        simp only [execute, holds, same, if_true]
        cases target <;> rfl
      · have same : ¬ condition.holds (machine.withStepLimit limit).flags = true :=
          holds
        simp only [execute, holds, same]
        rfl

/-- A step does not look at the step limit. -/
theorem step_withStepLimit (machine : Machine) (limit : Nat) :
    (machine.withStepLimit limit).step =
      ⟨(machine.step.value.1.withStepLimit limit, machine.step.value.2),
        machine.step.events⟩ := by
  have read : (machine.withStepLimit limit).readRam
      (machine.withStepLimit limit).pc = machine.readRam machine.pc := rfl
  cases decoded : Opcode.ofWord? (machine.readRam machine.pc).value with
  | none =>
      apply Traced.ext <;>
        simp only [step, Traced.value_bind, Traced.events_bind, read, decoded] <;> rfl
  | some opcode =>
      have executed := execute_withStepLimit machine.fetched
        (machine.fetched.fetchOperands opcode).value limit
      apply Traced.ext
      · rw [step_known decoded, step_known (read ▸ decoded)]
        apply Prod.ext
        · exact congrArg (fun executed : Traced Machine =>
            { executed.value with
              lastInstruction := some (machine.fetched.fetchOperands opcode).value }) executed
        · rfl
      · simp only [step, Traced.events_bind, read, decoded]
        exact congrArg (fun executed : Traced Machine =>
          (machine.readRam machine.pc).events ++
            ((machine.fetched.fetchOperands opcode).events ++
              (executed.events ++ [.step executed.value.pc]))) executed

/-- Iterated steps do not look at the step limit. -/
theorem iterate_withStepLimit (machine : Machine) (limit count : Nat) :
    (machine.withStepLimit limit).iterate count =
      ⟨(machine.iterate count).value.withStepLimit limit,
        (machine.iterate count).events⟩ := by
  induction count generalizing machine with
  | zero => rfl
  | succ count ih =>
      apply Traced.ext
      · rw [iterate_succ_value, step_withStepLimit, ih]
        rfl
      · rw [iterate_succ_events, step_withStepLimit, ih]
        rfl

/-- The first halt does not depend on the step limit. -/
theorem haltsFirst_withStepLimit {machine : Machine} (limit : Nat) {count : Nat}
    (halts : machine.HaltsFirst count) :
    (machine.withStepLimit limit).HaltsFirst count := by
  constructor
  · rw [iterate_withStepLimit]
    exact halts.1
  · intro earlier before
    rw [iterate_withStepLimit]
    exact halts.2 earlier before

/-- The machine that a run takes its first step from. -/
def started (machine : Machine) (start : Nat) : Machine :=
  { machine.withPc (Word.ofNat machine.width start) with phase := .running }

/-- A number that does not fit the width is no address. -/
theorem addressWord_eq_error {machine : Machine} {start : Nat} (positive : 1 ≤ machine.width)
    (wide : 2 ^ machine.width ≤ start) :
    machine.addressWord start =
      .error (.addressTooWide machine.ram.name (toString start)) := by
  have many : machine.width < bitCount start := by
    by_contra few
    exact absurd ((bitCount_le_iff positive).mp (Nat.le_of_not_lt few)) (Nat.not_lt.mpr wide)
  rw [addressWord, if_pos many]

theorem addressWord_eq_ok {machine : Machine} {start : Nat} (positive : 1 ≤ machine.width)
    (fits : start < 2 ^ machine.width) :
    machine.addressWord start = .ok (Word.ofNat machine.width start) := by
  have few : ¬ machine.width < bitCount start :=
    Nat.not_lt.mpr ((bitCount_le_iff positive).mpr fits)
  rw [addressWord, if_neg few]

/-- A start that is no address changes nothing and is reported once. -/
theorem run_of_wide {machine : Machine} {start : Nat} (positive : 1 ≤ machine.width)
    (wide : 2 ^ machine.width ≤ start) :
    machine.run start =
      ⟨⟨machine, .error (.memory (.addressTooWide machine.ram.name (toString start)))⟩,
        [.fault (.memory (.addressTooWide machine.ram.name (toString start)))]⟩ := by
  rw [run, addressWord_eq_error positive wide]
  rfl

/-- A run from an address is the outcome of the loop that starts there. -/
theorem run_of_fits {machine : Machine} {start : Nat} (positive : 1 ≤ machine.width)
    (fits : start < 2 ^ machine.width) :
    machine.run start =
      (fun loop : Machine × Bool × List Event =>
        ⟨⟨loop.1, if loop.2.1 then .ok (loop.1.steps - machine.steps)
          else .error (.stepLimitExceeded machine.stepLimit)⟩, .run :: loop.2.2.reverse⟩)
        (runLoop machine.stepLimit machine.stepLimit (machine.started start) []) := by
  rw [run, addressWord_eq_ok positive fits]
  rfl

/-- A halt in time ends the run with the number of steps to it. -/
theorem run_of_halts {machine : Machine} {start count : Nat} (positive : 1 ≤ machine.width)
    (fits : start < 2 ^ machine.width) (within : count ≤ machine.stepLimit + 1)
    (halts : (machine.started start).HaltsFirst count) :
    machine.run start =
      ⟨⟨((machine.started start).iterate count).value, .ok count⟩,
        .run :: ((machine.started start).iterate count).events⟩ := by
  have counted : ((machine.started start).iterate count).value.steps - machine.steps = count := by
    rw [iterate_steps]
    exact Nat.add_sub_cancel_left machine.steps count
  rw [run_of_fits positive fits, runLoop_halts machine.stepLimit [] rfl halts within]
  simp [counted]

/-- Without a halt in time the run takes one step more than its limit and fails. -/
theorem run_of_exceeds {machine : Machine} {start : Nat} (positive : 1 ≤ machine.width)
    (fits : start < 2 ^ machine.width)
    (never : ∀ count ≤ machine.stepLimit + 1, ¬ (machine.started start).HaltsFirst count) :
    machine.run start =
      ⟨⟨{ ((machine.started start).iterate (machine.stepLimit + 1)).value with
            phase := .halted },
          .error (.stepLimitExceeded machine.stepLimit)⟩,
        .run :: (((machine.started start).iterate (machine.stepLimit + 1)).events ++
          [.fault (.stepLimitExceeded machine.stepLimit)])⟩ := by
  rw [run_of_fits positive fits,
    runLoop_exceeds machine.stepLimit [] (iterate_running rfl never)]
  simp

/-- A run that ends well has halted within its limit. -/
theorem haltsFirst_of_run {machine : Machine} {start count : Nat} (positive : 1 ≤ machine.width)
    (success : (machine.run start).value.result = .ok count) :
    start < 2 ^ machine.width ∧ count ≤ machine.stepLimit + 1 ∧
      (machine.started start).HaltsFirst count := by
  rcases Nat.lt_or_ge start (2 ^ machine.width) with fits | wide
  · refine ⟨fits, ?_⟩
    by_cases halting :
        ∃ first ≤ machine.stepLimit + 1, (machine.started start).HaltsFirst first
    · obtain ⟨first, within, halts⟩ := halting
      rw [run_of_halts positive fits within halts] at success
      obtain rfl : first = count := Except.ok.inj success
      exact ⟨within, halts⟩
    · have never : ∀ first ≤ machine.stepLimit + 1, ¬ (machine.started start).HaltsFirst first :=
        fun first within halts => halting ⟨first, within, halts⟩
      rw [run_of_exceeds positive fits never] at success
      cases success
  · rw [run_of_wide positive wide] at success
    cases success

/-- A higher limit has no effect on a run that ends well. -/
theorem run_withStepLimit {machine : Machine} {start limit count : Nat}
    (positive : 1 ≤ machine.width) (higher : machine.stepLimit ≤ limit)
    (success : (machine.run start).value.result = .ok count) :
    (machine.withStepLimit limit).run start =
      ⟨⟨(machine.run start).value.machine.withStepLimit limit, .ok count⟩,
        (machine.run start).events⟩ := by
  obtain ⟨fits, within, halts⟩ := haltsFirst_of_run positive success
  have later : ((machine.withStepLimit limit).started start).HaltsFirst count :=
    haltsFirst_withStepLimit limit halts
  have raised : (machine.withStepLimit limit).run start = _ :=
    run_of_halts positive fits (within.trans (Nat.succ_le_succ higher)) later
  have same : (machine.withStepLimit limit).started start =
      (machine.started start).withStepLimit limit := rfl
  rw [raised, run_of_halts positive fits within halts, same, iterate_withStepLimit]

/-- A run iterates steps up to the first halt, and at most one step beyond its limit. -/
theorem run_iterates (machine : Machine) (start : Nat)
    (valid : machine.architecture.validate = .ok ()) :
    (2 ^ machine.width ≤ start →
      machine.run start =
        ⟨⟨machine, .error (.memory (.addressTooWide machine.ram.name (toString start)))⟩,
          [.fault (.memory (.addressTooWide machine.ram.name (toString start)))]⟩) ∧
    (start < 2 ^ machine.width →
      (∀ count ≤ machine.stepLimit + 1, (machine.started start).HaltsFirst count →
        machine.run start =
          ⟨⟨((machine.started start).iterate count).value, .ok count⟩,
            .run :: ((machine.started start).iterate count).events⟩) ∧
      ((∀ count ≤ machine.stepLimit + 1, ¬ (machine.started start).HaltsFirst count) →
        machine.run start =
          ⟨⟨{ ((machine.started start).iterate (machine.stepLimit + 1)).value with
                phase := .halted },
              .error (.stepLimitExceeded machine.stepLimit)⟩,
            .run :: (((machine.started start).iterate (machine.stepLimit + 1)).events ++
              [.fault (.stepLimitExceeded machine.stepLimit)])⟩)) ∧
    (∀ count, ((machine.started start).iterate count).value.steps = machine.steps + count) ∧
    ∀ limit count, machine.stepLimit ≤ limit →
      (machine.run start).value.result = .ok count →
        (machine.withStepLimit limit).run start =
          ⟨⟨(machine.run start).value.machine.withStepLimit limit, .ok count⟩,
            (machine.run start).events⟩ := by
  have positive : 1 ≤ machine.width := ((Architecture.validate_eq_ok_iff _).mp valid).1
  refine ⟨run_of_wide positive, fun fits => ⟨?_, run_of_exceeds positive fits⟩, ?_, ?_⟩
  · intro count within halts
    exact run_of_halts positive fits within halts
  · exact iterate_steps (machine.started start)
  · intro limit count higher success
    exact run_withStepLimit positive higher success

/-- A program of three instructions halts in the last step that a limit of two allows, and it
exceeds a limit of one. -/
theorem run_iterates_three_instructions :
    let machine := ((build ⟨8, 4, 256⟩).loadSource "MOV %0, #5\nOUT %0\nHLT" 0).value.1
    machine.architecture.validate = .ok () ∧
      (machine.withStepLimit 2).run 0 =
        ⟨⟨(((machine.withStepLimit 2).started 0).iterate 3).value, .ok 3⟩,
          .run :: (((machine.withStepLimit 2).started 0).iterate 3).events⟩ ∧
      (machine.withStepLimit 1).run 0 =
        ⟨⟨{ (((machine.withStepLimit 1).started 0).iterate 2).value with phase := .halted },
            .error (.stepLimitExceeded 1)⟩,
          .run :: ((((machine.withStepLimit 1).started 0).iterate 2).events ++
            [.fault (.stepLimitExceeded 1)])⟩ := by
  intro machine
  have valid : machine.architecture.validate = .ok () := rfl
  have halts : ((machine.withStepLimit 2).started 0).HaltsFirst 3 :=
    ⟨by decide +kernel, by decide +kernel⟩
  have running : ∀ count ≤ 2,
      (((machine.withStepLimit 1).started 0).iterate count).value.phase ≠ .halted := by
    decide +kernel
  have higher := (run_iterates (machine.withStepLimit 2) 0 valid).2.1 (by decide)
  have lower := (run_iterates (machine.withStepLimit 1) 0 valid).2.1 (by decide)
  exact ⟨valid, higher.1 3 (by decide) halts,
    lower.2 fun count within halted => running count within halted.1⟩

end Machine

end WordMachine
