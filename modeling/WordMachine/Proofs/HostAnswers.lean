import WordMachine.Machine.Host
import WordMachine.Proofs.EventOrder
import WordMachine.Proofs.ResetHistories
import WordMachine.Proofs.ShownInstruction

namespace WordMachine

namespace Machine

variable {machine : Machine}

/-- The instruction that the next step executes, if it knows the opcode. -/
def executed? (machine : Machine) : Option Instruction :=
  (Opcode.ofWord? (machine.readRam machine.pc).value).map fun opcode =>
    (machine.fetched.fetchOperands opcode).value

/-- A fetched instruction is executed. -/
theorem Fetches.executed?_eq {instruction : Instruction} (fetches : machine.Fetches instruction) :
    machine.executed? = some instruction := by
  rw [executed?, fetches.1, Option.map_some, fetches.2]

/-- Only an unknown opcode executes nothing. -/
theorem executed?_eq_none_iff :
    machine.executed? = none ↔ Opcode.ofWord? (machine.readRam machine.pc).value = none :=
  Option.map_eq_none_iff

/-- An executed instruction has been fetched. -/
theorem fetches_of_executed? {instruction : Instruction}
    (executed : machine.executed? = some instruction) : machine.Fetches instruction := by
  obtain ⟨opcode, known, rfl⟩ := Option.map_eq_some_iff.mp executed
  have same : (machine.fetched.fetchOperands opcode).value.opcode = opcode :=
    fetchOperands_opcode _ _
  refine ⟨known.trans (congrArg some same.symm), ?_⟩
  rw [same]

/-- A step that executes nothing keeps the record of the last instruction. -/
theorem step_lastInstruction (machine : Machine) :
    machine.step.value.1.lastInstruction = machine.executed?.or machine.lastInstruction := by
  cases executed : machine.executed? with
  | none =>
      rw [step_unknown (executed?_eq_none_iff.mp executed)]
      rfl
  | some instruction =>
      rw [(fetches_of_executed? executed).step_value]
      rfl

/-- The instructions that the next steps execute. -/
def executedIn (machine : Machine) (count : Nat) : List Instruction :=
  (List.range count).filterMap fun index => (machine.iterate index).value.executed?

/-- One more step adds what it executes. -/
theorem executedIn_succ (machine : Machine) (count : Nat) :
    machine.executedIn (count + 1) =
      machine.executedIn count ++ (machine.iterate count).value.executed?.toList := by
  rw [executedIn, List.range_succ, List.filterMap_append, ← executedIn]
  congr 1

theorem getLast?_append_toList (instructions : List Instruction) (last : Option Instruction) :
    (instructions ++ last.toList).getLast? = last.or instructions.getLast? := by
  cases last <;> simp

/-- Iterated steps record the last instruction that they execute. -/
theorem iterate_lastInstruction (machine : Machine) (count : Nat) :
    (machine.iterate count).value.lastInstruction =
      (machine.executedIn count).getLast?.or machine.lastInstruction := by
  induction count with
  | zero => rfl
  | succ count ih =>
      rw [iterate_succ_last, step_lastInstruction, ih, executedIn_succ, getLast?_append_toList,
        Option.or_assoc]

/-- The instructions that a run executes, whether it ends well or not. -/
def executedByRun (machine : Machine) (start : Nat) : List Instruction :=
  (machine.started start).executedIn ((machine.run start).value.machine.steps - machine.steps)

/-- A run records the last instruction that it executes. -/
theorem run_lastInstruction (start : Nat) (positive : 1 ≤ machine.width) :
    (machine.run start).value.machine.lastInstruction =
      (machine.executedByRun start).getLast?.or machine.lastInstruction := by
  rcases Nat.lt_or_ge start (2 ^ machine.width) with fits | wide
  · obtain ⟨count, finished, _⟩ := exists_steps_of_run positive fits
    have counted : (machine.run start).value.machine.steps - machine.steps = count := by
      rw [finished]
      exact Nat.sub_eq_of_eq_add' (iterate_steps (machine.started start) count)
    rw [executedByRun, counted, finished]
    exact iterate_lastInstruction (machine.started start) count
  · rw [executedByRun, run_of_wide positive wide, Nat.sub_self]
    rfl

end Machine

namespace Host

/-- What a page does with a host. -/
inductive Call where
  | load (source : String) (address : Nat)
  | step
  | run (start : Nat)
  | reset (clearRam : Bool)
  | setStepLimit (limit : Nat)
deriving DecidableEq

def after (host : Host) : Call → Host
  | .load source address => host.load source address
  | .step => host.step.1
  | .run start => (host.run start).1
  | .reset clearRam => host.reset clearRam
  | .setStepLimit limit => host.setStepLimit limit

def afterAll (host : Host) (calls : List Call) : Host := calls.foldl after host

/-- A load or a reset starts a new log, and a step and a run extend it. -/
def logged (host : Host) (log : List Instruction) : Call → List Instruction
  | .load _ _ | .reset _ => []
  | .step => log ++ host.machine.executed?.toList
  | .run start => log ++ host.machine.executedByRun start
  | .setStepLimit _ => log

/-- The instructions executed since the last load or reset of a history. -/
def logOf (host : Host) (log : List Instruction) : List Call → List Instruction
  | [] => log
  | call :: rest => (host.after call).logOf (host.logged log call) rest

variable {host : Host} {architecture : Architecture} {log : List Instruction}

/-- The machine records the last instruction of the log. -/
structure Records (host : Host) (architecture : Architecture) (log : List Instruction) : Prop where
  fitted : host.machine.FittedTo architecture
  last : host.machine.lastInstruction = log.getLast?

/-- Every call keeps the record. -/
theorem Records.after (records : host.Records architecture log) (positive : 1 ≤ architecture.bits)
    (call : Call) : (host.after call).Records architecture (host.logged log call) := by
  have lasting := Machine.fittedTo_lasting architecture
  obtain ⟨fitted, last⟩ := records
  -- a load and a reset forget the last instruction, and the log with it
  cases call with
  | load source address =>
      have cleared := lasting.reset fitted true
      refine ⟨lasting.load cleared _ address, ?_⟩
      obtain ⟨ram, loaded⟩ := (host.machine.reset true).value.load_frame
        ((host.machine.reset true).value.compile source).value.bits address
      exact congrArg Machine.lastInstruction loaded
  | step =>
      refine ⟨lasting.step fitted, ?_⟩
      rw [logged, Machine.getLast?_append_toList, ← last]
      exact host.machine.step_lastInstruction
  | run start =>
      have width : 1 ≤ host.machine.width :=
        positive.trans_eq (congrArg Architecture.bits fitted.architecture_eq).symm
      refine ⟨lasting.run fitted start, ?_⟩
      rw [logged, List.getLast?_append, ← last]
      exact Machine.run_lastInstruction start width
  | reset clearRam => exact ⟨lasting.reset fitted clearRam, rfl⟩
  | setStepLimit limit => exact ⟨fitted.perform (.setStepLimit limit), last⟩

/-- A sequence of calls keeps the record. -/
theorem Records.afterAll (records : host.Records architecture log)
    (positive : 1 ≤ architecture.bits) (calls : List Call) :
    (host.afterAll calls).Records architecture (host.logOf log calls) := by
  induction calls generalizing host log with
  | nil => exact records
  | cons call rest ih => exact ih (records.after positive call)

/-- A step answers the last instruction of the log that it has extended. -/
theorem Records.step_answer (records : host.Records architecture log) :
    host.step.2 =
      ((host.machine.executed?.or log.getLast?).map Instruction.text).getD "???" := by
  rw [step, Machine.step_lastInstruction, records.last]

/-- A step answers the text of the instruction that it executes, and a step that executes none
repeats the last one. -/
theorem step_answers_executed (architecture : Architecture) (calls : List Call)
    (valid : architecture.validate = .ok ()) :
    ∃ fresh, create architecture = .ok fresh ∧
      let host := fresh.afterAll calls
      let machine := host.machine
      let log := fresh.logOf [] calls
      (∀ instruction, machine.Fetches instruction →
        host.step.1.machine = { (machine.fetched.execute instruction).value with
          lastInstruction := some instruction } ∧
        host.step.2 = instruction.text) ∧
      (Opcode.ofWord? (machine.readRam machine.pc).value = none →
        host.step.1.machine = machine.fetched.advance ∧
        host.step.2 = (log.getLast?.map Instruction.text).getD "???" ∧
        (host.step.2 = "???" ↔ log = [])) := by
  have positive : 1 ≤ architecture.bits := ((Architecture.validate_eq_ok_iff _).mp valid).1
  have created : create architecture = .ok ⟨.build architecture, .empty architecture.bits⟩ := by
    rw [create, Machine.create_of_valid valid]
    rfl
  refine ⟨_, created, ?_⟩
  intro host machine log
  have blank : Records ⟨.build architecture, .empty architecture.bits⟩ architecture [] :=
    ⟨Machine.build_fitted architecture, rfl⟩
  have records : host.Records architecture log := blank.afterAll positive calls
  have answer := records.step_answer
  refine ⟨?_, ?_⟩
  · intro instruction fetches
    refine ⟨congrArg Prod.fst fetches.step_value, ?_⟩
    rw [answer, fetches.executed?_eq]
    rfl
  · intro unknown
    rw [Machine.executed?_eq_none_iff.mpr unknown, Option.none_or] at answer
    refine ⟨congrArg Prod.fst (Machine.step_unknown unknown), answer, ?_⟩
    rw [answer]
    cases last : log.getLast? with
    | none => exact iff_of_true rfl (List.getLast?_eq_none_iff.mp last)
    | some instruction =>
        refine iff_of_false instruction.text_ne_marks ?_
        rintro empty
        rw [empty] at last
        cases last

/-- After a reset, the unknown opcode that the program has written over itself shows as such. -/
theorem step_answers_executed_after_reset :
    (⟨8, 4, 256⟩ : Architecture).validate = .ok () ∧
      ∃ fresh, create ⟨8, 4, 256⟩ = .ok fresh ∧
        (let host := fresh.afterAll [.load "MOV @0, #255" 0, .step, .reset false]
        Opcode.ofWord? (host.machine.readRam host.machine.pc).value = none ∧
          host.step.2 = "???") := by
  have valid : (⟨8, 4, 256⟩ : Architecture).validate = .ok () := rfl
  obtain ⟨fresh, created, _, skipped⟩ := step_answers_executed ⟨8, 4, 256⟩
    [.load "MOV @0, #255" 0, .step, .reset false] valid
  obtain rfl := Except.ok.inj created
  refine ⟨valid, _, created, ?_, ?_⟩
  · decide +kernel
  · exact (skipped (by decide +kernel)).2.2.mpr rfl

/-- Without a reset, the step that executes nothing answers with the move before it. -/
theorem step_repeats_last_answer :
    ∃ fresh, create ⟨8, 4, 256⟩ = .ok fresh ∧
      let host := fresh.afterAll [.load "MOV @3, #255" 0, .step]
      Opcode.ofWord? (host.machine.readRam host.machine.pc).value = none ∧
        host.step.1.machine = host.machine.fetched.advance ∧
        host.step.2 = "MOV @3, #-1" :=
  ⟨_, rfl, by decide +kernel, by decide +kernel, by decide +kernel⟩

end Host

end WordMachine
