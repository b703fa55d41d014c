/-
This file compares the runs of one program at two addresses.
-/

import WordMachine.Proofs.PlacedProgram

namespace WordMachine

namespace Machine

/-- A machine and its copy stand at the same instruction of a program and differ only in the place
of the program. -/
structure Alike (machine copy : Machine) (instructions : List Instruction)
    (start other index : Nat) : Prop where
  stands : machine.StandsAt instructions start index
  copyStands : copy.StandsAt instructions other index
  copied : ∃ ram pc, copy = machine.moved ram pc

namespace Alike

variable {machine copy : Machine} {instructions : List Instruction} {start other index : Nat}

/-- Machines that are alike put the same out in a step and stay alike. -/
theorem step (alike : machine.Alike copy instructions start other index)
    (relocatable : Relocatable machine.width instructions) :
    (∃ next, machine.step.value.1.Alike copy.step.value.1 instructions start other next) ∧
      copy.step.outputs = machine.step.outputs := by
  obtain ⟨stands, copyStands, ram, pc, rfl⟩ := alike
  have relocatableCopy : Relocatable (machine.moved ram pc).width instructions := relocatable
  have sameOpcode : ((machine.moved ram pc).readRam pc).value =
      (machine.readRam machine.pc).value :=
    copyStands.fetch.1.trans stands.fetch.1.symm
  obtain ⟨next, executed⟩ := execute_moved machine.fetched
    (relocatable.independent_at index).addressFree ram pc
  rw [← fetched_moved machine sameOpcode] at executed
  refine ⟨⟨_, stands.step relocatable, copyStands.step relocatableCopy, ram, next, ?_⟩, ?_⟩
  · rw [(stands.fetches relocatable).step_value, (copyStands.fetches relocatableCopy).step_value]
    exact congrArg (fun traced : Traced Machine =>
      { traced.value with
        lastInstruction := some (instructionAt machine.width instructions index) }) executed
  · rw [stands.step_outputs relocatable, copyStands.step_outputs relocatableCopy]
    exact (congrArg Traced.outputs executed :)

/-- Machines that are alike put the same out in any number of steps and stay alike. -/
theorem iterate (alike : machine.Alike copy instructions start other index)
    (relocatable : Relocatable machine.width instructions) (count : Nat) :
    (∃ next, (machine.iterate count).value.Alike (copy.iterate count).value instructions start other
        next) ∧
      (copy.iterate count).outputs = (machine.iterate count).outputs := by
  induction count generalizing machine copy index with
  | zero => exact ⟨⟨index, alike⟩, rfl⟩
  | succ count ih =>
      obtain ⟨⟨next, stepped⟩, sameOutputs⟩ := alike.step relocatable
      obtain ⟨last, rest⟩ := ih stepped ((step_width machine).symm ▸ relocatable)
      refine ⟨last, ?_⟩
      rw [iterate_succ_outputs, iterate_succ_outputs, sameOutputs, rest]

theorem phase_eq (alike : machine.Alike copy instructions start other index) :
    copy.phase = machine.phase := by
  obtain ⟨_, _, ram, pc, rfl⟩ := alike
  rfl

/-- Both copies halt in the same step. -/
theorem haltsFirst_iff (alike : machine.Alike copy instructions start other index)
    (relocatable : Relocatable machine.width instructions) (count : Nat) :
    copy.HaltsFirst count ↔ machine.HaltsFirst count := by
  have phase (count : Nat) :
      (copy.iterate count).value.phase = (machine.iterate count).value.phase := by
    obtain ⟨⟨next, iterated⟩, _⟩ := alike.iterate relocatable count
    exact iterated.phase_eq
  simp only [HaltsFirst, phase]

end Alike

/-- Two runs end in the same way, put the same out, and leave machines that differ only in the
place of the program. -/
structure RunsAlike (first second : Traced RunResult) (width : Nat) (distance : Int) : Prop where
  result : second.value.result = first.value.result
  outputs : second.outputs = first.outputs
  registers : second.value.machine.registers = first.value.machine.registers
  flags : second.value.machine.flags = first.value.machine.flags
  phase : second.value.machine.phase = first.value.machine.phase
  steps : second.value.machine.steps = first.value.machine.steps
  pc : (second.value.machine.pc.value : Int) - first.value.machine.pc.value ≡ distance
    [ZMOD 2 ^ width]

namespace Alike

variable {machine copy : Machine} {instructions : List Instruction} {start other index : Nat}

/-- Both program counters keep their distance. -/
theorem pc_modEq (alike : machine.Alike copy instructions start other index) :
    (copy.pc.value : Int) - machine.pc.value ≡ (other : Int) - start [ZMOD 2 ^ machine.width] := by
  have width : copy.width = machine.width := by
    obtain ⟨_, _, ram, pc, rfl⟩ := alike
    rfl
  have here := alike.stands.pc
  have there := alike.copyStands.pc
  rw [width] at there
  rw [here, there]
  push_cast
  calc ((other + 3 * index : Int) % 2 ^ machine.width - (start + 3 * index) % 2 ^ machine.width)
      ≡ (other + 3 * index) - (start + 3 * index) [ZMOD 2 ^ machine.width] :=
        (Int.mod_modEq _ _).sub (Int.mod_modEq _ _)
    _ = other - start := by ring

theorem withPhase (alike : machine.Alike copy instructions start other index) (phase : Phase) :
    { machine with phase := phase }.Alike { copy with phase := phase } instructions start other
      index := by
  obtain ⟨stands, copyStands, ram, pc, rfl⟩ := alike
  exact ⟨stands.withPhase phase, copyStands.withPhase phase, ram, pc, rfl⟩

/-- Runs that leave machines alike are alike. -/
theorem runsAlike {first second : Traced RunResult}
    (alike : first.value.machine.Alike second.value.machine instructions start other index)
    (result : second.value.result = first.value.result) (outputs : second.outputs = first.outputs) :
    RunsAlike first second first.value.machine.width ((other : Int) - start) := by
  have pc := alike.pc_modEq
  obtain ⟨_, _, ram, place, copied⟩ := alike
  refine ⟨result, outputs, ?_, ?_, ?_, ?_, pc⟩
  all_goals rw [copied]; rfl

/-- Machines that are alike once they are started run alike. -/
theorem run (alike : (machine.started start).Alike (copy.started other) instructions start other 0)
    (relocatable : Relocatable machine.width instructions)
    (startFits : start < 2 ^ machine.width) (otherFits : other < 2 ^ machine.width) :
    ((∃ count, (machine.run start).value.result = .ok count) ∨
        (machine.run start).value.result = .error (.stepLimitExceeded machine.stepLimit)) ∧
      RunsAlike (machine.run start) (copy.run other) machine.width ((other : Int) - start) := by
  have positive : 1 ≤ machine.width := alike.stands.sound.width_pos
  have shape : copy.architecture = machine.architecture ∧ copy.stepLimit = machine.stepLimit := by
    obtain ⟨_, _, ram, pc, copied⟩ := alike
    exact ⟨(congrArg Machine.architecture copied :), (congrArg Machine.stepLimit copied :)⟩
  have sameWidth : copy.width = machine.width := congrArg Architecture.bits shape.1
  have width (count : Nat) : ((machine.started start).iterate count).value.width = machine.width :=
    iterate_width _ count
  rw [← sameWidth] at otherFits
  by_cases halting : ∃ count ≤ machine.stepLimit + 1, (machine.started start).HaltsFirst count
  · obtain ⟨count, within, halts⟩ := halting
    obtain ⟨⟨next, iterated⟩, sameOutputs⟩ := alike.iterate relocatable count
    have copyHalts := (alike.haltsFirst_iff relocatable count).mpr halts
    have first := run_of_halts positive startFits within halts
    have second := run_of_halts (sameWidth.symm ▸ positive) otherFits
      (shape.2.symm ▸ within) copyHalts
    rw [first, second, ← width count]
    exact ⟨Or.inl ⟨count, rfl⟩, iterated.runsAlike rfl sameOutputs⟩
  · push Not at halting
    have copyNever : ∀ count ≤ copy.stepLimit + 1, ¬ (copy.started other).HaltsFirst count := by
      intro count within
      rw [alike.haltsFirst_iff relocatable count]
      exact halting count (shape.2 ▸ within)
    have first := run_of_exceeds positive startFits halting
    have second := run_of_exceeds (sameWidth.symm ▸ positive) otherFits copyNever
    obtain ⟨⟨next, iterated⟩, sameOutputs⟩ := alike.iterate relocatable (machine.stepLimit + 1)
    have outputs : (copy.run other).outputs = (machine.run start).outputs := by
      rw [outputs_run_of_exceeds positive startFits halting,
        outputs_run_of_exceeds (sameWidth.symm ▸ positive) otherFits copyNever, shape.2,
        sameOutputs]
    rw [first, second, shape.2] at outputs ⊢
    rw [← width (machine.stepLimit + 1)]
    exact ⟨Or.inr rfl, (iterated.withPhase .halted).runsAlike rfl outputs⟩

end Alike

/-- A new machine with a step limit loads a program and runs it from its first instruction. -/
def runAt (architecture : Architecture) (limit : Nat) (program : Program) (start : Nat) :
    Traced RunResult := do
  let loaded ← ((build architecture).withStepLimit limit).load program.bits start
  loaded.run start

/-- A program whose instructions name no addresses, and whose jumps stay inside it or lead to its
end, runs alike wherever it is loaded. -/
theorem runAt_position_independent (architecture : Architecture) (limit : Nat)
    (instructions : List Instruction) (program : Program) (start other : Nat)
    (valid : architecture.validate = .ok ()) (nonempty : instructions ≠ [])
    (encodes : instructions.foldlM Program.push (.empty architecture.bits) = .ok program)
    (addressFree : ∀ instruction ∈ instructions, instruction.opcode.AddressFree)
    (jumpsInside : ∀ (index : Nat) (instruction : Instruction),
      instructions[index]? = some instruction →
      (instruction.widened architecture.bits).JumpsInside index instructions.length)
    (startRoom : start + 3 * instructions.length ≤
      min (2 ^ architecture.bits) architecture.ramCells)
    (otherRoom : other + 3 * instructions.length ≤
      min (2 ^ architecture.bits) architecture.ramCells) :
    ((∃ count, (runAt architecture limit program start).value.result = .ok count) ∨
        (runAt architecture limit program start).value.result =
          .error (.stepLimitExceeded limit)) ∧
      RunsAlike (runAt architecture limit program start) (runAt architecture limit program other)
        architecture.bits ((other : Int) - start) := by
  have narrow : architecture.bits ≤ 64 := ((Architecture.validate_eq_ok_iff _).mp valid).2.1
  have relocatable := relocatable_of_push narrow encodes addressFree jumpsInside
  have stored : program.bits = (instructions.map (Instruction.widened architecture.bits)).flatMap
      (Instruction.bits architecture.bits) := (Program.foldlM_push_eq_ok encodes).2
  have storedNonempty : instructions.map (Instruction.widened architecture.bits) ≠ [] :=
    fun empty => nonempty (List.map_eq_nil_iff.mp empty)
  have positive := List.length_pos_iff.mpr nonempty
  have startFits := startRoom.trans (Nat.min_le_left _ _)
  have otherFits := otherRoom.trans (Nat.min_le_left _ _)
  rw [← List.length_map (Instruction.widened architecture.bits)] at startRoom otherRoom
  obtain ⟨ram, loaded, stands⟩ := load_standsAt limit valid relocatable storedNonempty startRoom
  obtain ⟨otherRam, otherLoaded, otherStands⟩ :=
    load_standsAt limit valid relocatable storedNonempty otherRoom
  rw [runAt, runAt, stored, loaded, otherLoaded, pure_bind, pure_bind]
  exact Alike.run ⟨stands, otherStands, otherRam, _, rfl⟩ relocatable
    (show start < 2 ^ architecture.bits by omega) (show other < 2 ^ architecture.bits by omega)

/-- The program counts down from three, puts every number out and runs off its end. -/
def countdown : List Instruction :=
  [⟨.move .registerFromImmediate, Word.zero 8, Word.ofNat 2 3⟩,
    ⟨.decrement, Word.zero 8, Word.zero 8⟩,
    ⟨.out .register, Word.zero 8, Word.zero 8⟩,
    ⟨.jump .notZero .relative, Word.ofInt 8 (-2), Word.zero 8⟩]

/-- The countdown runs alike at the start of the memory and where it wraps around to a zero. -/
theorem runAt_position_independent_countdown :
    (⟨8, 1, 256⟩ : Architecture).validate = .ok () ∧
      countdown.foldlM Program.push (.empty 8) =
        .ok (.ofInstructions 8 (countdown.map (Instruction.widened 8))) ∧
      (∀ instruction ∈ countdown, instruction.opcode.AddressFree) ∧
      (∀ (index : Nat) (instruction : Instruction), countdown[index]? = some instruction →
        (instruction.widened 8).JumpsInside index countdown.length) ∧
      244 + 3 * countdown.length ≤ min (2 ^ 8) 256 ∧
      RunsAlike
        (runAt ⟨8, 1, 256⟩ 20 (.ofInstructions 8 (countdown.map (Instruction.widened 8))) 0)
        (runAt ⟨8, 1, 256⟩ 20 (.ofInstructions 8 (countdown.map (Instruction.widened 8))) 244)
        8 244 := by
  have valid : (⟨8, 1, 256⟩ : Architecture).validate = .ok () := rfl
  have encodes : countdown.foldlM Program.push (.empty 8) =
      .ok (.ofInstructions 8 (countdown.map (Instruction.widened 8))) := by rfl
  have addressFree : ∀ instruction ∈ countdown, instruction.opcode.AddressFree := by
    simp [countdown, Opcode.AddressFree, Opcode.modes, Transfer.destination, Transfer.source,
      Cell.mode, Target.mode]
  have jumpsInside : ∀ (index : Nat) (instruction : Instruction),
      countdown[index]? = some instruction →
      (instruction.widened 8).JumpsInside index countdown.length := by
    intro index instruction placed condition jump
    have inside : index < 4 := (List.getElem?_eq_some_iff.mp placed).choose
    interval_cases index <;> cases placed
    · cases jump
    · cases jump
    · cases jump
    · decide +kernel
  have room : 244 + 3 * countdown.length ≤ min (2 ^ 8) 256 := by decide
  obtain ⟨_, alike⟩ := runAt_position_independent ⟨8, 1, 256⟩ 20 countdown _ 0 244 valid
    (List.cons_ne_nil _ _) encodes addressFree jumpsInside (by decide) room
  exact ⟨valid, encodes, addressFree, jumpsInside, room, alike⟩

end Machine

end WordMachine
