/-
This file runs a machine until it halts or exceeds its step limit.
-/

import WordMachine.Machine.Step

namespace WordMachine.Machine

/-- A run ends with the number of its steps or with the fault that stopped it. -/
structure RunResult where
  machine : Machine
  result : Except Fault Nat

/-- The loop stops after a step that halts, or after a step that leaves none. -/
def runLoop (limit : Nat) : (left : Nat) → Machine → List Event → Machine × Bool × List Event
  | left, machine, newest =>
      let stepped := machine.step
      let machine := stepped.value.1
      -- the events seen so far are kept with the newest first
      let newest := stepped.events.reverseAux newest
      if machine.phase = .running then
        match left with
        | 0 =>
            ({ machine with phase := .halted }, false,
              .fault (.stepLimitExceeded limit) :: newest)
        | left + 1 => runLoop limit left machine newest
      else (machine, true, newest)

theorem runLoop_zero (limit : Nat) (machine : Machine) (newest : List Event) :
    runLoop limit 0 machine newest =
      if machine.step.value.1.phase = .running then
        ({ machine.step.value.1 with phase := .halted }, false,
          .fault (.stepLimitExceeded limit) :: machine.step.events.reverseAux newest)
      else (machine.step.value.1, true, machine.step.events.reverseAux newest) := rfl

theorem runLoop_succ (limit left : Nat) (machine : Machine) (newest : List Event) :
    runLoop limit (left + 1) machine newest =
      if machine.step.value.1.phase = .running then
        runLoop limit left machine.step.value.1 (machine.step.events.reverseAux newest)
      else (machine.step.value.1, true, machine.step.events.reverseAux newest) := rfl

/-- A run may take one step more than the limit, provided that the machine halts in it. -/
def run (machine : Machine) (start : Nat) : Traced RunResult :=
  match machine.addressWord start with
  | .error cause => do
      report (.memory cause)
      pure ⟨machine, .error (.memory cause)⟩
  | .ok pc =>
      let started : Machine := { machine.withPc pc with phase := .running }
      let (finished, halted, newest) := runLoop machine.stepLimit machine.stepLimit started []
      let result :=
        if halted then .ok (finished.steps - machine.steps)
        else .error (.stepLimitExceeded machine.stepLimit)
      ⟨⟨finished, result⟩, .run :: newest.reverse⟩

end WordMachine.Machine
