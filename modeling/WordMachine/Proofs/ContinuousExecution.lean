import WordMachine.Debugger.Session
import WordMachine.Proofs.Outputs

namespace WordMachine.Debugger

/-- A machine is blocked when it has halted, has no step left or stands on a breakpoint. -/
def Blocked (machine : Machine) (breakpoints : Std.ExtTreeSet Nat) : Prop :=
  machine.phase = .halted ∨ machine.stepLimit ≤ machine.steps ∨
    machine.pc.unsigned ∈ breakpoints

instance (machine : Machine) (breakpoints : Std.ExtTreeSet Nat) :
    Decidable (Blocked machine breakpoints) :=
  inferInstanceAs (Decidable (_ ∨ _ ∨ _))

namespace Session

/-- The last of these many steps reports a fault. -/
def FaultsAt (session : Session) (count : Nat) : Prop :=
  ∃ earlier, count = earlier + 1 ∧
    ∃ cause, Event.fault cause ∈ (session.machine.iterate earlier).value.step.events

/-- Continuous execution has a reason to stop after this many steps. -/
def StopsAfter (session : Session) (count : Nat) : Prop :=
  Blocked (session.machine.iterate count).value session.breakpoints ∨ session.FaultsAt count

variable {session : Session}

/-- No fault is kept exactly when none was reported. -/
theorem lastFaultOf_eq_none_iff {events : List Event} :
    lastFaultOf events = none ↔ ∀ cause, Event.fault cause ∉ events := by
  rw [lastFaultOf, List.getLast?_eq_none_iff, List.filterMap_eq_nil_iff]
  constructor
  · intro silent cause reported
    cases silent _ reported
  · intro silent event reported
    cases event with
    | fault cause => exact absurd reported (silent cause)
    | run | reset | step _ | out _ => rfl

section Tick

/-- Away from a breakpoint a run only starts the ticks. -/
theorem run_of_off (off : session.address ∉ session.breakpoints) :
    session.run = { session with running := true, status := .running } := by
  rw [run, if_neg off]

/-- A step of a session that is not halted is a step of its machine, and only a fault pauses. -/
theorem step_of_not_halted (going : session.machine.phase ≠ .halted) :
    ∃ status, session.step =
      { session with
        machine := session.machine.step.value.1
        output := session.output ++ session.machine.step.outputs.toArray
        lastFault := lastFaultOf session.machine.step.events
        running := session.running && (lastFaultOf session.machine.step.events).isNone
        status := status } := by
  have halted : ¬ session.machine.isHalted = true := by
    simpa [Machine.isHalted] using going
  simp only [step, if_neg halted]
  cases lastFaultOf session.machine.step.events with
  | none =>
      exact ⟨.executed session.machine.pc.unsigned session.machine.step.value.1.lastInstruction,
        by simp [Traced.outputs]⟩
  | some cause => exact ⟨.fault session.machine.pc.unsigned cause, by simp [Traced.outputs]⟩

/-- A paused session does not move. -/
theorem tick_of_paused (paused : session.running = false) : session.tick = session := by
  simp [tick, paused]

/-- A tick that finds a reason to stop only pauses. -/
theorem tick_of_blocked (running : session.running = true)
    (blocked : Blocked session.machine session.breakpoints) :
    ∃ status, session.tick = { session with running := false, status := status } := by
  by_cases halted : session.machine.phase = .halted
  · exact ⟨.halted session.machine.steps, by simp [tick, running, Machine.isHalted, halted]⟩
  · by_cases spent : session.machine.stepLimit ≤ session.machine.steps
    · exact ⟨.pausedAtLimit session.machine.steps,
        by simp [tick, running, Machine.isHalted, halted, spent]⟩
    · have here : session.address ∈ session.breakpoints :=
        (blocked.resolve_left halted).resolve_left spent
      exact ⟨.breakpoint session.address,
        by simp [tick, running, Machine.isHalted, halted, spent, here]⟩

/-- A tick without a reason to stop is a step. -/
theorem tick_of_free (running : session.running = true)
    (free : ¬ Blocked session.machine session.breakpoints) : session.tick = session.step := by
  simp only [Blocked, not_or] at free
  obtain ⟨going, left, off⟩ := free
  have elsewhere : session.address ∉ session.breakpoints := off
  simp [tick, running, Machine.isHalted, going, left, elsewhere]

/-- A paused session stays as it is. -/
theorem ticks_of_paused (paused : session.running = false) (count : Nat) :
    session.ticks count = session := by
  induction count with
  | zero => rfl
  | succ count ih => rw [ticks, tick_of_paused paused, ih]

/-- Ticks follow each other. -/
theorem ticks_add (session : Session) (first second : Nat) :
    session.ticks (first + second) = (session.ticks first).ticks second := by
  induction first generalizing session with
  | zero => rw [Nat.zero_add]; rfl
  | succ first ih => rw [Nat.succ_add, ticks, ih, ticks]

end Tick

/-- The later session has taken so many steps, put out their words and paused only for a fault of
the last of them. -/
structure Follows (session : Session) (count : Nat) (later : Session) : Prop where
  machine : later.machine = (session.machine.iterate count).value
  output : later.output = session.output ++ (session.machine.iterate count).outputs.toArray
  breakpoints : later.breakpoints = session.breakpoints
  running : later.running = true ↔ ¬ session.FaultsAt count

variable {later : Session} {count : Nat}

/-- A run off all breakpoints starts with the machine as it is. -/
theorem Follows.start (off : session.address ∉ session.breakpoints) :
    session.Follows 0 session.run := by
  rw [run_of_off off]
  refine ⟨rfl, by simp, rfl, ?_⟩
  simp [FaultsAt]

/-- A tick without a reason to stop takes one more step. -/
theorem Follows.tick (follows : session.Follows count later)
    (free : ¬ session.StopsAfter count) : session.Follows (count + 1) later.tick := by
  rw [StopsAfter, not_or] at free
  obtain ⟨unblocked, silent⟩ := free
  have running : later.running = true := follows.running.mpr silent
  rw [← follows.machine, ← follows.breakpoints] at unblocked
  have going : later.machine.phase ≠ .halted := fun halted => unblocked (Or.inl halted)
  obtain ⟨status, stepped⟩ := step_of_not_halted going
  rw [tick_of_free running unblocked, stepped]
  refine ⟨?_, ?_, follows.breakpoints, ?_⟩
  · rw [Machine.iterate_succ_last, ← follows.machine]
  · rw [Machine.iterate_succ_last_outputs, ← follows.machine]
    simp [follows.output]
  · have faults : session.FaultsAt (count + 1) ↔
        ∃ cause, Event.fault cause ∈ later.machine.step.events := by
      simp [FaultsAt, follows.machine]
    rw [faults]
    simp [running, lastFaultOf_eq_none_iff]

/-- A tick with a reason to stop pauses and takes no step. -/
theorem Follows.tick_stops (follows : session.Follows count later)
    (stops : session.StopsAfter count) :
    later.tick.running = false ∧ later.tick.machine = later.machine ∧
      later.tick.output = later.output := by
  by_cases faults : session.FaultsAt count
  · have paused : later.running = false := by
      simpa [faults] using follows.running
    rw [tick_of_paused paused]
    exact ⟨paused, rfl, rfl⟩
  · have blocked : Blocked later.machine later.breakpoints := by
      rw [follows.machine, follows.breakpoints]
      exact stops.resolve_right faults
    obtain ⟨status, ticked⟩ := tick_of_blocked (follows.running.mpr faults) blocked
    rw [ticked]
    exact ⟨rfl, rfl, rfl⟩

/-- Ticks take a step each as long as there is no reason to stop. -/
theorem follows_ticks (off : session.address ∉ session.breakpoints)
    (free : ∀ earlier < count, ¬ session.StopsAfter earlier) :
    session.Follows count (session.run.ticks count) := by
  induction count with
  | zero => exact .start off
  | succ count ih =>
      have before := ih fun earlier less => free earlier (Nat.lt_succ_of_lt less)
      rw [ticks_add]
      exact before.tick (free count (Nat.lt_succ_self count))

/-- After the first reason to stop, one more tick pauses the session for good. -/
theorem ticks_after_stop (off : session.address ∉ session.breakpoints) {steps : Nat}
    (free : ∀ earlier < steps, ¬ session.StopsAfter earlier) (stops : session.StopsAfter steps)
    (beyond : steps < count) :
    (session.run.ticks count).running = false ∧
      (session.run.ticks count).machine = (session.machine.iterate steps).value ∧
      (session.run.ticks count).output =
        session.output ++ (session.machine.iterate steps).outputs.toArray := by
  have follows := follows_ticks off free
  obtain ⟨paused, machine, output⟩ := follows.tick_stops stops
  obtain ⟨more, rfl⟩ := Nat.exists_eq_add_of_lt beyond
  have split : session.run.ticks (steps + more + 1) = (session.run.ticks steps).tick := by
    rw [Nat.add_assoc, ticks_add, Nat.add_comm more, ticks_add]
    exact ticks_of_paused paused more
  rw [split]
  exact ⟨paused, machine.trans follows.machine, output.trans follows.output⟩

/-- Continuous execution iterates steps up to the first stop and does nothing after it. -/
theorem ticks_iterate_to_first_stop (session : Session) (count : Nat)
    (off : session.address ∉ session.breakpoints) :
    (∃ steps ≤ count,
      (∀ earlier < steps, ¬ session.StopsAfter earlier) ∧
      (session.StopsAfter steps ∨ steps = count) ∧
      (session.run.ticks count).machine = (session.machine.iterate steps).value ∧
      (session.run.ticks count).output =
        session.output ++ (session.machine.iterate steps).outputs.toArray ∧
      (session.StopsAfter steps → steps < count →
        (session.run.ticks count).running = false ∧
        ∀ more, (session.run.ticks count).ticks more = session.run.ticks count)) ∧
    ((session.run.ticks (count + 1)).machine ≠ (session.run.ticks count).machine →
      (session.run.ticks count).machine = (session.machine.iterate count).value ∧
      ∀ earlier ≤ count, ¬ session.StopsAfter earlier) := by
  classical
  by_cases stopping : ∃ steps, steps ≤ count ∧ session.StopsAfter steps
  · have stops := (Nat.find_spec stopping).2
    have within := (Nat.find_spec stopping).1
    have first : ∀ earlier < Nat.find stopping, ¬ session.StopsAfter earlier :=
      fun earlier less reason => Nat.find_min stopping less ⟨(less.le.trans within), reason⟩
    generalize Nat.find stopping = steps at stops within first
    have after := ticks_after_stop off first stops (Nat.lt_succ_of_le within)
    rcases within.eq_or_lt with rfl | beyond
    · have follows := follows_ticks off first
      exact ⟨⟨_, within, first, Or.inl stops, follows.machine, follows.output,
        fun _ less => absurd less (Nat.lt_irrefl _)⟩,
        fun executed => absurd (after.2.1.trans follows.machine.symm) executed⟩
    · obtain ⟨paused, machine, output⟩ := ticks_after_stop off first stops beyond
      exact ⟨⟨steps, within, first, Or.inl stops, machine, output,
        fun _ _ => ⟨paused, ticks_of_paused paused⟩⟩,
        fun executed => absurd (after.2.1.trans machine.symm) executed⟩
  · have free : ∀ earlier ≤ count, ¬ session.StopsAfter earlier :=
      fun earlier within reason => stopping ⟨earlier, within, reason⟩
    have follows := follows_ticks off fun earlier less => free earlier less.le
    exact ⟨⟨count, le_rfl, fun earlier less => free earlier less.le, Or.inr rfl, follows.machine,
      follows.output, fun _ less => absurd less (Nat.lt_irrefl _)⟩,
      fun _ => ⟨follows.machine, free⟩⟩

/-- A breakpoint on the second instruction stops the ticks after the first one. -/
theorem ticks_iterate_to_first_stop_breakpoint :
    ∃ session : Session,
      (create (assemble "OUT %0\nOUT %0" 8).program ⟨8, 1, 6⟩ 0).map
        (fun fresh => fresh.step.toggleBreakpoint.reset) = .ok session ∧
      session.address ∉ session.breakpoints ∧
      (session.run.ticks 5).machine = (session.machine.iterate 1).value ∧
      (session.run.ticks 5).running = false := by
  have stops_second (session : Session) (off : session.address ∉ session.breakpoints)
      (free : ¬ Blocked session.machine session.breakpoints)
      (blocked : Blocked (session.machine.iterate 1).value session.breakpoints) :
      (session.run.ticks 5).machine = (session.machine.iterate 1).value ∧
        (session.run.ticks 5).running = false := by
    obtain ⟨⟨steps, _, first, stop, machine, _, paused⟩, _⟩ :=
      ticks_iterate_to_first_stop session 5 off
    have early : steps ≤ 1 := by
      by_contra late
      exact first 1 (by omega) (Or.inl blocked)
    have late : steps ≠ 0 := by
      rintro rfl
      rcases stop with (here | ⟨_, impossible, _⟩) | impossible
      · exact free here
      · cases impossible
      · cases impossible
    obtain rfl : steps = 1 := by omega
    exact ⟨machine, (paused (Or.inl blocked) (by decide)).1⟩
  exact ⟨_, rfl, by decide +kernel, stops_second _ (by decide +kernel) (by decide +kernel)
    (by decide +kernel)⟩

end Session

end WordMachine.Debugger
