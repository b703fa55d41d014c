import WordMachine.Machine.Listeners
import WordMachine.Proofs.Histories
import WordMachine.Proofs.MemoryHistory

namespace WordMachine

namespace Memory

variable {memory next : Memory} {name : String} {width capacity : Nat}

/-- A memory is proper when it has the name and the shape, and each stored cell has the width and
lies inside. -/
structure Proper (memory : Memory) (name : String) (width capacity : Nat) : Prop where
  name_eq : memory.name = name
  holds : memory.Holds width capacity
  inside : memory.Inside

/-- A new memory is proper. -/
theorem empty_proper (name : String) (width capacity : Nat) :
    (empty name width capacity).Proper name width capacity :=
  ⟨rfl, empty_holds name width capacity, empty_inside name width capacity⟩

/-- Every change keeps a memory proper, whether its address is a word or a number. -/
theorem Proper.attempt (proper : memory.Proper name width capacity) {change : Change}
    (attempted : memory.attempt change = .ok next) : next.Proper name width capacity := by
  obtain ⟨named, holds, inside⟩ := proper
  cases change with
  | write address word =>
      obtain ⟨index, within, _, shape⟩ := write_eq_ok attempted
      refine ⟨?_, holds.write attempted, ?_⟩
      · rw [shape]
        exact named
      · rw [shape]
        exact inside.insert within _
  | writeAt address word =>
      obtain ⟨stillHolds, stillInside, _⟩ := holds.writeAt_inside inside attempted
      refine ⟨?_, stillHolds, stillInside⟩
      rw [(writeAt_eq_ok_iff.mp attempted).2]
      exact named
  | clear =>
      cases attempted
      exact ⟨named, holds.clear, Inside.clear memory⟩

/-- A change keeps a memory proper even if it fails. -/
theorem Proper.after (proper : memory.Proper name width capacity) (change : Change) :
    (memory.after change).Proper name width capacity := by
  unfold Memory.after
  cases attempted : memory.attempt change with
  | error cause => exact proper
  | ok next => exact proper.attempt attempted

/-- A proper memory is new again once it is cleared. -/
theorem Proper.clear_eq (proper : memory.Proper name width capacity) :
    memory.clear = empty name width capacity := by
  obtain ⟨rfl, ⟨rfl, rfl, _⟩, _⟩ := proper
  rfl

/-- The writes that store the cells of a memory. -/
def rewrites (memory : Memory) : List Change :=
  memory.dump.map fun (address, word) => .writeAt address word

/-- Writes of words of the width inside the capacity store them all. -/
theorem afterAll_writeAt {entries : List (Nat × Word)}
    (fit : ∀ entry ∈ entries, entry.1 < memory.capacity ∧ entry.2.width = memory.width) :
    memory.afterAll (entries.map fun (address, word) => .writeAt address word) =
      { memory with cells := memory.cells.insertMany entries } := by
  induction entries generalizing memory with
  | nil => simp [afterAll]
  | cons entry rest ih =>
      obtain ⟨within, same⟩ := fit entry List.mem_cons_self
      have written : memory.after (.writeAt entry.1 entry.2) =
          { memory with cells := memory.cells.insert entry.1 entry.2 } := by
        have stored := writeAt_eq_ok_iff.mpr ⟨⟨within, same.le⟩, rfl⟩
        rw [Word.padded_of_le _ same.ge] at stored
        rw [after, attempt, stored]
      have others := fun other listed => fit other (List.mem_cons_of_mem entry listed)
      have later := @ih { memory with cells := memory.cells.insert entry.1 entry.2 } others
      rw [← written] at later
      rw [Std.ExtTreeMap.insertMany_cons]
      exact later.trans (by rw [written])

/-- A map is made of its entries in any order. -/
theorem insertMany_of_perm {cells : Std.ExtTreeMap Nat Word} {entries : List (Nat × Word)}
    (order : entries.Perm cells.toList) :
    (∅ : Std.ExtTreeMap Nat Word).insertMany entries = cells := by
  apply Std.ExtTreeMap.ext_getElem?
  intro address
  cases stored : cells[address]? with
  | some word =>
      apply Std.ExtTreeMap.getElem?_insertMany_list_of_mem (k := address)
      · simp
      · exact order.symm.pairwise Std.ExtTreeMap.distinct_keys_toList
          fun differ same => differ (Std.OrientedCmp.eq_symm same)
      · exact order.mem_iff.mpr (Std.ExtTreeMap.mem_toList_iff_getElem?_eq_some.mpr stored)
  | none =>
      rw [Std.ExtTreeMap.getElem?_insertMany_list_of_contains_eq_false]
      · simp
      · rw [(order.map Prod.fst).contains_eq, Std.ExtTreeMap.map_fst_toList_eq_keys,
          Std.ExtTreeMap.contains_keys, Std.ExtTreeMap.contains_eq_isSome_getElem?, stored]
        rfl

/-- An empty memory becomes a copy of another one of its shape by the writes of its cells. -/
theorem Proper.afterAll_rewrites (proper : memory.Proper name width capacity) :
    (empty name width capacity).afterAll memory.rewrites = memory := by
  have fit : ∀ entry ∈ memory.dump, entry.1 < capacity ∧ entry.2.width = width := by
    intro entry listed
    have stored := mem_dump_iff.mp (show (entry.1, entry.2) ∈ memory.dump from listed)
    exact ⟨(proper.inside _ _ stored).trans_eq proper.holds.capacity_eq,
      proper.holds.stored stored⟩
  have copied := @afterAll_writeAt (empty name width capacity) memory.dump fit
  rw [rewrites, copied]
  obtain ⟨rfl, ⟨rfl, rfl, _⟩, _⟩ := proper
  exact congrArg (Memory.mk _ _ _) (insertMany_of_perm (.refl memory.dump))

end Memory

namespace Machine

variable {architecture : Architecture} {machine : Machine}

/-- The parts of a machine are made for the architecture, whatever the control registers hold. -/
structure FittedTo (machine : Machine) (architecture : Architecture) : Prop where
  architecture_eq : machine.architecture = architecture
  control_width : machine.control.width = architecture.bits
  ram : machine.ram.Proper "RAM" architecture.bits architecture.ramCells
  registers : machine.registers.Proper "register" architecture.bits architecture.registerCount

/-- A new machine is fitted to its architecture. -/
theorem build_fitted (architecture : Architecture) : (build architecture).FittedTo architecture :=
  ⟨rfl, rfl, Memory.empty_proper _ _ _, Memory.empty_proper _ _ _⟩

/-- The control registers may take words of any width. -/
theorem FittedTo.withControl (fitted : machine.FittedTo architecture) {control : Control}
    (same : control.width = machine.control.width) :
    { machine with control := control }.FittedTo architecture :=
  ⟨fitted.architecture_eq, same.trans fitted.control_width, fitted.ram, fitted.registers⟩

/-- The name of a memory appears in messages. -/
def Bank.name : Bank → String
  | .ram => "RAM"
  | .registers => "register"

theorem FittedTo.bank (fitted : machine.FittedTo architecture) (bank : Bank) :
    (machine.bank bank).Proper bank.name architecture.bits (bank.capacity architecture) := by
  cases bank with
  | ram => exact fitted.ram
  | registers => exact fitted.registers

/-- Every change of a memory keeps a machine fitted, even if it fails. -/
theorem FittedTo.change (fitted : machine.FittedTo architecture) (bank : Bank) (change : Change) :
    (machine.withBank bank ((machine.bank bank).after change)).FittedTo architecture := by
  have proper := (fitted.bank bank).after change
  obtain ⟨same, control, ram, registers⟩ := fitted
  cases bank with
  | ram => exact ⟨same, control, proper, registers⟩
  | registers => exact ⟨same, control, ram, proper⟩

/-- Operations keep a machine fitted to its architecture. -/
theorem fittedTo_lasting (architecture : Architecture) :
    Lasting fun machine => machine.FittedTo architecture where
  control fitted _ suits := fitted.withControl suits.width_eq
  progress fitted _ _ _ _ :=
    ⟨fitted.architecture_eq, fitted.control_width, fitted.ram, fitted.registers⟩
  write fitted bank address word _ written := by
    have attempted := fitted.change bank (.write address word)
    rw [Memory.after, Memory.attempt, written] at attempted
    exact attempted
  clear fitted bank := fitted.change bank .clear

/-- Direct writes keep a machine fitted too. -/
theorem FittedTo.perform (fitted : machine.FittedTo architecture) (operation : Operation) :
    (machine.perform operation).value.FittedTo architecture := by
  have direct (bank : Bank) (address : Nat) (word : Word) :
      (machine.perform (bank.directWrite address word)).value.FittedTo architecture := by
    rw [perform_directWrite]
    cases written : (machine.bank bank).writeAt address word with
    | error cause => exact fitted
    | ok memory =>
        have changed := fitted.change bank (.writeAt address word)
        rw [Memory.after, Memory.attempt, written] at changed
        exact changed
  cases operation with
  | writeRam address word => exact direct .ram address word
  | writeRegister index word => exact direct .registers index word
  | _ => exact (fittedTo_lasting architecture).perform fitted rfl

/-- A reset that keeps the memory leaves a fresh machine apart from it and from the step limit. -/
theorem FittedTo.reset_false (fitted : machine.FittedTo architecture) :
    (machine.reset false).value =
      { (build architecture).withStepLimit machine.stepLimit with ram := machine.ram } := by
  have registers := fitted.registers.clear_eq
  have control : machine.control.reset = .initial architecture.bits :=
    congrArg Control.initial fitted.control_width
  have shape : (machine.reset false).value =
      { machine with
        control := machine.control.reset
        registers := machine.registers.clear
        phase := .idle
        steps := 0
        lastInstruction := none } := rfl
  rw [shape, registers, control, fitted.architecture_eq]
  rfl

/-- A reset that clears the memory leaves a fresh machine apart from the step limit. -/
theorem FittedTo.reset_true (fitted : machine.FittedTo architecture) :
    (machine.reset true).value = (build architecture).withStepLimit machine.stepLimit := by
  have kept := fitted.reset_false
  have cleared := fitted.ram.clear_eq
  have same : (machine.reset true).value =
      { (machine.reset false).value with ram := machine.ram.clear } := rfl
  rw [same, kept, cleared]
  rfl

end Machine

/-- What may be done to a machine from outside. -/
inductive Action where
  | operation (operation : Operation)
  | changeRam (change : Change)
  | changeRegisters (change : Change)
  | setPc (pc : Word)
  | setIr (ir : Word)
  | setFlags (flags : Flags)
  | readRam (address : Nat)
  | readRegister (index : Nat)
  | listen (kind : EventKind) (tag : String)
  | clearListeners

/-- What an action answers. -/
inductive Answer where
  | done
  | program (program : Program)
  | steps (result : Except Fault Nat)
  | opcode (executed : Option Opcode)
  | changed (result : Except MemoryError Unit)
  | word (result : Except MemoryError Word)

def Machine.answer (machine : Machine) : Operation → Answer
  | .compile source => .program (machine.compile source).value
  | .loadSource source address => .program (machine.loadSource source address).value.2
  | .run start => .steps (machine.run start).value.result
  | .step => .opcode machine.step.value.2
  | .writeRegister index word => .changed (machine.registers.writeAt index word *> pure ())
  | .writeRam address word => .changed (machine.ram.writeAt address word *> pure ())
  | .load _ _ | .reset _ | .setStepLimit _ => .done

/-- A watched machine delivers its events to listeners. -/
structure Watched where
  machine : Machine
  listeners : Listeners

namespace Watched

/-- The watched machine after an action, with the answer and the delivered events. -/
structure Response where
  watched : Watched
  answer : Answer
  delivered : List (String × Event)

/-- Only operations report events. -/
def respond (watched : Watched) : Action → Response
  | .operation operation =>
      let performed := watched.machine.perform operation
      ⟨⟨performed.value, watched.listeners⟩, watched.machine.answer operation,
        watched.listeners.deliver performed.events⟩
  | .changeRam change =>
      let ram := watched.machine.ram
      ⟨{ watched with machine := { watched.machine with ram := ram.after change } },
        .changed (ram.attempt change *> pure ()), []⟩
  | .changeRegisters change =>
      let registers := watched.machine.registers
      ⟨{ watched with machine := { watched.machine with registers := registers.after change } },
        .changed (registers.attempt change *> pure ()), []⟩
  | .setPc pc => ⟨{ watched with machine := watched.machine.withPc pc }, .done, []⟩
  | .setIr ir =>
      let control := { watched.machine.control with ir := ir }
      ⟨{ watched with machine := { watched.machine with control := control } }, .done, []⟩
  | .setFlags flags => ⟨{ watched with machine := watched.machine.withFlags flags }, .done, []⟩
  | .readRam address => ⟨watched, .word (watched.machine.ram.readAt address), []⟩
  | .readRegister index => ⟨watched, .word (watched.machine.registers.readAt index), []⟩
  | .listen kind tag =>
      ⟨{ watched with listeners := watched.listeners.listen kind tag }, .done, []⟩
  | .clearListeners => ⟨{ watched with listeners := .empty }, .done, []⟩

def after (watched : Watched) (action : Action) : Watched := (watched.respond action).watched

def afterAll (watched : Watched) (actions : List Action) : Watched := actions.foldl after watched

/-- The responses to a sequence of actions, in order. -/
def responses (watched : Watched) : List Action → List Response
  | [] => []
  | action :: rest => watched.respond action :: (watched.after action).responses rest

variable {architecture : Architecture} {watched : Watched}

/-- Every action keeps the machine fitted. -/
theorem after_fitted (fitted : watched.machine.FittedTo architecture) (action : Action) :
    (watched.after action).machine.FittedTo architecture := by
  cases action with
  | operation operation => exact fitted.perform operation
  | changeRam change => exact fitted.change .ram change
  | changeRegisters change => exact fitted.change .registers change
  | setPc _ | setIr _ | setFlags _ => exact fitted.withControl rfl
  | readRam _ | readRegister _ | listen _ _ | clearListeners => exact fitted

/-- A sequence of actions keeps the machine fitted. -/
theorem afterAll_fitted (fitted : watched.machine.FittedTo architecture) (actions : List Action) :
    (watched.afterAll actions).machine.FittedTo architecture := by
  induction actions generalizing watched with
  | nil => exact fitted
  | cons action rest ih => exact ih (after_fitted fitted action)

/-- Changes of the memory change nothing else. -/
theorem afterAll_changeRam (watched : Watched) (changes : List Change) :
    watched.afterAll (changes.map .changeRam) =
      { watched with
        machine := { watched.machine with ram := watched.machine.ram.afterAll changes } } := by
  induction changes generalizing watched with
  | nil => rfl
  | cons change rest ih => exact ih (watched.after (.changeRam change))

/-- A machine behaves after a reset like a fresh one that is given the memory cells that were kept.
-/
theorem reset_forgets_history (architecture : Architecture) (listeners : Listeners)
    (past future : List Action) :
    let used := (Watched.mk (.build architecture) listeners).afterAll past
    let fresh : Watched :=
      ⟨(Machine.build architecture).withStepLimit used.machine.stepLimit, used.listeners⟩
    let copy := fresh.afterAll (used.machine.ram.rewrites.map .changeRam)
    let cleared := used.after (.operation (.reset true))
    let kept := used.after (.operation (.reset false))
    cleared.responses future = fresh.responses future ∧
      cleared.afterAll future = fresh.afterAll future ∧
      kept.responses future = copy.responses future ∧
      kept.afterAll future = copy.afterAll future ∧
      kept.machine.ram = used.machine.ram ∧
      copy.machine.ram = used.machine.ram := by
  intro used fresh copy cleared kept
  have fitted : used.machine.FittedTo architecture :=
    afterAll_fitted (Machine.build_fitted architecture) past
  have clearedFresh : cleared = fresh :=
    congrArg (fun machine => Watched.mk machine used.listeners) fitted.reset_true
  have copied : copy =
      { fresh with machine := { fresh.machine with ram := used.machine.ram } } := by
    have written := fresh.afterAll_changeRam used.machine.ram.rewrites
    have restored : fresh.machine.ram.afterAll used.machine.ram.rewrites = used.machine.ram :=
      fitted.ram.afterAll_rewrites
    rw [restored] at written
    exact written
  have keptCopy : kept = copy :=
    (congrArg (fun machine => Watched.mk machine used.listeners) fitted.reset_false).trans
      copied.symm
  rw [clearedFresh, keptCopy, copied]
  exact ⟨rfl, rfl, rfl, rfl, rfl, rfl⟩

end Watched

end WordMachine
