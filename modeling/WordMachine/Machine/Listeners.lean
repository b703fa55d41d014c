/-
This file delivers events to listeners. There is one slot for each kind of event, and a listener
is known by its tag.
-/

import WordMachine.Machine.Basic

namespace WordMachine

/-- The kinds of events that can be listened to. -/
inductive EventKind where
  | run
  | step
  | reset
  | fault
  | out
deriving DecidableEq

namespace EventKind

def all : List EventKind := [.run, .step, .reset, .fault, .out]

def name : EventKind → String
  | .run => "run"
  | .step => "step"
  | .reset => "reset"
  | .fault => "error"
  | .out => "out"

def ofName? (name : String) : Option EventKind := all.find? (·.name == name)

end EventKind

def Event.kind : Event → EventKind
  | .run => .run
  | .reset => .reset
  | .step _ => .step
  | .out _ => .out
  | .fault _ => .fault

/-- A slot holds the tag of its listener. -/
structure Listeners where
  slots : EventKind → Option String

namespace Listeners

def empty : Listeners := ⟨fun _ => .none⟩

/-- A later listener replaces the earlier one of its kind. -/
def listen (listeners : Listeners) (kind : EventKind) (tag : String) : Listeners :=
  ⟨fun other => if other = kind then some tag else listeners.slots other⟩

/-- Every event goes to the listener of its kind, if there is one. -/
def deliver (listeners : Listeners) (events : List Event) : List (String × Event) :=
  events.filterMap fun event => (listeners.slots event.kind).map (·, event)

/-- The debugging text tells which slots are taken. -/
def describe (listeners : Listeners) : String :=
  let slots := EventKind.all.map fun kind =>
    s!"{kind.name}: {(listeners.slots kind).isSome}"
  "Listeners \x7b " ++ ", ".intercalate slots ++ " \x7d"

end Listeners

/-- The debugging text of a machine shows its control registers and its listeners. -/
def Machine.describe (machine : Machine) (listeners : Listeners) : String :=
  let architecture := machine.architecture
  s!"Cpu \x7b arch: Architecture \x7b bits: {architecture.bits}, " ++
    s!"register_count: {architecture.registerCount}, ram_bytes: {architecture.ramCells} \x7d, " ++
    s!"state: {machine.phase.name}, steps: {machine.steps}, regs: {machine.control.describe}, " ++
    s!"listeners: {listeners.describe} \x7d"

end WordMachine
