/-
This file defines what a machine reports while it works. A traced value comes with the events
that led to it, in order.
-/

import WordMachine.Assembly.Error
import WordMachine.Machine.Memory

namespace WordMachine

/-- A fault is reported, and the machine carries on. -/
inductive Fault where
  | memory (cause : MemoryError)
  | unknownOpcode (code address : Nat)
  | stepLimitExceeded (limit : Nat)
  | assembly (cause : Assembly.Error)
deriving DecidableEq

def Fault.message : Fault → String
  | .memory cause => s!"memory error: {cause.message}"
  | .unknownOpcode code address => s!"unknown opcode {code} at address {address}"
  | .stepLimitExceeded limit => s!"infinite loop detected: step limit of {limit} exceeded"
  | .assembly cause => s!"assembler error: {cause.message}"

inductive Event where
  | run
  | reset
  /-- A step ended with this program counter. -/
  | step (pc : Word)
  | out (word : Word)
  | fault (cause : Fault)
deriving DecidableEq

def Event.out? : Event → Option Word
  | .out word => some word
  | _ => none

def Event.fault? : Event → Option Fault
  | .fault cause => some cause
  | _ => none

/-- A value together with the events that led to it. -/
structure Traced (A : Type) where
  value : A
  events : List Event

namespace Traced

def andThen {A B : Type} (first : Traced A) (next : A → Traced B) : Traced B :=
  let second := next first.value
  ⟨second.value, first.events ++ second.events⟩

instance : Monad Traced where
  pure value := ⟨value, []⟩
  bind := andThen

@[simp] theorem value_pure {A : Type} (value : A) : (pure value : Traced A).value = value := rfl

@[simp] theorem value_bind {A B : Type} (first : Traced A) (next : A → Traced B) :
    (first >>= next).value = (next first.value).value := rfl

@[simp] theorem events_pure {A : Type} (value : A) : (pure value : Traced A).events = [] := rfl

@[simp] theorem events_bind {A B : Type} (first : Traced A) (next : A → Traced B) :
    (first >>= next).events = first.events ++ (next first.value).events := rfl

end Traced

def emit (event : Event) : Traced Unit := ⟨(), [event]⟩

def report (cause : Fault) : Traced Unit := emit (.fault cause)

end WordMachine
