/-
This file defines debugging sessions. A session steps through a program, runs it in ticks, and
pauses at breakpoints, halts, faults and the step limit.
-/

import Std.Data.ExtTreeSet
import WordMachine.Machine.Run

namespace WordMachine.Debugger

/-- The status says what happened last at which program counter. -/
inductive Status where
  | ready
  | reset
  | running
  /-- A single step was asked of a halted machine. -/
  | alreadyHalted (steps : Nat)
  /-- A tick found the machine halted. -/
  | halted (steps : Nat)
  | pausedAtLimit (steps : Nat)
  | breakpoint (address : Nat)
  | breakpointSet (address : Nat)
  | breakpointRemoved (address : Nat)
  | fault (address : Nat) (cause : Fault)
  | executed (address : Nat) (instruction : Option Instruction)
deriving DecidableEq

def Status.message : Status → String
  | .ready => "Ready. Press 's' to step, 'r' to run, 'q' to quit."
  | .reset => "Reset. Ready."
  | .running => "Running..."
  | .alreadyHalted steps => s!"CPU halted after {steps} steps"
  | .halted steps => s!"Halted after {steps} steps"
  | .pausedAtLimit steps => s!"Paused: {steps} steps without HLT"
  | .breakpoint address => s!"Breakpoint at PC={address}"
  | .breakpointSet address => s!"Set breakpoint at PC={address}"
  | .breakpointRemoved address => s!"Removed breakpoint at PC={address}"
  | .fault address cause =>
      s!"Error at PC={String.ofList (Text.address address)}: {cause.message}"
  | .executed address instruction =>
      let text := (instruction.map Instruction.text).getD "???"
      s!"PC={String.ofList (Text.address address)}: {text}"

structure Session where
  machine : Machine
  program : Program
  /-- The program is loaded here and starts here. -/
  start : Nat
  breakpoints : Std.ExtTreeSet Nat
  running : Bool
  status : Status
  /-- The first address that the memory panel shows. -/
  memoryScroll : Nat
  /-- The words put out since the last reset, oldest first. -/
  output : Array Word
  lastFault : Option Fault

namespace Session

def address (session : Session) : Nat := session.machine.pc.unsigned

/-- The program is loaded anew, and the faults of the loading are forgotten. -/
def reset (session : Session) : Session :=
  let cleared := (session.machine.reset true).value
  let loaded := (cleared.load session.program.bits session.start).value
  { session with
    machine := loaded.withPc (Word.ofNat loaded.width session.start)
    output := #[]
    lastFault := none
    running := false
    status := .reset }

def create (program : Program) (architecture : Architecture) (start : Nat) :
    Except ArchitectureError Session := do
  let machine ← Machine.create architecture
  let session : Session :=
    { machine := machine, program := program, start := start, breakpoints := ∅,
      running := false, status := .ready, memoryScroll := 0, output := #[],
      lastFault := none }
  pure { session.reset with status := .ready }

/-- The last of several faults is kept. -/
def lastFaultOf (events : List Event) : Option Fault := (events.filterMap Event.fault?).getLast?

/-- A halted machine is not stepped, and a fault stops continuous execution. -/
def step (session : Session) : Session :=
  let machine := session.machine
  if machine.isHalted then
    { session with status := .alreadyHalted machine.steps, running := false }
  else
    let stepped := machine.step
    let next := stepped.value.1
    let session :=
      { session with
        machine := next
        output := session.output ++ (stepped.events.filterMap Event.out?).toArray
        lastFault := lastFaultOf stepped.events }
    match session.lastFault with
    | some cause =>
        { session with status := .fault machine.pc.unsigned cause, running := false }
    | none =>
        { session with status := .executed machine.pc.unsigned next.lastInstruction }

/-- Continuous execution first leaves a breakpoint that it starts on. -/
def run (session : Session) : Session :=
  let session := if session.address ∈ session.breakpoints then session.step else session
  { session with running := true, status := .running }

/-- One round of continuous execution looks for a halt, the step limit and a breakpoint before
it steps. -/
def tick (session : Session) : Session :=
  let machine := session.machine
  if !session.running then session
  else if machine.isHalted then
    { session with running := false, status := .halted machine.steps }
  else if machine.stepLimit ≤ machine.steps then
    { session with running := false, status := .pausedAtLimit machine.steps }
  else if session.address ∈ session.breakpoints then
    { session with running := false, status := .breakpoint session.address }
  else session.step

def ticks (session : Session) : Nat → Session
  | 0 => session
  | count + 1 => session.tick.ticks count

def toggleBreakpoint (session : Session) : Session :=
  let address := session.address
  if address ∈ session.breakpoints then
    { session with
      breakpoints := session.breakpoints.erase address, status := .breakpointRemoved address }
  else
    { session with
      breakpoints := session.breakpoints.insert address, status := .breakpointSet address }

/-- A cell that cannot be read shows as zero. -/
def cell (session : Session) (address : Nat) : Word :=
  match session.machine.ram.readAt address with
  | .ok word => word
  | .error _ => Word.zero session.machine.width

/-- A line of the disassembly around the program counter. -/
structure CodeLine where
  address : Nat
  text : List Char
  isCurrent : Bool
deriving DecidableEq

/-- The program panics when the address behind an instruction does not fit into 64 bits. -/
def nextAddress? (address : Nat) : Option Nat :=
  let next := address + wordsPerInstruction
  if next < valueCount 64 then some next else none

def codeLine (session : Session) (address : Nat) : CodeLine :=
  let cells := (List.range wordsPerInstruction).map fun offset => session.cell (address + offset)
  { address := address
    text := Instruction.disassemble (cells.flatMap Word.bits) session.machine.width
    isCurrent := address == session.address }

/-- Lines follow one another as long as the next instruction ends inside the memory. -/
def codeLinesFrom? (session : Session) (address : Nat) : (count : Nat) → Option (List CodeLine)
  | 0 => some []
  | count + 1 => do
      let next ← nextAddress? address
      if next ≤ session.machine.ram.capacity then
        let later ← session.codeLinesFrom? next count
        pure (session.codeLine address :: later)
      else pure []

/-- At most half of the lines stand before the program counter. -/
def codeLines? (session : Session) (count : Nat) : Option (List CodeLine) :=
  let before := min (count / 2) (session.address / wordsPerInstruction)
  session.codeLinesFrom? (session.address - before * wordsPerInstruction) count

end Session

end WordMachine.Debugger
