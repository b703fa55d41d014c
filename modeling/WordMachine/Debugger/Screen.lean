/-
This file lays a debugging session out on a screen of characters. Two columns of bordered panels
stand side by side.
-/

import WordMachine.Debugger.Session

namespace WordMachine.Debugger

/-- A text is cut or filled with blanks to a width. -/
def fitted (width : Nat) (text : List Char) : List Char :=
  (Text.padRight ' ' width text).take width

/-- The title stands in the top border, and lines are cut at the border. -/
def panel (title : String) (width height : Nat) (lines : List (List Char)) : List (List Char) :=
  let inside := width - 2
  let row (index : Nat) : List Char := fitted inside (lines.getD index [])
  let top := (Text.padRight '─' inside title.toList).take inside
  [['┌'] ++ top ++ ['┐']] ++
    (List.range (height - 2)).map (fun index => ['│'] ++ row index ++ ['│']) ++
    [['└'] ++ List.replicate inside '─' ++ ['┘']]

namespace Session

/-- A dot marks a breakpoint and an arrow the current instruction. -/
def codeText (session : Session) (line : CodeLine) : List Char :=
  let mark := if line.address ∈ session.breakpoints then '●' else ' '
  let arrow := if line.isCurrent then "▶ " else "  "
  [mark, ' '] ++ arrow.toList ++ Text.address line.address ++ [':', ' '] ++ line.text

def codePanel? (session : Session) (width height : Nat) : Option (List (List Char)) := do
  let lines ← session.codeLines? (height - 2)
  pure (panel " Disassembly " width height (lines.map session.codeText))

def registerLine (session : Session) (index : Nat) : List Char :=
  let word :=
    match session.machine.registers.readAt index with
    | .ok word => word
    | .error _ => Word.zero session.machine.width
  ['%'] ++ Text.padRight ' ' 3 (Text.decimal index) ++ word.readings.toList

/-- Two lines for the control registers leave the rest of the panel to the registers. -/
def registerPanel (session : Session) (width height : Nat) : List (List Char) :=
  let machine := session.machine
  let control :=
    [s!"PC: {machine.pc.text} = {machine.pc.unsigned}   IR: {machine.ir.text}",
      s!"Flags: CZS   Steps: {machine.steps}   State: {machine.phase.name}"]
  panel " Registers " width height <|
    control.map String.toList ++
      (List.range (min machine.registers.capacity (height - 4))).map session.registerLine

def statusPanel (session : Session) (width height : Nat) : List (List Char) :=
  panel " Status " width height [session.status.message.toList]

def memoryLine (session : Session) (address : Nat) : List Char :=
  let word := session.cell address
  Text.address address ++ s!": {word.text} = {word.unsigned}".toList

/-- The rows end with the memory, and the program panics when their end does not fit into 64 bits.
-/
def memoryPanel? (session : Session) (width height : Nat) : Option (List (List Char)) :=
  let first := session.memoryScroll
  let last := first + (height - 2)
  if last < valueCount 64 then
    let count := min last session.machine.ram.capacity - first
    some (panel " Memory " width height
      ((List.range count).map fun offset => session.memoryLine (first + offset)))
  else none

/-- Only the newest words that fit are shown. -/
def outputPanel (session : Session) (width height : Nat) : List (List Char) :=
  let words := session.output.toList
  panel " Output " width height <|
    (words.drop (words.length - (height - 2))).map fun word => word.readings.toList

def helpPanel (width height : Nat) : List (List Char) :=
  panel " Help " width height
    ["s: Step  r: Run  p: Pause  b: Breakpoint".toList,
      "x: Reset  ↑↓: Scroll memory  q: Quit".toList]

/-- The left column takes six tenths of the width. -/
def draw? (session : Session) (width height : Nat) : Option (List String) := do
  let left := width * 6 / 10
  let right := width - left
  let code ← session.codePanel? left (height - 12)
  let memory ← session.memoryPanel? right (height - 10)
  let leftRows := code ++ session.registerPanel left 9 ++ session.statusPanel left 3
  let rightRows := memory ++ session.outputPanel right 6 ++ helpPanel right 4
  pure (List.zipWith (fun first second => String.ofList (first ++ second)) leftRows rightRows)

end Session

end WordMachine.Debugger
