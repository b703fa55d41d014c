/-
This file defines the instruction set: addressing modes, opcodes with their codes and names,
and the spellings that the assembly language accepts.
-/

import WordMachine.Instruction.Flags

namespace WordMachine

/-- The mode of an operand says what its word names. -/
inductive Mode where
  /-- A register, or the target of an absolute jump. -/
  | register
  /-- A memory cell. -/
  | memory
  /-- The word itself. -/
  | immediate
  /-- A signed distance in instructions. -/
  | relative
deriving DecidableEq, Inhabited

namespace Mode

def all : List Mode := [.register, .memory, .immediate, .relative]

def name : Mode → String
  | .register => "Register"
  | .memory => "Direct"
  | .immediate => "Immediate"
  | .relative => "Relative"

def ofName? (name : String) : Option Mode := all.find? (·.name == name)

/-- The sigil marks an operand's mode in program text. -/
def sigil : Mode → Char
  | .register => '%'
  | .memory => '@'
  | .immediate => '#'
  | .relative => '!'

def ofSigil? : Char → Option Mode
  | '%' => some .register
  | '@' => some .memory
  | '#' => some .immediate
  | '!' => some .relative
  | _ => none

theorem ofSigil?_eq_some_iff {char : Char} {mode : Mode} :
    ofSigil? char = some mode ↔ char = mode.sigil := by
  constructor
  · intro found
    unfold ofSigil? at found
    split at found <;> simp_all <;> subst found <;> rfl
  · rintro rfl
    cases mode <;> rfl

/-- The words of these modes print as signed numbers. -/
def isSigned : Mode → Bool
  | .immediate | .relative => true
  | .register | .memory => false

end Mode

/-- A move names its destination first and its source second. -/
inductive Transfer where
  | registerFromImmediate
  | registerFromMemory
  | memoryFromImmediate
  | memoryFromRegister
  | registerFromRegister
deriving DecidableEq, Inhabited

namespace Transfer

def all : List Transfer :=
  [.registerFromImmediate, .registerFromMemory, .memoryFromImmediate, .memoryFromRegister,
    .registerFromRegister]

def destination : Transfer → Mode
  | .registerFromImmediate | .registerFromMemory | .registerFromRegister => .register
  | .memoryFromImmediate | .memoryFromRegister => .memory

def source : Transfer → Mode
  | .registerFromImmediate | .memoryFromImmediate => .immediate
  | .registerFromMemory => .memory
  | .memoryFromRegister | .registerFromRegister => .register

end Transfer

/-- A cell that can be shown as output lies in a register or in memory. -/
inductive Cell where
  | register
  | memory
deriving DecidableEq, Inhabited

namespace Cell

def all : List Cell := [.register, .memory]

def mode : Cell → Mode
  | .register => .register
  | .memory => .memory

end Cell

/-- The second operand of an arithmetic instruction. -/
inductive Source where
  | register
  | memory
  | immediate
deriving DecidableEq, Inhabited

namespace Source

def all : List Source := [.register, .memory, .immediate]

def mode : Source → Mode
  | .register => .register
  | .memory => .memory
  | .immediate => .immediate

end Source

/-- These operations combine a register with a second operand. -/
inductive Binary where
  | add
  | sub
  | mul
  | cmp
deriving DecidableEq, Inhabited

def Binary.all : List Binary := [.add, .sub, .mul, .cmp]

/-- A jump names its target as an address or as a distance. -/
inductive Target where
  | absolute
  | relative
deriving DecidableEq, Inhabited

namespace Target

def all : List Target := [.absolute, .relative]

def mode : Target → Mode
  | .absolute => .register
  | .relative => .relative

end Target

/-- An opcode fixes the operation and the mode of each operand. -/
inductive Opcode where
  | halt
  | idle
  | move (transfer : Transfer)
  | out (cell : Cell)
  | binary (operation : Binary) (source : Source)
  | increment
  | decrement
  | jump (condition : Condition) (target : Target)
deriving DecidableEq, Inhabited

namespace Transfer

def code : Transfer → Nat
  | .registerFromImmediate => 1
  | .registerFromMemory => 2
  | .memoryFromImmediate => 3
  | .memoryFromRegister => 4
  | .registerFromRegister => 5

end Transfer

def Cell.offset : Cell → Nat
  | .register => 0
  | .memory => 1

def Source.offset : Source → Nat
  | .register => 0
  | .memory => 1
  | .immediate => 2

def Target.offset : Target → Nat
  | .absolute => 0
  | .relative => 1

/-- The sources of one operation have neighbouring codes. -/
def Binary.firstCode : Binary → Nat
  | .add => 8
  | .sub => 11
  | .mul => 34
  | .cmp => 15

/-- The targets of one condition have neighbouring codes. -/
def Condition.firstCode : Condition → Nat
  | .always => 18
  | .carry => 20
  | .notCarry => 22
  | .zero => 24
  | .notZero => 26
  | .notSign => 30
  | .sign => 32

def Binary.mnemonic : Binary → String
  | .add => "ADD"
  | .sub => "SUB"
  | .mul => "MUL"
  | .cmp => "CMP"

def Condition.mnemonic : Condition → String
  | .always => "JMP"
  | .carry => "JC"
  | .notCarry => "JNC"
  | .zero => "JZ"
  | .notZero => "JNZ"
  | .notSign => "JGTR"
  | .sign => "JLSS"

/-- The three letters of a mode occur in opcode names. -/
def Mode.tag : Mode → String
  | .register => "Reg"
  | .memory => "Mem"
  | .immediate => "Imm"
  | .relative => "Rel"

def Target.tag : Target → String
  | .absolute => "Abs"
  | .relative => "Rel"

namespace Opcode

/-- Code 28 belongs to no opcode. -/
def code : Opcode → Nat
  | .halt => 0
  | .idle => 37
  | .move transfer => transfer.code
  | .out cell => 6 + cell.offset
  | .binary operation source => operation.firstCode + source.offset
  | .increment => 14
  | .decrement => 29
  | .jump condition target => condition.firstCode + target.offset

def moves : List Opcode := Transfer.all.map .move

def outs : List Opcode := Cell.all.map .out

def binaries (operation : Binary) : List Opcode := Source.all.map (.binary operation)

def jumps (condition : Condition) : List Opcode := Target.all.map (.jump condition)

/-- All opcodes in the order of their codes. -/
def all : List Opcode :=
  [halt] ++ moves ++ outs ++ binaries .add ++ binaries .sub ++ [increment] ++ binaries .cmp ++
    jumps .always ++ jumps .carry ++ jumps .notCarry ++ jumps .zero ++ jumps .notZero ++
    [decrement] ++ jumps .notSign ++ jumps .sign ++ binaries .mul ++ [idle]

def ofCode? (code : Nat) : Option Opcode := all.find? (·.code == code)

def mnemonic : Opcode → String
  | .halt => "HLT"
  | .idle => "NOP"
  | .move _ => "MOV"
  | .out _ => "OUT"
  | .binary operation _ => operation.mnemonic
  | .increment => "INC"
  | .decrement => "DEC"
  | .jump condition _ => condition.mnemonic

/-- The modes of the operands in order, of which there are at most two. -/
def modes : Opcode → List Mode
  | .halt | .idle => []
  | .move transfer => [transfer.destination, transfer.source]
  | .out cell => [cell.mode]
  | .binary _ source => [.register, source.mode]
  | .increment | .decrement => [.register]
  | .jump _ target => [target.mode]

/-- A name has one capital letter for its mnemonic and one for each operand. -/
def name (opcode : Opcode) : String :=
  let stem := String.ofList <| match opcode.mnemonic.toList with
    | [] => []
    | letter :: rest => letter :: rest.map Char.toLower
  match opcode with
  | .jump _ target => stem ++ target.tag
  | _ => stem ++ String.join (opcode.modes.map (·.tag))

def ofName? (name : String) : Option Opcode := all.find? (·.name == name)

/-- The operation leaves the modes of an opcode out. -/
def operation : Opcode → String
  | .halt => "Halt"
  | .idle => "Nop"
  | .move _ => "Move"
  | .out _ => "Out"
  | .binary .add _ => "Add"
  | .binary .sub _ => "Sub"
  | .binary .mul _ => "Mul"
  | .binary .cmp _ => "Cmp"
  | .increment => "Inc"
  | .decrement => "Dec"
  | .jump condition _ => s!"Jump({condition.name})"

/-- A key is a mnemonic followed by the sigils of its operands. -/
def keyOf (mnemonic : String) (modes : List Mode) : String :=
  mnemonic ++ String.ofList (modes.map (·.sigil))

def key (opcode : Opcode) : String := keyOf opcode.mnemonic opcode.modes

/-- Some jumps have a second mnemonic. -/
def spellings : List (String × Opcode) :=
  let own (opcodes : List Opcode) := opcodes.map fun opcode => (opcode.mnemonic, opcode)
  let other (mnemonic : String) (opcodes : List Opcode) :=
    opcodes.map fun opcode => (mnemonic, opcode)
  own ([halt, idle] ++ moves ++ outs ++ binaries .add ++ binaries .sub ++ binaries .mul ++
      [increment, decrement] ++ binaries .cmp ++ jumps .always ++ jumps .carry ++
      jumps .notCarry ++ jumps .zero) ++
    other "JEQ" (jumps .zero) ++ own (jumps .notZero) ++ other "JNE" (jumps .notZero) ++
    own (jumps .notSign ++ jumps .sign) ++ other "JNGTR" (jumps .sign)

/-- The opcode that a mnemonic names together with the modes of its operands. -/
def lookup (mnemonic : String) (modes : List Mode) : Option Opcode :=
  (spellings.find? fun (name, opcode) => name == mnemonic && opcode.modes == modes).map (·.2)

theorem mem_all (opcode : Opcode) : opcode ∈ all := by
  cases opcode with
  | move transfer => cases transfer <;> decide
  | out cell => cases cell <;> decide
  | binary operation source => cases operation <;> cases source <;> decide
  | jump condition target => cases condition <;> cases target <;> decide
  | halt | idle | increment | decrement => decide

theorem ofCode?_code (opcode : Opcode) : ofCode? opcode.code = some opcode := by
  cases opcode with
  | move transfer => cases transfer <;> rfl
  | out cell => cases cell <;> rfl
  | binary operation source => cases operation <;> cases source <;> rfl
  | jump condition target => cases condition <;> cases target <;> rfl
  | halt | idle | increment | decrement => rfl

theorem ofCode?_eq_some_iff {code : Nat} {opcode : Opcode} :
    ofCode? code = some opcode ↔ code = opcode.code := by
  constructor
  · intro found
    have same := List.find?_some found
    simpa using (beq_iff_eq.1 same).symm
  · rintro rfl
    exact ofCode?_code opcode

end Opcode

end WordMachine
