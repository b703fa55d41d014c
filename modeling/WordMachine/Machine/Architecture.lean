/-
This file defines the shape of a machine and the conditions that a shape meets.
-/

namespace WordMachine

/-- Addresses are read through 64 bits, so no word is wider. -/
def maxBits : Nat := 64

/-- The width, the number of registers and the number of memory cells never change. -/
structure Architecture where
  bits : Nat
  registerCount : Nat
  ramCells : Nat
deriving DecidableEq

/-- The usual machine has 8-bit words, 4 registers and 256 cells. -/
instance : Inhabited Architecture := ⟨⟨8, 4, 256⟩⟩

inductive ArchitectureError where
  | noBits (bits : Nat)
  | tooManyBits (bits limit : Nat)
  | noRegisters
deriving DecidableEq

def ArchitectureError.message : ArchitectureError → String
  | .noBits bits => s!"incorrect byte length: {bits} (must be at least 1)"
  | .tooManyBits bits limit =>
      s!"byte length {bits} exceeds the supported maximum of {limit}"
  | .noRegisters => "there must be at least one register"

namespace Architecture

/-- A machine may have no memory, but it has at least one bit and one register. -/
def validate (architecture : Architecture) : Except ArchitectureError Unit :=
  if architecture.bits < 1 then .error (.noBits architecture.bits)
  else if maxBits < architecture.bits then .error (.tooManyBits architecture.bits maxBits)
  else if architecture.registerCount < 1 then .error .noRegisters
  else .ok ()

theorem validate_eq_ok_iff (architecture : Architecture) :
    architecture.validate = .ok () ↔
      1 ≤ architecture.bits ∧ architecture.bits ≤ 64 ∧ 1 ≤ architecture.registerCount := by
  unfold validate maxBits
  split
  · simp only [reduceCtorEq, false_iff]
    omega
  · split
    · simp only [reduceCtorEq, false_iff]
      omega
    · split
      · simp only [reduceCtorEq, false_iff]
        omega
      · simp only [true_iff]
        omega

end Architecture

end WordMachine
