import WordMachine.Machine.Step
import WordMachine.Proofs.Signed

namespace WordMachine

/-- A multiplication holds the multiplicand as far as it has moved and the sum so far. -/
structure PartialProduct where
  multiplicand : Word
  sum : Word
deriving DecidableEq

namespace PartialProduct

def start (multiplicand : Word) : PartialProduct := ⟨multiplicand, Word.zero 1⟩

/-- A set bit adds the multiplicand to the sum, and every bit moves the multiplicand left. -/
def step (bit : Bool) (product : PartialProduct) : PartialProduct where
  multiplicand := product.multiplicand.shiftLeft
  sum := if bit then product.sum.add product.multiplicand else product.sum

/-- The walk starts at the lowest bit of the multiplier. -/
def walk (multiplicand : Word) (multiplier : List Bool) : PartialProduct :=
  multiplier.foldr step (start multiplicand)

theorem walk_cons (multiplicand : Word) (bit : Bool) (lower : List Bool) :
    walk multiplicand (bit :: lower) = step bit (walk multiplicand lower) := rfl

/-- After a walk the multiplicand has moved by the number of bits, and the sum belongs to them. -/
theorem walk_eq (multiplicand : Word) (multiplier : List Bool) :
    walk multiplicand multiplier =
      ⟨⟨multiplicand.bits ++ List.replicate multiplier.length false⟩,
        Word.shiftedSum multiplicand.bits multiplier⟩ := by
  induction multiplier with
  | nil => simp [walk, start, Word.shiftedSum]
  | cons bit lower ih =>
      have moved : (⟨multiplicand.bits ++ List.replicate lower.length false⟩ : Word).shiftLeft =
          ⟨multiplicand.bits ++ List.replicate (bit :: lower).length false⟩ := by
        rw [Word.shiftLeft, List.append_assoc, ← List.replicate_succ', List.length_cons]
      rw [walk_cons, ih, step, moved, Word.shiftedSum]

/-- The sum of a walk is the product with the bits walked over. -/
theorem walk_value (multiplicand : Word) (multiplier : List Bool) :
    (walk multiplicand multiplier).sum.value =
      multiplicand.value * Word.value ⟨multiplier⟩ := by
  rw [walk_eq]
  exact Word.shiftedSum_value multiplicand.bits multiplier

/-- The state of a multiplication while this many of the highest bits are still to come. -/
def before (first second : Word) (remaining : Nat) : PartialProduct :=
  let width := max first.width second.width
  walk (first.padded width) ((second.padded width).bits.drop remaining)

/-- The sum at a bit is the product with the bits so far. -/
theorem before_value (first second : Word) (remaining : Nat) :
    (before first second remaining).sum.value =
      first.value * (second.value % 2 ^ (max first.width second.width - remaining)) := by
  have columns : (second.padded (max first.width second.width)).bits.length =
      max first.width second.width :=
    (Word.width_padded _ _).trans (Nat.max_eq_left (Nat.le_max_right _ _))
  have cut := Word.value_drop (second.padded (max first.width second.width)).bits remaining
  have same := Word.value_padded second (max first.width second.width)
  rw [before, walk_value, Word.value_padded, cut, columns, same]

end PartialProduct

namespace Machine

theorem value_stride : stride.value = 3 := rfl

/-- The raw distance counts words, of which an instruction takes three. -/
theorem multiply_stride (distance : Word) :
    (distance.multiply stride).value = 3 * distance.value := by
  rw [Word.value_multiply, value_stride, Nat.mul_comm]

/-- A relative jump adds three times its distance. -/
theorem jumpBy_eq (machine : Machine) (distance : Word) :
    machine.jumpBy distance =
      machine.jumpTo (machine.pc.add (Word.ofNat machine.width (3 * distance.value))) := by
  rw [jumpBy, Word.lowBits_eq_ofNat, multiply_stride]

end Machine

namespace Word

/-- The product is the sum behind all bits. -/
theorem multiply_eq_before (first second : Word) :
    first.multiply second = (PartialProduct.before first second 0).sum := by
  rw [PartialProduct.before, PartialProduct.walk_eq, List.drop_zero]
  rfl

/-- A distance is multiplied as an unsigned number, which makes no difference once it is cut. -/
theorem multiply_stride_modEq {distance : Word} (narrow : distance.width ≤ 64) :
    (((distance.multiply Machine.stride).lowBits distance.width).value : Int) ≡
      3 * distance.signed [ZMOD 2 ^ distance.width] := by
  have product : (((distance.multiply Machine.stride).lowBits distance.width).value : Int) =
      3 * distance.value % 2 ^ distance.width := by
    rw [value_lowBits, Machine.multiply_stride]
    norm_cast
  calc (((distance.multiply Machine.stride).lowBits distance.width).value : Int)
      = 3 * distance.value % 2 ^ distance.width := product
    _ ≡ 3 * distance.value [ZMOD 2 ^ distance.width] := Int.mod_modEq _ _
    _ ≡ 3 * distance.signed [ZMOD 2 ^ distance.width] :=
        ((signed_modEq narrow rfl).symm).mul_left 3

/-- Products of words are exact, and so are the distances of relative jumps before they are cut. -/
theorem multiply_exact (first second : Word) :
    (first.multiply second).value = first.value * second.value ∧
    first.multiply second = (PartialProduct.before first second 0).sum ∧
    (∀ remaining, (PartialProduct.before first second remaining).sum.value =
      first.value * (second.value % 2 ^ (max first.width second.width - remaining))) ∧
    (first.multiply second).value = (second.multiply first).value ∧
    (∀ third : Word, ((first.multiply second).multiply third).value =
      (first.multiply (second.multiply third)).value) ∧
    ∀ distance : Word,
      (distance.multiply Machine.stride).value = 3 * distance.value ∧
      (∀ machine : Machine, machine.jumpBy distance =
        machine.jumpTo (machine.pc.add (ofNat machine.width (3 * distance.value)))) ∧
      (distance.width ≤ 64 →
        (((distance.multiply Machine.stride).lowBits distance.width).value : Int) ≡
          3 * distance.signed [ZMOD 2 ^ distance.width]) := by
  refine ⟨value_multiply first second, multiply_eq_before first second,
    PartialProduct.before_value first second, ?_, ?_, ?_⟩
  · rw [value_multiply, value_multiply, Nat.mul_comm]
  · intro third
    rw [value_multiply, value_multiply, value_multiply, value_multiply, Nat.mul_assoc]
  · intro distance
    exact ⟨Machine.multiply_stride distance, fun machine => machine.jumpBy_eq distance,
      multiply_stride_modEq⟩

/-- Two steps back from an empty factor: the raw distance needs ten bits, and cut to eight it is
minus six. -/
theorem multiply_exact_backwards :
    ((⟨[]⟩ : Word).multiply (ofNat 3 5)).value = 0 ∧
      (ofInt 8 (-2)).width ≤ 64 ∧
      ((ofInt 8 (-2)).multiply Machine.stride).value = 3 * 254 ∧
      (((ofInt 8 (-2)).multiply Machine.stride).lowBits 8).value ≡ 3 * -2 [ZMOD 2 ^ 8] := by
  have narrow : (ofInt 8 (-2)).width ≤ 64 := by decide
  obtain ⟨product, _, _, _, _, distances⟩ := multiply_exact ⟨[]⟩ (ofNat 3 5)
  obtain ⟨tripled, _, signed⟩ := distances (ofInt 8 (-2))
  exact ⟨product.trans (Nat.zero_mul _), narrow, tripled, signed narrow⟩

end Word

end WordMachine
