/-
This file relates words to the numbers that they stand for. The main lemmas say that cutting a
word is a remainder, that a word is known by its width and value, and that addition is exact.
-/

import Mathlib.Tactic
import WordMachine.Word.Arithmetic

namespace WordMachine

@[simp] theorem valueCount_eq (width : Nat) : valueCount width = 2 ^ width :=
  Nat.one_shiftLeft width

namespace Word

theorem foldl_bits (bits : List Bool) (start : Nat) :
    bits.foldl (fun total bit => 2 * total + bit.toNat) start =
      start * 2 ^ bits.length +
        bits.foldl (fun total bit => 2 * total + bit.toNat) 0 := by
  induction bits generalizing start with
  | nil => simp
  | cons bit rest ih =>
      simp only [List.foldl_cons, List.length_cons]
      rw [ih, ih (2 * 0 + bit.toNat)]
      have doubled : (2 * start + bit.toNat) * 2 ^ rest.length =
          start * 2 ^ (rest.length + 1) + bit.toNat * 2 ^ rest.length := by
        rw [Nat.add_mul, Nat.pow_succ, Nat.mul_comm 2 start, Nat.mul_assoc,
          Nat.mul_comm 2]
      rw [doubled]
      simp [Nat.add_assoc]

@[simp] theorem value_nil : value ⟨[]⟩ = 0 := rfl

theorem value_cons (bit : Bool) (rest : List Bool) :
    value ⟨bit :: rest⟩ = bit.toNat * 2 ^ rest.length + value ⟨rest⟩ := by
  have split := foldl_bits rest bit.toNat
  simpa [value] using split

theorem value_append (high low : List Bool) :
    value ⟨high ++ low⟩ = value ⟨high⟩ * 2 ^ low.length + value ⟨low⟩ := by
  simp only [value, List.foldl_append]
  exact foldl_bits low _

theorem value_lt (word : Word) : word.value < 2 ^ word.width := by
  obtain ⟨bits⟩ := word
  induction bits with
  | nil => simp [width]
  | cons bit rest ih =>
      have below : bit.toNat * 2 ^ rest.length ≤ 1 * 2 ^ rest.length :=
        Nat.mul_le_mul_right _ (by cases bit <;> simp)
      simp only [width, List.length_cons, Nat.pow_succ] at ih ⊢
      rw [value_cons]
      omega

theorem value_replicate_false (count : Nat) :
    value ⟨List.replicate count false⟩ = 0 := by
  induction count with
  | zero => rfl
  | succ count ih => rw [List.replicate_succ, value_cons, ih]; simp

@[simp] theorem value_zero (width : Nat) : (zero width).value = 0 :=
  value_replicate_false width

@[simp] theorem value_one : one.value = 1 := rfl

@[simp] theorem value_ofNat (width number : Nat) :
    (ofNat width number).value = number % 2 ^ width := by
  induction width with
  | zero => simp [ofNat, bitsOfNat, Nat.mod_one]
  | succ width ih =>
      simp only [ofNat] at ih ⊢
      rw [bitsOfNat, value_cons, length_bitsOfNat, ih, Nat.toNat_testBit, Nat.pow_succ,
        Nat.mod_mul, Nat.mul_comm, Nat.add_comm]

@[simp] theorem value_padded (word : Word) (width : Nat) :
    (word.padded width).value = word.value := by
  simp only [padded]
  rw [value_append, value_replicate_false]
  simp

theorem value_drop (bits : List Bool) (count : Nat) :
    value ⟨bits.drop count⟩ = value ⟨bits⟩ % 2 ^ (bits.length - count) := by
  have whole := value_append (bits.take count) (bits.drop count)
  have bound := value_lt ⟨bits.drop count⟩
  simp only [List.take_append_drop, List.length_drop] at whole
  simp only [Word.width, List.length_drop] at bound
  rw [whole, Nat.mul_comm, Nat.mul_add_mod, Nat.mod_eq_of_lt bound]

@[simp] theorem value_lowBits (word : Word) (width : Nat) :
    (word.lowBits width).value = word.value % 2 ^ width := by
  have cut := value_drop (word.padded width).bits (word.width - width)
  have padding := width_padded word width
  have same := value_padded word width
  simp only [Word.width] at padding
  rw [lowBits, cut, padding, same]
  by_cases long : width ≤ word.width
  · congr 2
    simp only [Word.width] at long ⊢
    omega
  · have bound := value_lt word
    have higher : 2 ^ word.width ≤ 2 ^ width :=
      Nat.pow_le_pow_right (by decide) (Nat.le_of_not_le long)
    have exponent : max width word.bits.length - (word.width - width) = width := by
      simp only [Word.width] at long ⊢
      omega
    rw [exponent]

section Registers

theorem toNat_shiftIn (register : UInt64) (bit : Bool) :
    (shiftIn register bit).toNat = (2 * register.toNat + bit.toNat) % 2 ^ 64 := by
  have kept : register.toNat <<< 1 % 2 ^ 64 = (register.toNat % 2 ^ 63) <<< 1 := by
    rw [Nat.shiftLeft_eq, Nat.shiftLeft_eq]
    omega
  have bitNumber : bit.toUInt64.toNat = bit.toNat := by cases bit <;> rfl
  have small : bit.toNat < 2 ^ 1 := by cases bit <;> decide
  calc (shiftIn register bit).toNat
      = register.toNat <<< 1 % 2 ^ 64 ||| bit.toNat := by
        rw [shiftIn, UInt64.toNat_or, UInt64.toNat_shiftLeft, bitNumber]
        rfl
    _ = (register.toNat % 2 ^ 63) <<< 1 + bit.toNat := by
        rw [kept, Nat.shiftLeft_add_eq_or_of_lt small]
    _ = (2 * register.toNat + bit.toNat) % 2 ^ 64 := by
        rw [Nat.shiftLeft_eq]
        omega

/-- Bits that enter a register follow the bits that it holds. -/
theorem toNat_foldl_shiftIn (bits : List Bool) (register : UInt64) :
    (bits.foldl shiftIn register).toNat =
      (register.toNat * 2 ^ bits.length + value ⟨bits⟩) % 2 ^ 64 := by
  induction bits generalizing register with
  | nil =>
      have small := register.toNat_lt
      rw [List.foldl_nil, List.length_nil, Nat.pow_zero, Nat.mul_one, value_nil, Nat.add_zero]
      exact (Nat.mod_eq_of_lt small).symm
  | cons bit rest ih =>
      rw [List.foldl_cons, ih, toNat_shiftIn, value_cons, List.length_cons, Nat.add_mod,
        Nat.mod_mul_mod, ← Nat.add_mod]
      congr 1
      ring

/-- A word of any width is read modulo the count of the values of a register. -/
theorem toNat_shiftedIn (word : Word) : word.shiftedIn.toNat = word.unsigned := by
  have low := value_drop word.bits (word.width - 64)
  rw [shiftedIn, toNat_foldl_shiftIn, UInt64.toNat_zero, Nat.zero_mul, Nat.zero_add, low,
    unsigned, valueCount_eq]
  by_cases long : 64 ≤ word.width
  · have kept : word.bits.length - (word.width - 64) = 64 := by
      simp only [Word.width] at long ⊢
      omega
    rw [kept, Nat.mod_mod]
  · have whole : word.width - 64 = 0 := by omega
    have small := value_lt word
    rw [whole, Nat.sub_zero]
    exact congrArg (· % 2 ^ 64) (Nat.mod_eq_of_lt small)

theorem testBit_register (register : UInt64) (place : Nat) :
    (decide (place < 64) && (register >>> place.toUInt64) &&& 1 == 1) =
      register.toNat.testBit place := by
  by_cases inside : place < 64
  · have placeNumber : place.toUInt64.toNat % 64 = place := by
      rw [Nat.toUInt64, UInt64.toNat_ofNat']
      omega
    rw [decide_eq_true inside, Bool.true_and, Nat.testBit_eq_decide_div_mod_eq, Bool.eq_iff_iff,
      beq_iff_eq, decide_eq_true_iff, ← UInt64.toNat_inj, UInt64.toNat_and, UInt64.toNat_shiftRight,
      placeNumber, Nat.shiftRight_eq_div_pow]
    exact Eq.congr (Nat.and_one_is_mod _) rfl
  · have beyond : register.toNat < 2 ^ place :=
      register.toNat_lt.trans_le (Nat.pow_le_pow_right (by decide) (Nat.le_of_not_lt inside))
    rw [decide_eq_false inside, Bool.false_and, Nat.testBit_lt_two_pow beyond]

theorem bitsOfNat_eq_map (width number : Nat) :
    bitsOfNat width number = (List.range width).reverse.map number.testBit := by
  induction width with
  | zero => rfl
  | succ width ih => simp [bitsOfNat, ih, List.range_succ]

/-- The bits of a register are those of its number, also beyond the register. -/
theorem ofRegister_eq (width : Nat) (register : UInt64) :
    ofRegister width register = ofNat width register.toNat := by
  rw [ofRegister, ofNat, bitsOfNat_eq_map]
  exact congrArg Word.mk (List.map_congr_left fun place _ => testBit_register register place)

end Registers

/-- Two words of one width are equal when their values are. -/
theorem eq_of_value_eq {first second : Word} (sameWidth : first.width = second.width)
    (sameValue : first.value = second.value) : first = second := by
  obtain ⟨left⟩ := first
  obtain ⟨right⟩ := second
  simp only [Word.width] at sameWidth
  induction left generalizing right with
  | nil => cases right with
    | nil => rfl
    | cons _ _ => simp at sameWidth
  | cons bit rest ih =>
      cases right with
      | nil => simp at sameWidth
      | cons other others =>
          simp only [List.length_cons, Nat.add_right_cancel_iff] at sameWidth
          have low := value_lt ⟨rest⟩
          have otherLow := value_lt ⟨others⟩
          simp only [Word.width] at low otherLow
          rw [value_cons, value_cons, sameWidth] at sameValue
          rw [sameWidth] at low
          have top : bit = other := by
            cases bit <;> cases other <;> simp at sameValue ⊢ <;> omega
          subst top
          have tail := ih others sameWidth (by omega)
          simp only [Word.mk.injEq] at tail ⊢
          rw [tail]

theorem ofNat_value (word : Word) : ofNat word.width word.value = word :=
  eq_of_value_eq (by simp) (by rw [value_ofNat, Nat.mod_eq_of_lt (value_lt word)])

/-- A word and its inversion add up to the largest value of their width. -/
theorem value_inverted (word : Word) :
    word.value + word.inverted.value + 1 = 2 ^ word.width := by
  obtain ⟨bits⟩ := word
  induction bits with
  | nil => rfl
  | cons bit rest ih =>
      simp only [inverted, width, List.map_cons, List.length_cons] at ih ⊢
      rw [value_cons, value_cons, List.length_map, Nat.pow_succ]
      cases bit <;> simp <;> omega

theorem rippleSum_value (first second : List Bool) (sameLength : first.length = second.length) :
    (rippleSum first second).1.toNat * 2 ^ first.length +
        value ⟨(rippleSum first second).2⟩ = value ⟨first⟩ + value ⟨second⟩ := by
  induction first generalizing second with
  | nil =>
      cases second with
      | nil => rfl
      | cons _ _ => simp at sameLength
  | cons left lefts ih =>
      cases second with
      | nil => simp at sameLength
      | cons right rights =>
          simp only [List.length_cons, Nat.add_right_cancel_iff] at sameLength
          have lower := ih rights sameLength
          have sumLength := rippleSum_length lefts rights sameLength
          simp only [rippleSum]
          rw [value_cons, value_cons, value_cons, sumLength, ← sameLength]
          simp only [List.length_cons, Nat.pow_succ]
          revert lower
          cases (rippleSum lefts rights).1 <;> cases left <;> cases right <;>
            simp [fullAdder, Gate.onBits] <;> omega

/-- Addition is exact for words of any widths. -/
theorem value_add (first second : Word) :
    (first.add second).value = first.value + second.value := by
  have left := width_padded first (max first.width second.width)
  have right := width_padded second (max first.width second.width)
  simp only [width] at left right
  have sum := rippleSum_value (first.padded (max first.width second.width)).bits
    (second.padded (max first.width second.width)).bits
    (by simp only [width] at *; rw [left, right]; omega)
  have sumLength := rippleSum_length
    (first.padded (max first.width second.width)).bits
    (second.padded (max first.width second.width)).bits
    (by simp only [width] at *; rw [left, right]; omega)
  change _ = (first.padded (max first.width second.width)).value +
    (second.padded (max first.width second.width)).value at sum
  rw [value_padded, value_padded] at sum
  simp only [add]
  cases carry : (rippleSum (first.padded (max first.width second.width)).bits
      (second.padded (max first.width second.width)).bits).1
  · simpa [carry] using sum
  · simp only [carry, if_true] at sum ⊢
    rw [value_cons, sumLength]
    exact sum

@[simp] theorem value_increment (word : Word) : word.increment.value = word.value + 1 := by
  simp [increment, value_add]

end Word

end WordMachine
