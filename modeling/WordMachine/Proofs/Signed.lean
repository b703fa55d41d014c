import Mathlib.Data.Int.ModEq
import WordMachine.Assembly.Operand
import WordMachine.Proofs.Arithmetic

namespace WordMachine

/-- A number fits a width when it lies below the count of its numbers. -/
theorem bitCount_le_iff {number width : Nat} (positive : 1 ≤ width) :
    bitCount number ≤ width ↔ number < 2 ^ width := by
  unfold bitCount
  by_cases vanishes : number = 0
  · subst vanishes
    simpa using positive
  · rw [← Nat.log2_lt vanishes]
    omega

/-- A number fits its own bits. -/
theorem lt_two_pow_bitCount (number : Nat) : number < 2 ^ bitCount number :=
  (bitCount_le_iff (Nat.le_add_left 1 _)).1 (Nat.le_refl _)

namespace Word

/-- The unsigned reading of a machine word is its number. -/
theorem unsigned_eq {word : Word} (narrow : word.width ≤ 64) : word.unsigned = word.value := by
  rw [unsigned, valueCount_eq, Nat.mod_eq_of_lt (value_lt_of_width_le narrow)]

/-- The upper half of the numbers of a width reads as negative. -/
theorem signed_eq {word : Word} (narrow : word.width ≤ 64) :
    word.signed =
      if 2 ^ word.width ≤ 2 * word.value then (word.value : Int) - 2 ^ word.width
      else word.value := by
  have short : ¬ 64 < word.width := by omega
  simp [signed, short, msb_eq]

/-- The signed reading differs from the number by a multiple of the count of all numbers. -/
theorem signed_emod {word : Word} (narrow : word.width ≤ 64) :
    word.signed % 2 ^ word.width = word.value := by
  have small := value_lt word
  have bound : (word.value : Int) < 2 ^ word.width := by exact_mod_cast small
  rw [signed_eq narrow]
  split
  · rw [Int.sub_emod_right, Int.emod_eq_of_lt (by omega) bound]
  · exact Int.emod_eq_of_lt (by omega) bound

/-- The signed reading keeps the remainder. -/
theorem signed_modEq {word : Word} {width : Nat} (narrow : width ≤ 64)
    (fits : word.width = width) : word.signed ≡ word.value [ZMOD 2 ^ width] := by
  subst fits
  rw [← signed_emod narrow]
  exact (Int.mod_modEq word.signed _).symm

/-- The signed reading lies in the signed range of the width. -/
theorem signed_bounds {word : Word} (narrow : word.width ≤ 64) (positive : 1 ≤ word.width) :
    -2 ^ (word.width - 1) ≤ word.signed ∧ word.signed < 2 ^ (word.width - 1) := by
  have small : (word.value : Int) < 2 ^ word.width := by exact_mod_cast value_lt word
  have doubled : (2 : Int) ^ word.width = 2 * 2 ^ (word.width - 1) := by
    rw [← Int.pow_succ', Nat.sub_add_cancel positive]
  rw [signed_eq narrow]
  split <;> rename_i half
  · have upper : (2 : Int) ^ word.width ≤ 2 * word.value := by exact_mod_cast half
    omega
  · have lower : ¬ (2 : Int) ^ word.width ≤ 2 * word.value := by exact_mod_cast half
    omega

/-- A magnitude below the bound of the width leaves the width and takes the remainder. -/
theorem ofInt_eq {width : Nat} {number : Int} (positive : 1 ≤ width)
    (small : number.natAbs < 2 ^ width) :
    ofInt width number = ofNat width (number % 2 ^ width).toNat := by
  have short : bitCount number.natAbs ≤ width := (bitCount_le_iff positive).2 small
  have magnitudeWidth : ((ofNat (bitCount number.natAbs) number.natAbs).padded width).width =
      width := by
    rw [width_padded, width_ofNat, Nat.max_eq_left short]
  have magnitudeValue : ((ofNat (bitCount number.natAbs) number.natAbs).padded width).value =
      number.natAbs := by
    rw [value_padded, value_ofNat_of_lt (lt_two_pow_bitCount _)]
  have flipped := value_inverted ((ofNat (bitCount number.natAbs) number.natAbs).padded width)
  rw [magnitudeWidth, magnitudeValue] at flipped
  have bound : (number.natAbs : Int) < 2 ^ width := by exact_mod_cast small
  unfold ofInt
  split <;> rename_i sign
  · apply eq_of_value_eq (by rw [magnitudeWidth, width_ofNat])
    rw [magnitudeValue, value_ofNat, Int.emod_eq_of_lt sign (by omega),
      Nat.mod_eq_of_lt (by omega)]
    omega
  · have kept (word : Word) (same : word.width = width) :
        word.withoutLeadingZeros width = word := by
      simp [withoutLeadingZeros, same]
    dsimp only
    rw [magnitudeWidth, kept _ (width_lowBits _ _)]
    apply eq_of_value_eq (by simp)
    have remainder : number % 2 ^ width = number + 2 ^ width := by
      rw [← Int.add_emod_right, Int.emod_eq_of_lt (by omega) (by omega)]
    rw [value_lowBits, value_increment, value_ofNat, remainder]
    congr 1
    have cast : ((2 ^ width : Nat) : Int) = 2 ^ width := by norm_cast
    omega

end Word

namespace Assembly

/-- An operand fits a width when it is a signed or an unsigned number of the width. -/
def Fits (width : Nat) (value : Int) : Prop := -2 ^ (width - 1) ≤ value ∧ value < 2 ^ width

theorem Fits.natAbs_lt {width : Nat} {value : Int} (fits : Fits width value)
    (positive : 1 ≤ width) : value.natAbs < 2 ^ width := by
  obtain ⟨least, below⟩ := fits
  have doubled : (2 : Int) ^ width = 2 * 2 ^ (width - 1) := by
    rw [← Int.pow_succ', Nat.sub_add_cancel positive]
  have cast : ((2 ^ width : Nat) : Int) = 2 ^ width := by norm_cast
  have half : (0 : Int) < 2 ^ (width - 1) := by positivity
  omega

/-- Exactly the operands that fit are taken, and each becomes its remainder. -/
theorem operandWord_eq_ok_iff {width : Nat} (positive : 1 ≤ width) (narrow : width ≤ 64)
    {value : Int} {word : Word} :
    operandWord width value = .ok word ↔
      Fits width value ∧ word = Word.ofNat width (value % 2 ^ width).toNat := by
  have lower : (width - 1) % 128 = width - 1 := Nat.mod_eq_of_lt (by omega)
  have upper : width % 128 = width := Nat.mod_eq_of_lt (by omega)
  have range : (value < -valueCount (width - 1) ∨ (valueCount width : Int) ≤ value) ↔
      ¬ Fits width value := by
    simp only [Fits, valueCount_eq, Nat.cast_pow, Nat.cast_ofNat]
    omega
  have kept (fits : Fits width value) (sign : value < 0) :
      value.bmod (valueCount 64) = value := by
    have least : (2 : Int) ^ (width - 1) ≤ 2 ^ 63 := by
      exact pow_le_pow_right₀ (by decide) (by omega)
    have bound := fits.1
    rw [valueCount_eq]
    apply Int.bmod_eq_of_le <;> omega
  unfold operandWord
  rw [lower, upper]
  by_cases fits : Fits width value
  · rw [if_neg (fun outside => range.1 outside fits)]
    by_cases sign : value < 0
    · rw [if_pos sign, kept fits sign, Word.ofInt_eq positive (fits.natAbs_lt positive)]
      simp [fits, eq_comm]
    · have below := fits.2
      rw [if_neg sign, Int.emod_eq_of_lt (by omega) below]
      simp [fits, eq_comm]
  · rw [if_pos (range.2 fits)]
    simp [fits]

end Assembly

end WordMachine
