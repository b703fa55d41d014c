import WordMachine.Instruction.Flags
import WordMachine.Word.Value

namespace WordMachine

namespace Word

theorem value_lt_of_width_le {word : Word} {width : Nat} (narrow : word.width ≤ width) :
    word.value < 2 ^ width :=
  lt_of_lt_of_le (value_lt word) (Nat.pow_le_pow_right (by decide) narrow)

/-- A number below the bound of its width is kept whole. -/
theorem value_ofNat_of_lt {width number : Nat} (small : number < 2 ^ width) :
    (ofNat width number).value = number := by
  rw [value_ofNat, Nat.mod_eq_of_lt small]

/-- A word is the number of its value written in its width. -/
theorem eq_ofNat {word : Word} {width : Nat} (fits : word.width = width) :
    word = ofNat width word.value := by
  subst fits
  exact (ofNat_value word).symm

/-- Cutting a word to a width writes its number in that width. -/
theorem lowBits_eq_ofNat (word : Word) (width : Nat) :
    word.lowBits width = ofNat width word.value :=
  eq_of_value_eq (by simp) (by simp)

/-- A word without set bits has the number zero. -/
theorem isZero_eq (word : Word) : word.isZero = decide (word.value = 0) := by
  obtain ⟨bits⟩ := word
  induction bits with
  | nil => rfl
  | cons bit rest ih =>
      have tail : (⟨rest⟩ : Word).isZero = rest.all (!·) := rfl
      have positive : 0 < 2 ^ rest.length := Nat.two_pow_pos _
      simp only [isZero, List.all_cons, value_cons] at ih ⊢
      rw [ih]
      cases bit <;> simp

/-- The top bit is set exactly for the upper half of the numbers of a width. -/
theorem msb_eq (word : Word) : word.msb = decide (2 ^ word.width ≤ 2 * word.value) := by
  obtain ⟨bits⟩ := word
  cases bits with
  | nil => rfl
  | cons bit rest =>
      have low := value_lt ⟨rest⟩
      simp only [width] at low
      simp only [msb, List.headD_cons, width, List.length_cons, value_cons, Nat.pow_succ]
      cases bit
      · simp only [Bool.toNat_false, Nat.zero_mul, Nat.zero_add]
        exact (decide_eq_false (by omega)).symm
      · simp only [Bool.toNat_true, Nat.one_mul]
        exact (decide_eq_true (by omega)).symm

/-- The bits above a width are set exactly when the number needs them. -/
theorem exceeds_eq (word : Word) (width : Nat) :
    word.exceeds width = decide (2 ^ width ≤ word.value) := by
  obtain ⟨bits⟩ := word
  have raised : (⟨bits⟩ : Word).exceeds width =
      !(⟨bits.take (bits.length - width)⟩ : Word).isZero := by
    simp [exceeds, isZero, Word.width, List.any_eq_not_all_not]
  rw [raised, isZero_eq, ← decide_not]
  apply decide_eq_decide.2
  by_cases long : width ≤ bits.length
  · have whole := value_append (bits.take (bits.length - width)) (bits.drop (bits.length - width))
    have low := value_lt ⟨bits.drop (bits.length - width)⟩
    have rest : bits.length - (bits.length - width) = width := by omega
    rw [List.take_append_drop] at whole
    simp only [Word.width, List.length_drop, rest] at low whole
    rw [whole]
    constructor
    · intro set
      have scaled := Nat.le_mul_of_pos_left (2 ^ width) (Nat.pos_of_ne_zero set)
      omega
    · intro reached unset
      rw [unset] at reached
      omega
  · have narrow : (⟨bits⟩ : Word).width ≤ width := Nat.le_of_not_le long
    have empty : bits.length - width = 0 := by omega
    rw [empty, List.take_zero, value_nil]
    exact ⟨fun set => absurd rfl set,
      fun reached => absurd (value_lt_of_width_le narrow) (Nat.not_lt.2 reached)⟩

/-- The carry out of the top column tells whether the sum outgrows the columns. -/
theorem rippleSum_carry (first second : List Bool) (sameLength : first.length = second.length) :
    (rippleSum first second).1 = decide (2 ^ first.length ≤ value ⟨first⟩ + value ⟨second⟩) := by
  have sum := rippleSum_value first second sameLength
  have low := value_lt ⟨(rippleSum first second).2⟩
  simp only [width, rippleSum_length first second sameLength] at low
  cases carry : (rippleSum first second).1 with
  | false =>
      rw [carry, Bool.toNat_false, Nat.zero_mul, Nat.zero_add] at sum
      exact (decide_eq_false (by omega)).symm
  | true =>
      rw [carry, Bool.toNat_true, Nat.one_mul] at sum
      exact (decide_eq_true (by omega)).symm

/-- A sum is one bit longer than the longer summand exactly when it does not fit there. -/
theorem width_add (first second : Word) :
    (first.add second).width = max first.width second.width +
      if 2 ^ max first.width second.width ≤ first.value + second.value then 1 else 0 := by
  have left := width_padded first (max first.width second.width)
  have right := width_padded second (max first.width second.width)
  simp only [width] at left right
  have sameLength : (first.padded (max first.width second.width)).bits.length =
      (second.padded (max first.width second.width)).bits.length := by
    simp only [width]
    omega
  have leftLength : (first.padded (max first.width second.width)).bits.length =
      max first.width second.width := by
    simp only [width]
    omega
  have carry := rippleSum_carry _ _ sameLength
  have sumLength := rippleSum_length _ _ sameLength
  rw [leftLength] at carry sumLength
  change _ = decide (_ ≤ (first.padded (max first.width second.width)).value +
    (second.padded (max first.width second.width)).value) at carry
  rw [value_padded, value_padded] at carry
  simp only [add, carry]
  by_cases grows : 2 ^ max first.width second.width ≤ first.value + second.value
  · simp only [grows, decide_true, if_true]
    change (_ :: _ : List Bool).length = _
    rw [List.length_cons, sumLength]
  · simp only [grows, decide_false, if_false]
    exact sumLength

/-- A sum outgrows the width exactly when its number does. -/
theorem width_add_of_width_le {first second : Word} {width : Nat}
    (firstFits : first.width = width) (secondFits : second.width ≤ width) :
    width < (first.add second).width ↔ 2 ^ width ≤ first.value + second.value := by
  rw [width_add, firstFits, Nat.max_eq_left secondFits]
  split <;> omega

/-- Negation counts from the top of the numbers of the padded width. -/
theorem value_negate_max (word : Word) (width : Nat) :
    (word.negate width).value = 2 ^ max width word.width - word.value := by
  have flipped := value_inverted (word.padded width)
  rw [value_padded, width_padded] at flipped
  rw [negate, value_increment, complement]
  omega

/-- The negation of a number counts it down from the number of all words of the width. -/
theorem value_negate {word : Word} {width : Nat} (narrow : word.width ≤ width) :
    (word.negate width).value = 2 ^ width - word.value := by
  rw [value_negate_max, Nat.max_eq_left narrow]

/-- Only the negation of zero outgrows the width. -/
theorem width_negate {word : Word} {width : Nat} (narrow : word.width ≤ width)
    (positive : 1 ≤ width) :
    (word.negate width).width = width + if word.value = 0 then 1 else 0 := by
  have flipped := value_inverted (word.padded width)
  rw [value_padded, width_padded, Nat.max_eq_left narrow] at flipped
  rw [negate, increment, width_add, complement, width_inverted, width_padded, width_one, value_one,
    Nat.max_eq_left narrow, Nat.max_eq_left positive]
  congr 1
  by_cases vanishes : word.value = 0
  · rw [if_pos vanishes, if_pos (by omega)]
  · rw [if_neg vanishes, if_neg (by omega)]

/-- Negating twice within a width pads the word to it. -/
theorem lowBits_negate_negate {word : Word} {width : Nat} (narrow : word.width ≤ width) :
    (((word.negate width).lowBits width).negate width).lowBits width = word.padded width := by
  have small := value_lt_of_width_le narrow
  have once : ((word.negate width).lowBits width).value = (2 ^ width - word.value) % 2 ^ width := by
    rw [value_lowBits, value_negate narrow]
  apply eq_of_value_eq
  · rw [width_lowBits, width_padded, Nat.max_eq_left narrow]
  · rw [value_lowBits, value_negate (width_lowBits _ _).le, once, value_padded]
    rcases Nat.eq_zero_or_pos word.value with vanishes | positive
    · simp [vanishes]
    · have kept : (2 ^ width - word.value) % 2 ^ width = 2 ^ width - word.value :=
        Nat.mod_eq_of_lt (by omega)
      rw [kept, Nat.sub_sub_self small.le, Nat.mod_eq_of_lt small]

/-- The raw difference counts from the top of the numbers of the width. -/
theorem value_subtract {first second : Word} {width : Nat} (narrow : second.width ≤ width) :
    (first.subtract second width).value = first.value + (2 ^ width - second.value) := by
  rw [subtract, value_add, value_negate narrow]

/-- A raw difference outgrows the width exactly when nothing is borrowed. -/
theorem width_subtract {first second : Word} {width : Nat} (positive : 1 ≤ width)
    (firstFits : first.width ≤ width) (secondFits : second.width ≤ width) :
    width < (first.subtract second width).width ↔ second.value ≤ first.value := by
  have small := value_lt_of_width_le firstFits
  have bound := value_lt_of_width_le secondFits
  rw [subtract, width_add, width_negate secondFits positive, value_negate secondFits]
  by_cases vanishes : second.value = 0
  · rw [if_pos vanishes]
    omega
  · rw [if_neg vanishes, Nat.add_zero, Nat.max_eq_right firstFits]
    split <;> omega

/-- The sum of the shifted multiplicands is the product. -/
theorem shiftedSum_value (multiplicand multiplier : List Bool) :
    (shiftedSum multiplicand multiplier).value = value ⟨multiplicand⟩ * value ⟨multiplier⟩ := by
  induction multiplier with
  | nil => simp [shiftedSum]
  | cons bit lower ih =>
      rw [shiftedSum, value_cons]
      cases bit with
      | false => simpa using ih
      | true =>
          simp only [if_true, Bool.toNat_true, Nat.one_mul]
          rw [value_add, ih, value_append, value_replicate_false, List.length_replicate]
          ring

/-- Products lose no bit. -/
theorem value_multiply (first second : Word) :
    (first.multiply second).value = first.value * second.value := by
  rw [multiply, shiftedSum_value]
  exact congrArg₂ (· * ·) (value_padded first _) (value_padded second _)

/-- Addition loses nothing, and negation and subtraction count from the top of the numbers of a
width. -/
theorem arithmetic_exact (first second : Word) :
    (first.add second).value = first.value + second.value ∧
    (first.add second).width = max first.width second.width +
      (if 2 ^ max first.width second.width ≤ first.value + second.value then 1 else 0) ∧
    ∀ width, 1 ≤ width → first.width ≤ width →
      (first.negate width).value + first.value = 2 ^ width ∧
      (first.negate width).width = width + (if first.value = 0 then 1 else 0) ∧
      (((first.negate width).lowBits width).negate width).lowBits width = first.padded width ∧
      (second.width ≤ width →
        (first.subtract second width).value + second.value = first.value + 2 ^ width ∧
        (width < (first.subtract second width).width ↔ second.value ≤ first.value)) := by
  refine ⟨value_add first second, width_add first second, ?_⟩
  intro width positive firstFits
  have firstSmall := value_lt_of_width_le firstFits
  refine ⟨?_, width_negate firstFits positive, lowBits_negate_negate firstFits, ?_⟩
  · rw [value_negate firstFits, Nat.sub_add_cancel firstSmall.le]
  · intro secondFits
    have secondSmall := value_lt_of_width_le secondFits
    refine ⟨?_, width_subtract positive firstFits secondFits⟩
    rw [value_subtract secondFits, Nat.add_assoc, Nat.sub_add_cancel secondSmall.le]

/-- The sum of seven and two carries out of three bits, and their difference borrows nothing. -/
theorem arithmetic_exact_carry :
    (ofNat 3 7).width ≤ 3 ∧ (ofNat 2 2).width ≤ 3 ∧
      ((ofNat 3 7).add (ofNat 2 2)).value = 9 ∧ ((ofNat 3 7).add (ofNat 2 2)).width = 4 ∧
      ((ofNat 3 7).negate 3).value + 7 = 8 ∧
      ((ofNat 3 7).subtract (ofNat 2 2) 3).value + 2 = 7 + 8 ∧
      3 < ((ofNat 3 7).subtract (ofNat 2 2) 3).width := by
  have firstFits : (ofNat 3 7).width ≤ 3 := by decide
  have secondFits : (ofNat 2 2).width ≤ 3 := by decide
  obtain ⟨sum, grown, within⟩ := arithmetic_exact (ofNat 3 7) (ofNat 2 2)
  obtain ⟨complement, _, _, difference⟩ := within 3 (by decide) firstFits
  exact ⟨firstFits, secondFits, sum, grown, complement, (difference secondFits).1,
    (difference secondFits).2.mpr (by decide)⟩

end Word

/-- The flags of a raw result that is known by its number. -/
theorem Flags.ofRaw_eq (raw : Word) (width : Nat) :
    Flags.ofRaw raw width =
      { carry := decide (width < raw.width)
        zero := decide (raw.value % 2 ^ width = 0)
        sign := decide (2 ^ width ≤ 2 * (raw.value % 2 ^ width)) } := by
  simp only [Flags.ofRaw, Word.isZero_eq, Word.msb_eq, Word.value_lowBits, Word.width_lowBits]

end WordMachine
