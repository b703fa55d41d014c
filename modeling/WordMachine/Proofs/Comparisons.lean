import WordMachine.Proofs.Arithmetic
import WordMachine.Word.Order

namespace WordMachine

namespace Word

/-- Among bits of one length the first differing bit decides, since it weighs more than all bits
behind it. -/
theorem compareBits_eq {first second : List Bool} (sameLength : first.length = second.length) :
    compareBits first second = compare (value ⟨first⟩) (value ⟨second⟩) := by
  induction first generalizing second with
  | nil =>
      obtain rfl : second = [] := List.length_eq_zero_iff.mp sameLength.symm
      rfl
  | cons bit rest ih =>
      cases second with
      | nil => simp at sameLength
      | cons other others =>
          simp only [List.length_cons, Nat.add_right_cancel_iff] at sameLength
          have low := value_lt ⟨rest⟩
          have otherLow := value_lt ⟨others⟩
          simp only [width, sameLength] at low otherLow
          have raised : compare (2 ^ others.length + value ⟨rest⟩)
              (2 ^ others.length + value ⟨others⟩) = compare (value ⟨rest⟩) (value ⟨others⟩) := by
            rw [← cmp_eq_compare, cmp_add_left, cmp_eq_compare]
          rw [compareBits, ih sameLength, value_cons, value_cons, sameLength]
          cases bit <;> cases other <;>
            simp only [Bool.toNat_false, Bool.toNat_true, Nat.zero_mul, Nat.one_mul, Nat.zero_add]
          · rfl
          · exact (Nat.compare_eq_lt.mpr (by omega)).symm
          · exact (Nat.compare_eq_gt.mpr (by omega)).symm
          · exact raised.symm

/-- Words are ordered as their numbers. -/
theorem order_eq (first second : Word) :
    first.order second = compare first.value second.value := by
  have sameLength : (first.padded (max first.width second.width)).bits.length =
      (second.padded (max first.width second.width)).bits.length := by
    have left := width_padded first (max first.width second.width)
    have right := width_padded second (max first.width second.width)
    simp only [width] at left right ⊢
    omega
  rw [order, compareBits_eq sameLength]
  exact congrArg₂ compare (value_padded first _) (value_padded second _)

end Word

/-- The ways to compare two words. -/
inductive Comparison where
  | less
  | lessOrEqual
  | greaterOrEqual
  | greater
  | equal
deriving DecidableEq

namespace Comparison

def onWords : Comparison → Word → Word → Bool
  | .less => Word.lessThan
  | .lessOrEqual => Word.lessOrEqual
  | .greaterOrEqual => Word.greaterOrEqual
  | .greater => Word.greaterThan
  | .equal => Word.equalValue

def onNumbers : Comparison → Nat → Nat → Bool
  | .less, first, second => decide (first < second)
  | .lessOrEqual, first, second => decide (first ≤ second)
  | .greaterOrEqual, first, second => decide (second ≤ first)
  | .greater, first, second => decide (second < first)
  | .equal, first, second => decide (first = second)

/-- Words are compared by their numbers. -/
theorem onWords_eq (comparison : Comparison) (first second : Word) :
    comparison.onWords first second = comparison.onNumbers first.value second.value := by
  have less : first.lessThan second = decide (first.value < second.value) := by
    rw [Word.lessThan, Word.order_eq, Bool.eq_iff_iff, Ordering.isLT_iff_eq_lt, Nat.compare_eq_lt,
      decide_eq_true_iff]
  have lessOrEqual : first.lessOrEqual second = decide (first.value ≤ second.value) := by
    rw [Word.lessOrEqual, Word.order_eq, Bool.eq_iff_iff, Nat.isLE_compare, decide_eq_true_iff]
  cases comparison with
  | less => exact less
  | lessOrEqual => exact lessOrEqual
  | greaterOrEqual =>
      rw [onWords, Word.greaterOrEqual, less, onNumbers, ← decide_not]
      exact decide_eq_decide.mpr Nat.not_lt
  | greater =>
      rw [onWords, Word.greaterThan, lessOrEqual, onNumbers, ← decide_not]
      exact decide_eq_decide.mpr Nat.not_le
  | equal =>
      rw [onWords, Word.equalValue, Word.order_eq, onNumbers, Bool.eq_iff_iff,
        Ordering.isEq_iff_eq_eq, Nat.compare_eq_eq, decide_eq_true_iff]

/-- Every comparison of numbers is transitive. -/
theorem onNumbers_trans {comparison : Comparison} {first second third : Nat}
    (before : comparison.onNumbers first second = true)
    (after : comparison.onNumbers second third = true) :
    comparison.onNumbers first third = true := by
  cases comparison <;> simp only [onNumbers, decide_eq_true_iff] at before after ⊢ <;> omega

/-- The comparisons of words are those of their numbers, whatever the widths. -/
theorem comparisons_exact (first second : Word) :
    (∀ comparison : Comparison,
      comparison.onWords first second = comparison.onNumbers first.value second.value ∧
      (∀ width other, comparison.onWords (first.padded width) (second.padded other) =
        comparison.onWords first second) ∧
      ∀ third, comparison.onWords first second = true → comparison.onWords second third = true →
        comparison.onWords first third = true) ∧
    ((first.lessThan second).toNat + (first.equalValue second).toNat +
      (first.greaterThan second).toNat = 1) ∧
    first.greaterOrEqual second = second.lessOrEqual first ∧
    first.greaterThan second = second.lessThan first := by
  refine ⟨fun comparison => ⟨onWords_eq comparison first second, ?_, ?_⟩, ?_, ?_, ?_⟩
  · intro width other
    rw [onWords_eq, onWords_eq, Word.value_padded, Word.value_padded]
  · intro third
    rw [onWords_eq, onWords_eq, onWords_eq]
    exact onNumbers_trans
  · have less := onWords_eq .less first second
    have equal := onWords_eq .equal first second
    have greater := onWords_eq .greater first second
    simp only [onWords, onNumbers] at less equal greater
    rw [less, equal, greater]
    rcases Nat.lt_trichotomy first.value second.value with smaller | same | larger
    · simp [smaller, smaller.ne, smaller.asymm]
    · simp [same]
    · simp [larger, larger.ne', larger.asymm]
  · exact (onWords_eq .greaterOrEqual first second).trans
      (onWords_eq .lessOrEqual second first).symm
  · exact (onWords_eq .greater first second).trans (onWords_eq .less second first).symm

/-- A short word, a word with a leading zero and a word beyond every register are in this order. -/
theorem comparisons_exact_mixed_widths :
    Comparison.less.onWords Word.one ⟨[false, true, false]⟩ = true ∧
      Comparison.less.onWords ⟨[false, true, false]⟩ ⟨true :: List.replicate 70 false⟩ = true ∧
      Comparison.less.onWords Word.one ⟨true :: List.replicate 70 false⟩ = true := by
  have before : Comparison.less.onWords Word.one ⟨[false, true, false]⟩ = true := by decide
  have after : Comparison.less.onWords ⟨[false, true, false]⟩
      ⟨true :: List.replicate 70 false⟩ = true := by decide +kernel
  obtain ⟨each, _⟩ := comparisons_exact Word.one ⟨[false, true, false]⟩
  exact ⟨before, after, (each .less).2.2 _ before after⟩

end Comparison

end WordMachine
