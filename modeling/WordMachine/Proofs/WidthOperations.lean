import WordMachine.Proofs.Signed

namespace WordMachine.Word

/-- The operations on the width of a word are arithmetic modulo powers of two. -/
theorem width_operations_exact (word : Word) (width : Nat) :
    ((word.lowBits width).width = width ∧ (word.lowBits width).value = word.value % 2 ^ width) ∧
    ((word.padded width).width = max width word.width ∧
      (word.padded width).value = word.value) ∧
    (word.exceeds width = true ↔ 2 ^ width ≤ word.value) ∧
    (word.unsigned = word.value % 2 ^ 64 ∧ word.shiftedIn.toNat = word.unsigned) ∧
    (∀ number, (ofNat width number).width = width ∧
      (ofNat width number).value = number % 2 ^ width) ∧
    (∀ register, ofRegister width register = ofNat width register.toNat) ∧
    (word.width ≤ 64 → ofNat word.width word.unsigned = word) := by
  refine ⟨⟨width_lowBits word width, value_lowBits word width⟩,
    ⟨width_padded word width, value_padded word width⟩, ?_, ⟨?_, toNat_shiftedIn word⟩,
    fun number => ⟨width_ofNat width number, value_ofNat width number⟩, ofRegister_eq width, ?_⟩
  · rw [exceeds_eq, decide_eq_true_iff]
  · rw [unsigned, valueCount_eq]
  · intro narrow
    rw [unsigned_eq narrow, ofNat_value]

/-- A word that fills the register holds its largest number, in a wider word too, and is written
back from it. -/
theorem width_operations_exact_full_register :
    (⟨List.replicate 64 true⟩ : Word).width ≤ 64 ∧
      ((⟨List.replicate 64 true⟩ : Word).padded 70).width = 70 ∧
      ¬ (⟨List.replicate 64 true⟩ : Word).exceeds 64 = true ∧
      (⟨List.replicate 64 true⟩ : Word).shiftedIn.toNat = 2 ^ 64 - 1 ∧
      ofNat 64 (⟨List.replicate 64 true⟩ : Word).unsigned = ⟨List.replicate 64 true⟩ := by
  have narrow : (⟨List.replicate 64 true⟩ : Word).width ≤ 64 := by decide
  obtain ⟨_, ⟨padding, _⟩, _, ⟨_, register⟩, _, _, restored⟩ :=
    width_operations_exact ⟨List.replicate 64 true⟩ 70
  exact ⟨narrow, padding, by decide, register.trans rfl, restored narrow⟩

end WordMachine.Word
