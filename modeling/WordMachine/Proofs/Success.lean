/-
A composed computation succeeds exactly when each of its parts does.
-/

import Mathlib.Logic.Basic

namespace WordMachine

variable {E A B : Type} {first : Except E A}

/-- A value succeeds as itself. -/
theorem pure_eq_ok_iff {value result : A} :
    (pure value : Except E A) = .ok result ↔ value = result := by
  simp [pure, Except.pure]

/-- A composed computation succeeds when its first part does and then the rest. -/
theorem bind_eq_ok_iff {rest : A → Except E B} {result : B} :
    (first >>= rest) = .ok result ↔ ∃ value, first = .ok value ∧ rest value = .ok result := by
  cases first with
  | error cause => simp [bind, Except.bind]
  | ok value => simp [bind, Except.bind]

/-- A mapped computation succeeds when the computation does. -/
theorem map_eq_ok_iff {change : A → B} {result : B} :
    (change <$> first) = .ok result ↔ ∃ value, first = .ok value ∧ change value = result := by
  cases first with
  | error cause => simp [Functor.map, Except.map]
  | ok value => simp [Functor.map, Except.map]

end WordMachine
