/-!
# Outcomes of checked steps

The readers and checks of the library are steps in `Except`: a run of them
gives a value or the first error met. These are the facts every proof about
such a run takes apart: a bound run succeeds exactly when its first step does
and the rest succeeds on that value, and fails with the first step's error or
with the rest's.
-/

namespace Exchange

theorem bind_eq_ok_iff {ε α β : Type} {x : Except ε α} {f : α → Except ε β} {b : β} :
    x >>= f = .ok b ↔ ∃ a, x = .ok a ∧ f a = .ok b := by
  cases x <;> simp [bind, Except.bind]

theorem bind_eq_error_iff {ε α β : Type} {x : Except ε α} {f : α → Except ε β} {e : ε} :
    x >>= f = .error e ↔ x = .error e ∨ ∃ a, x = .ok a ∧ f a = .error e := by
  cases x <;> simp [bind, Except.bind]

@[simp] theorem pure_eq_ok_iff {ε α : Type} {a b : α} : (pure a : Except ε α) = .ok b ↔ a = b :=
  Except.ok.injEq a b ▸ Iff.rfl

@[simp] theorem pure_ne_error {ε α : Type} {a : α} {e : ε} : (pure a : Except ε α) ≠ .error e :=
  fun h => by cases h

@[simp] theorem throw_eq_error_iff {ε α : Type} {e e' : ε} : (throw e : Except ε α) = .error e' ↔ e = e' :=
  Except.error.injEq e e' ▸ Iff.rfl

@[simp] theorem throw_ne_ok {ε α : Type} {e : ε} {a : α} : (throw e : Except ε α) ≠ .ok a :=
  fun h => by cases h

end Exchange
