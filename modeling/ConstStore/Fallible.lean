/-
# Chains of fallible steps

A computation that can fail is an `Except`.  The lemmas here take the success of a chain of such
steps apart into the success of each of them, and are what proofs about readers start from.
-/

namespace ConstStore
namespace Fallible

variable {ε α β : Type}

/-! ## 1. Single steps -/

/-- A value that has to be there; otherwise it is this error. -/
def require (error : ε) : Option α → Except ε α
  | some a => .ok a
  | none => .error error

/-- A condition that has to hold; otherwise it is this error. -/
def guard (error : ε) (p : Prop) [Decidable p] : Except ε Unit :=
  if p then .ok () else .error error

@[simp] theorem require_eq_ok {e : ε} {o : Option α} {a : α} :
    require e o = .ok a ↔ o = some a := by
  cases o <;> simp [require]

@[simp] theorem guard_eq_ok {e : ε} {p : Prop} [Decidable p] {u : Unit} :
    guard e p = .ok u ↔ p := by
  simp [guard]

/-! ## 2. Chains -/

/-- **A chain succeeds when each step does.** -/
theorem bind_eq_ok {x : Except ε α} {f : α → Except ε β} {b : β} :
    (x >>= f) = .ok b ↔ ∃ a, x = .ok a ∧ f a = .ok b := by
  cases x with
  | error e => simp [bind, Except.bind]
  | ok a => simp [bind, Except.bind]

/-- A chain fails at its first step or behind it. -/
theorem bind_eq_error {x : Except ε α} {f : α → Except ε β} {e : ε} :
    (x >>= f) = .error e ↔ x = .error e ∨ ∃ a, x = .ok a ∧ f a = .error e := by
  cases x with
  | error e' => simp [bind, Except.bind]
  | ok a => simp [bind, Except.bind]

theorem map_eq_ok {x : Except ε α} {f : α → β} {b : β} :
    x.map f = .ok b ↔ ∃ a, x = .ok a ∧ f a = b := by
  cases x with
  | error e => simp [Except.map]
  | ok a => simp [Except.map]

theorem map_eq_error {x : Except ε α} {f : α → β} {e : ε} :
    x.map f = .error e ↔ x = .error e := by
  cases x with
  | error e' => simp [Except.map]
  | ok a => simp [Except.map]

/-- Results that are put behind one part and then behind another. -/
theorem map_append_append {front middle : List α} {x : Except ε (List α)} :
    (x.map (middle ++ ·)).map (front ++ ·) = x.map (front ++ middle ++ ·) := by
  cases x with
  | error e => rfl
  | ok rest => simp only [Except.map, List.append_assoc]

theorem pure_eq_ok {a b : α} : (pure a : Except ε α) = .ok b ↔ a = b := by
  simp [pure, Except.pure]

theorem throw_ne_ok {e : ε} {b : α} : (throw e : Except ε α) ≠ .ok b := by
  simp [throw, throwThe, MonadExceptOf.throw]

end Fallible
end ConstStore
