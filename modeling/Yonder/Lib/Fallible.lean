import Mathlib.Data.List.Basic

/-!
# Fallible steps in sequence

A sequence of steps that may fail succeeds when every step does: `bind_eq_ok_iff` takes such a success
apart, one step at a time, and `map_eq_ok_iff` does so where the last step cannot fail.
-/

namespace Yonder.Lib

universe u

variable {ε α β : Type u}

/-- A sequence of two steps succeeds when the first does and the second does on its value. -/
theorem bind_eq_ok_iff {x : Except ε α} {f : α → Except ε β} {b : β} :
    (x >>= f) = .ok b ↔ ∃ a, x = .ok a ∧ f a = .ok b := by
  cases x <;> simp [bind, Except.bind]

/-- A value that can be missing, as a step. -/
def okOr (e : ε) : Option α → Except ε α
  | some a => .ok a
  | none => .error e

@[simp] theorem okOr_eq_ok_iff {e : ε} {o : Option α} {a : α} : okOr e o = .ok a ↔ o = some a := by
  cases o <;> simp [okOr]

/-- A constructor that checks its argument first, at a value that passes the check. -/
theorem checked_eq_some_iff {p q : Prop} [Decidable p] {mk : p → α} {a : α}
    (hmk : ∀ h, mk h = a ↔ q) (hq : q → p) : (if h : p then some (mk h) else none) = some a ↔ q := by
  split_ifs with h
  · rw [Option.some_inj, hmk]
  · exact iff_of_false id fun hq' => h (hq hq')

/-- The value of a step under a function. -/
theorem map_eq_ok_iff {x : Except ε α} {f : α → β} {b : β} :
    x.map f = .ok b ↔ ∃ a, x = .ok a ∧ f a = b := by
  cases x <;> simp [Except.map]

end Yonder.Lib
