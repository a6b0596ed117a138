import Mathlib.Tactic.Common

/-!
# What a log leaves

Every entry of a log may add a key and may remove one. A key is live when an entry added it and no
later entry removed it. `EachAfter` says something of every entry and the log before it.
-/

namespace Yonder.Lib

universe u v

variable {E : Type u} {K : Type v} (adds removes : E → Option K)

/-- The log added the key and did not remove it since. -/
def Live (log : List E) (k : K) : Prop :=
  ∃ front e back, log = front ++ e :: back ∧ adds e = some k ∧ ∀ e' ∈ back, removes e' ≠ some k

variable {adds removes} {log : List E} {e : E} {k : K}

theorem not_live_nil : ¬ Live adds removes [] k := by
  rintro ⟨front, e, back, hlog, -, -⟩
  exact absurd hlog.symm (List.append_ne_nil_of_right_ne_nil _ (List.cons_ne_nil _ _))

/-- The live keys after one more entry. -/
theorem live_snoc : Live adds removes (log ++ [e]) k ↔
    adds e = some k ∨ Live adds removes log k ∧ removes e ≠ some k := by
  constructor
  · rintro ⟨front, e₀, back, hlog, hadds, hback⟩
    rcases List.eq_nil_or_concat back with rfl | ⟨back', e₁, rfl⟩
    · obtain ⟨-, heq⟩ := List.append_inj' hlog rfl
      cases heq
      exact .inl hadds
    · rw [List.concat_eq_append] at hlog hback
      rw [← List.cons_append, ← List.append_assoc] at hlog
      obtain ⟨hfront, heq⟩ := List.append_inj' hlog rfl
      cases heq
      rw [List.forall_mem_append, List.forall_mem_singleton] at hback
      exact .inr ⟨⟨front, e₀, back', hfront, hadds, hback.1⟩, hback.2⟩
  · rintro (hadds | ⟨⟨front, e₀, back, rfl, hadds, hback⟩, hremoves⟩)
    · exact ⟨log, e, [], rfl, hadds, fun _ h => absurd h List.not_mem_nil⟩
    · refine ⟨front, e₀, back ++ [e], by simp, hadds, ?_⟩
      rw [List.forall_mem_append, List.forall_mem_singleton]
      exact ⟨hback, hremoves⟩

/-- An entry that neither adds nor removes leaves what was live. -/
theorem live_snoc_of_none (hadds : adds e = none) (hremoves : removes e = none) :
    Live adds removes (log ++ [e]) k ↔ Live adds removes log k := by
  rw [live_snoc, hadds, hremoves]
  simp

/-- Every entry of the log has a property, given the log before it. -/
def EachAfter (P : List E → E → Prop) (log : List E) : Prop :=
  ∀ front e back, log = front ++ e :: back → P front e

theorem eachAfter_nil {P : List E → E → Prop} : EachAfter P [] := by
  intro front e back hlog
  exact absurd hlog.symm (List.append_ne_nil_of_right_ne_nil _ (List.cons_ne_nil _ _))

theorem EachAfter.snoc {P : List E → E → Prop} (h : EachAfter P log) (he : P log e) :
    EachAfter P (log ++ [e]) := by
  intro front e₀ back hlog
  rcases List.eq_nil_or_concat back with rfl | ⟨back', e₁, rfl⟩
  · obtain ⟨rfl, heq⟩ := List.append_inj' hlog rfl
    cases heq
    exact he
  · rw [List.concat_eq_append, ← List.cons_append, ← List.append_assoc] at hlog
    obtain ⟨hfront, -⟩ := List.append_inj' hlog rfl
    exact h front e₀ back' hfront

end Yonder.Lib
