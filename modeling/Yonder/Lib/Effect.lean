import Mathlib.Data.List.Basic

/-!
# Computations that can fail and keep a log

A computation reads and changes a state and ends with a result or an error. `Emits` says what every
run of it adds to a log in that state, together with how it ends; its rules follow the ways in which
computations are put together.
-/

namespace Yonder.Lib

/-- A computation over a state that can fail; the state survives a failure. -/
def Effect (σ ε α : Type) : Type := σ → Except ε α × σ

variable {σ ε φ α β ι : Type}

instance : Monad (Effect σ ε) where
  pure a s := (.ok a, s)
  bind m f s := match m s with
    | (.ok a, t) => f a t
    | (.error e, t) => (.error e, t)

namespace Effect

/-- A result that needs no state. -/
def ofExcept (r : Except ε α) : Effect σ ε α := fun s => (r, s)

/-- The outcome of a computation as a value, so that its errors can be matched. -/
def result (m : Effect σ ε α) : Effect σ φ (Except ε α) := fun s => (.ok (m s).1, (m s).2)

def mapError (f : ε → φ) (m : Effect σ ε α) : Effect σ φ α := fun s => ((m s).1.mapError f, (m s).2)

end Effect

/-- Every run of `m` appends to the log a list that satisfies `post` together with the outcome. -/
def Emits (log : σ → List ι) (m : Effect σ ε α) (post : Except ε α → List ι → Prop) : Prop :=
  ∀ s, ∃ l, log (m s).2 = log s ++ l ∧ post (m s).1 l

namespace Emits

variable {log : σ → List ι} {m : Effect σ ε α} {P : Except ε α → List ι → Prop}

theorem ofExcept {r : Except ε α} (h : P r []) : Emits log (Effect.ofExcept r) P :=
  fun _ => ⟨[], (List.append_nil _).symm, h⟩

theorem pure {a : α} (h : P (.ok a) []) : Emits log (Pure.pure a) P :=
  fun _ => ⟨[], (List.append_nil _).symm, h⟩

/-- The second computation runs after a success of the first and adds to what that one added. -/
theorem bind {f : α → Effect σ ε β} {Q : α → Except ε β → List ι → Prop}
    {T : Except ε β → List ι → Prop} (hm : Emits log m P) (hf : ∀ a, Emits log (f a) (Q a))
    (herror : ∀ e l, P (.error e) l → T (.error e) l)
    (hok : ∀ a l r l', P (.ok a) l → Q a r l' → T r (l ++ l')) : Emits log (m >>= f) T := by
  intro s
  obtain ⟨l, hlog, hl⟩ := hm s
  rcases hrun : m s with ⟨e | a, t⟩
  all_goals rw [hrun] at hlog hl
  · have heq : (m >>= f) s = (.error e, t) := by
      show (match m s with | (.ok a, t) => f a t | (.error e, t) => (.error e, t)) = _
      rw [hrun]
    rw [heq]
    exact ⟨l, hlog, herror e l hl⟩
  · have heq : (m >>= f) s = f a t := by
      show (match m s with | (.ok a, t) => f a t | (.error e, t) => (.error e, t)) = _
      rw [hrun]
    obtain ⟨l', hlog', hl'⟩ := hf a t
    rw [heq]
    exact ⟨l ++ l', by rw [hlog', hlog, List.append_assoc], hok a l _ l' hl hl'⟩

theorem result (hm : Emits log m P) :
    Emits log (m.result (φ := φ)) fun r l => ∃ r', r = .ok r' ∧ P r' l := by
  intro s
  obtain ⟨l, hlog, hl⟩ := hm s
  exact ⟨l, hlog, _, rfl, hl⟩

/-- A computation whose errors are translated, followed by another. -/
theorem mapError_bind {f : ε → φ} {g : α → Effect σ φ β} {Q : α → Except φ β → List ι → Prop}
    {T : Except φ β → List ι → Prop} (hm : Emits log m P) (hg : ∀ a, Emits log (g a) (Q a))
    (herror : ∀ e l, P (.error e) l → T (.error (f e)) l)
    (hok : ∀ a l r l', P (.ok a) l → Q a r l' → T r (l ++ l')) :
    Emits log (m.mapError f >>= g) T := by
  have hmapped : Emits log (m.mapError f) fun r l => ∃ r', r = r'.mapError f ∧ P r' l := by
    intro s
    obtain ⟨l, hlog, hl⟩ := hm s
    exact ⟨l, hlog, _, rfl, hl⟩
  refine hmapped.bind hg ?_ ?_
  · rintro e l ⟨_ | _, hr, hl⟩ <;> cases hr
    exact herror _ l hl
  · rintro a l r l' ⟨_ | _, hr, hl⟩ hq <;> cases hr
    exact hok a l r l' hl hq

end Emits

end Yonder.Lib
