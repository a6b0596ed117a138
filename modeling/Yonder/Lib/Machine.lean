import Mathlib.Data.Option.Basic

/-!
# Runs of a machine

A machine has a step function that refuses some actions. `run_invariant` is the rule for what every
run keeps. `throughout_iff_allowed` is the rule for a condition on steps: given an invariant under
which a property holds, that the allowed steps keep, and such that a step which is not allowed loses
the property, the property holds throughout a run exactly when all its steps are allowed.
-/

namespace Yonder.Lib.Machine

variable {State Action : Type} (step : State → Action → Option State)

/-- The state after a list of actions. -/
def run : State → List Action → Option State
  | σ, [] => some σ
  | σ, a :: actions => (step σ a).bind fun τ => run τ actions

/-- What the actions of a run put out, each in the state before it. -/
def outputs {Output : Type} (out : State → Action → List Output) : State → List Action → List Output
  | _, [] => []
  | σ, a :: actions => match step σ a with
      | none => []
      | some τ => out σ a ++ outputs out τ actions

/-- The property holds at the start and after every action. -/
def Throughout (P : State → Prop) : State → List Action → Prop
  | σ, [] => P σ
  | σ, a :: actions => P σ ∧ ∀ τ, step σ a = some τ → Throughout P τ actions

/-- Every action is allowed in the state before it. -/
def Allowed (allowed : State → Action → Prop) : State → List Action → Prop
  | _, [] => True
  | σ, a :: actions => allowed σ a ∧ ∀ τ, step σ a = some τ → Allowed allowed τ actions

instance Allowed.decidable {allowed : State → Action → Prop} [∀ σ a, Decidable (allowed σ a)] :
    (actions : List Action) → (σ : State) → Decidable (Allowed step allowed σ actions)
  | [], _ => .isTrue trivial
  | a :: actions, σ =>
    match hstep : step σ a with
    | none =>
      decidable_of_iff (allowed σ a)
        ⟨fun h => ⟨h, fun τ hτ => by rw [hstep] at hτ; cases hτ⟩, fun h => h.1⟩
    | some τ =>
      have : Decidable (Allowed step allowed τ actions) := Allowed.decidable actions τ
      decidable_of_iff (allowed σ a ∧ Allowed step allowed τ actions)
        ⟨fun h => ⟨h.1, fun τ' hτ' => by rw [hstep] at hτ'; cases hτ'; exact h.2⟩,
          fun h => ⟨h.1, h.2 τ hstep⟩⟩

variable {step}

theorem run_cons {σ τ : State} {a : Action} {actions : List Action} :
    run step σ (a :: actions) = some τ ↔
      ∃ next, step σ a = some next ∧ run step next actions = some τ :=
  Option.bind_eq_some_iff

theorem run_append {σ τ : State} {first second : List Action} :
    run step σ (first ++ second) = some τ ↔
      ∃ next, run step σ first = some next ∧ run step next second = some τ := by
  induction first generalizing σ with
  | nil => simp [run]
  | cons a first ih =>
    simp only [List.cons_append, run_cons, ih]
    constructor
    · rintro ⟨mid, hstep, next, hfirst, hsecond⟩
      exact ⟨next, ⟨mid, hstep, hfirst⟩, hsecond⟩
    · rintro ⟨next, ⟨mid, hstep, hfirst⟩, hsecond⟩
      exact ⟨mid, hstep, next, hfirst, hsecond⟩

theorem outputs_cons {Output : Type} {out : State → Action → List Output} {σ next : State}
    {a : Action} (h : step σ a = some next) (actions : List Action) :
    outputs step out σ (a :: actions) = out σ a ++ outputs step out next actions := by
  rw [outputs, h]

theorem outputs_append {Output : Type} {out : State → Action → List Output} {σ next : State}
    {first : List Action} (h : run step σ first = some next) (second : List Action) :
    outputs step out σ (first ++ second) = outputs step out σ first ++ outputs step out next second := by
  induction first generalizing σ with
  | nil =>
    cases h
    rfl
  | cons a first ih =>
    obtain ⟨mid, hmid, hfirst⟩ := run_cons.1 h
    rw [List.cons_append, outputs_cons hmid, outputs_cons hmid, ih hfirst, List.append_assoc]

/-- What every step keeps, every run keeps. -/
theorem run_invariant {Inv : State → Prop}
    (hstep : ∀ σ a τ, Inv σ → step σ a = some τ → Inv τ) {σ τ : State} (hσ : Inv σ)
    {actions : List Action} (hrun : run step σ actions = some τ) : Inv τ := by
  induction actions generalizing σ with
  | nil =>
    cases hrun
    exact hσ
  | cons a actions ih =>
    obtain ⟨next, hnext, hrest⟩ := run_cons.1 hrun
    exact ih (hstep σ a next hσ hnext) hrest

theorem Throughout.head {P : State → Prop} {σ : State} {actions : List Action}
    (h : Throughout step P σ actions) : P σ := by
  cases actions with
  | nil => exact h
  | cons a actions => exact h.1

/-- The property holds throughout a run exactly when all its actions are allowed. -/
theorem throughout_iff_allowed {P : State → Prop} {allowed : State → Action → Prop}
    (Inv : State → Prop) (hgood : ∀ σ, Inv σ → P σ)
    (hkeep : ∀ σ a τ, Inv σ → step σ a = some τ → allowed σ a → Inv τ)
    (hbreak : ∀ σ a τ, Inv σ → step σ a = some τ → ¬ allowed σ a → ¬ P τ)
    {σ τ : State} (hσ : Inv σ) {actions : List Action} (hrun : run step σ actions = some τ) :
    Throughout step P σ actions ↔ Allowed step allowed σ actions := by
  induction actions generalizing σ with
  | nil => exact ⟨fun _ => trivial, fun _ => hgood σ hσ⟩
  | cons a actions ih =>
    obtain ⟨next, hnext, hrest⟩ := run_cons.1 hrun
    constructor
    · rintro ⟨-, hafter⟩
      by_cases hallowed : allowed σ a
      case pos =>
        refine ⟨hallowed, fun next' hnext' => ?_⟩
        cases hnext.symm.trans hnext'
        exact (ih (hkeep σ a next hσ hnext hallowed) hrest).1 (hafter next hnext)
      case neg => exact absurd (hafter next hnext).head (hbreak σ a next hσ hnext hallowed)
    · rintro ⟨hallowed, hafter⟩
      refine ⟨hgood σ hσ, fun next' hnext' => ?_⟩
      cases hnext.symm.trans hnext'
      exact (ih (hkeep σ a next hσ hnext hallowed) hrest).2 (hafter next hnext)

end Yonder.Lib.Machine
