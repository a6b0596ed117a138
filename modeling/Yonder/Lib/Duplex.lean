import Mathlib.Logic.Relation

/-!
# Two parties and two queues

Two parties, each with a table of what it may send and receive, joined by two ordered lossless
queues. A message is refused when it is at the head of a queue and its receiver, which is not done,
does not accept it. `SafeFrom` says that delivering what is in flight refuses nothing; it is decided
by the two queues one by one (`safeFrom_iff`).

`run_safe_iff` is the rule for a condition on steps: given an invariant that the allowed steps keep
and that a step which is not allowed makes unsafe, a run is safe throughout exactly when all its
steps are allowed.
-/

namespace Yonder.Lib

/-- A party: what it may send and receive in a state, and when it is done. -/
structure Party (State Msg : Type) where
  send : State → Msg → Option State
  receive : State → Msg → Option State
  close : State → State
  done : State → Bool

/-- Delivering the queue to the party refuses nothing: it accepts each message or is done before. -/
def Party.Accepts {State Msg : Type} (P : Party State Msg) : State → List Msg → Prop
  | _, [] => True
  | s, m :: rest => P.done s = true ∨ ∃ s', P.receive s m = some s' ∧ P.Accepts s' rest

/-- The states of two parties and the messages in flight. -/
structure Duplex (Left Right Msg : Type) where
  left : Left
  right : Right
  toRight : List Msg
  toLeft : List Msg

namespace Duplex

variable {Left Right Msg : Type} (P : Party Left Msg) (Q : Party Right Msg)

inductive Action (Msg : Type) where
  | sendLeft (m : Msg)
  | sendRight (m : Msg)
  | deliverLeft
  | deliverRight
  | closeLeft
  | closeRight

/-- One step. A send that the party refuses is none, nor is a delivery from an empty queue; a
message that its receiver refuses is dropped. -/
def exec (σ : Duplex Left Right Msg) : Action Msg → Option (Duplex Left Right Msg)
  | .sendLeft m => (P.send σ.left m).map fun s => { σ with left := s, toRight := σ.toRight ++ [m] }
  | .sendRight m => (Q.send σ.right m).map fun s => { σ with right := s, toLeft := σ.toLeft ++ [m] }
  | .deliverLeft => match σ.toLeft with
      | [] => none
      | m :: rest => some { σ with left := (P.receive σ.left m).getD σ.left, toLeft := rest }
  | .deliverRight => match σ.toRight with
      | [] => none
      | m :: rest => some { σ with right := (Q.receive σ.right m).getD σ.right, toRight := rest }
  | .closeLeft => some { σ with left := P.close σ.left }
  | .closeRight => some { σ with right := Q.close σ.right }

/-- A message at the head of a queue that its receiver, which is not done, does not accept. -/
def Refused (σ : Duplex Left Right Msg) : Prop :=
  (∃ m rest, σ.toLeft = m :: rest ∧ P.done σ.left = false ∧ P.receive σ.left m = none) ∨
    ∃ m rest, σ.toRight = m :: rest ∧ Q.done σ.right = false ∧ Q.receive σ.right m = none

/-- One delivery. -/
def Delivers (σ τ : Duplex Left Right Msg) : Prop :=
  σ.exec P Q .deliverLeft = some τ ∨ σ.exec P Q .deliverRight = some τ

/-- No delivery of what is in flight is refused. -/
def SafeFrom (σ : Duplex Left Right Msg) : Prop :=
  ∀ τ, Relation.ReflTransGen (Delivers P Q) σ τ → ¬ Refused P Q τ

/-- What the queues are accepted by. -/
def Accepted (σ : Duplex Left Right Msg) : Prop :=
  P.Accepts σ.left σ.toLeft ∧ Q.Accepts σ.right σ.toRight

variable {P Q}

/-- A party that is done stays so when it receives. -/
def Party.Final (P : Party Left Msg) : Prop :=
  ∀ s m, P.done s = true → P.receive s m = none

theorem accepts_of_done {s : Left} (h : P.done s = true) (q : List Msg) : P.Accepts s q := by
  cases q with
  | nil => trivial
  | cons m rest => exact Or.inl h

theorem accepts_deliver (hP : Party.Final P) {s : Left} {m : Msg} {rest : List Msg}
    (h : P.Accepts s (m :: rest)) : P.Accepts ((P.receive s m).getD s) rest := by
  rcases h with hdone | ⟨s', hs', hrest⟩
  · rw [hP s m hdone]
    exact accepts_of_done hdone rest
  · rw [hs']
    exact hrest

theorem Accepted.not_refused {σ : Duplex Left Right Msg} (h : σ.Accepted P Q) :
    ¬ Refused P Q σ := by
  rintro (⟨m, rest, hq, hdone, hnone⟩ | ⟨m, rest, hq, hdone, hnone⟩)
  · have haccept := h.1
    rw [hq] at haccept
    rcases haccept with h | ⟨s', hs', -⟩ <;> simp_all
  · have haccept := h.2
    rw [hq] at haccept
    rcases haccept with h | ⟨s', hs', -⟩ <;> simp_all

theorem Accepted.delivers (hP : Party.Final P) (hQ : Party.Final Q) {σ τ : Duplex Left Right Msg}
    (h : σ.Accepted P Q) (hstep : Delivers P Q σ τ) : τ.Accepted P Q := by
  obtain ⟨left, right, toRight, toLeft⟩ := σ
  rcases hstep with hstep | hstep
  · cases toLeft with
    | nil => cases hstep
    | cons m rest =>
      cases hstep
      exact ⟨accepts_deliver hP h.1, h.2⟩
  · cases toRight with
    | nil => cases hstep
    | cons m rest =>
      cases hstep
      exact ⟨h.1, accepts_deliver hQ h.2⟩

theorem accepts_left_of_safeFrom (σ : Duplex Left Right Msg)
    (h : SafeFrom P Q σ) : P.Accepts σ.left σ.toLeft := by
  obtain ⟨left, right, toRight, toLeft⟩ := σ
  induction toLeft generalizing left with
  | nil => trivial
  | cons m rest ih =>
    cases hdone : P.done left with
    | true => exact Or.inl hdone
    | false =>
      cases hreceive : P.receive left m with
      | none => exact absurd (Or.inl ⟨m, rest, rfl, hdone, hreceive⟩) (h _ .refl)
      | some s' =>
        have hstep : Delivers P Q ⟨left, right, toRight, m :: rest⟩
            ⟨s', right, toRight, rest⟩ := by
          refine Or.inl ?_
          simp only [exec, hreceive, Option.getD_some]
        exact Or.inr ⟨s', hreceive, ih s' fun τ hτ => h τ (.head hstep hτ)⟩

theorem accepts_right_of_safeFrom (σ : Duplex Left Right Msg)
    (h : SafeFrom P Q σ) : Q.Accepts σ.right σ.toRight := by
  obtain ⟨left, right, toRight, toLeft⟩ := σ
  induction toRight generalizing right with
  | nil => trivial
  | cons m rest ih =>
    cases hdone : Q.done right with
    | true => exact Or.inl hdone
    | false =>
      cases hreceive : Q.receive right m with
      | none => exact absurd (Or.inr ⟨m, rest, rfl, hdone, hreceive⟩) (h _ .refl)
      | some s' =>
        have hstep : Delivers P Q ⟨left, right, m :: rest, toLeft⟩
            ⟨left, s', rest, toLeft⟩ := by
          refine Or.inr ?_
          simp only [exec, hreceive, Option.getD_some]
        exact Or.inr ⟨s', hreceive, ih s' fun τ hτ => h τ (.head hstep hτ)⟩

/-- Delivering refuses nothing exactly when both queues are accepted. -/
theorem safeFrom_iff (hP : Party.Final P) (hQ : Party.Final Q) (σ : Duplex Left Right Msg) :
    SafeFrom P Q σ ↔ σ.Accepted P Q := by
  constructor
  · exact fun h => ⟨accepts_left_of_safeFrom σ h, accepts_right_of_safeFrom σ h⟩
  · intro h τ hτ
    refine Accepted.not_refused ?_
    induction hτ with
    | refl => exact h
    | tail _ hstep ih => exact ih.delivers hP hQ hstep

/-! ## Runs -/

/-- The actions can be done one after the other. -/
def Runs (P : Party Left Msg) (Q : Party Right Msg) :
    Duplex Left Right Msg → List (Action Msg) → Prop
  | _, [] => True
  | σ, a :: rest => ∃ τ, σ.exec P Q a = some τ ∧ Runs P Q τ rest

/-- What is in flight is safe at the start and after every action. -/
def SafeRun (P : Party Left Msg) (Q : Party Right Msg) :
    Duplex Left Right Msg → List (Action Msg) → Prop
  | σ, [] => SafeFrom P Q σ
  | σ, a :: rest => SafeFrom P Q σ ∧ ∀ τ, σ.exec P Q a = some τ → SafeRun P Q τ rest

/-- Every action is allowed in the state before it. -/
def AllowedRun (P : Party Left Msg) (Q : Party Right Msg)
    (allowed : Duplex Left Right Msg → Action Msg → Prop) :
    Duplex Left Right Msg → List (Action Msg) → Prop
  | _, [] => True
  | σ, a :: rest => allowed σ a ∧ ∀ τ, σ.exec P Q a = some τ → AllowedRun P Q allowed τ rest

theorem SafeRun.safeFrom {σ : Duplex Left Right Msg} {actions : List (Action Msg)}
    (h : SafeRun P Q σ actions) : SafeFrom P Q σ := by
  cases actions with
  | nil => exact h
  | cons a rest => exact h.1

/-- A run is safe throughout exactly when all its actions are allowed. -/
theorem run_safe_iff {allowed : Duplex Left Right Msg → Action Msg → Prop}
    (Inv : Duplex Left Right Msg → Prop) (hsafe : ∀ σ, Inv σ → SafeFrom P Q σ)
    (hkeep : ∀ σ a τ, Inv σ → σ.exec P Q a = some τ → allowed σ a → Inv τ)
    (hbreak : ∀ σ a τ, Inv σ → σ.exec P Q a = some τ → ¬ allowed σ a → ¬ SafeFrom P Q τ)
    {σ : Duplex Left Right Msg} (hσ : Inv σ) (actions : List (Action Msg))
    (hruns : Runs P Q σ actions) :
    SafeRun P Q σ actions ↔ AllowedRun P Q allowed σ actions := by
  induction actions generalizing σ with
  | nil => exact ⟨fun _ => trivial, fun _ => hsafe σ hσ⟩
  | cons a rest ih =>
    obtain ⟨τ, hstep, hrest⟩ := hruns
    constructor
    · rintro ⟨-, hafter⟩
      by_cases hallowed : allowed σ a
      case pos =>
        refine ⟨hallowed, fun τ' hstep' => ?_⟩
        cases hstep.symm.trans hstep'
        exact (ih (hkeep σ a τ hσ hstep hallowed) hrest).1 (hafter τ hstep)
      case neg => exact absurd (hafter τ hstep).safeFrom (hbreak σ a τ hσ hstep hallowed)
    · rintro ⟨hallowed, hafter⟩
      refine ⟨hsafe σ hσ, fun τ' hstep' => ?_⟩
      cases hstep.symm.trans hstep'
      exact (ih (hkeep σ a τ hσ hstep hallowed) hrest).2 (hafter τ hstep)

end Duplex

end Yonder.Lib
