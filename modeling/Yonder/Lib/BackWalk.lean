import Mathlib.Tactic.SplitIfs

/-!
# Walking a numbered chain backwards

A chain of links numbered from 1 has a value at each number; the link at `t + 1` gives the value at
`t`. `walkBack` looks the links up one after the other from a number down to `goal`, for a bounded
number of steps, and `Linked` is the chain it looks for, read upwards.
-/

namespace Yonder.Lib

variable {ρ : Type}

/-- The value at `goal`, if every link down to it is found within `steps` steps. -/
def walkBack (find : Nat → ρ → Option ρ) (goal : Nat) : Nat → Nat → ρ → Option ρ
  | 0, t, value => if goal < t then none else some value
  | steps + 1, t, value =>
    if goal < t then
      match find t value with
      | none => none
      | some previous => walkBack find goal steps (t - 1) previous
    else some value

/-- The links from the value at `goal` up to a value at a number. -/
inductive Linked (link : Nat → ρ → ρ → Prop) (goal : Nat) (start : ρ) : Nat → ρ → Prop
  | refl : Linked link goal start goal start
  | step {t : Nat} {previous value : ρ} :
      Linked link goal start t previous → link (t + 1) value previous →
      Linked link goal start (t + 1) value

namespace Linked

variable {link : Nat → ρ → ρ → Prop} {goal t : Nat} {start value : ρ}

theorem le (h : Linked link goal start t value) : goal ≤ t := by
  induction h with
  | refl => exact Nat.le_refl _
  | step _ _ ih => exact Nat.le_succ_of_le ih

/-- At its own number a chain is empty. -/
theorem eq_of_goal (h : Linked link goal start goal value) : start = value := by
  generalize hn : goal = n at h
  cases h with
  | refl => rfl
  | step hlinked _ =>
    have hle := hlinked.le
    omega

/-- The last link of a chain that is not empty. -/
theorem last (h : Linked link goal start (t + 1) value) (hlt : goal < t + 1) :
    ∃ previous, Linked link goal start t previous ∧ link (t + 1) value previous := by
  cases h with
  | refl => omega
  | step hlinked hlink => exact ⟨_, hlinked, hlink⟩

/-- There is a link at every number of the chain. -/
theorem exists_link (h : Linked link goal start t value) {n : Nat} (hlt : goal < n) (hle : n ≤ t) :
    ∃ value previous, link n value previous := by
  induction h with
  | refl => omega
  | @step t previous value hlinked hlink ih =>
    rcases Nat.lt_or_ge t n with hn | hn
    · cases Nat.le_antisymm hle hn
      exact ⟨value, previous, hlink⟩
    · exact ih hn

/-- A condition on the number alone can be asked apart from the links. -/
theorem and_iff {P : Nat → Prop} :
    Linked (fun n value previous => link n value previous ∧ P n) goal start t value ↔
      Linked link goal start t value ∧ ∀ n, goal < n → n ≤ t → P n := by
  constructor
  · intro h
    induction h with
    | refl => exact ⟨.refl, fun n h h' => by omega⟩
    | @step t _ _ _ hlink ih =>
      refine ⟨.step ih.1 hlink.1, ?_⟩
      intro n hlt hle
      rcases Nat.lt_or_ge t n with h | h
      · cases Nat.le_antisymm hle h
        exact hlink.2
      · exact ih.2 n hlt h
  · intro ⟨h, hall⟩
    induction h with
    | refl => exact .refl
    | @step t _ _ hlinked hlink ih =>
      have hle := hlinked.le
      exact .step (ih fun n hlt hn => hall n hlt (by omega)) ⟨hlink, hall _ (by omega) (by omega)⟩

/-- Chains over links that agree at the numbers in question. -/
theorem congr {link' : Nat → ρ → ρ → Prop}
    (hlink : ∀ n, goal < n → n ≤ t → ∀ value previous, link n value previous ↔ link' n value previous) :
    Linked link goal start t value ↔ Linked link' goal start t value := by
  have key : ∀ {link link' : Nat → ρ → ρ → Prop} {t : Nat} {value : ρ},
      (∀ n, goal < n → n ≤ t → ∀ value previous, link n value previous → link' n value previous) →
      Linked link goal start t value → Linked link' goal start t value := by
    intro link link' t value hsub h
    induction h with
    | refl => exact .refl
    | @step t _ _ hlinked hstep ih =>
      have hle := hlinked.le
      exact .step (ih fun n hlt hn => hsub n hlt (by omega))
        (hsub _ (by omega) (Nat.le_refl _) _ _ hstep)
  exact ⟨key fun n h h' v p => (hlink n h h' v p).1, key fun n h h' v p => (hlink n h h' v p).2⟩

end Linked

/-- The walk finds exactly the chain of its links, if that is not longer than its steps. -/
theorem walkBack_eq_some {find : Nat → ρ → Option ρ} {goal : Nat} (steps : Nat) {t : Nat}
    {value start : ρ} (hle : goal ≤ t) : walkBack find goal steps t value = some start ↔
      t - goal ≤ steps ∧
        Linked (fun n value previous => find n value = some previous) goal start t value := by
  induction steps generalizing t value with
  | zero =>
    unfold walkBack
    split_ifs with hlt
    · exact ⟨nofun, fun ⟨h, _⟩ => by omega⟩
    · cases (by omega : t = goal)
      exact ⟨fun h => Option.some.inj h ▸ ⟨by omega, .refl⟩,
        fun ⟨_, h⟩ => congrArg some h.eq_of_goal.symm⟩
  | succ steps ih =>
    unfold walkBack
    split_ifs with hlt
    · obtain ⟨t, rfl⟩ : ∃ n, t = n + 1 := ⟨t - 1, by omega⟩
      cases hfind : find (t + 1) value with
      | none =>
        refine ⟨nofun, fun ⟨_, h⟩ => ?_⟩
        obtain ⟨previous, _, hlink⟩ := h.last hlt
        rw [hfind] at hlink
        cases hlink
      | some previous =>
        show walkBack find goal steps (t + 1 - 1) previous = some start ↔ _
        rw [Nat.add_sub_cancel, ih (by omega)]
        constructor
        · exact fun ⟨hsteps, h⟩ => ⟨by omega, .step h hfind⟩
        · intro ⟨hsteps, h⟩
          obtain ⟨previous', hlinked, hlink⟩ := h.last hlt
          cases hfind.symm.trans hlink
          exact ⟨by omega, hlinked⟩
    · cases (by omega : t = goal)
      exact ⟨fun h => Option.some.inj h ▸ ⟨by omega, .refl⟩,
        fun ⟨_, h⟩ => congrArg some h.eq_of_goal.symm⟩

end Yonder.Lib
