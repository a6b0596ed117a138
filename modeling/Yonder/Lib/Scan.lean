import Mathlib.Data.List.Basic

/-!
# Scanners

A scanner delivers items one at a time until it stops with a result. `scan` collects the items and the
result of at most `fuel` calls. `scan_of_decreasing` says that a scanner whose items use up a measure
stops, `scan_sim` that two scanners which agree on every call agree on the whole scan, and
`scan_induction` is the rule for what the items and the result have in common.
-/

namespace Yonder.Lib.Scan

/-- What one call of a scanner returns. -/
inductive Next (State Item Result : Type) where
  | item (a : Item) (s : State)
  | stop (r : Result)

variable {State Item Result State' Result' : Type}

/-- The items of at most `fuel` calls, and the result if the scanner stopped. -/
def scan (next : State → Next State Item Result) : Nat → State → List Item × Option Result
  | 0, _ => ([], none)
  | fuel + 1, s =>
    match next s with
    | .stop r => ([], some r)
    | .item a s' => (a :: (scan next fuel s').1, (scan next fuel s').2)

variable {next : State → Next State Item Result} {next' : State' → Next State' Item Result'}

variable {fuel : Nat} {s : State} {r : Result} {items : List Item}

theorem scan_stop (h : next s = .stop r) : scan next (fuel + 1) s = ([], some r) := by
  rw [scan, h]

theorem scan_item {s' : State} {a : Item} (h : next s = .item a s') :
    scan next (fuel + 1) s = (a :: (scan next fuel s').1, (scan next fuel s').2) := by
  rw [scan, h]

/-- A scanner whose items use up a measure stops. -/
theorem scan_of_decreasing (measure : State → Nat)
    (hdec : ∀ s a s', next s = .item a s' → measure s' < measure s) :
    ∀ (fuel : Nat) (s : State), measure s < fuel → ∃ r, (scan next fuel s).2 = some r
  | 0, _, h => absurd h (Nat.not_lt_zero _)
  | fuel + 1, s, h => by
      cases hnext : next s with
      | stop r =>
        rw [scan_stop hnext]
        exact ⟨r, rfl⟩
      | item a s' =>
        rw [scan_item hnext]
        have hlt := hdec s a s' hnext
        exact scan_of_decreasing measure hdec fuel s' (by omega)

/-- More fuel than a scan needs changes nothing. -/
theorem scan_fuel {fuel' : Nat} (h : scan next fuel s = (items, some r)) (hle : fuel ≤ fuel') :
    scan next fuel' s = (items, some r) := by
  induction fuel generalizing fuel' s items with
  | zero => cases h
  | succ fuel ih =>
    obtain ⟨more, rfl⟩ : ∃ more, fuel' = more + 1 := ⟨fuel' - 1, by omega⟩
    cases hnext : next s with
    | stop r' =>
      rw [scan_stop hnext] at h ⊢
      exact h
    | item a s' =>
      rw [scan_item hnext] at h ⊢
      obtain ⟨rfl, hr⟩ := Prod.mk.inj h
      rw [ih (Prod.ext rfl hr) (by omega)]

/-- What holds when a scanner stops, and of every item in front of a scan for which it holds, holds of
every finished scan. -/
theorem scan_induction {P : State → List Item → Result → Prop}
    (hstop : ∀ s r, next s = .stop r → P s [] r)
    (hitem : ∀ s a s' items r, next s = .item a s' → P s' items r → P s (a :: items) r)
    (h : scan next fuel s = (items, some r)) : P s items r := by
  induction fuel generalizing s items with
  | zero => cases h
  | succ fuel ih =>
    cases hnext : next s with
    | stop r' =>
      rw [scan_stop hnext] at h
      cases h
      exact hstop s r hnext
    | item a s' =>
      rw [scan_item hnext] at h
      obtain ⟨rfl, hr⟩ := Prod.mk.inj h
      exact hitem s a s' _ r hnext (ih (Prod.ext rfl hr))

/-- Two calls agree: they deliver one item and related states, or both stop. -/
inductive Alike (R : State → State' → Prop) :
    Next State Item Result → Next State' Item Result' → Prop
  | item (a : Item) {s : State} {t : State'} (h : R s t) : Alike R (.item a s) (.item a t)
  | stop (r : Result) (r' : Result') : Alike R (.stop r) (.stop r')

/-- Scanners that agree on every call deliver the same items, and they stop in related states. -/
theorem scan_sim {R : State → State' → Prop} (hsim : ∀ s t, R s t → Alike R (next s) (next' t))
    {t : State'} (hst : R s t) (h : scan next fuel s = (items, some r)) :
    ∃ r' s' t', scan next' fuel t = (items, some r') ∧ R s' t' ∧ next s' = .stop r ∧
      next' t' = .stop r' := by
  induction fuel generalizing s t items with
  | zero => cases h
  | succ fuel ih =>
    have hagree := hsim s t hst
    cases hnext : next s with
    | stop r₀ =>
      rw [scan_stop hnext] at h
      cases h
      cases hnext' : next' t with
      | stop r' => exact ⟨r', s, t, scan_stop hnext', hst, hnext, hnext'⟩
      | item a t' => rw [hnext, hnext'] at hagree; cases hagree
    | item a s' =>
      rw [scan_item hnext] at h
      obtain ⟨rfl, hr⟩ := Prod.mk.inj h
      rw [hnext] at hagree
      cases hnext' : next' t with
      | stop r' => rw [hnext'] at hagree; cases hagree
      | item b t' =>
        rw [hnext'] at hagree
        cases hagree with
        | item _ hR =>
          obtain ⟨r', s'', t'', hscan, hrel⟩ := ih hR (Prod.ext rfl hr)
          refine ⟨r', s'', t'', ?_, hrel⟩
          rw [scan_item hnext', hscan]

end Yonder.Lib.Scan
