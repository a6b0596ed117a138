import Mathlib.Data.List.Perm.Basic

/-!
# Least elements by a comparison

`minBy` keeps the best element seen so far, so for a comparison that is no order its result can
depend on the order of the list. Where the comparison is a strict total order on the elements, the
result is the one that precedes all others (`minBy_spec`), whatever the order (`minBy_perm`).
-/

namespace Yonder.Lib

universe u v

variable {α : Type u} {β : Type v}

/-- The least element, the first of equal ones. -/
def minBy (cmp : α → α → Ordering) : List α → Option α
  | [] => none
  | a :: rest => some (rest.foldl (fun best x => if cmp best x = .gt then x else best) a)

/-- `cmp` orders the elements of `l` strictly and totally. -/
structure StrictTotalOn (cmp : α → α → Ordering) (l : List α) : Prop where
  irrefl : ∀ a ∈ l, cmp a a ≠ .lt
  total : ∀ a ∈ l, ∀ b ∈ l, a ≠ b → cmp a b = .lt ∨ cmp b a = .lt
  trans : ∀ a ∈ l, ∀ b ∈ l, ∀ c ∈ l, cmp a b = .lt → cmp b c = .lt → cmp a c = .lt

variable {cmp : α → α → Ordering} {l : List α}

theorem StrictTotalOn.subset {l' : List α} (h : StrictTotalOn cmp l) (hsub : l' ⊆ l) :
    StrictTotalOn cmp l' where
  irrefl := fun a ha => h.irrefl a (hsub ha)
  total := fun a ha b hb => h.total a (hsub ha) b (hsub hb)
  trans := fun a ha b hb c hc => h.trans a (hsub ha) b (hsub hb) c (hsub hc)

/-- A strict total order on the images is one on the elements, if no two have one image. -/
theorem StrictTotalOn.of_map {cmp : β → β → Ordering} {f : α → β} (h : StrictTotalOn cmp (l.map f))
    (hinj : ∀ a ∈ l, ∀ b ∈ l, f a = f b → a = b) :
    StrictTotalOn (fun a b => cmp (f a) (f b)) l where
  irrefl := fun _ ha => h.irrefl _ (List.mem_map_of_mem ha)
  total := fun a ha b hb hne =>
    h.total _ (List.mem_map_of_mem ha) _ (List.mem_map_of_mem hb) fun he => hne (hinj a ha b hb he)
  trans := fun _ ha _ hb _ hc =>
    h.trans _ (List.mem_map_of_mem ha) _ (List.mem_map_of_mem hb) _ (List.mem_map_of_mem hc)

/-- The best element so far precedes all others seen. -/
theorem foldl_best_spec (hswap : ∀ a b, cmp b a = (cmp a b).swap) (h : StrictTotalOn cmp l)
    (seen : List α) (best : α) (rest : List α) (hmem : ∀ x, x ∈ l ↔ x ∈ seen ∨ x ∈ rest)
    (hbest : best ∈ seen) (hleast : ∀ x ∈ seen, x ≠ best → cmp best x = .lt) :
    let m := rest.foldl (fun best x => if cmp best x = .gt then x else best) best
    m ∈ l ∧ ∀ x ∈ l, x ≠ m → cmp m x = .lt := by
  induction rest generalizing seen best with
  | nil =>
    have hseen : ∀ x, x ∈ l ↔ x ∈ seen := by simpa using hmem
    exact ⟨(hseen best).2 hbest, fun x hx => hleast x ((hseen x).1 hx)⟩
  | cons y rest ih =>
    have hy : y ∈ l := (hmem y).2 (Or.inr List.mem_cons_self)
    have hb : best ∈ l := (hmem best).2 (Or.inl hbest)
    rw [List.foldl_cons]
    by_cases hgt : cmp best y = .gt
    case pos =>
      -- The new element precedes the best so far, and by transitivity all that were seen.
      rw [if_pos hgt]
      have hlt : cmp y best = .lt := by rw [hswap best y, hgt]; rfl
      refine ih (y :: seen) y (fun x => by rw [hmem]; simp; tauto) List.mem_cons_self ?_
      intro x hx hne
      have hx : x ∈ seen := (List.mem_cons.1 hx).resolve_left hne
      by_cases heq : x = best
      case pos => rw [heq]; exact hlt
      case neg =>
        exact h.trans y hy best hb x ((hmem x).2 (Or.inl hx)) hlt (hleast x hx heq)
    case neg =>
      rw [if_neg hgt]
      refine ih (y :: seen) best (fun x => by rw [hmem]; simp; tauto)
        (List.mem_cons_of_mem _ hbest) ?_
      intro x hx hne
      rcases List.mem_cons.1 hx with rfl | hx
      case inl =>
        rcases h.total best hb x hy (Ne.symm hne) with hlt | hlt
        · exact hlt
        · rw [hswap x best, hlt] at hgt
          exact absurd rfl hgt
      case inr => exact hleast x hx hne

theorem minBy_spec (hswap : ∀ a b, cmp b a = (cmp a b).swap) (h : StrictTotalOn cmp l) {m : α}
    (hm : minBy cmp l = some m) : m ∈ l ∧ ∀ x ∈ l, x ≠ m → cmp m x = .lt := by
  cases l with
  | nil => cases hm
  | cons a rest =>
    cases hm
    refine foldl_best_spec hswap h [a] a rest (fun x => by simp) List.mem_cons_self ?_
    intro x hx hne
    exact absurd (List.mem_singleton.1 hx) hne

theorem mem_of_minBy {m : α} (hm : minBy cmp l = some m) : m ∈ l := by
  have hfold : ∀ (rest : List α) (best : α),
      rest.foldl (fun best x => if cmp best x = .gt then x else best) best ∈ best :: rest := by
    intro rest
    induction rest with
    | nil => exact fun best => List.mem_cons_self
    | cons x rest ih =>
      intro best
      rw [List.foldl_cons]
      split
      case isTrue => exact List.mem_cons_of_mem _ (ih x)
      case isFalse => exact List.cons_subset_cons _ (List.subset_cons_self _ _) (ih best)
  cases l with
  | nil => cases hm
  | cons a rest => exact Option.some.inj hm ▸ hfold rest a

theorem minBy_eq_none : minBy cmp l = none ↔ l = [] := by
  cases l <;> simp [minBy]

/-- On a strict total order the least element does not depend on the order of the list. -/
theorem minBy_perm (hswap : ∀ a b, cmp b a = (cmp a b).swap) {l' : List α} (h : StrictTotalOn cmp l)
    (hperm : l'.Perm l) : minBy cmp l' = minBy cmp l := by
  cases hm : minBy cmp l with
  | none =>
    rw [minBy_eq_none] at hm ⊢
    exact (hm ▸ hperm).eq_nil
  | some m =>
    cases hm' : minBy cmp l' with
    | none =>
      rw [minBy_eq_none] at hm'
      subst hm'
      rw [hperm.nil_eq.symm] at hm
      cases hm
    | some m' =>
      obtain ⟨hmem, hleast⟩ := minBy_spec hswap h hm
      obtain ⟨hmem', hleast'⟩ := minBy_spec hswap (h.subset hperm.subset) hm'
      by_contra hne
      have hne : m' ≠ m := fun he => hne (congrArg some he)
      have hlt := hleast m' (hperm.subset hmem') hne
      have hgt := hleast' m (hperm.symm.subset hmem) hne.symm
      rw [hswap m m', hlt] at hgt
      cases hgt

end Yonder.Lib
