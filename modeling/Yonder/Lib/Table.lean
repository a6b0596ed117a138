import Mathlib.Data.List.AList

/-!
# Hash tables

A hash table is an association list with distinct keys. Its iteration order is not fixed: code that
iterates takes an `Iteration`, which visits every key once. `Table.count` counts the entries whose
value has a property, and the lemmas say how a count changes when a key is inserted, replaced or
erased.
-/

namespace Yonder.Lib

universe u v

/-- A hash table from `K` to `V`. -/
abbrev Table (K : Type u) (V : Type v) := AList (fun _ : K => V)

/-- A visit of every key of a table, in some order. -/
structure Iteration (K : Type u) (V : Type v) where
  visit : Table K V → List K
  perm : ∀ t, (visit t).Perm t.keys

/-- The visit in the order of the list. -/
def Iteration.inOrder (K : Type u) (V : Type v) : Iteration K V := ⟨AList.keys, fun _ => .refl _⟩

namespace Table

variable {K : Type u} {V : Type v}

def size (t : Table K V) : Nat := t.entries.length

/-- The number of entries whose value satisfies `p`. -/
def count (p : V → Bool) (t : Table K V) : Nat := t.entries.countP fun e => p e.2

@[simp] theorem size_empty : size (∅ : Table K V) = 0 := rfl

@[simp] theorem count_empty (p : V → Bool) : count p (∅ : Table K V) = 0 := rfl

theorem size_eq_count (t : Table K V) : t.size = t.count fun _ => true := by
  simp [size, count]

theorem length_visit (i : Iteration K V) (t : Table K V) : (i.visit t).length = t.size := by
  rw [(i.perm t).length_eq, size, AList.keys, List.keys, List.length_map]

variable [DecidableEq K]

def lookup (t : Table K V) (k : K) : Option V := AList.lookup k t

def insert (t : Table K V) (k : K) (v : V) : Table K V := AList.insert k v t

def erase (t : Table K V) (k : K) : Table K V := AList.erase k t

omit [DecidableEq K] in
/-- The entries with a property. -/
def retain (t : Table K V) (keep : K → V → Bool) : Table K V where
  entries := t.entries.filter fun e => keep e.1 e.2
  nodupKeys := t.nodupKeys.sublist List.filter_sublist

/-! ## Lookups -/

@[simp] theorem lookup_empty (k : K) : lookup (∅ : Table K V) k = none := AList.lookup_empty k

@[simp] theorem lookup_insert (t : Table K V) (k k' : K) (v : V) :
    (t.insert k v).lookup k' = if k' = k then some v else t.lookup k' := by
  split
  case isTrue h =>
    subst h
    exact AList.lookup_insert t
  case isFalse h => exact AList.lookup_insert_ne h

@[simp] theorem lookup_erase (t : Table K V) (k k' : K) :
    (t.erase k).lookup k' = if k' = k then none else t.lookup k' := by
  split
  case isTrue h =>
    subst h
    exact AList.lookup_erase k' t
  case isFalse h => exact AList.lookup_erase_ne h

variable {t : Table K V} {k : K}

theorem lookup_eq_some_iff {v : V} :
    t.lookup k = some v ↔ ⟨k, v⟩ ∈ t.entries := AList.mem_lookup_iff

@[simp] theorem lookup_retain (t : Table K V) (keep : K → V → Bool) (k : K) :
    (t.retain keep).lookup k = (t.lookup k).filter (keep k) := by
  ext v
  rw [lookup_eq_some_iff, retain, List.mem_filter, ← lookup_eq_some_iff, Option.filter_eq_some_iff]

theorem mem_keys : k ∈ t.keys ↔ ∃ v, t.lookup k = some v := by
  rw [← AList.mem_keys, ← AList.lookup_isSome, Option.isSome_iff_exists]
  rfl

theorem mem_visit (i : Iteration K V) (t : Table K V) (k : K) :
    k ∈ i.visit t ↔ ∃ v, t.lookup k = some v := by
  rw [(i.perm t).mem_iff, mem_keys]

/-- Fewer keys are in the table than a list without repetitions has, if all are in it. -/
theorem length_le_size {l : List K} (hnodup : l.Nodup) (h : ∀ k ∈ l, t.lookup k ≠ none) :
    l.length ≤ t.size := by
  have hsubset : l ⊆ t.keys := fun k hk => mem_keys.2 (Option.ne_none_iff_exists'.1 (h k hk))
  have hlen := (List.subperm_of_subset hnodup hsubset).length_le
  rwa [AList.keys, List.keys, List.length_map] at hlen

theorem size_eq_zero (h : ∀ k, t.lookup k = none) : t.size = 0 := by
  rw [size, List.length_eq_zero_iff, List.eq_nil_iff_forall_not_mem]
  rintro ⟨k, v⟩ hmem
  rw [← lookup_eq_some_iff, h k] at hmem
  cases hmem

/-! ## Counts -/

theorem count_insert (h : t.lookup k = none) (v : V) (p : V → Bool) :
    (t.insert k v).count p = t.count p + if p v then 1 else 0 := by
  rw [count, insert, AList.entries_insert_of_notMem (AList.lookup_eq_none.1 h), List.countP_cons,
    count]

/-- An entry taken out of the list of entries. -/
theorem perm_erase {v : V} (h : t.lookup k = some v) :
    t.entries.Perm (⟨k, v⟩ :: (t.erase k).entries) := by
  obtain ⟨b, l₁, l₂, -, hentries, hkerase⟩ := List.exists_of_kerase (mem_keys.2 ⟨v, h⟩)
  have hb : t.lookup k = some b := by
    rw [lookup_eq_some_iff, hentries]
    exact List.mem_append_right _ List.mem_cons_self
  cases h.symm.trans hb
  show t.entries.Perm (_ :: List.kerase k t.entries)
  rw [hkerase, hentries]
  exact List.perm_middle

theorem count_erase {v : V} (h : t.lookup k = some v) (p : V → Bool) :
    (t.erase k).count p + (if p v then 1 else 0) = t.count p := by
  rw [count, count, (perm_erase h).countP_eq, List.countP_cons]

/-- Replacing a value by one with the same property changes no count. -/
theorem count_replace {v v' : V} (h : t.lookup k = some v) {p : V → Bool} (hp : p v' = p v) :
    (t.insert k v').count p = t.count p := by
  rw [← count_erase h p, count, insert, AList.entries_insert, List.countP_cons, hp]
  rfl

theorem count_le {t t' : Table K V} {p q : V → Bool}
    (h : ∀ k v, t.lookup k = some v → p v = true → t'.lookup k = some v ∧ q v = true) :
    t.count p ≤ t'.count q := by
  rw [count, count, List.countP_eq_length_filter, List.countP_eq_length_filter]
  refine (List.subperm_of_subset (t.nodupKeys.nodup.filter _) ?_).length_le
  rintro ⟨k, v⟩ hmem
  rw [List.mem_filter, ← lookup_eq_some_iff] at hmem ⊢
  exact h k v hmem.1 hmem.2

omit [DecidableEq K] in
theorem count_retain_le (t : Table K V) (keep : K → V → Bool) (p : V → Bool) :
    (t.retain keep).count p ≤ t.count p :=
  List.filter_sublist.countP_le

theorem count_erase_le (t : Table K V) (k : K) (p : V → Bool) :
    (t.erase k).count p ≤ t.count p :=
  (List.kerase_sublist k t.entries).countP_le

theorem count_insert_le (t : Table K V) (k : K) (v : V) (p : V → Bool) :
    (t.insert k v).count p ≤ t.count p + if p v then 1 else 0 := by
  rw [count, insert, AList.entries_insert, List.countP_cons]
  exact Nat.add_le_add_right (t.count_erase_le k p) _

/-- Tables that hold the same entries of two kinds hold as many of them. -/
theorem count_congr {t t' : Table K V} {p q : V → Bool}
    (h : ∀ k v, t.lookup k = some v ∧ p v = true ↔ t'.lookup k = some v ∧ q v = true) :
    t.count p = t'.count q :=
  le_antisymm (count_le fun k v hv hp => (h k v).1 ⟨hv, hp⟩)
    (count_le fun k v hv hq => (h k v).2 ⟨hv, hq⟩)

theorem count_pos {v : V} (h : t.lookup k = some v) {p : V → Bool} (hp : p v = true) :
    0 < t.count p := by
  have := count_erase h p
  rw [if_pos hp] at this
  omega

end Table

end Yonder.Lib
