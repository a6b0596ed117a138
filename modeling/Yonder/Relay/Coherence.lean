import Yonder.Relay.Registry

/-!
# Coherence of the registry

`Indexed` is what insertion, removal and pruning keep: the two indexes are inverse to each other, the
counters count, and the limits hold. `Coherent` adds that a mapping is active exactly when its owner
is available, which holds between calls only: a call that changes a membership breaks it for one peer
until `refresh` has run.
-/

namespace Yonder.Relay.Registry

open Lib

variable {Peer Source : Type} [DecidableEq Peer] [DecidableEq Source]

/-! ## Invariants -/

/-- The number of mappings of a source prefix. -/
def sourceCount (r : Registry Peer Source) (source : Source) : Nat :=
  r.byLocator.count fun mapping => decide (mapping.source = source)

/-- The indexes agree and the limits hold. -/
structure Indexed (r : Registry Peer Source) : Prop where
  inverse : ∀ peer locator, r.byOwner.lookup peer = some locator ↔
    ∃ mapping, r.byLocator.lookup locator = some mapping ∧ mapping.owner = peer
  counted : ∀ source, r.bySource.lookup source =
    if r.sourceCount source = 0 then none else some (r.sourceCount source)
  capacity : r.byLocator.size ≤ r.limits.capacity
  quota : ∀ source, r.sourceCount source ≤ r.limits.perSource

/-- The mappings whose owner is not `except` are active exactly when the owner is available. -/
def ActiveExcept (r : Registry Peer Source) (except : Peer → Prop) : Prop :=
  ∀ locator mapping, r.byLocator.lookup locator = some mapping → ¬ except mapping.owner →
    (mapping.state = .active ↔ r.isAvailable mapping.owner = true)

/-- What holds between calls. -/
structure Coherent (r : Registry Peer Source) : Prop extends r.Indexed where
  active : ∀ locator mapping, r.byLocator.lookup locator = some mapping →
    (mapping.state = .active ↔ r.isAvailable mapping.owner = true)

theorem coherent_withLimits (limits : RegistrationLimits) (retryAfter : Nat) :
    (withLimits limits retryAfter : Registry Peer Source).Coherent where
  inverse := fun peer locator => by simp [withLimits]
  counted := fun source => by simp [withLimits, sourceCount]
  capacity := by simp [withLimits]
  quota := fun source => by simp [withLimits, sourceCount]
  active := fun locator mapping h => by simp [withLimits] at h

variable {r s : Registry Peer Source} {locator : Locator} {mapping : Mapping Peer Source}
  {gone : Locator → Prop}

theorem Indexed.counter_getD (h : r.Indexed) (source : Source) :
    (r.bySource.lookup source).getD 0 = r.sourceCount source := by
  rw [h.counted]
  split <;> simp_all

theorem Indexed.owner_locator (h : r.Indexed) (hm : r.byLocator.lookup locator = some mapping) :
    r.byOwner.lookup mapping.owner = some locator :=
  (h.inverse _ _).2 ⟨mapping, hm, rfl⟩

theorem Indexed.owner_injective (h : r.Indexed) {l l' : Locator} {m m' : Mapping Peer Source}
    (hm : r.byLocator.lookup l = some m) (hm' : r.byLocator.lookup l' = some m')
    (howner : m.owner = m'.owner) : l = l' := by
  have hl := h.owner_locator hm
  rw [howner, h.owner_locator hm'] at hl
  exact (Option.some.inj hl).symm

/-! ## Insertion -/

theorem indexed_insert (h : r.Indexed) {owner : Peer} {source : Source}
    (hfree : r.byLocator.lookup locator = none) (hnew : r.byOwner.lookup owner = none)
    (hcap : r.hasCapacity source = true) : (r.insert locator owner source).Indexed := by
  have hroom : r.byLocator.size < r.limits.capacity ∧
      r.sourceCount source < r.limits.perSource := by
    rw [hasCapacity, h.counter_getD] at hcap
    simpa using hcap
  have hcount : ∀ s, (r.insert locator owner source).sourceCount s =
      r.sourceCount s + if source = s then 1 else 0 := by
    intro s
    have := Table.count_insert hfree (⟨owner, source, .active⟩ : Mapping Peer Source)
      fun m => decide (m.source = s)
    simpa [sourceCount, insert] using this
  constructor
  case inverse =>
    intro peer l
    simp only [insert, Table.lookup_insert]
    by_cases hl : l = locator
    case pos =>
      -- The locator had no mapping, so no other peer had it.
      have hother := h.inverse peer locator
      rw [hfree] at hother
      by_cases hp : peer = owner
      case pos => simp [hl, hp]
      case neg => simpa [hl, hp, Ne.symm hp] using hother
    case neg =>
      by_cases hp : peer = owner
      case pos =>
        have hother := h.inverse owner l
        rw [hnew] at hother
        simpa [hl, hp, Ne.symm hl] using hother
      case neg => simpa [hl, hp] using h.inverse peer l
  case counted =>
    intro s
    rw [hcount]
    by_cases hs : s = source
    case pos => simp [insert, hs, h.counter_getD]
    case neg => simp [insert, hs, h.counted, Ne.symm hs]
  case capacity =>
    rw [Table.size_eq_count, insert, Table.count_insert hfree, ← Table.size_eq_count]
    exact hroom.1
  case quota =>
    intro s
    have hs := h.quota s
    rw [hcount]
    show _ ≤ r.limits.perSource
    split
    case isTrue heq =>
      have := hroom.2
      rw [heq] at this
      omega
    case isFalse => omega

theorem coherent_insert (h : r.Coherent) {owner : Peer} {source : Source}
    (hfree : r.byLocator.lookup locator = none) (hnew : r.byOwner.lookup owner = none)
    (hcap : r.hasCapacity source = true) (havail : r.isAvailable owner = true) :
    (r.insert locator owner source).Coherent where
  toIndexed := indexed_insert h.toIndexed hfree hnew hcap
  active := by
    intro l m hm
    by_cases hl : l = locator
    case pos =>
      rw [hl, insert, Table.lookup_insert, if_pos rfl] at hm
      cases hm
      exact ⟨fun _ => havail, fun _ => rfl⟩
    case neg =>
      rw [insert, Table.lookup_insert, if_neg hl] at hm
      exact h.active l m hm

/-! ## Removal -/

/-- `s` is `r` without the mappings of some locators. -/
structure Without (r : Registry Peer Source) (gone : Locator → Prop) [DecidablePred gone]
    (s : Registry Peer Source) : Prop where
  indexed : s.Indexed
  limits : s.limits = r.limits
  reservations : s.reservations = r.reservations
  connections : s.connections = r.connections
  lookup : ∀ l, s.byLocator.lookup l = if gone l then none else r.byLocator.lookup l

theorem Without.isAvailable [DecidablePred gone] (h : r.Without gone s) (peer : Peer) :
    s.isAvailable peer = r.isAvailable peer := by
  rw [Registry.isAvailable, Registry.isAvailable, h.reservations, h.connections]

theorem Without.lookup_some [DecidablePred gone] (h : r.Without gone s) {l : Locator}
    {m : Mapping Peer Source} (hm : s.byLocator.lookup l = some m) :
    r.byLocator.lookup l = some m := by
  rw [h.lookup] at hm
  split at hm
  case isTrue => cases hm
  case isFalse => exact hm

theorem Without.activeExcept [DecidablePred gone] (h : r.Without gone s) {except : Peer → Prop}
    (hr : r.ActiveExcept except) : s.ActiveExcept except := by
  intro l m hm hex
  rw [h.isAvailable]
  exact hr l m (h.lookup_some hm) hex

theorem Without.coherent [DecidablePred gone] (h : r.Without gone s) (hr : r.Coherent) :
    s.Coherent where
  toIndexed := h.indexed
  active := by
    have hnone : r.ActiveExcept fun _ => False := fun l m hm _ => hr.active l m hm
    exact fun l m hm => h.activeExcept hnone l m hm id

/-- The indexes after the removal of a mapping, with any counter table that counts. -/
theorem indexed_erase (h : r.Indexed) (hm : r.byLocator.lookup locator = some mapping)
    {counters : Table Source Nat} (hcounters : ∀ s, counters.lookup s =
      if r.sourceCount s - (if mapping.source = s then 1 else 0) = 0 then none
      else some (r.sourceCount s - if mapping.source = s then 1 else 0))
    :
    Indexed { r with
      byLocator := r.byLocator.erase locator
      byOwner := r.byOwner.erase mapping.owner
      bySource := counters } := by
  have hcount : ∀ s, ((r.byLocator.erase locator).count fun m => decide (m.source = s)) =
      r.sourceCount s - if mapping.source = s then 1 else 0 := by
    intro s
    have := Table.count_erase hm fun m => decide (m.source = s)
    simp only [decide_eq_true_eq] at this
    rw [sourceCount, ← this, Nat.add_sub_cancel]
  constructor
  case inverse =>
    intro peer l
    rw [Table.lookup_erase, Table.lookup_erase]
    by_cases hl : l = locator
    case pos =>
      subst hl
      simp only [if_true, reduceCtorEq, false_and, exists_false, iff_false]
      split
      case isTrue => rintro ⟨⟩
      case isFalse hp =>
        rw [h.inverse]
        rintro ⟨m, hm', howner⟩
        rw [hm] at hm'
        cases hm'
        exact hp howner.symm
    case neg =>
      simp only [hl, if_false]
      split
      case isTrue hp =>
        simp only [reduceCtorEq, false_iff]
        rintro ⟨m, hm', howner⟩
        exact hl (h.owner_injective hm' hm (howner.trans hp))
      case isFalse => exact h.inverse peer l
  case counted =>
    intro s
    rw [sourceCount, hcount]
    exact hcounters s
  case capacity =>
    have hsize := Table.count_erase hm fun _ => true
    rw [← Table.size_eq_count, ← Table.size_eq_count] at hsize
    exact Nat.le_trans (Nat.le.intro hsize) h.capacity
  case quota =>
    intro s
    rw [sourceCount, hcount]
    exact Nat.le_trans (Nat.sub_le _ _) (h.quota s)

theorem remove_ok (h : r.Indexed) (locator : Locator) :
    ∃ s, r.remove locator = .ok s ∧ r.Without (· = locator) s := by
  unfold remove
  cases hm : r.byLocator.lookup locator with
  | none =>
    refine ⟨r, rfl, h, rfl, rfl, rfl, fun l => ?_⟩
    split
    case isTrue hl => rw [hl, hm]
    case isFalse => rfl
  | some mapping =>
    have hpos : 0 < r.sourceCount mapping.source :=
      Table.count_pos hm (by simp)
    have hcounter : r.bySource.lookup mapping.source =
        some (r.sourceCount mapping.source - 1 + 1) := by
      rw [h.counted, if_neg (by omega), Nat.sub_add_cancel hpos]
    simp only [hcounter]
    split
    case isTrue hone =>
      refine ⟨_, rfl, indexed_erase h hm fun s => ?_, rfl, rfl, rfl, Table.lookup_erase _ _⟩
      rw [Table.lookup_erase, h.counted]
      by_cases hs : s = mapping.source
      case pos => simp [hs, hone]
      case neg => simp [hs, Ne.symm hs]
    case isFalse hmore =>
      refine ⟨_, rfl, indexed_erase h hm fun s => ?_, rfl, rfl, rfl, Table.lookup_erase _ _⟩
      by_cases hs : s = mapping.source
      case pos => simp [hs, hmore]
      case neg => simp [hs, h.counted, Ne.symm hs]

theorem removeAll_ok (h : r.Indexed) (locators : List Locator) :
    ∃ s, locators.foldlM remove r = .ok s ∧ r.Without (· ∈ locators) s := by
  induction locators generalizing r with
  | nil => exact ⟨r, rfl, h, rfl, rfl, rfl, fun l => by simp⟩
  | cons locator rest ih =>
    obtain ⟨r₁, hremove, h₁⟩ := remove_ok h locator
    obtain ⟨s, hrest, hs⟩ := ih h₁.indexed
    refine ⟨s, by rw [List.foldlM_cons, hremove]; exact hrest, hs.indexed,
      hs.limits.trans h₁.limits, hs.reservations.trans h₁.reservations,
      hs.connections.trans h₁.connections, fun l => ?_⟩
    rw [hs.lookup, h₁.lookup]
    by_cases hl : l = locator <;> by_cases hr : l ∈ rest <;> simp [hl, hr]

/-! ## Pruning -/

/-- Whether a locator has an expired mapping. -/
def Expired (r : Registry Peer Source) (now : Nat) (locator : Locator) : Prop :=
  ((r.byLocator.lookup locator).any (expired now)) = true

instance (r : Registry Peer Source) (now : Nat) : DecidablePred (r.Expired now) :=
  fun _ => inferInstanceAs (Decidable (_ = true))

theorem collectExpired_ok (r : Registry Peer Source) (now : Nat) (found visit : List Locator)
    (hlen : found.length + visit.length ≤ maxRegistrationCapacity) :
    collectExpired r now found visit = .ok (found ++ visit.filter (r.Expired now)) := by
  induction visit generalizing found with
  | nil => simp [collectExpired]
  | cons locator rest ih =>
    rw [List.length_cons] at hlen
    have hskip := ih found (by omega)
    have htake := ih (found ++ [locator]) (by simp; omega)
    have hroom : found.length < maxRegistrationCapacity := by omega
    unfold collectExpired
    cases hm : r.byLocator.lookup locator with
    | none => simp [hskip, Expired, hm]
    | some mapping =>
      by_cases he : expired now mapping = true
      case pos => simp [he, hroom, htake, Expired, hm]
      case neg => simp [he, hskip, Expired, hm]

/-- Pruning removes the mappings that have been suspended for the grace period, and no others. -/
theorem prune_ok (h : r.Indexed) (now : Nat) (i : Iteration Locator (Mapping Peer Source)) :
    ∃ s, r.prune now i = .ok s ∧ r.Without (r.Expired now) s := by
  have hlen : ([] : List Locator).length + (i.visit r.byLocator).length ≤
      maxRegistrationCapacity := by
    rw [Table.length_visit, List.length_nil, Nat.zero_add]
    exact Nat.le_trans h.capacity r.limits.capacity_le
  obtain ⟨s, hs, hwithout⟩ := removeAll_ok h ((i.visit r.byLocator).filter (r.Expired now))
  refine ⟨s, ?_, hwithout.indexed, hwithout.limits, hwithout.reservations, hwithout.connections,
    fun l => ?_⟩
  · rw [prune, collectExpired_ok r now [] _ hlen]
    exact hs
  · rw [hwithout.lookup]
    refine if_congr ?_ rfl rfl
    rw [List.mem_filter, Table.mem_visit, decide_eq_true_eq, and_iff_right_iff_imp]
    intro he
    cases hm : r.byLocator.lookup l with
    | none => simp [Expired, hm] at he
    | some m => exact ⟨m, rfl⟩

/-! ## Membership changes -/

theorem contains_setMembership_ne (set : List Peer) {peer other : Peer} (available : Bool)
    (h : other ≠ peer) : (setMembership set peer available).contains other = set.contains other := by
  unfold setMembership
  cases available <;> simp [h, List.contains_eq_mem]

/-- A change of one entry that keeps its owner and its source keeps the indexes. -/
theorem indexed_replace (h : r.Indexed) (hm : r.byLocator.lookup locator = some mapping)
    (state : MappingState) :
    Indexed { r with byLocator := r.byLocator.insert locator { mapping with state := state } } := by
  have hcount : ∀ p : Mapping Peer Source → Bool, p { mapping with state := state } = p mapping →
      (r.byLocator.insert locator { mapping with state := state }).count p =
        r.byLocator.count p :=
    fun p hp => Table.count_replace hm hp
  constructor
  case inverse =>
    intro peer l
    rw [h.inverse]
    by_cases hl : l = locator <;> simp [hl, hm]
  case counted =>
    intro s
    rw [sourceCount, hcount _ rfl]
    exact h.counted s
  case capacity =>
    rw [Table.size_eq_count, hcount _ rfl, ← Table.size_eq_count]
    exact h.capacity
  case quota =>
    intro s
    rw [sourceCount, hcount _ rfl]
    exact h.quota s

/-- The state of a mapping after a signal of its owner, which leaves the owner available or not. -/
def refreshedState (available : Bool) (later : Nat) : MappingState → MappingState
  | .active => if available then .active else .suspended later
  | .suspended since => if available then .active else .suspended since

theorem refreshedState_active (available : Bool) (later : Nat) (state : MappingState) :
    refreshedState available later state = .active ↔ available = true := by
  cases state <;> cases available <;> simp [refreshedState]

/-- A signal of `peer` changes the state of its mapping, if it has one, and nothing else. -/
theorem refresh_spec (h : r.Indexed) (peer : Peer) (now later : Nat)
    (i : Iteration Locator (Mapping Peer Source)) :
    ∃ s t, r.Without (r.Expired now) s ∧ r.refresh peer now later i = .ok t ∧ t.Indexed ∧
      (∀ p, t.isAvailable p = r.isAvailable p) ∧ t.connections = r.connections ∧
      ∀ l, t.byLocator.lookup l = (s.byLocator.lookup l).map fun m =>
        if m.owner = peer then
          { m with state := refreshedState (r.isAvailable peer) later m.state }
        else m := by
  obtain ⟨s, hprune, hs⟩ := prune_ok h now i
  unfold refresh
  rw [hprune]
  simp only [bind, Except.bind]
  cases howner : s.byOwner.lookup peer with
  | none =>
    refine ⟨s, s, hs, rfl, hs.indexed, hs.isAvailable, hs.connections, fun l => ?_⟩
    cases hm : s.byLocator.lookup l with
    | none => rfl
    | some m =>
      rw [Option.map_some, if_neg]
      intro heq
      rw [← heq, hs.indexed.owner_locator hm] at howner
      cases howner
  | some locator =>
    obtain ⟨mapping, hm, hmo⟩ := (hs.indexed.inverse _ _).1 howner
    simp only [hm]
    refine ⟨s, _, hs, rfl, indexed_replace hs.indexed hm _, hs.isAvailable, hs.connections,
      fun l => ?_⟩
    rw [Table.lookup_insert]
    split
    case isTrue heq =>
      rw [heq, hm, Option.map_some, if_pos hmo, hs.isAvailable]
      cases r.isAvailable peer <;> cases mapping.state <;> rfl
    case isFalse hne =>
      cases hl : s.byLocator.lookup l with
      | none => rfl
      | some m =>
        rw [Option.map_some, if_neg]
        exact fun heq => hne (hs.indexed.owner_injective hl hm (heq.trans hmo.symm))

theorem refresh_ok (h : r.Indexed) {peer : Peer} (hactive : r.ActiveExcept (· = peer))
    (now later : Nat) (i : Iteration Locator (Mapping Peer Source)) :
    ∃ s, r.refresh peer now later i = .ok s ∧ s.Coherent ∧ s.connections = r.connections := by
  obtain ⟨s, t, hs, hrefresh, ht, havail, hconnections, hlookup⟩ := refresh_spec h peer now later i
  refine ⟨t, hrefresh, ⟨ht, fun l m hm => ?_⟩, hconnections⟩
  rw [hlookup] at hm
  obtain ⟨m₀, hm₀, rfl⟩ := Option.map_eq_some_iff.1 hm
  rw [havail]
  split
  case isTrue heq =>
    rw [refreshedState_active]
    change _ ↔ r.isAvailable m₀.owner = true
    rw [heq]
  case isFalse hne => exact hactive l m₀ (hs.lookup_some hm₀) hne

theorem setReservation_ok (h : r.Coherent) (peer : Peer) (available : Bool) (now later : Nat)
    (i : Iteration Locator (Mapping Peer Source)) :
    ∃ s, r.setReservation peer available now later i = .ok s ∧ s.Coherent := by
  have hindexed : Indexed { r with reservations := setMembership r.reservations peer available } :=
    ⟨h.inverse, h.counted, h.capacity, h.quota⟩
  have hactive : ActiveExcept { r with reservations := setMembership r.reservations peer available }
      (· = peer) := by
    intro l m hm hne
    rw [h.active l m hm, isAvailable, isAvailable, contains_setMembership_ne _ _ hne]
  obtain ⟨s, hrefresh, hs, -⟩ := refresh_ok hindexed hactive now later i
  exact ⟨s, hrefresh, hs⟩

theorem setConnection_ok (h : r.Coherent) (peer : Peer) (available : Bool) (now later : Nat)
    (i : Iteration Locator (Mapping Peer Source)) :
    ∃ s, r.setConnection peer available now later i = .ok s ∧ s.Coherent ∧
      s.connections = setMembership r.connections peer available := by
  have hindexed : Indexed { r with connections := setMembership r.connections peer available } :=
    ⟨h.inverse, h.counted, h.capacity, h.quota⟩
  apply refresh_ok hindexed
  intro l m hm hne
  rw [h.active l m hm, isAvailable, isAvailable, contains_setMembership_ne _ _ hne]

/-! ## Allocation -/

theorem value_iterate_wrappingNext (l : Locator) (k : Nat) :
    (Locator.wrappingNext^[k] l).value = (l.value + k) % 2 ^ 20 := by
  induction k with
  | zero => exact (Nat.mod_eq_of_lt l.lt).symm
  | succ k ih =>
    rw [Function.iterate_succ_apply']
    show ((Locator.wrappingNext^[k] l).value + 1) % 2 ^ 20 = _
    rw [ih, Nat.mod_add_mod, Nat.add_assoc]

theorem iterate_wrappingNext_injective (l : Locator) {j k : Nat} (hj : j < 2 ^ 20)
    (hk : k < 2 ^ 20) (h : Locator.wrappingNext^[j] l = Locator.wrappingNext^[k] l) : j = k := by
  have hv := congrArg Locator.value h
  rw [value_iterate_wrappingNext, value_iterate_wrappingNext] at hv
  exact Nat.ModEq.eq_of_lt_of_lt (Nat.ModEq.add_left_cancel' l.value hv) hj hk

/-- Among more candidates than the registry has mappings, one is free. -/
theorem exists_free (r : Registry Peer Source) (l : Locator) {n : Nat}
    (hn : r.byLocator.size < n) (hring : n ≤ 2 ^ 20) :
    ∃ k < n, r.byLocator.lookup (Locator.wrappingNext^[k] l) = none := by
  by_contra hall
  have hnodup : ((List.range n).map fun k => Locator.wrappingNext^[k] l).Nodup := by
    refine List.Nodup.map_on (fun j hj k hk hjk => ?_) List.nodup_range
    rw [List.mem_range] at hj hk
    exact iterate_wrappingNext_injective l (by omega) (by omega) hjk
  have hlen := Table.length_le_size (t := r.byLocator) hnodup (by
    intro x hx hnone
    obtain ⟨k, hk, rfl⟩ := List.mem_map.1 hx
    exact hall ⟨k, List.mem_range.1 hk, hnone⟩)
  rw [List.length_map, List.length_range] at hlen
  omega

/-- The candidate after `k` steps is free, and none before it is. -/
def FirstFree (r : Registry Peer Source) (start : Locator) (k : Nat) : Prop :=
  r.byLocator.lookup (Locator.wrappingNext^[k] start) = none ∧
    ∀ j < k, r.byLocator.lookup (Locator.wrappingNext^[j] start) ≠ none

theorem findFree_ok (r : Registry Peer Source) (fuel : Nat) (l : Locator)
    (h : ∃ k < fuel, r.byLocator.lookup (Locator.wrappingNext^[k] l) = none) :
    ∃ k, r.findFree fuel l = .ok (Locator.wrappingNext^[k] l) ∧ r.FirstFree l k := by
  induction fuel generalizing l with
  | zero =>
    obtain ⟨k, hk, -⟩ := h
    exact absurd hk (Nat.not_lt_zero k)
  | succ fuel ih =>
    unfold findFree
    split
    case isTrue hfree =>
      exact ⟨0, rfl, Option.isNone_iff_eq_none.1 hfree, fun j hj => absurd hj (Nat.not_lt_zero j)⟩
    case isFalse htaken =>
      rw [Option.isNone_iff_eq_none] at htaken
      obtain ⟨k, hk, hnone⟩ := h
      cases k with
      | zero => exact absurd hnone htaken
      | succ k =>
        obtain ⟨m, hfind, hfree, hfirst⟩ :=
          ih l.wrappingNext ⟨k, Nat.lt_of_succ_lt_succ hk, hnone⟩
        refine ⟨m + 1, hfind, hfree, fun j hj => ?_⟩
        cases j with
        | zero => exact htaken
        | succ j => exact hfirst j (Nat.lt_of_succ_lt_succ hj)

/-! ## Calls of an owner

Every call works on the registry `s` that is left after pruning. -/

/-- A call of `owner` changes nothing or gives the owner a mapping. -/
inductive Given (owner : Peer) (s : Registry Peer Source) : Registry Peer Source → Prop
  | same : Given owner s s
  | inserted {locator : Locator} {source : Source} (havail : s.isAvailable owner = true)
      (hnew : s.byOwner.lookup owner = none) (hfree : s.byLocator.lookup locator = none)
      (hcap : s.hasCapacity source = true) : Given owner s (s.insert locator owner source)

theorem Given.coherent {owner : Peer} {t : Registry Peer Source} (h : Given owner s t)
    (hs : s.Coherent) : t.Coherent := by
  cases h with
  | same => exact hs
  | inserted havail hnew hfree hcap => exact coherent_insert hs hfree hnew hcap havail

/-- The answers of `allocate`, with what each of them requires. -/
inductive Allocated (s : Registry Peer Source) (owner : Peer) (source : Source)
    (random : Option (UInt8 × UInt8 × UInt8)) :
    Except RegistryError RegistryResponse → Registry Peer Source → Prop
  | unavailable (h : s.isAvailable owner = false) :
      Allocated s owner source random (.ok .reservationRequired) s
  | existing {locator : Locator} (h : s.byOwner.lookup owner = some locator) :
      Allocated s owner source random (.ok (.acquired locator)) s
  | full (hnew : s.byOwner.lookup owner = none) (h : s.hasCapacity source = false) :
      Allocated s owner source random (.ok .capacity) s
  | noRandom (hnew : s.byOwner.lookup owner = none) (h : random = none) :
      Allocated s owner source random (.error .random) s
  | fresh {b₀ b₁ b₂ : UInt8} {k : Nat} (hrandom : random = some (b₀, b₁, b₂))
      (havail : s.isAvailable owner = true) (hnew : s.byOwner.lookup owner = none)
      (hcap : s.hasCapacity source = true) (hfirst : s.FirstFree (.random b₀ b₁ b₂) k) :
      Allocated s owner source random
        (.ok (.acquired (Locator.wrappingNext^[k] (.random b₀ b₁ b₂))))
        (s.insert (Locator.wrappingNext^[k] (.random b₀ b₁ b₂)) owner source)

theorem Allocated.given {owner : Peer} {source : Source}
    {random : Option (UInt8 × UInt8 × UInt8)} {a : Except RegistryError RegistryResponse}
    {t : Registry Peer Source} (h : Allocated s owner source random a t) : Given owner s t := by
  cases h with
  | fresh _ havail hnew hcap hfirst => exact .inserted havail hnew hfirst.1 hcap
  | _ => exact .same

theorem allocate_spec (hs : s.Coherent) {now : Nat} {i : Iteration Locator (Mapping Peer Source)}
    (hprune : r.prune now i = .ok s) (owner : Peer) (source : Source)
    (random : Option (UInt8 × UInt8 × UInt8)) :
    ∃ a t, r.allocate owner source random now i = .ok (a, t) ∧
      Allocated s owner source random a t := by
  unfold allocate
  rw [hprune]
  simp only [bind, Except.bind]
  split
  case isTrue havail => exact ⟨_, s, rfl, .unavailable havail⟩
  case isFalse havail =>
    split
    case h_1 hown => exact ⟨_, s, rfl, .existing hown⟩
    case h_2 hnew =>
      split
      case isTrue hcap => exact ⟨_, s, rfl, .full hnew hcap⟩
      case isFalse hcap =>
        split
        case h_1 => exact ⟨_, s, rfl, .noRandom hnew rfl⟩
        case h_2 b₀ b₁ b₂ =>
          have hsize : s.byLocator.size < 2 ^ 20 := by
            have hbound := Nat.le_trans hs.capacity s.limits.capacity_le
            unfold maxRegistrationCapacity at hbound
            omega
          obtain ⟨k, hfind, hfirst⟩ := findFree_ok s (2 ^ 20) (.random b₀ b₁ b₂)
            (exists_free s _ hsize (Nat.le_refl _))
          rw [hfind]
          exact ⟨_, _, rfl, .fresh rfl (by simpa using havail) hnew (by simpa using hcap) hfirst⟩

/-- The answers of `reclaim`, with what each of them requires. -/
inductive Reclaimed (s : Registry Peer Source) (owner : Peer) (source : Source)
    (locator : Locator) : RegistryResponse → Registry Peer Source → Prop
  | unavailable (h : s.isAvailable owner = false) :
      Reclaimed s owner source locator .reservationRequired s
  | existing (havail : s.isAvailable owner = true) (h : s.byOwner.lookup owner = some locator) :
      Reclaimed s owner source locator (.acquired locator) s
  | other {l : Locator} (h : s.byOwner.lookup owner = some l) (hne : l ≠ locator) :
      Reclaimed s owner source locator .conflict s
  | taken (hnew : s.byOwner.lookup owner = none) (h : s.byLocator.lookup locator ≠ none) :
      Reclaimed s owner source locator .conflict s
  | full (hnew : s.byOwner.lookup owner = none) (h : s.hasCapacity source = false) :
      Reclaimed s owner source locator .capacity s
  | fresh (havail : s.isAvailable owner = true) (hnew : s.byOwner.lookup owner = none)
      (hfree : s.byLocator.lookup locator = none) (hcap : s.hasCapacity source = true) :
      Reclaimed s owner source locator (.acquired locator) (s.insert locator owner source)

theorem Reclaimed.given {owner : Peer} {source : Source} {a : RegistryResponse}
    {t : Registry Peer Source} (h : Reclaimed s owner source locator a t) : Given owner s t := by
  cases h with
  | fresh havail hnew hfree hcap => exact .inserted havail hnew hfree hcap
  | _ => exact .same

theorem reclaim_spec {now : Nat} {i : Iteration Locator (Mapping Peer Source)}
    (hprune : r.prune now i = .ok s) (owner : Peer) (source : Source) (locator : Locator) :
    ∃ a t, r.reclaim owner source locator now i = .ok (a, t) ∧
      Reclaimed s owner source locator a t := by
  unfold reclaim
  rw [hprune]
  simp only [bind, Except.bind]
  split
  case isTrue havail => exact ⟨_, s, rfl, .unavailable havail⟩
  case isFalse havail =>
    have havail : s.isAvailable owner = true := by simpa using havail
    split
    case h_1 existing hown =>
      split
      case isTrue heq => exact ⟨_, s, rfl, .existing havail (heq ▸ hown)⟩
      case isFalse hne => exact ⟨_, s, rfl, .other hown hne⟩
    case h_2 hnew =>
      split
      case isTrue htaken => exact ⟨_, s, rfl, .taken hnew (Option.isSome_iff_ne_none.1 htaken)⟩
      case isFalse hfree =>
        split
        case isTrue hcap => exact ⟨_, s, rfl, .full hnew hcap⟩
        case isFalse hcap =>
          exact ⟨_, _, rfl, .fresh havail hnew (by simpa using hfree) (by simpa using hcap)⟩

theorem release_spec (hs : s.Indexed) {now : Nat} {i : Iteration Locator (Mapping Peer Source)}
    (hprune : r.prune now i = .ok s) (owner : Peer) (locator : Locator) :
    ∃ t, r.release owner locator now i = .ok (.released, t) ∧
      (s.byOwner.lookup owner = some locator ∧ s.Without (· = locator) t ∨
        s.byOwner.lookup owner ≠ some locator ∧ t = s) := by
  unfold release
  rw [hprune]
  simp only [bind, Except.bind]
  split
  case isTrue hown =>
    obtain ⟨t, hremove, ht⟩ := remove_ok hs locator
    rw [hremove]
    exact ⟨t, rfl, .inl ⟨hown, ht⟩⟩
  case isFalse hown => exact ⟨s, rfl, .inr ⟨hown, rfl⟩⟩

theorem resolve_spec (toBytes : Peer → Bytes) {now : Nat}
    {i : Iteration Locator (Mapping Peer Source)} (hprune : r.prune now i = .ok s)
    (locator : Locator) : ∃ a, r.resolve toBytes locator now i = .ok (a, s) ∧
      ∀ peer, a = .ok (.resolved peer) → ∃ mapping, s.byLocator.lookup locator = some mapping ∧
        mapping.state = .active ∧ peer = toBytes mapping.owner := by
  unfold resolve
  rw [hprune]
  simp only [bind, Except.bind]
  cases hm : s.byLocator.lookup locator with
  | none => exact ⟨_, rfl, fun peer => by rintro ⟨⟩⟩
  | some mapping =>
    cases hstate : mapping.state with
    | suspended since =>
      simp only [hstate]
      exact ⟨_, rfl, fun peer => by rintro ⟨⟩⟩
    | active =>
      simp only [hstate]
      refine ⟨_, rfl, fun peer hpeer => ⟨mapping, rfl, hstate, ?_⟩⟩
      unfold boundedPeerId at hpeer
      split at hpeer
      case isTrue => cases hpeer
      case isFalse => cases hpeer; rfl

/-! ## Runs -/

/-- A call, with the clock readings, the random bytes and the order of iteration it meets. -/
inductive Call (Peer Source : Type) where
  | setReservation (peer : Peer) (available : Bool) (now later : Nat)
      (i : Iteration Locator (Mapping Peer Source))
  | setConnection (peer : Peer) (available : Bool) (now later : Nat)
      (i : Iteration Locator (Mapping Peer Source))
  | allocate (owner : Peer) (source : Source) (random : Option (UInt8 × UInt8 × UInt8)) (now : Nat)
      (i : Iteration Locator (Mapping Peer Source))
  | reclaim (owner : Peer) (source : Source) (locator : Locator) (now : Nat)
      (i : Iteration Locator (Mapping Peer Source))
  | release (owner : Peer) (locator : Locator) (now : Nat)
      (i : Iteration Locator (Mapping Peer Source))
  | resolve (locator : Locator) (now : Nat) (i : Iteration Locator (Mapping Peer Source))

/-- The registry after a call. -/
def call (toBytes : Peer → Bytes) (r : Registry Peer Source) :
    Call Peer Source → Except Panic (Registry Peer Source)
  | .setReservation peer available now later i => r.setReservation peer available now later i
  | .setConnection peer available now later i => r.setConnection peer available now later i
  | .allocate owner source random now i => (r.allocate owner source random now i).map Prod.snd
  | .reclaim owner source locator now i => (r.reclaim owner source locator now i).map Prod.snd
  | .release owner locator now i => (r.release owner locator now i).map Prod.snd
  | .resolve locator now i => (r.resolve toBytes locator now i).map Prod.snd

/-- One call neither panics nor breaks the indexes. -/
theorem call_ok (toBytes : Peer → Bytes) (h : r.Coherent) (c : Call Peer Source) :
    ∃ s, r.call toBytes c = .ok s ∧ s.Coherent := by
  have hprune : ∀ now i, ∃ s, r.prune now i = .ok s ∧ s.Coherent := by
    intro now i
    obtain ⟨s, hprune, hs⟩ := prune_ok h.toIndexed now i
    exact ⟨s, hprune, hs.coherent h⟩
  cases c with
  | setReservation peer available now later i => exact setReservation_ok h peer available now later i
  | setConnection peer available now later i =>
    obtain ⟨s, hset, hs, -⟩ := setConnection_ok h peer available now later i
    exact ⟨s, hset, hs⟩
  | allocate owner source random now i =>
    obtain ⟨s, hprune, hs⟩ := hprune now i
    obtain ⟨a, t, hcall, hspec⟩ := allocate_spec hs hprune owner source random
    exact ⟨t, by rw [call, hcall]; rfl, hspec.given.coherent hs⟩
  | reclaim owner source locator now i =>
    obtain ⟨s, hprune, hs⟩ := hprune now i
    obtain ⟨a, t, hcall, hspec⟩ := reclaim_spec hprune owner source locator
    exact ⟨t, by rw [call, hcall]; rfl, hspec.given.coherent hs⟩
  | release owner locator now i =>
    obtain ⟨s, hprune, hs⟩ := hprune now i
    obtain ⟨t, hcall, ⟨hown, ht⟩ | ⟨-, rfl⟩⟩ := release_spec hs.toIndexed hprune owner locator
    · exact ⟨t, by rw [call, hcall]; rfl, ht.coherent hs⟩
    · exact ⟨t, by rw [call, hcall]; rfl, hs⟩
  | resolve locator now i =>
    obtain ⟨s, hprune, hs⟩ := hprune now i
    obtain ⟨a, hcall, -⟩ := resolve_spec toBytes hprune locator
    exact ⟨s, by rw [call, hcall]; rfl, hs⟩

theorem calls_ok (toBytes : Peer → Bytes) (h : r.Coherent) (calls : List (Call Peer Source)) :
    ∃ s, calls.foldlM (call toBytes) r = .ok s ∧ s.Coherent := by
  induction calls generalizing r with
  | nil => exact ⟨r, rfl, h⟩
  | cons c rest ih =>
    obtain ⟨r₁, hcall, h₁⟩ := call_ok toBytes h c
    obtain ⟨s, hrest, hs⟩ := ih h₁
    exact ⟨s, by rw [List.foldlM_cons, hcall]; exact hrest, hs⟩

end Yonder.Relay.Registry
