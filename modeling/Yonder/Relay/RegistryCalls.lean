import Yonder.Relay.Coherence

/-!
# What the calls of an owner do

`allocate`, `reclaim` and `release` first drop the mappings that have expired. On what is left they
touch nothing but the mapping of the caller: `Given.others` and `Without.others` say so for the
mappings of all other owners, and `Table.count_congr` carries it over to the counters. The answers themselves are those of
`Allocated`, `Reclaimed` and `release_spec`.
-/

namespace Yonder.Relay.Registry

open Lib

variable {Peer Source : Type} [DecidableEq Peer] [DecidableEq Source]

variable {r s t : Registry Peer Source} {owner : Peer} {now : Nat}

/-- The mappings of the other owners in `t` are those in `r` that have not expired, and so are their
counts by source. -/
structure KeepsOthers (owner : Peer) (now : Nat) (r t : Registry Peer Source) : Prop where
  mappings : ∀ locator mapping, mapping.owner ≠ owner →
    (t.byLocator.lookup locator = some mapping ↔
      r.byLocator.lookup locator = some mapping ∧ expired now mapping = false)
  counts : ∀ source,
    (t.byLocator.count fun m => decide (m.owner ≠ owner ∧ m.source = source)) =
      r.byLocator.count fun m => decide ((m.owner ≠ owner ∧ m.source = source) ∧ expired now m = false)

theorem Without.lookup_pruned (h : r.Without (r.Expired now) s) (locator : Locator)
    (mapping : Mapping Peer Source) : s.byLocator.lookup locator = some mapping ↔
      r.byLocator.lookup locator = some mapping ∧ expired now mapping = false := by
  rw [h.lookup]
  constructor
  · intro hm
    split at hm
    case isTrue => cases hm
    case isFalse hfresh =>
      refine ⟨hm, ?_⟩
      rw [Expired, hm] at hfresh
      exact eq_false_of_ne_true hfresh
  · rintro ⟨hm, hfresh⟩
    rw [if_neg, hm]
    rw [Expired, hm]
    exact ne_true_of_eq_false hfresh

/-- A mapping that is given leaves the mappings of the others. -/
theorem Given.others (h : Given owner s t) (locator : Locator) (mapping : Mapping Peer Source)
    (hne : mapping.owner ≠ owner) :
    t.byLocator.lookup locator = some mapping ↔ s.byLocator.lookup locator = some mapping := by
  cases h with
  | same => rfl
  | @inserted l source havail hnew hfree hcap =>
    rw [insert, Table.lookup_insert]
    split
    case isTrue heq =>
      rw [heq, hfree]
      refine ⟨fun h => absurd (congrArg Mapping.owner (Option.some.inj h)).symm hne, ?_⟩
      rintro ⟨⟩
    case isFalse => rfl

/-- So does the removal of the caller's mapping. -/
theorem Without.others {l : Locator} (h : s.Without (· = l) t) (hs : s.Indexed)
    (hown : s.byOwner.lookup owner = some l) (locator : Locator) (mapping : Mapping Peer Source)
    (hne : mapping.owner ≠ owner) :
    t.byLocator.lookup locator = some mapping ↔ s.byLocator.lookup locator = some mapping := by
  rw [h.lookup]
  split
  case isTrue heq =>
    refine ⟨by rintro ⟨⟩, fun hm => ?_⟩
    rw [heq] at hm
    obtain ⟨m, hm', howner⟩ := (hs.inverse _ _).1 hown
    rw [hm] at hm'
    cases hm'
    exact absurd howner hne
  case isFalse => rfl

theorem keepsOthers_of_others (hs : r.Without (r.Expired now) s)
    (h : ∀ (locator : Locator) (mapping : Mapping Peer Source), mapping.owner ≠ owner →
      (t.byLocator.lookup locator = some mapping ↔ s.byLocator.lookup locator = some mapping)) :
    KeepsOthers owner now r t := by
  have hothers : ∀ locator mapping, mapping.owner ≠ owner →
      (t.byLocator.lookup locator = some mapping ↔
        r.byLocator.lookup locator = some mapping ∧ expired now mapping = false) :=
    fun locator mapping hne =>
      (h locator mapping hne).trans (hs.lookup_pruned locator mapping)
  refine ⟨hothers, fun source => Table.count_congr fun locator mapping => ?_⟩
  rw [decide_eq_true_eq, decide_eq_true_eq]
  constructor
  · rintro ⟨hm, hne, hsource⟩
    obtain ⟨hm, hfresh⟩ := (hothers locator mapping hne).1 hm
    exact ⟨hm, ⟨hne, hsource⟩, hfresh⟩
  · rintro ⟨hm, ⟨hne, hsource⟩, hfresh⟩
    exact ⟨(hothers locator mapping hne).2 ⟨hm, hfresh⟩, hne, hsource⟩

/-- Whether an answer of `allocate` gives a locator. -/
def gives : Except RegistryError RegistryResponse → Bool
  | .ok (.acquired _) => true
  | _ => false

section

variable {source : Source} {random : Option (UInt8 × UInt8 × UInt8)}
  {answer : Except RegistryError RegistryResponse}

theorem Allocated.of_not_gives (h : Allocated s owner source random answer t)
    (hgives : gives answer = false) : t = s := by
  cases h with
  | fresh => cases hgives
  | _ => rfl

theorem Allocated.of_existing (h : Allocated s owner source random answer t)
    (havail : s.isAvailable owner = true) {locator : Locator}
    (hown : s.byOwner.lookup owner = some locator) :
    answer = .ok (.acquired locator) ∧ t = s := by
  cases h with
  | unavailable h => rw [havail] at h; cases h
  | existing h => rw [hown] at h; cases h; exact ⟨rfl, rfl⟩
  | full hnew => rw [hown] at hnew; cases hnew
  | noRandom hnew => rw [hown] at hnew; cases hnew
  | fresh _ _ hnew => rw [hown] at hnew; cases hnew

theorem Allocated.of_fresh {b₀ b₁ b₂ : UInt8}
    (h : Allocated s owner source (some (b₀, b₁, b₂)) answer t)
    (havail : s.isAvailable owner = true) (hnew : s.byOwner.lookup owner = none)
    (hcap : s.hasCapacity source = true) : ∃ k, s.FirstFree (.random b₀ b₁ b₂) k ∧
      answer = .ok (.acquired (Locator.wrappingNext^[k] (.random b₀ b₁ b₂))) ∧
      t = s.insert (Locator.wrappingNext^[k] (.random b₀ b₁ b₂)) owner source := by
  cases h with
  | unavailable h => rw [havail] at h; cases h
  | existing h => rw [hnew] at h; cases h
  | full _ h => rw [hcap] at h; cases h
  | noRandom _ h => cases h
  | fresh hrandom _ _ _ hfirst => cases hrandom; exact ⟨_, hfirst, rfl, rfl⟩

end

theorem Reclaimed.of_not_gives {source : Source} {locator : Locator} {a : RegistryResponse}
    (h : Reclaimed s owner source locator a t) (hgives : gives (.ok a) = false) : t = s := by
  cases h with
  | fresh => cases hgives
  | _ => rfl

theorem Reclaimed.acquired_iff {source : Source} {locator : Locator} {a : RegistryResponse}
    (h : Reclaimed s owner source locator a t) : a = .acquired locator ↔
      s.isAvailable owner = true ∧ (s.byOwner.lookup owner = some locator ∨
        s.byOwner.lookup owner = none ∧ s.byLocator.lookup locator = none ∧
          s.hasCapacity source = true) := by
  cases h with
  | unavailable h => simp [h]
  | existing havail h => simp [havail, h]
  | other h hne => simp [h, hne]
  | taken hnew h => simp [hnew, h]
  | full hnew h => simp [hnew, h]
  | fresh havail hnew hfree hcap => simp [havail, hnew, hfree, hcap]

theorem Reclaimed.owner_of_acquired {source : Source} {locator : Locator} {a : RegistryResponse}
    (h : Reclaimed s owner source locator a t) (ha : a = .acquired locator) :
    t.byOwner.lookup owner = some locator := by
  cases h with
  | existing _ h => exact h
  | fresh => rw [insert, Table.lookup_insert, if_pos rfl]
  | _ => cases ha

/-- In every registry that calls can lead to, with `s` for the registry without its expired mappings:

* an available owner that has a mapping is given its locator again; one that has none is given, if
  the limits allow it, the first free locator in the ring from the random start;
* `reclaim` gives an available owner the locator exactly if it has it, or has no mapping while the
  locator is free and the limits allow it;
* `release` removes the mapping of the locator if it is the caller's;
* none of them touches another owner's mapping or count, and an answer without a locator changes
  nothing. -/
theorem owner_calls (toBytes : Peer → Bytes) (limits : RegistrationLimits) (retryAfter : Nat)
    (calls : List (Call Peer Source)) :
    ∃ r, calls.foldlM (call toBytes) (withLimits limits retryAfter) = .ok r ∧
      ∀ (now : Nat) (i : Iteration Locator (Mapping Peer Source)), ∃ s, r.prune now i = .ok s ∧
        r.Without (r.Expired now) s ∧ ∀ owner : Peer,
        (∀ source random, ∃ a t, r.allocate owner source random now i = .ok (a, t) ∧
          (s.isAvailable owner = true →
            (∀ locator, s.byOwner.lookup owner = some locator → a = .ok (.acquired locator) ∧ t = s) ∧
            ∀ b₀ b₁ b₂, random = some (b₀, b₁, b₂) → s.byOwner.lookup owner = none →
              s.hasCapacity source = true → ∃ k, s.FirstFree (.random b₀ b₁ b₂) k ∧
                a = .ok (.acquired (Locator.wrappingNext^[k] (.random b₀ b₁ b₂))) ∧
                t = s.insert (Locator.wrappingNext^[k] (.random b₀ b₁ b₂)) owner source) ∧
          KeepsOthers owner now r t ∧ (gives a = false → t = s)) ∧
        (∀ source locator, ∃ a t, r.reclaim owner source locator now i = .ok (a, t) ∧
          (a = .acquired locator ↔ s.isAvailable owner = true ∧
            (s.byOwner.lookup owner = some locator ∨ s.byOwner.lookup owner = none ∧
              s.byLocator.lookup locator = none ∧ s.hasCapacity source = true)) ∧
          (a = .acquired locator → t.byOwner.lookup owner = some locator) ∧
          KeepsOthers owner now r t ∧ (gives (.ok a) = false → t = s)) ∧
        ∀ locator, ∃ t, r.release owner locator now i = .ok (.released, t) ∧
          (∀ l, t.byLocator.lookup l =
            if l = locator ∧ s.byOwner.lookup owner = some locator then none
            else s.byLocator.lookup l) ∧
          KeepsOthers owner now r t := by
  obtain ⟨r, hrun, hr⟩ := calls_ok toBytes (coherent_withLimits limits retryAfter) calls
  refine ⟨r, hrun, fun now i => ?_⟩
  obtain ⟨s, hprune, hwithout⟩ := prune_ok hr.toIndexed now i
  have hs := hwithout.coherent hr
  refine ⟨s, hprune, hwithout, fun owner => ⟨?_, ?_, ?_⟩⟩
  · intro source random
    obtain ⟨a, t, hcall, hspec⟩ := allocate_spec hs hprune owner source random
    refine ⟨a, t, hcall, fun havail => ⟨?_, ?_⟩, keepsOthers_of_others hwithout hspec.given.others,
      hspec.of_not_gives⟩
    · intro locator hown
      exact hspec.of_existing havail hown
    · rintro b₀ b₁ b₂ rfl hnew hcap
      exact hspec.of_fresh havail hnew hcap
  · intro source locator
    obtain ⟨a, t, hcall, hspec⟩ := reclaim_spec hprune owner source locator
    exact ⟨a, t, hcall, hspec.acquired_iff, hspec.owner_of_acquired,
      keepsOthers_of_others hwithout hspec.given.others, hspec.of_not_gives⟩
  · intro locator
    obtain ⟨t, hcall, ⟨hown, ht⟩ | ⟨hown, rfl⟩⟩ := release_spec hs.toIndexed hprune owner locator
    · refine ⟨t, hcall, fun l => ?_,
        keepsOthers_of_others hwithout (ht.others hs.toIndexed hown)⟩
      rw [ht.lookup]
      simp only [hown, and_true]
    · refine ⟨t, hcall, fun l => ?_,
        keepsOthers_of_others hwithout fun _ _ _ => Iff.rfl⟩
      simp only [hown, and_false, if_false]

/-- Limits for `n` mappings. -/
def smallLimits (n : Nat) (hpos : 1 ≤ n) (hle : n ≤ maxRegistrationCapacity) : RegistrationLimits :=
  ⟨n, n, hpos, hle, hpos, le_rfl⟩

/-- Peer `0` becomes available and allocates a locator. -/
def firstAllocation : List (Call Nat Nat) :=
  [.setReservation 0 true 0 0 (.inOrder _ _), .setConnection 0 true 0 0 (.inOrder _ _),
    .allocate 0 0 (some (0, 0, 0)) 0 (.inOrder _ _)]

/-- There is room, but an owner without the two signals is given nothing, and one that has a mapping
is not given another locator that is free. Without room the owner is given its own locator. -/
theorem calls_beyond_limits :
    (∃ r : Registry Nat Nat, firstAllocation.foldlM (call fun _ => [0])
        (withLimits (smallLimits 2 (by decide) (by decide)) 0) = .ok r ∧ r.hasCapacity 0 = true ∧
      (r.allocate 1 0 (some (0, 0, 0)) 0 (.inOrder _ _)).map Prod.fst =
        .ok (.ok .reservationRequired) ∧
      r.isAvailable 0 = true ∧ r.byLocator.lookup ⟨1, by decide⟩ = none ∧
      (r.reclaim 0 0 ⟨1, by decide⟩ 0 (.inOrder _ _)).map Prod.fst = .ok .conflict) ∧
    ∃ r : Registry Nat Nat, firstAllocation.foldlM (call fun _ => [0])
        (withLimits (smallLimits 1 (by decide) (by decide)) 0) = .ok r ∧ r.hasCapacity 0 = false ∧
      (r.reclaim 0 0 ⟨0, by decide⟩ 0 (.inOrder _ _)).map Prod.fst =
        .ok (.acquired ⟨0, by decide⟩) :=
  ⟨⟨_, rfl, by decide, rfl, by decide, by decide, rfl⟩, _, rfl, by decide, rfl⟩

end Yonder.Relay.Registry
