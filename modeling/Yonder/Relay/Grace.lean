import Yonder.Relay.RegistryCalls

/-!
# The suspension grace

A mapping is suspended by the call that takes one of the two signals from its owner, and the calls
that come later remove it once the grace is over; nothing happens in between. `called` says which
mappings there are after a call, and two invariants of a run follow: while every reading stays within
the grace the mapping is there (`Present`), and while the owner stays unavailable the start of the
suspension stays (`Suspended`).
-/

namespace Yonder.Relay.Registry

open Lib

variable {Peer Source : Type} [DecidableEq Peer] [DecidableEq Source]

namespace Call

/-- The reading with which a call prunes. -/
def start : Call Peer Source → Nat
  | .setReservation _ _ now _ _ => now
  | .setConnection _ _ now _ _ => now
  | .allocate _ _ _ now _ => now
  | .reclaim _ _ _ now _ => now
  | .release _ _ now _ => now
  | .resolve _ now _ => now

/-- The last reading of a call. -/
def done : Call Peer Source → Nat
  | .setReservation _ _ _ later _ => later
  | .setConnection _ _ _ later _ => later
  | c => c.start

/-- The peer whose signal a call reports. -/
def signals : Call Peer Source → Option Peer
  | .setReservation peer .. => some peer
  | .setConnection peer .. => some peer
  | _ => none

/-- The call asks for a locator for `owner`. -/
def Acquires (owner : Peer) : Call Peer Source → Prop
  | .allocate o .. => o = owner
  | .reclaim o .. => o = owner
  | _ => False

/-- The call gives `locator` back for `owner`. -/
def Releases (owner : Peer) (locator : Locator) : Call Peer Source → Prop
  | .release o l .. => o = owner ∧ l = locator
  | _ => False

/-- The call takes a signal from `owner`; `since` is the reading that a suspension starts with. -/
def Loses (owner : Peer) (since : Nat) (c : Call Peer Source) : Prop :=
  ∃ now i, c = .setReservation owner false now since i ∨ c = .setConnection owner false now since i

/-- A mapping after a call that leaves its owner available or not. -/
def after (c : Call Peer Source) (available : Bool) (m : Mapping Peer Source) :
    Mapping Peer Source :=
  if c.signals = some m.owner then { m with state := refreshedState available c.done m.state } else m

end Call

/-- The readings of the calls do not decrease. -/
def Ordered (calls : List (Call Peer Source)) : Prop :=
  (calls.flatMap fun c => [c.start, c.done]).Pairwise (· ≤ ·)

/-! ## The mappings after a call -/

section

variable {r s t : Registry Peer Source} {c : Call Peer Source} {toBytes : Peer → Bytes}
  {owner : Peer} {locator : Locator} {mapping : Mapping Peer Source}

theorem Given.isAvailable (h : Given owner s t) (peer : Peer) :
    t.isAvailable peer = s.isAvailable peer := by
  cases h <;> rfl

theorem Given.keeps (h : Given owner s t) (hm : s.byLocator.lookup locator = some mapping) :
    t.byLocator.lookup locator = some mapping := by
  cases h with
  | same => exact hm
  | @inserted l source havail hnew hfree hcap =>
    rw [insert, Table.lookup_insert, if_neg, hm]
    rintro rfl
    rw [hfree] at hm
    cases hm

theorem Given.origin (h : Given owner s t) (hm : t.byLocator.lookup locator = some mapping) :
    s.byLocator.lookup locator = some mapping ∨
      mapping.owner = owner ∧ s.isAvailable owner = true := by
  cases h with
  | same => exact .inl hm
  | @inserted l source havail hnew hfree hcap =>
    rw [insert, Table.lookup_insert] at hm
    split at hm
    case isTrue => cases hm; exact .inr ⟨rfl, havail⟩
    case isFalse => exact .inl hm

/-- What a call does to the mappings: those that have not expired are kept, with the state that a
signal gives them, unless the call releases them, and there are no others but one that the call
acquires. -/
structure Called (r : Registry Peer Source) (c : Call Peer Source) (t : Registry Peer Source) :
    Prop where
  keeps : ∀ l m, r.byLocator.lookup l = some m → expired c.start m = false →
    ¬ c.Releases m.owner l → t.byLocator.lookup l = some (c.after (t.isAvailable m.owner) m)
  origin : ∀ l m, t.byLocator.lookup l = some m →
    (∃ m₀, r.byLocator.lookup l = some m₀ ∧ expired c.start m₀ = false ∧
      m = c.after (t.isAvailable m₀.owner) m₀) ∨
    c.Acquires m.owner ∧ t.isAvailable m.owner = true

/-- A call that is no signal, from what it does to the registry that is left after pruning. -/
theorem called_of_pruned (hc : c.signals = none) (hs : r.Without (r.Expired c.start) s)
    (hkeeps : ∀ l m, s.byLocator.lookup l = some m → ¬ c.Releases m.owner l →
      t.byLocator.lookup l = some m)
    (horigin : ∀ l m, t.byLocator.lookup l = some m → s.byLocator.lookup l = some m ∨
      c.Acquires m.owner ∧ t.isAvailable m.owner = true) : Called r c t := by
  have hafter : ∀ available m, c.after available m = m := by
    intro available m
    rw [Call.after, hc, if_neg nofun]
  refine ⟨fun l m hm hfresh hrelease => ?_, fun l m hm => ?_⟩
  · rw [hafter]
    exact hkeeps l m ((hs.lookup_pruned l m).2 ⟨hm, hfresh⟩) hrelease
  · refine (horigin l m hm).imp_left fun hs' => ?_
    obtain ⟨hr, hfresh⟩ := (hs.lookup_pruned l m).1 hs'
    exact ⟨m, hr, hfresh, (hafter _ m).symm⟩

theorem called_of_given (hc : c.signals = none) (hacquires : c.Acquires owner)
    (hs : r.Without (r.Expired c.start) s) (h : Given owner s t) : Called r c t := by
  refine called_of_pruned hc hs (fun l m hm _ => h.keeps hm) fun l m hm => ?_
  refine (h.origin hm).imp_right ?_
  rintro ⟨howner, havail⟩
  rw [howner, h.isAvailable]
  exact ⟨hacquires, havail⟩

/-- A signal, from what it does once the membership is changed. -/
theorem called_of_refresh (r' : Registry Peer Source) (hbase : r'.byLocator = r.byLocator)
    (h : r'.Indexed) {peer : Peer} (hc : c.signals = some peer)
    {i : Iteration Locator (Mapping Peer Source)}
    (hrefresh : r'.refresh peer c.start c.done i = .ok t) : Called r c t := by
  obtain ⟨s, t', hs, hrefresh', -, havail, -, hlookup⟩ := refresh_spec h peer c.start c.done i
  cases hrefresh.symm.trans hrefresh'
  have hafter : ∀ m : Mapping Peer Source, (if m.owner = peer then
      { m with state := refreshedState (r'.isAvailable peer) c.done m.state } else m) =
        c.after (t.isAvailable m.owner) m := by
    intro m
    rw [Call.after, hc, havail]
    by_cases howner : m.owner = peer
    · rw [if_pos howner, if_pos (by rw [howner]), howner]
    · rw [if_neg howner, if_neg fun heq => howner (Option.some.inj heq).symm]
  refine ⟨fun l m hm hfresh _ => ?_, fun l m hm => .inl ?_⟩
  · rw [← hbase] at hm
    rw [hlookup, (hs.lookup_pruned l m).2 ⟨hm, hfresh⟩, Option.map_some, hafter]
  · rw [hlookup] at hm
    obtain ⟨m₀, hm₀, rfl⟩ := Option.map_eq_some_iff.1 hm
    obtain ⟨hr, hfresh⟩ := (hs.lookup_pruned l m₀).1 hm₀
    exact ⟨m₀, hbase ▸ hr, hfresh, hafter m₀⟩

theorem called (h : r.Coherent) (hcall : r.call toBytes c = .ok t) : Called r c t := by
  have hsnd : ∀ {α : Type} {e : Except Panic (α × Registry Peer Source)} {a : α}
      {u : Registry Peer Source}, e = .ok (a, u) → e.map Prod.snd = .ok t → u = t := by
    rintro α _ a u rfl heq
    exact Except.ok.inj heq
  cases c with
  | setReservation peer available now later i =>
    exact called_of_refresh { r with reservations := setMembership r.reservations peer available }
      rfl ⟨h.inverse, h.counted, h.capacity, h.quota⟩ rfl hcall
  | setConnection peer available now later i =>
    exact called_of_refresh { r with connections := setMembership r.connections peer available }
      rfl ⟨h.inverse, h.counted, h.capacity, h.quota⟩ rfl hcall
  | allocate owner source random now i =>
    obtain ⟨s, hprune, hs⟩ := prune_ok h.toIndexed now i
    obtain ⟨a, u, hspec, hgiven⟩ := allocate_spec (hs.coherent h) hprune owner source random
    cases hsnd hspec hcall
    exact called_of_given rfl rfl hs hgiven.given
  | reclaim owner source locator now i =>
    obtain ⟨s, hprune, hs⟩ := prune_ok h.toIndexed now i
    obtain ⟨a, u, hspec, hgiven⟩ := reclaim_spec hprune owner source locator
    cases hsnd hspec hcall
    exact called_of_given rfl rfl hs hgiven.given
  | release owner locator now i =>
    obtain ⟨s, hprune, hs⟩ := prune_ok h.toIndexed now i
    obtain ⟨u, hspec, ⟨hown, hu⟩ | ⟨-, rfl⟩⟩ := release_spec hs.indexed hprune owner locator
    · cases hsnd hspec hcall
      refine called_of_pruned rfl hs (fun l m hm hrelease => ?_) fun l m hm => .inl (hu.lookup_some hm)
      rw [hu.lookup, if_neg, hm]
      -- The mapping that goes is the one the call releases.
      rintro rfl
      obtain ⟨m', hm', howner⟩ := (hs.indexed.inverse _ _).1 hown
      rw [hm] at hm'
      cases hm'
      exact hrelease ⟨howner.symm, rfl⟩
    · cases hsnd hspec hcall
      exact called_of_pruned rfl hs (fun l m hm _ => hm) fun l m hm => .inl hm
  | resolve locator now i =>
    obtain ⟨s, hprune, hs⟩ := prune_ok h.toIndexed now i
    obtain ⟨a, hspec, -⟩ := resolve_spec toBytes hprune locator
    cases hsnd hspec hcall
    exact called_of_pruned rfl hs (fun l m hm _ => hm) fun l m hm => .inl hm

/-! ## Within the grace -/

/-- The mapping is there, and if it is suspended then not from before `since`. -/
def Present (locator : Locator) (mapping : Mapping Peer Source) (since : Nat)
    (r : Registry Peer Source) : Prop :=
  ∃ state, r.byLocator.lookup locator = some { mapping with state := state } ∧
    ∀ x, state = .suspended x → since ≤ x

theorem refreshedState_suspended {available : Bool} {later x : Nat} {state : MappingState}
    (h : refreshedState available later state = .suspended x) :
    state = .suspended x ∨ x = later := by
  cases state <;> cases available <;> simp_all [refreshedState]

theorem Present.call {since : Nat} (h : Present locator mapping since r) (hr : r.Coherent)
    (hcall : r.call toBytes c = .ok t) (hstart : c.start < since + suspendGrace)
    (hdone : since ≤ c.done) (hrelease : ¬ c.Releases mapping.owner locator) :
    Present locator mapping since t := by
  obtain ⟨state, hm, hsince⟩ := h
  have hfresh : expired c.start { mapping with state := state } = false := by
    cases state with
    | active => rfl
    | suspended x =>
      have hx := hsince x rfl
      simp only [expired, Bool.and_eq_false_iff, decide_eq_false_iff_not]
      omega
  have hkept := (called hr hcall).keeps _ _ hm hfresh hrelease
  rw [Call.after] at hkept
  split at hkept
  case isTrue =>
    refine ⟨_, hkept, fun x hx => ?_⟩
    rcases refreshedState_suspended hx with hx | rfl
    · exact hsince x hx
    · exact hdone
  case isFalse => exact ⟨state, hkept, hsince⟩

theorem Present.calls {since : Nat} {calls : List (Call Peer Source)}
    (h : Present locator mapping since r) (hr : r.Coherent)
    (hrun : calls.foldlM (Registry.call toBytes) r = .ok t)
    (hcalls : ∀ c ∈ calls, c.start < since + suspendGrace ∧ since ≤ c.done ∧
      ¬ c.Releases mapping.owner locator) : Present locator mapping since t := by
  induction calls generalizing r with
  | nil => cases hrun; exact h
  | cons c rest ih =>
    obtain ⟨r₁, hcall, h₁⟩ := call_ok toBytes hr c
    rw [List.foldlM_cons, hcall] at hrun
    obtain ⟨hstart, hdone, hrelease⟩ := hcalls c List.mem_cons_self
    exact ih (h.call hr hcall hstart hdone hrelease) h₁ hrun
      fun c' hc' => hcalls c' (List.mem_cons_of_mem _ hc')

/-! ## Behind the grace -/

/-- Every mapping of `owner` is suspended, and from `since` on at the latest. -/
def Suspended (owner : Peer) (since : Nat) (r : Registry Peer Source) : Prop :=
  ∀ l m, r.byLocator.lookup l = some m → m.owner = owner → ∃ x ≤ since, m.state = .suspended x

/-- No mapping is `owner`'s. -/
def Absent (owner : Peer) (r : Registry Peer Source) : Prop :=
  ∀ l m, r.byLocator.lookup l = some m → m.owner ≠ owner

theorem Absent.lookup (h : Absent owner r) (hr : r.Indexed) : r.byOwner.lookup owner = none := by
  cases hl : r.byOwner.lookup owner with
  | none => rfl
  | some l =>
    obtain ⟨m, hm, howner⟩ := (hr.inverse _ _).1 hl
    exact absurd howner (h l m hm)

theorem Suspended.expired {since now : Nat} (h : Suspended owner since r)
    (hnow : since + suspendGrace ≤ now) {l : Locator} {m : Mapping Peer Source}
    (hm : r.byLocator.lookup l = some m) (howner : m.owner = owner) :
    Registry.expired now m = true := by
  obtain ⟨x, hx, hstate⟩ := h l m hm howner
  simp only [Registry.expired, hstate, Bool.and_eq_true, decide_eq_true_eq]
  omega

theorem Suspended.call {since : Nat} (h : Suspended owner since r) (hr : r.Coherent)
    (hcall : r.call toBytes c = .ok t) (havail : t.isAvailable owner = false) :
    Suspended owner since t := by
  intro l m hm howner
  rcases (called hr hcall).origin l m hm with ⟨m₀, hm₀, -, rfl⟩ | ⟨-, hav⟩
  · have howner₀ : m₀.owner = owner := by
      rw [← howner, Call.after]
      split <;> rfl
    obtain ⟨x, hx, hstate⟩ := h l m₀ hm₀ howner₀
    refine ⟨x, hx, ?_⟩
    rw [Call.after]
    split
    case isTrue => rw [howner₀, havail, hstate]; rfl
    case isFalse => exact hstate
  · rw [howner, havail] at hav
    cases hav

/-- A call behind the grace finds nothing of an owner that is suspended, and leaves nothing. -/
theorem Suspended.absent {since : Nat} (h : Suspended owner since r) (hr : r.Coherent)
    (hcall : r.call toBytes c = .ok t) (hnow : since + suspendGrace ≤ c.start)
    (hc : ¬ c.Acquires owner) : Absent owner t := by
  rintro l m hm rfl
  rcases (called hr hcall).origin l m hm with ⟨m₀, hm₀, hfresh, rfl⟩ | ⟨hacquires, -⟩
  · rw [h.expired hnow hm₀ (by rw [Call.after]; split <;> rfl)] at hfresh
    cases hfresh
  · exact hc hacquires

theorem Absent.calls {calls : List (Call Peer Source)} (h : Absent owner r) (hr : r.Coherent)
    (hrun : calls.foldlM (Registry.call toBytes) r = .ok t)
    (hcalls : ∀ c ∈ calls, ¬ c.Acquires owner) : Absent owner t := by
  induction calls generalizing r with
  | nil => cases hrun; exact h
  | cons c rest ih =>
    obtain ⟨r₁, hcall, h₁⟩ := call_ok toBytes hr c
    rw [List.foldlM_cons, hcall] at hrun
    refine ih ?_ h₁ hrun fun c' hc' => hcalls c' (List.mem_cons_of_mem _ hc')
    rintro l m hm rfl
    rcases (called hr hcall).origin l m hm with ⟨m₀, hm₀, -, rfl⟩ | ⟨hacquires, -⟩
    · exact h l m₀ hm₀ (by rw [Call.after]; split <;> rfl)
    · exact hcalls c List.mem_cons_self hacquires

/-- A signal that leaves an available owner unavailable suspends its mapping. -/
theorem suspended_of_signal (hr : r.Coherent) (hcall : r.call toBytes c = .ok t)
    (hsignals : c.signals = some owner) (hwas : r.isAvailable owner = true)
    (havail : t.isAvailable owner = false) : Suspended owner c.done t := by
  intro l m hm howner
  rcases (called hr hcall).origin l m hm with ⟨m₀, hm₀, -, rfl⟩ | ⟨-, hav⟩
  · have howner₀ : m₀.owner = owner := by
      rw [← howner, Call.after]
      split <;> rfl
    have hactive : m₀.state = .active := (hr.active l m₀ hm₀).2 (by rw [howner₀]; exact hwas)
    refine ⟨c.done, le_rfl, ?_⟩
    rw [Call.after, hsignals, if_pos (by rw [howner₀]), howner₀, havail, hactive]
    rfl
  · rw [howner, havail] at hav
    cases hav

theorem Call.Loses.unavailable {since : Nat} (h : c.Loses owner since) (hr : r.Coherent)
    (hcall : r.call toBytes c = .ok t) :
    c.signals = some owner ∧ c.done = since ∧ t.isAvailable owner = false := by
  obtain ⟨now, i, rfl | rfl⟩ := h
  · obtain ⟨s, t', -, hrefresh, -, havail, -, -⟩ := refresh_spec
      (r := { r with reservations := setMembership r.reservations owner false })
      ⟨hr.inverse, hr.counted, hr.capacity, hr.quota⟩ owner now since i
    cases hcall.symm.trans hrefresh
    refine ⟨rfl, rfl, ?_⟩
    rw [havail]
    simp [isAvailable, setMembership]
  · obtain ⟨s, t', -, hrefresh, -, havail, -, -⟩ := refresh_spec
      (r := { r with connections := setMembership r.connections owner false })
      ⟨hr.inverse, hr.counted, hr.capacity, hr.quota⟩ owner now since i
    cases hcall.symm.trans hrefresh
    refine ⟨rfl, rfl, ?_⟩
    rw [havail]
    simp [isAvailable, setMembership]

omit [DecidableEq Peer] [DecidableEq Source] in
theorem Call.Loses.not_releases {since : Nat} (h : c.Loses owner since) (locator : Locator) :
    ¬ c.Releases owner locator := by
  obtain ⟨now, i, rfl | rfl⟩ := h <;> exact id

omit [DecidableEq Peer] [DecidableEq Source] in
theorem Ordered.le_done {rest : List (Call Peer Source)} {since : Nat} {c' : Call Peer Source}
    (h : Ordered (c :: rest)) (hdone : c.done = since) (hc' : c' ∈ rest) : since ≤ c'.done := by
  rw [Ordered, List.flatMap_cons, List.cons_append, List.cons_append, List.nil_append] at h
  rw [← hdone]
  refine (List.pairwise_cons.1 (List.pairwise_cons.1 h).2).1 _ ?_
  exact List.mem_flatMap.2 ⟨c', hc', by simp⟩

/-- The suspension lasts while the owner stays unavailable. -/
theorem Suspended.calls {since : Nat} {calls : List (Call Peer Source)}
    (h : Suspended owner since r) (hr : r.Coherent)
    (hrun : calls.foldlM (Registry.call toBytes) r = .ok t)
    (havail : ∀ front, front <+: calls → ∀ q, front.foldlM (Registry.call toBytes) r = .ok q →
      q.isAvailable owner = false) : Suspended owner since t := by
  induction calls generalizing r with
  | nil => cases hrun; exact h
  | cons c rest ih =>
    obtain ⟨r₁, hcall, h₁⟩ := call_ok toBytes hr c
    rw [List.foldlM_cons, hcall] at hrun
    have hone : [c].foldlM (Registry.call toBytes) r = .ok r₁ := by
      rw [List.foldlM_cons, hcall]
      rfl
    have hun := havail [c] (List.prefix_append [c] rest) r₁ hone
    refine ih (h.call hr hcall hun) h₁ hrun fun front hfront q hq => ?_
    refine havail (c :: front) (List.cons_prefix_cons.2 ⟨rfl, hfront⟩) q ?_
    rw [List.foldlM_cons, hcall]
    exact hq

/-- Pruning behind the grace frees the locator and the quota of an owner that is suspended. -/
theorem Suspended.freed {since now : Nat} (h : Suspended owner since r) (hr : r.Coherent)
    (hnow : since + suspendGrace ≤ now) (i : Iteration Locator (Mapping Peer Source)) :
    ∃ s, r.prune now i = .ok s ∧ s.byOwner.lookup owner = none ∧
      ∀ l m, r.byLocator.lookup l = some m → m.owner = owner →
        s.byLocator.lookup l = none ∧ s.sourceCount m.source < r.sourceCount m.source := by
  obtain ⟨s, hprune, hs⟩ := prune_ok hr.toIndexed now i
  have habsent : Absent owner s := by
    intro l m hm howner
    obtain ⟨hr', hfresh⟩ := (hs.lookup_pruned l m).1 hm
    rw [h.expired hnow hr' howner] at hfresh
    cases hfresh
  refine ⟨s, hprune, habsent.lookup hs.indexed, fun l m hm howner => ?_⟩
  have hgone : s.byLocator.lookup l = none := by
    rw [hs.lookup, if_pos]
    rw [Expired, hm]
    exact h.expired hnow hm howner
  refine ⟨hgone, ?_⟩
  -- What is left was there before, and the mapping itself is not among it.
  have hle : s.sourceCount m.source ≤
      (r.byLocator.erase l).count fun m' => decide (m'.source = m.source) := by
    refine Table.count_le fun k v hv hp => ⟨?_, hp⟩
    rw [Table.lookup_erase, if_neg, hs.lookup_some hv]
    rintro rfl
    rw [hgone] at hv
    cases hv
  have herase := Table.count_erase hm fun m' => decide (m'.source = m.source)
  rw [if_pos (decide_eq_true rfl)] at herase
  exact Nat.lt_of_le_of_lt hle (Nat.lt_of_succ_le herase.le)

end

theorem zero_lt_locators : 0 < 2 ^ 20 := by decide

/-- Peer `0` loses its reservation, gives its locator back and has the reservation again. -/
def suspendedRelease : List (Call Nat Nat) :=
  [.setReservation 0 false 1 1 (.inOrder _ _), .release 0 ⟨0, zero_lt_locators⟩ 2 (.inOrder _ _),
    .setReservation 0 true 3 3 (.inOrder _ _)]

/-- From every registry that calls can lead to, a mapping keeps its locator and its owner through any
calls, until one comes after its grace or gives the locator back. -/
theorem mapping_stays (toBytes : Peer → Bytes) (limits : RegistrationLimits) (retryAfter : Nat)
    (calls : List (Call Peer Source)) :
    ∃ r, calls.foldlM (call toBytes) (withLimits limits retryAfter) = .ok r ∧
      ∀ l m later t, r.byLocator.lookup l = some m → later.foldlM (call toBytes) r = .ok t →
        (∀ front c back s m', later = front ++ c :: back → front.foldlM (call toBytes) r = .ok s →
          s.byLocator.lookup l = some m' → expired c.start m' = false ∧ ¬ c.Releases m'.owner l) →
        ∃ state, t.byLocator.lookup l = some { m with state := state } := by
  obtain ⟨r, hcalls, hr⟩ := calls_ok toBytes (coherent_withLimits limits retryAfter) calls
  refine ⟨r, hcalls, fun l m later t hm hrun hkeep => ?_⟩
  clear hcalls
  induction later generalizing r m with
  | nil => cases hrun; exact ⟨m.state, hm⟩
  | cons c rest ih =>
    obtain ⟨r₁, hcall, h₁⟩ := call_ok toBytes hr c
    obtain ⟨hfresh, hrelease⟩ := hkeep [] c rest r m rfl rfl hm
    have hkept := (called hr hcall).keeps l m hm hfresh hrelease
    rw [List.foldlM_cons, hcall] at hrun
    obtain ⟨state, hstate⟩ := ih r₁ h₁ _ hkept hrun fun front c' back s m' hrest hs =>
      hkeep (c :: front) c' back s m' (congrArg _ hrest) (by rw [List.foldlM_cons, hcall]; exact hs)
    refine ⟨state, hstate.trans ?_⟩
    rw [Call.after]
    split <;> rfl

end Yonder.Relay.Registry
