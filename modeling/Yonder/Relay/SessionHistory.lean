import Yonder.Relay.Enterprise

/-!
# What an enterprise session can have been through

A session is one path: offered, selected, called back, admitted, resolving, completed. `Stage` says,
for every phase, which of these steps succeeded and which secrets the session holds; every operation
keeps it, whether it succeeds or fails. The registry of pending callbacks is followed by a log of what
was registered and what was given back.
-/

namespace Yonder.Relay

open Lib

/-- An operation on a session, with its arguments. -/
inductive SessionOp where
  | offerProviders
  | select (provider : EnterpriseProvider) (random : Option OAuthState)
  | callback (state : OAuthState) (identity : MemberIdentity)
  | validateMember (valid : Bool)
  | beginResolve
  | complete (peer : Bytes)
  | cancel
  | expire
  | fail (failure : EnterpriseFailure)
  | unavailable

/-- A step of a session that succeeded. -/
inductive SessionEvent where
  | offered
  | selected (state : OAuthState)
  | calledBack (state : OAuthState)
  | admitted
  | resolving
  | completed
deriving DecidableEq

namespace EnterpriseResolveSession

/-- The path of a session whose provider was selected with `state`. -/
def path (state : OAuthState) : List SessionEvent :=
  [.offered, .selected state, .calledBack state, .admitted, .resolving, .completed]

/-- The session after an operation, and the step that succeeded. -/
def apply (s : EnterpriseResolveSession) :
    SessionOp → EnterpriseResolveSession × List SessionEvent
  | .offerProviders => (s.offerProviders.1, if s.offerProviders.2.isOk then [.offered] else [])
  | .select provider random =>
    ((s.select provider random).1,
      match (s.select provider random).2 with
      | .ok state => [.selected state]
      | .error _ => [])
  | .callback state identity =>
    ((s.callback state identity).1,
      if (s.callback state identity).2.isOk then [.calledBack state] else [])
  | .validateMember valid =>
    ((s.validateMember valid).1,
      match (s.validateMember valid).2 with
      | .ok .admitted => [.admitted]
      | _ => [])
  | .beginResolve => (s.beginResolve.1, if s.beginResolve.2.isOk then [.resolving] else [])
  | .complete peer => ((s.complete peer).1, if (s.complete peer).2.isOk then [.completed] else [])
  | .cancel => (s.cancel.1, [])
  | .expire => (s.expire.1, [])
  | .fail failure => ((s.fail failure).1, [])
  | .unavailable => (s.unavailable.1, [])

/-- A run of operations, with the steps that succeeded. -/
def applyAll (s : EnterpriseResolveSession) (events : List SessionEvent) (ops : List SessionOp) :
    EnterpriseResolveSession × List SessionEvent :=
  ops.foldl (fun state op => ((state.1.apply op).1, state.2 ++ (state.1.apply op).2)) (s, events)

/-! ## The stages -/

/-- The session holds no secret. -/
def Clear (s : EnterpriseResolveSession) : Prop := s.oauthState = none ∧ s.identity = none

/-- What a session holds and what it has been through, by its phase. -/
inductive Stage (s : EnterpriseResolveSession) : List SessionEvent → Prop
  | created (h : s.phase = .created) (hclear : s.Clear) (ht : s.targetPeer = none) : Stage s []
  | offered (h : s.phase = .providerSelection) (hclear : s.Clear) (ht : s.targetPeer = none) :
      Stage s [.offered]
  | selected {state : OAuthState} (h : s.phase = .authenticating) (hstate : s.oauthState = some state)
      (hid : s.identity = none) (ht : s.targetPeer = none) : Stage s ((path state).take 2)
  | calledBack {state : OAuthState} {identity : MemberIdentity} (h : s.phase = .authenticating)
      (hstate : s.oauthState = none) (hid : s.identity = some identity) (ht : s.targetPeer = none) :
      Stage s ((path state).take 3)
  | authenticated {state : OAuthState} (h : s.phase = .authenticated) (hclear : s.Clear)
      (ht : s.targetPeer = none) : Stage s ((path state).take 4)
  | resolving {state : OAuthState} (h : s.phase = .resolving) (hclear : s.Clear)
      (ht : s.targetPeer = none) : Stage s ((path state).take 5)
  | completed {state : OAuthState} {peer : Bytes} (h : s.phase = .completed) (hclear : s.Clear)
      (ht : s.targetPeer = some peer) : Stage s (path state)
  | ended {state : OAuthState} {events : List SessionEvent} (h : s.phase.isTerminal = true)
      (hne : s.phase ≠ .completed) (hclear : s.Clear) (ht : s.targetPeer = none)
      (hevents : events <+: path state) : Stage s events

variable {s : EnterpriseResolveSession} {events : List SessionEvent}

theorem Stage.on_path (h : Stage s events) : ∃ state, events <+: path state := by
  cases h with
  | created => exact ⟨FixedBytes.replicate 32 0, List.nil_prefix⟩
  | offered => exact ⟨FixedBytes.replicate 32 0, List.prefix_append [_] _⟩
  | ended _ _ _ _ hevents => exact ⟨_, hevents⟩
  | completed => exact ⟨_, List.prefix_rfl⟩
  | selected => exact ⟨_, List.take_prefix _ _⟩
  | calledBack => exact ⟨_, List.take_prefix _ _⟩
  | authenticated => exact ⟨_, List.take_prefix _ _⟩
  | resolving => exact ⟨_, List.take_prefix _ _⟩

theorem Stage.target_none (h : Stage s events) (hne : s.phase.isTerminal = false) :
    s.targetPeer = none := by
  cases h with
  | completed h => rw [h] at hne; cases hne
  | _ => assumption

/-- Every operation that ends a session keeps its history. -/
theorem Stage.terminal (h : Stage s events) {phase : EnterpriseResolvePhase}
    (hphase : phase.isTerminal = true) (hne : phase ≠ .completed) :
    Stage (s.terminal phase).1 (events ++ []) := by
  rw [List.append_nil, EnterpriseResolveSession.terminal]
  split
  case isTrue => exact h
  case isFalse hactive =>
    obtain ⟨state, hpath⟩ := h.on_path
    exact .ended hphase hne ⟨rfl, rfl⟩ (h.target_none (eq_false_of_ne_true hactive)) hpath

theorem Stage.step_select (h : Stage s events) (provider : EnterpriseProvider)
    (random : Option OAuthState) : Stage (s.apply (.select provider random)).1
      (events ++ (s.apply (.select provider random)).2) := by
  by_cases hp : s.phase = .providerSelection
  case neg => simpa [apply, select, forward, hp] using h
  case pos =>
    cases random with
    | none => simpa [apply, select, forward, hp] using h
    | some state =>
      cases h with
      | offered h hclear ht =>
        simp only [apply, select, forward, hp, ne_eq, not_true_eq_false, if_false]
        exact .selected rfl rfl hclear.2 ht
      | _ => simp_all [EnterpriseResolvePhase.isTerminal]

theorem Stage.step_callback (h : Stage s events) (state : OAuthState) (identity : MemberIdentity) :
    Stage (s.apply (.callback state identity)).1
      (events ++ (s.apply (.callback state identity)).2) := by
  by_cases hp : s.phase = .authenticating
  case neg => simpa [apply, callback, forward, hp, Except.isOk, Except.toBool] using h
  case pos =>
    cases h with
    | @selected stored h hstate hid ht =>
      by_cases hmatch : stored = state
      case pos =>
        subst hmatch
        simp only [apply, callback, forward, hp, hstate, ne_eq, not_true_eq_false, if_false]
        exact .calledBack rfl rfl rfl ht
      case neg =>
        simp only [apply, callback, forward, hp, hstate, hmatch, ne_eq, not_true_eq_false, if_false,
          not_false_eq_true, if_true, Except.isOk, Except.toBool, Bool.false_eq_true, List.append_nil]
        exact .ended rfl nofun ⟨rfl, hid⟩ ht (List.take_prefix _ _)
    | calledBack h hstate hid ht =>
      -- The state was used up, so that the session dies with its identity.
      simp only [apply, callback, forward, hp, hstate, ne_eq, not_true_eq_false, if_false,
        Except.isOk, Except.toBool, Bool.false_eq_true, List.append_nil]
      exact .ended rfl nofun ⟨rfl, rfl⟩ ht (List.take_prefix _ _)
    | _ => simp_all [EnterpriseResolvePhase.isTerminal]

theorem Stage.step_validateMember (h : Stage s events) (valid : Bool) :
    Stage (s.apply (.validateMember valid)).1 (events ++ (s.apply (.validateMember valid)).2) := by
  by_cases hp : s.phase = .authenticating
  case neg => simpa [apply, validateMember, forward, hp] using h
  case pos =>
    cases hid : s.identity with
    | none => simpa [apply, validateMember, forward, hp, hid] using h
    | some identity =>
      cases h with
      | @calledBack state _ h hstate _ ht =>
        cases valid with
        | true =>
          simp only [apply, validateMember, forward, hp, hid, ne_eq, not_true_eq_false, if_false,
            if_true]
          exact .authenticated rfl ⟨hstate, rfl⟩ ht
        | false =>
          simp only [apply, validateMember, forward, hp, hid, ne_eq, not_true_eq_false, if_false,
            Bool.false_eq_true, List.append_nil]
          exact .ended rfl nofun ⟨hstate, rfl⟩ ht (List.take_prefix _ _)
      | _ => simp_all [EnterpriseResolvePhase.isTerminal]

/-- Every operation keeps the stage. -/
theorem Stage.step (h : Stage s events) (op : SessionOp) :
    Stage (s.apply op).1 (events ++ (s.apply op).2) := by
  cases op with
  | select provider random => exact h.step_select provider random
  | callback state identity => exact h.step_callback state identity
  | validateMember valid => exact h.step_validateMember valid
  | cancel => exact h.terminal rfl nofun
  | expire => exact h.terminal rfl nofun
  | fail failure => exact h.terminal rfl nofun
  | unavailable => exact h.terminal rfl nofun
  | offerProviders =>
    by_cases hp : s.phase = .created
    case neg => simpa [apply, offerProviders, forward, hp, Except.isOk, Except.toBool] using h
    case pos =>
      cases h with
      | created h hclear ht =>
        simp only [apply, offerProviders, forward, hp, ne_eq, not_true_eq_false, if_false]
        exact .offered rfl hclear ht
      | _ => simp_all [EnterpriseResolvePhase.isTerminal]
  | beginResolve =>
    by_cases hp : s.phase = .authenticated
    case neg => simpa [apply, beginResolve, forward, hp, Except.isOk, Except.toBool] using h
    case pos =>
      cases h with
      | @authenticated state h hclear ht =>
        simp only [apply, beginResolve, forward, hp, ne_eq, not_true_eq_false, if_false]
        exact .resolving rfl hclear ht
      | _ => simp_all [EnterpriseResolvePhase.isTerminal]
  | complete peer =>
    by_cases hp : s.phase = .resolving
    case neg => simpa [apply, complete, forward, hp, Except.isOk, Except.toBool] using h
    case pos =>
      cases h with
      | @resolving state h hclear ht =>
        simp only [apply, complete, forward, hp, ne_eq, not_true_eq_false, if_false]
        exact .completed rfl hclear rfl
      | _ => simp_all [EnterpriseResolvePhase.isTerminal]

theorem Stage.run (h : Stage s events) (ops : List SessionOp) :
    Stage (s.applyAll events ops).1 (s.applyAll events ops).2 := by
  induction ops generalizing s events with
  | nil => exact h
  | cons op rest ih => exact ih (h.step op)

/-- An operation on a session that has ended changes nothing. -/
theorem apply_of_terminal (h : s.phase.isTerminal = true) (op : SessionOp) :
    s.apply op = (s, []) := by
  have hne : ∀ phase : EnterpriseResolvePhase, phase.isTerminal = false → s.phase ≠ phase := by
    rintro phase hphase rfl
    rw [h] at hphase
    cases hphase
  cases op with
  | cancel => simp [apply, cancel, terminal, h]
  | expire => simp [apply, expire, terminal, h]
  | fail failure => simp [apply, fail, terminal, h]
  | unavailable => simp [apply, unavailable, terminal, h]
  | offerProviders =>
    simp [apply, offerProviders, forward, hne .created rfl, Except.isOk, Except.toBool]
  | select provider random => simp [apply, select, forward, hne .providerSelection rfl]
  | callback state identity =>
    simp [apply, callback, forward, hne .authenticating rfl, Except.isOk, Except.toBool]
  | validateMember valid => simp [apply, validateMember, forward, hne .authenticating rfl]
  | beginResolve =>
    simp [apply, beginResolve, forward, hne .authenticated rfl, Except.isOk, Except.toBool]
  | complete peer => simp [apply, complete, forward, hne .resolving rfl, Except.isOk, Except.toBool]

theorem applyAll_of_terminal (h : s.phase.isTerminal = true) (ops : List SessionOp) :
    s.applyAll events ops = (s, events) := by
  induction ops with
  | nil => rfl
  | cons op rest ih =>
    rw [applyAll, List.foldl_cons, apply_of_terminal h op, List.append_nil]
    exact ih

end EnterpriseResolveSession

/-! ## The registry of pending callbacks -/

/-- An operation of the owner on the registry. -/
inductive RegistryOp (Stream : Type) where
  | insert (state : OAuthState) (entry : CallbackEntry Stream) (now : Nat)
  | take (state : OAuthState) (now : Nat)
  | remove (state : OAuthState)

/-- What is registered under a state, and what is given back. -/
inductive RegistryEvent (Stream : Type) where
  | registered (state : OAuthState) (entry : CallbackEntry Stream)
  | returned (state : OAuthState) (entry : CallbackEntry Stream)

def RegistryEvent.state {Stream : Type} : RegistryEvent Stream → OAuthState
  | .registered state _ => state
  | .returned state _ => state

namespace CallbackRegistry

variable {Stream : Type}

/-- The registry after an operation, and what was registered or given back. -/
def apply (r : CallbackRegistry Stream) :
    RegistryOp Stream → CallbackRegistry Stream × List (RegistryEvent Stream)
  | .insert state entry now =>
    ((r.insert state entry now).1,
      match (r.insert state entry now).2 with
      | .ok () => [.registered state entry]
      | .error _ => [])
  | .take state now =>
    ((r.take state now).1, ((r.take state now).2.map (RegistryEvent.returned state)).toList)
  | .remove state =>
    ((r.remove state).1, ((r.remove state).2.map (RegistryEvent.returned state)).toList)

/-- A run of operations, with the log. -/
def applyAll (r : CallbackRegistry Stream) (log : List (RegistryEvent Stream))
    (ops : List (RegistryOp Stream)) : CallbackRegistry Stream × List (RegistryEvent Stream) :=
  ops.foldl (fun state op => ((state.1.apply op).1, state.2 ++ (state.1.apply op).2)) (r, log)

/-- The entry is the last that was registered under its state, and it was not given back since. -/
def Outstanding (log : List (RegistryEvent Stream)) (state : OAuthState)
    (entry : CallbackEntry Stream) : Prop :=
  ∃ front back, log = front ++ .registered state entry :: back ∧ ∀ e ∈ back, e.state ≠ state

variable {log events : List (RegistryEvent Stream)} {state : OAuthState}
  {entry : CallbackEntry Stream} {r : CallbackRegistry Stream}

theorem Outstanding.append (h : Outstanding log state entry) (hne : ∀ e ∈ events, e.state ≠ state) :
    Outstanding (log ++ events) state entry := by
  obtain ⟨front, back, rfl, hback⟩ := h
  refine ⟨front, back ++ events, by simp, fun e he => ?_⟩
  rcases List.mem_append.1 he with he | he
  · exact hback e he
  · exact hne e he

/-- The registry is within its capacity, and everything in it is outstanding. -/
structure Tracked (capacity : Nat) (r : CallbackRegistry Stream)
    (log : List (RegistryEvent Stream)) : Prop where
  capacity_eq : r.capacity = capacity
  size_le : r.transactions.size ≤ capacity
  outstanding : ∀ state entry, r.lookup state = some entry → Outstanding log state entry

theorem tracked_withCapacity (capacity : Nat) :
    Tracked capacity (withCapacity capacity : CallbackRegistry Stream) [] :=
  ⟨rfl, Nat.zero_le _, fun state entry h => by simp [lookup, withCapacity] at h⟩

theorem Tracked.remove {capacity : Nat} (h : Tracked capacity r log) (state : OAuthState) :
    Tracked capacity (r.remove state).1
      (log ++ ((r.remove state).2.map (RegistryEvent.returned state)).toList) := by
  refine ⟨h.capacity_eq, ?_, fun state' entry' hlookup => ?_⟩
  · have hsize := h.size_le
    rw [Table.size_eq_count] at hsize ⊢
    exact (Table.count_erase_le _ _ _).trans hsize
  · obtain ⟨hne, hold⟩ := lookup_remove hlookup
    refine (h.outstanding state' entry' hold).append fun e he => ?_
    obtain ⟨taken, -, rfl⟩ := Option.map_eq_some_iff.1 (Option.mem_toList.1 he)
    exact hne.symm

theorem Tracked.sweep {capacity : Nat} (h : Tracked capacity r log) (now : Nat) :
    Tracked capacity (r.sweep now) log := by
  refine ⟨h.capacity_eq, ?_, fun state entry hlookup =>
    h.outstanding state entry (lookup_sweep hlookup)⟩
  have hsize := h.size_le
  rw [Table.size_eq_count] at hsize ⊢
  exact (Table.count_retain_le _ _ _).trans hsize

theorem Tracked.step {capacity : Nat} (h : Tracked capacity r log) (op : RegistryOp Stream) :
    Tracked capacity (r.apply op).1 (log ++ (r.apply op).2) := by
  cases op with
  | remove state => exact h.remove state
  | take state now => exact (h.sweep now).remove state
  | insert state entry now =>
    have hswept := h.sweep now
    simp only [apply, insert]
    split
    case isTrue => simpa using hswept
    case isFalse hnew =>
      split
      case isTrue => simpa using hswept
      case isFalse hroom =>
        rw [Option.not_isSome_iff_eq_none] at hnew
        refine ⟨hswept.capacity_eq, ?_, fun state' entry' hlookup => ?_⟩
        · rw [Table.size_eq_count, Table.count_insert hnew, if_pos rfl, ← Table.size_eq_count]
          rw [hswept.capacity_eq] at hroom
          omega
        · simp only [lookup, Table.lookup_insert] at hlookup
          split at hlookup
          case isTrue heq =>
            cases hlookup
            exact ⟨log, [], by rw [heq], fun _ he => absurd he List.not_mem_nil⟩
          case isFalse hne =>
            refine (hswept.outstanding state' entry' hlookup).append fun e he => ?_
            cases List.mem_singleton.1 he
            exact Ne.symm hne

theorem Tracked.run {capacity : Nat} (h : Tracked capacity r log) (ops : List (RegistryOp Stream)) :
    Tracked capacity (r.applyAll log ops).1 (r.applyAll log ops).2 := by
  induction ops generalizing r log with
  | nil => exact h
  | cons op rest ih => exact ih (h.step op)

/-- What is taken has not reached its deadline. -/
theorem deadline_of_take {now : Nat} (h : (r.take state now).2 = some entry) :
    now < entry.deadline := by
  simp only [take, remove, sweep, Table.lookup_retain] at h
  exact of_decide_eq_true (Option.filter_eq_some_iff.1 h).2

end CallbackRegistry

open EnterpriseResolveSession in
/-- After every sequence of operations on a session: an ended session stays as it is; the state and
the identity are held only while it authenticates, and not both; there is a target exactly when it is
completed; the steps that succeeded are the start of one path, in which the one callback brings the
state that the selection issued, and the whole path if it is completed. After every sequence of
operations on a registry: it is within its capacity, what can be taken has not reached its deadline,
and what can be taken or removed was registered and not given back since. -/
theorem session_history (Stream : Type) :
    (∀ requestId locator now ops,
      let run := (EnterpriseResolveSession.new requestId locator now).applyAll [] ops
      (run.1.phase.isTerminal = true → ∀ more, run.1.applyAll run.2 more = run) ∧
      (run.1.oauthState ≠ none ∨ run.1.identity ≠ none → run.1.phase = .authenticating) ∧
      (run.1.oauthState = none ∨ run.1.identity = none) ∧
      (run.1.targetPeer ≠ none ↔ run.1.phase = .completed) ∧
      (∃ state, run.2 <+: path state) ∧
      (run.1.phase = .completed → ∃ state, run.2 = path state)) ∧
    ∀ capacity ops,
      let run := (CallbackRegistry.withCapacity capacity : CallbackRegistry Stream).applyAll [] ops
      run.1.transactions.size ≤ capacity ∧ ∀ state entry,
        (∀ now, (run.1.take state now).2 = some entry →
          now < entry.deadline ∧ CallbackRegistry.Outstanding run.2 state entry) ∧
        ((run.1.remove state).2 = some entry →
          CallbackRegistry.Outstanding run.2 state entry) := by
  refine ⟨?_, ?_⟩
  · intro requestId locator now ops run
    have hstage : Stage run.1 run.2 :=
      (Stage.created rfl ⟨rfl, rfl⟩ rfl : Stage (.new requestId locator now) []).run ops
    refine ⟨fun hterminal more => applyAll_of_terminal hterminal more, ?_, ?_, ?_, hstage.on_path, ?_⟩
    all_goals
      generalize run.2 = events at hstage
      cases hstage <;> simp_all [Clear, EnterpriseResolvePhase.isTerminal]
  · intro capacity ops run
    have htracked : CallbackRegistry.Tracked capacity run.1 run.2 :=
      (CallbackRegistry.tracked_withCapacity capacity).run ops
    refine ⟨htracked.size_le, fun state entry => ⟨fun now htake => ?_, fun hremove => ?_⟩⟩
    · exact ⟨CallbackRegistry.deadline_of_take htake,
        htracked.outstanding state entry (CallbackRegistry.lookup_of_take htake)⟩
    · exact htracked.outstanding state entry hremove

/-- An entry whose deadline has passed when it is registered, and which is given back by `remove`. -/
theorem remove_returns_expired :
    let state : OAuthState := FixedBytes.replicate 32 0
    let entry : CallbackEntry Unit := ⟨.new 0 ⟨0, by decide⟩ 0, (), 0, 0⟩
    let r := ((CallbackRegistry.withCapacity 1).insert state entry 5).1
    entry.deadline ≤ 5 ∧ (r.remove state).2 = some entry :=
  ⟨by decide, rfl⟩

end Yonder.Relay
