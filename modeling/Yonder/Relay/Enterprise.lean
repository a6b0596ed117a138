import Yonder.Relay.Registry

/-!
# Enterprise sessions and their callback registry

`EnterpriseResolveSession` is one authentication transaction: it goes forward through its phases, and
ends from any of them. `CallbackRegistry` keeps the transactions whose callback is pending, by their
single-use state, bounded in number and swept by deadline.
-/

namespace Yonder.Relay

open Lib

inductive EnterpriseProvider where
  | weCom
  | feishu
deriving DecidableEq, Repr

/-- `OAuthState`. -/
abbrev OAuthState := FixedBytes 32

/-- `OAuthState::from_bytes`. -/
def OAuthState.fromBytes (bytes : Bytes) : Option OAuthState :=
  if h : bytes.length = 32 then some ⟨bytes, h⟩ else none

/-- `MemberIdentity`. -/
structure MemberIdentity where
  bytes : Bytes
  pos : 0 < bytes.length
  le : bytes.length ≤ 256
deriving DecidableEq

inductive EnterpriseFailure where
  | platform
  | userRejected
  | invalidState
deriving DecidableEq, Repr

inductive EnterpriseResolvePhase where
  | created
  | providerSelection
  | authenticating
  | authenticated
  | resolving
  | completed
  | cancelled
  | expired
  | failed (failure : EnterpriseFailure)
  | unavailable
deriving DecidableEq, Repr

def EnterpriseResolvePhase.isTerminal : EnterpriseResolvePhase → Bool
  | .completed | .cancelled | .expired | .failed _ | .unavailable => true
  | _ => false

inductive MemberAdmission where
  | admitted
  | rejected
deriving DecidableEq, Repr

/-- The `TransitionError` of an enterprise session. -/
inductive ResolveTransitionError where
  | invalidTransition
  | terminal
  | invalidState
  | invalidIdentity
  | random
deriving DecidableEq, Repr

/-- `SESSION_LIFETIME`, in nanoseconds. -/
def sessionLifetime : Nat := 600 * 1000000000

/-- The longest duration, in nanoseconds. -/
def maxDuration : Nat := 2 ^ 64 * 1000000000 - 1

/-- `EnterpriseResolveSession`. Times are nanoseconds. -/
structure EnterpriseResolveSession where
  requestId : UInt64
  locator : Locator
  deadline : Nat
  phase : EnterpriseResolvePhase
  provider : Option EnterpriseProvider
  oauthState : Option OAuthState
  identity : Option MemberIdentity
  targetPeer : Option Bytes
deriving DecidableEq

namespace EnterpriseResolveSession

/-- What a transition leaves, and its result. A failed transition may change the session. -/
abbrev Transition (α : Type) := EnterpriseResolveSession × Except ResolveTransitionError α

def new (requestId : UInt64) (locator : Locator) (now : Nat) : EnterpriseResolveSession where
  requestId := requestId
  locator := locator
  deadline := if now + sessionLifetime ≤ maxDuration then now + sessionLifetime else now
  phase := .created
  provider := none
  oauthState := none
  identity := none
  targetPeer := none

def isExpired (s : EnterpriseResolveSession) (now : Nat) : Bool := s.deadline ≤ now

def wipeEnterpriseState (s : EnterpriseResolveSession) : EnterpriseResolveSession :=
  { s with identity := none, oauthState := none }

def forward {α : Type} (s : EnterpriseResolveSession) (expected : EnterpriseResolvePhase)
    (transition : EnterpriseResolveSession → Transition α) : Transition α :=
  if s.phase ≠ expected then (s, .error .invalidTransition) else transition s

def terminal (s : EnterpriseResolveSession) (phase : EnterpriseResolvePhase) : Transition Unit :=
  if s.phase.isTerminal then (s, .error .terminal)
  else ({ s.wipeEnterpriseState with phase := phase }, .ok ())

def offerProviders (s : EnterpriseResolveSession) : Transition Unit :=
  s.forward .created fun s => ({ s with phase := .providerSelection }, .ok ())

/-- `select`; the state is what the random source gave. -/
def select (s : EnterpriseResolveSession) (provider : EnterpriseProvider)
    (random : Option OAuthState) : Transition OAuthState :=
  s.forward .providerSelection fun s =>
    match random with
    | none => (s, .error .random)
    | some state =>
      ({ s with provider := some provider, oauthState := some state, phase := .authenticating },
        .ok state)

def callback (s : EnterpriseResolveSession) (state : OAuthState) (identity : MemberIdentity) :
    Transition Unit :=
  s.forward .authenticating fun s =>
    match s.oauthState with
    | none => ({ s.wipeEnterpriseState with phase := .failed .invalidState }, .error .invalidState)
    | some stored =>
      if stored ≠ state then
        ({ s with oauthState := none, phase := .failed .invalidState }, .error .invalidState)
      else ({ s with oauthState := none, identity := some identity }, .ok ())

def validateMember (s : EnterpriseResolveSession) (valid : Bool) : Transition MemberAdmission :=
  s.forward .authenticating fun s =>
    match s.identity with
    | none => (s, .error .invalidTransition)
    | some _ =>
      if valid then ({ s with identity := none, phase := .authenticated }, .ok .admitted)
      else ({ s with identity := none, phase := .failed .userRejected }, .ok .rejected)

def beginResolve (s : EnterpriseResolveSession) : Transition Unit :=
  s.forward .authenticated fun s => ({ s with phase := .resolving }, .ok ())

def complete (s : EnterpriseResolveSession) (peer : Bytes) : Transition Unit :=
  s.forward .resolving fun s =>
    ({ s with targetPeer := some peer, phase := .completed }, .ok ())

def cancel (s : EnterpriseResolveSession) : Transition Unit := s.terminal .cancelled

def expire (s : EnterpriseResolveSession) : Transition Unit := s.terminal .expired

def fail (s : EnterpriseResolveSession) (failure : EnterpriseFailure) : Transition Unit :=
  s.terminal (.failed failure)

def unavailable (s : EnterpriseResolveSession) : Transition Unit := s.terminal .unavailable

/-- Only an authenticated session begins to resolve. -/
theorem phase_of_beginResolve {s s' : EnterpriseResolveSession}
    (h : s.beginResolve = (s', .ok ())) : s.phase = .authenticated := by
  unfold beginResolve forward at h
  split at h
  case isTrue => cases h
  case isFalse hphase => exact not_not.1 hphase

theorem select_eq_ok {s s' : EnterpriseResolveSession} {provider : EnterpriseProvider}
    {random : Option OAuthState} {state : OAuthState}
    (h : s.select provider random = (s', .ok state)) :
    random = some state ∧ s'.provider = some provider := by
  unfold select forward at h
  split at h
  case isTrue => cases h
  case isFalse =>
    split at h
    case h_1 => cases h
    case h_2 =>
      cases h
      exact ⟨rfl, rfl⟩

end EnterpriseResolveSession

/-! ## The callback registry -/

/-- A pending transaction; `stream` stands for the channels of the stream task that owns it. -/
structure CallbackEntry (Stream : Type) where
  session : EnterpriseResolveSession
  stream : Stream
  requestId : UInt64
  deadline : Nat

inductive CallbackRegistryError where
  | capacity
  | duplicateState
deriving DecidableEq, Repr

structure CallbackRegistry (Stream : Type) where
  transactions : Table OAuthState (CallbackEntry Stream)
  capacity : Nat

namespace CallbackRegistry

variable {Stream : Type}

def withCapacity (capacity : Nat) : CallbackRegistry Stream := ⟨∅, capacity⟩

def sweep (r : CallbackRegistry Stream) (now : Nat) : CallbackRegistry Stream :=
  { r with transactions := r.transactions.retain fun _ entry => now < entry.deadline }

def insert (r : CallbackRegistry Stream) (state : OAuthState) (entry : CallbackEntry Stream)
    (now : Nat) : CallbackRegistry Stream × Except CallbackRegistryError Unit :=
  let r := r.sweep now
  if (r.transactions.lookup state).isSome then (r, .error .duplicateState)
  else if r.capacity ≤ r.transactions.size then (r, .error .capacity)
  else ({ r with transactions := r.transactions.insert state entry }, .ok ())

def remove (r : CallbackRegistry Stream) (state : OAuthState) :
    CallbackRegistry Stream × Option (CallbackEntry Stream) :=
  ({ r with transactions := r.transactions.erase state }, r.transactions.lookup state)

def take (r : CallbackRegistry Stream) (state : OAuthState) (now : Nat) :
    CallbackRegistry Stream × Option (CallbackEntry Stream) :=
  (r.sweep now).remove state

/-- The transaction of a state. -/
def lookup (r : CallbackRegistry Stream) (state : OAuthState) : Option (CallbackEntry Stream) :=
  r.transactions.lookup state

theorem lookup_sweep {r : CallbackRegistry Stream} {now : Nat} {state : OAuthState}
    {entry : CallbackEntry Stream} (h : (r.sweep now).lookup state = some entry) :
    r.lookup state = some entry := by
  simp only [lookup, sweep, Table.lookup_retain] at h
  exact (Option.filter_eq_some_iff.1 h).1

/-- Nothing but the new transaction is added. -/
theorem lookup_insert {r : CallbackRegistry Stream} {state state' : OAuthState}
    {entry entry' : CallbackEntry Stream} {now : Nat}
    (h : (r.insert state entry now).1.lookup state' = some entry') :
    state' = state ∧ entry' = entry ∨ r.lookup state' = some entry' := by
  unfold insert at h
  dsimp only at h
  split at h
  case isTrue => exact Or.inr (lookup_sweep h)
  case isFalse =>
    split at h
    case isTrue => exact Or.inr (lookup_sweep h)
    case isFalse =>
      simp only [lookup, Table.lookup_insert] at h
      split at h
      case isTrue heq =>
        cases h
        exact Or.inl ⟨heq, rfl⟩
      case isFalse => exact Or.inr (lookup_sweep h)

theorem lookup_remove {r : CallbackRegistry Stream} {state state' : OAuthState}
    {entry : CallbackEntry Stream} (h : (r.remove state).1.lookup state' = some entry) :
    state' ≠ state ∧ r.lookup state' = some entry := by
  simp only [lookup, remove, Table.lookup_erase] at h
  split at h
  case isTrue => cases h
  case isFalse hne => exact ⟨hne, h⟩

/-- What is taken was there. -/
theorem lookup_of_take {r : CallbackRegistry Stream} {state : OAuthState} {now : Nat}
    {entry : CallbackEntry Stream} (h : (r.take state now).2 = some entry) :
    r.lookup state = some entry :=
  lookup_sweep h

/-- What is taken is gone, and nothing is added. -/
theorem lookup_take {r : CallbackRegistry Stream} {state state' : OAuthState} {now : Nat}
    {entry : CallbackEntry Stream} (h : (r.take state now).1.lookup state' = some entry) :
    state' ≠ state ∧ r.lookup state' = some entry :=
  ⟨(lookup_remove h).1, lookup_sweep (lookup_remove h).2⟩

end CallbackRegistry

end Yonder.Relay
