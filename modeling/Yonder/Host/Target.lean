import Mathlib.Logic.Function.Basic

/-!
# The target session and its connection binding

`TargetSession` is the life cycle of one advertised code on the host. `ConnectionBook` is the roster
of physical connections by peer, which only endpoint events change; a session is bound to the one
connection of its controller, and `validateBinding` says what became of it.
-/

namespace Yonder.Host

/-! ## The target session -/

inductive TargetSessionState where
  | advertised
  | authenticating
  | awaitingTerminal
  | startingTerminal
  | active
  | spent
deriving DecidableEq, Repr

inductive SessionEvent where
  | beginAuthentication
  | authenticationSucceeded
  | authenticationFailed
  | terminalStreamsReady
  | terminalStartFailed
  | terminalReadyFlushed
  | connectionLost
  | extraConnection
  | shellExited
deriving DecidableEq, Repr

/-- An event that is not legal in the state. -/
structure TransitionError where
  state : TargetSessionState
  event : SessionEvent
deriving DecidableEq, Repr

/-- `TargetSession::apply`. -/
def TargetSessionState.apply : TargetSessionState → SessionEvent →
    Except TransitionError TargetSessionState
  | .advertised, .beginAuthentication => .ok .authenticating
  | .authenticating, .authenticationSucceeded => .ok .awaitingTerminal
  | .authenticating, .authenticationFailed => .ok .advertised
  | .authenticating, .connectionLost => .ok .advertised
  | .authenticating, .extraConnection => .ok .advertised
  | .awaitingTerminal, .terminalStreamsReady => .ok .startingTerminal
  | .awaitingTerminal, .terminalStartFailed => .ok .advertised
  | .awaitingTerminal, .connectionLost => .ok .advertised
  | .awaitingTerminal, .extraConnection => .ok .advertised
  | .startingTerminal, .terminalStartFailed => .ok .advertised
  | .startingTerminal, .connectionLost => .ok .advertised
  | .startingTerminal, .extraConnection => .ok .advertised
  | .startingTerminal, .terminalReadyFlushed => .ok .active
  | .active, .shellExited => .ok .spent
  | .active, .connectionLost => .ok .spent
  | .active, .extraConnection => .ok .spent
  | .spent, .shellExited => .ok .spent
  | .spent, .connectionLost => .ok .spent
  | state, event => .error ⟨state, event⟩

/-! ## Connections -/

inductive EndpointError where
  | build
  | node
  | relayUnavailable
  | relayDidNotConverge
  | invalidSelectedAddress
  | application
  | boundConnectionLost
  | additionalBoundConnection
  | selectedConnectionLost
  | targetUpgradeDidNotSettle
  | directUpgradeFailed
  | connectionCloseDidNotConverge
  | reservationAlreadyExists
  | reservationClosed
  | relayDialTrackerUnavailable
deriving DecidableEq, Repr

/-- `PER_PEER_CAPACITY`. -/
def perPeerCapacity : Nat := 8

section

variable (Peer Conn : Type)

/-- The physical connections of each peer. -/
structure ConnectionBook where
  roster : Peer → List Conn

/-- The one connection of a peer that a session is bound to. -/
structure Binding where
  peer : Peer
  connection : Conn
deriving DecidableEq

/-- The events of the endpoint driver that change connections, and the others. -/
inductive EndpointEvent where
  | established (peer : Peer) (connection : Conn)
  | closed (peer : Peer) (connection : Conn)
  | other

end

variable {Peer Conn : Type} [DecidableEq Peer] [DecidableEq Conn]

namespace ConnectionBook

/-- The connection of a peer that has only one. -/
def unique (book : ConnectionBook Peer Conn) (peer : Peer) : Option Conn :=
  match book.roster peer with
  | [connection] => some connection
  | _ => none

/-- The book after an event, and the peer whose connections the driver reports. A connection beyond
the bound of the roster is closed and not reported. -/
def next (book : ConnectionBook Peer Conn) :
    EndpointEvent Peer Conn → ConnectionBook Peer Conn × Option Peer
  | .established peer connection =>
    if connection ∈ book.roster peer then (book, some peer)
    else if (book.roster peer).length = perPeerCapacity then (book, none)
    else (⟨Function.update book.roster peer (book.roster peer ++ [connection])⟩, some peer)
  | .closed peer connection =>
    (⟨Function.update book.roster peer ((book.roster peer).erase connection)⟩, some peer)
  | .other => (book, none)

/-- `bind`. -/
def bind (book : ConnectionBook Peer Conn) (peer : Peer) :
    Except EndpointError (Binding Peer Conn) :=
  match book.unique peer with
  | some connection => .ok ⟨peer, connection⟩
  | none =>
    if (book.roster peer).length = 0 then .error .boundConnectionLost
    else .error .additionalBoundConnection

/-- `validate_binding`. -/
def validateBinding (book : ConnectionBook Peer Conn) (b : Binding Peer Conn) :
    Except EndpointError Unit :=
  match book.unique b.peer with
  | some connection =>
    if connection = b.connection then .ok () else .error .additionalBoundConnection
  | none =>
    if (book.roster b.peer).length = 0 then .error .boundConnectionLost
    else .error .additionalBoundConnection

/-- The connection of the binding is the only one of its peer. -/
def Bound (book : ConnectionBook Peer Conn) (b : Binding Peer Conn) : Prop :=
  book.roster b.peer = [b.connection]

omit [DecidableEq Peer] in
theorem validateBinding_eq_ok {book : ConnectionBook Peer Conn} {b : Binding Peer Conn} :
    book.validateBinding b = .ok () ↔ book.Bound b := by
  unfold validateBinding unique Bound
  split
  case h_1 connection h =>
    split at h
    case h_1 c hroster =>
      cases h
      rw [hroster]
      by_cases heq : connection = b.connection <;> simp [heq]
    case h_2 => cases h
  case h_2 h =>
    split at h
    case h_1 => cases h
    case h_2 hroster =>
      constructor
      · intro hok
        split at hok <;> cases hok
      · intro hbound
        exact absurd hbound (hroster b.connection)

omit [DecidableEq Peer] [DecidableEq Conn] in
theorem Bound.unique_eq {book : ConnectionBook Peer Conn} {b : Binding Peer Conn}
    (h : book.Bound b) : book.unique b.peer = some b.connection := by
  rw [unique, h]

omit [DecidableEq Peer] [DecidableEq Conn] in
theorem bound_of_bind {book : ConnectionBook Peer Conn} {peer : Peer} {b : Binding Peer Conn}
    (h : book.bind peer = .ok b) : b.peer = peer ∧ book.Bound b := by
  unfold bind unique at h
  split at h
  case h_1 connection hunique =>
    cases h
    split at hunique
    case h_1 c hroster =>
      cases hunique
      exact ⟨rfl, hroster⟩
    case h_2 => cases hunique
  case h_2 => split at h <;> cases h

/-- Only events that the driver reports change the connections of a peer. -/
theorem roster_next (book : ConnectionBook Peer Conn) (e : EndpointEvent Peer Conn) {peer : Peer}
    (h : (book.next e).2 ≠ some peer) : (book.next e).1.roster peer = book.roster peer := by
  cases e with
  | established other connection =>
    simp only [next] at h ⊢
    split at h
    case isTrue hmem => rw [if_pos hmem]
    case isFalse hmem =>
      split at h
      case isTrue hfull => rw [if_neg hmem, if_pos hfull]
      case isFalse hfull =>
        have hne : peer ≠ other := fun heq => h (by rw [heq])
        rw [if_neg hmem, if_neg hfull]
        exact Function.update_of_ne hne _ _
  | closed other connection =>
    have hne : peer ≠ other := fun heq => h (by rw [heq]; rfl)
    exact Function.update_of_ne hne _ _
  | other => rfl

end ConnectionBook

end Yonder.Host
