import Yonder.Lib.Bytes
import Yonder.Lib.Table

/-!
# The rendezvous registry of the relay

`Registry` maps locators to the peers that own them, with an index by owner and a counter by source
prefix. A mapping is active while its owner has both a reservation and a connection, else it is
suspended and removed once it has been so for the grace period; every call prunes first.

What could stop the process is a value of the model: an index out of bounds, a counter below zero, a
failed `expect` and a search that does not end are `Panic`s. `Registry.run_coherent`: no sequence of
calls panics, and the indexes agree after each of them.
-/

namespace Yonder.Relay

open Lib

/-! ## Locators -/

/-- A 20-bit locator. -/
structure Locator where
  value : Nat
  lt : value < 2 ^ 20
deriving DecidableEq

namespace Locator

/-- `random`: three random bytes with the upper four bits masked. -/
def random (b₀ b₁ b₂ : UInt8) : Locator where
  value := (b₀.toNat % 16) * 2 ^ 16 + b₁.toNat * 2 ^ 8 + b₂.toNat
  lt := by
    have h₁ := b₁.toNat_lt
    have h₂ := b₂.toNat_lt
    omega

/-- `wrapping_next`: the next locator in the ring. -/
def wrappingNext (l : Locator) : Locator where
  value := (l.value + 1) % 2 ^ 20
  lt := Nat.mod_lt _ (by decide)

end Locator

/-! ## State -/

/-- `SUSPEND_GRACE`, in nanoseconds. -/
def suspendGrace : Nat := 120 * 1000000000

/-- `RegistrationCapacity::MAX`. -/
def maxRegistrationCapacity : Nat := 320

/-- Validated registration limits. -/
structure RegistrationLimits where
  capacity : Nat
  perSource : Nat
  capacity_pos : 1 ≤ capacity
  capacity_le : capacity ≤ maxRegistrationCapacity
  perSource_pos : 1 ≤ perSource
  perSource_le : perSource ≤ capacity

inductive MappingState where
  | active
  | suspended (since : Nat)
deriving DecidableEq

section

variable (Peer Source : Type)

structure Mapping where
  owner : Peer
  source : Source
  state : MappingState
deriving DecidableEq

/-- The registry. A membership set is a list of peers. -/
structure Registry [DecidableEq Peer] [DecidableEq Source] where
  limits : RegistrationLimits
  retryAfter : Nat
  byLocator : Table Locator (Mapping Peer Source)
  byOwner : Table Peer Locator
  bySource : Table Source Nat
  reservations : List Peer
  connections : List Peer

end

inductive RegistryResponse where
  | acquired (locator : Locator)
  | released
  | conflict
  | capacity
  | reservationRequired
deriving DecidableEq

inductive ResolveResponse where
  | resolved (peer : Bytes)
  | retry (retryAfter : Nat)
  | unavailable
deriving DecidableEq

inductive RegistryError where
  | random
  | peerIdTooLong
deriving DecidableEq

/-- What would stop the process. -/
inductive Panic where
  | indexOutOfBounds
  | counterUnderflow
  | expectFailed (message : String)
  | diverges
deriving DecidableEq

namespace Registry

variable {Peer Source : Type} [DecidableEq Peer] [DecidableEq Source]

/-- `with_limits`. -/
def withLimits (limits : RegistrationLimits) (retryAfter : Nat) : Registry Peer Source where
  limits := limits
  retryAfter := retryAfter
  byLocator := ∅
  byOwner := ∅
  bySource := ∅
  reservations := []
  connections := []

/-- `set_membership`. -/
def setMembership (set : List Peer) (peer : Peer) (available : Bool) : List Peer :=
  if available then peer :: set else set.filter (· ≠ peer)

def isAvailable (r : Registry Peer Source) (peer : Peer) : Bool :=
  r.reservations.contains peer && r.connections.contains peer

def hasCapacity (r : Registry Peer Source) (source : Source) : Bool :=
  r.byLocator.size < r.limits.capacity &&
    (r.bySource.lookup source).getD 0 < r.limits.perSource

def insert (r : Registry Peer Source) (locator : Locator) (owner : Peer) (source : Source) :
    Registry Peer Source :=
  { r with
    byLocator := r.byLocator.insert locator ⟨owner, source, .active⟩
    byOwner := r.byOwner.insert owner locator
    bySource := r.bySource.insert source ((r.bySource.lookup source).getD 0 + 1) }

def remove (r : Registry Peer Source) (locator : Locator) : Except Panic (Registry Peer Source) :=
  match r.byLocator.lookup locator with
  | none => .ok r
  | some mapping =>
    let r := { r with
      byLocator := r.byLocator.erase locator
      byOwner := r.byOwner.erase mapping.owner }
    match r.bySource.lookup mapping.source with
    | none => .ok r
    | some 0 => .error .counterUnderflow
    | some (count + 1) =>
      if count = 0 then .ok { r with bySource := r.bySource.erase mapping.source }
      else .ok { r with bySource := r.bySource.insert mapping.source count }

/-- Whether a mapping has been suspended for the grace period. A time before `since` has no age. -/
def expired (now : Nat) (mapping : Mapping Peer Source) : Bool :=
  match mapping.state with
  | .active => false
  | .suspended since => since ≤ now && suspendGrace ≤ now - since

/-- The first loop of `prune`: the expired locators go into an array of fixed size. -/
def collectExpired (r : Registry Peer Source) (now : Nat) :
    List Locator → List Locator → Except Panic (List Locator)
  | found, [] => .ok found
  | found, locator :: rest =>
    match r.byLocator.lookup locator with
    | none => collectExpired r now found rest
    | some mapping =>
      if expired now mapping then
        if found.length < maxRegistrationCapacity then
          collectExpired r now (found ++ [locator]) rest
        else .error .indexOutOfBounds
      else collectExpired r now found rest

def prune (r : Registry Peer Source) (now : Nat) (i : Iteration Locator (Mapping Peer Source)) :
    Except Panic (Registry Peer Source) := do
  let locators ← collectExpired r now [] (i.visit r.byLocator)
  locators.foldlM remove r

/-- `refresh`, with the reading for the pruning and the one after it. -/
def refresh (r : Registry Peer Source) (peer : Peer) (now later : Nat)
    (i : Iteration Locator (Mapping Peer Source)) : Except Panic (Registry Peer Source) := do
  let r ← r.prune now i
  match r.byOwner.lookup peer with
  | none => return r
  | some locator =>
    match r.byLocator.lookup locator with
    | none => throw (.expectFailed "owner and locator indexes are updated atomically")
    | some mapping =>
      let state := match r.isAvailable peer, mapping.state with
        | true, _ => .active
        | false, .active => .suspended later
        | false, .suspended since => .suspended since
      return { r with byLocator := r.byLocator.insert locator { mapping with state := state } }

def setReservation (r : Registry Peer Source) (peer : Peer) (available : Bool) (now later : Nat)
    (i : Iteration Locator (Mapping Peer Source)) : Except Panic (Registry Peer Source) :=
  refresh { r with reservations := setMembership r.reservations peer available } peer now later i

def setConnection (r : Registry Peer Source) (peer : Peer) (available : Bool) (now later : Nat)
    (i : Iteration Locator (Mapping Peer Source)) : Except Panic (Registry Peer Source) :=
  refresh { r with connections := setMembership r.connections peer available } peer now later i

/-- The search for a free locator; the ring is left after as many candidates as it has. -/
def findFree (r : Registry Peer Source) : Nat → Locator → Except Panic Locator
  | 0, _ => .error .diverges
  | fuel + 1, candidate =>
    if (r.byLocator.lookup candidate).isNone then .ok candidate
    else findFree r fuel candidate.wrappingNext

/-- `allocate`; `random` is what the secure random source answers. -/
def allocate (r : Registry Peer Source) (owner : Peer) (source : Source)
    (random : Option (UInt8 × UInt8 × UInt8)) (now : Nat)
    (i : Iteration Locator (Mapping Peer Source)) :
    Except Panic (Except RegistryError RegistryResponse × Registry Peer Source) := do
  let r ← r.prune now i
  if r.isAvailable owner = false then return (.ok .reservationRequired, r)
  match r.byOwner.lookup owner with
  | some locator => return (.ok (.acquired locator), r)
  | none =>
    if r.hasCapacity source = false then return (.ok .capacity, r)
    match random with
    | none => return (.error .random, r)
    | some (b₀, b₁, b₂) =>
      let candidate ← r.findFree (2 ^ 20) (.random b₀ b₁ b₂)
      return (.ok (.acquired candidate), r.insert candidate owner source)

def reclaim (r : Registry Peer Source) (owner : Peer) (source : Source) (locator : Locator)
    (now : Nat) (i : Iteration Locator (Mapping Peer Source)) :
    Except Panic (RegistryResponse × Registry Peer Source) := do
  let r ← r.prune now i
  if r.isAvailable owner = false then return (.reservationRequired, r)
  match r.byOwner.lookup owner with
  | some existing =>
    if existing = locator then return (.acquired locator, r) else return (.conflict, r)
  | none =>
    if (r.byLocator.lookup locator).isSome then return (.conflict, r)
    if r.hasCapacity source = false then return (.capacity, r)
    return (.acquired locator, r.insert locator owner source)

def release (r : Registry Peer Source) (owner : Peer) (locator : Locator) (now : Nat)
    (i : Iteration Locator (Mapping Peer Source)) :
    Except Panic (RegistryResponse × Registry Peer Source) := do
  let r ← r.prune now i
  if r.byOwner.lookup owner = some locator then return (.released, ← r.remove locator)
  else return (.released, r)

/-- `bounded_peer_id`. -/
def boundedPeerId (source : Bytes) : Except RegistryError Bytes :=
  if source = [] ∨ 64 < source.length then .error .peerIdTooLong else .ok source

/-- `resolve`; `toBytes` is the serialisation of peer identities. -/
def resolve (toBytes : Peer → Bytes) (r : Registry Peer Source) (locator : Locator) (now : Nat)
    (i : Iteration Locator (Mapping Peer Source)) :
    Except Panic (Except RegistryError ResolveResponse × Registry Peer Source) := do
  let r ← r.prune now i
  match r.byLocator.lookup locator with
  | none => return (.ok .unavailable, r)
  | some mapping =>
    match mapping.state with
    | .active => return ((boundedPeerId (toBytes mapping.owner)).map .resolved, r)
    | .suspended _ => return (.ok (.retry r.retryAfter), r)

end Registry

end Yonder.Relay
