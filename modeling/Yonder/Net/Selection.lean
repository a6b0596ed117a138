import Yonder.Net.Path
import Mathlib.Data.List.Induction

/-!
# The selection window

`ConnectionSelection` collects the connections of one selection window, with their ping samples, and
picks a winner. A closed connection is taken out by swapping the last one into its place, so two
histories that leave the same candidates can hold them in different orders. `winner_law_iff`: the
ranking is a strict total order and the winner is the same for every order of the candidates exactly
when no three of them are in a circle. `winner_depends_on_history` gives two histories that leave the
same three candidates and select different connections.
-/

namespace Yonder.Net

open Lib

/-- The protocols of an address that the classification looks at. -/
inductive Protocol where
  | udp
  | quicV1
  | tcp
  | tls
  | ws
  | other
deriving DecidableEq

/-- A connected endpoint: its remote address, and whether it goes through the relay. -/
structure ConnectedPoint where
  address : List Protocol
  relayed : Bool

/-- Whether a list has the given window. -/
def hasWindow (window : List Protocol) : List Protocol → Bool
  | [] => window.isEmpty
  | p :: rest => window.isPrefixOf (p :: rest) || hasWindow window rest

def classifyTransport (address : List Protocol) : TransportKind :=
  if hasWindow [.udp, .quicV1] address then .quic
  else if hasWindow [.tcp, .tls, .ws] address then .secureWebSocket
  else if hasWindow [.tcp, .ws] address then .webSocket
  else .tcp

inductive SelectionError where
  | full
  | transportFull
  | unknownCandidate
deriving DecidableEq

def perPeerCapacity : Nat := 8

def perTransportCapacity : Nat := 2

/-- Removal of an element, with the last one swapped into its place. -/
def swapRemove {α : Type} (l : List α) (i : Nat) : List α :=
  match l.getLast? with
  | none => l
  | some last => (l.set i last).dropLast

section

variable (Conn : Type)

structure TrackedCandidate where
  connection : Conn
  ranked : PathCandidate
deriving DecidableEq

structure ConnectionSelection where
  candidates : List (TrackedCandidate Conn)
  nextId : Nat
  nextOrder : Nat

structure ConnectionSelectionResult where
  connection : Conn
  losers : List Conn
  path : CandidatePath × TransportKind
deriving DecidableEq

end

namespace ConnectionSelection

variable {Conn : Type} [DecidableEq Conn]

def new : ConnectionSelection Conn := ⟨[], 0, 0⟩

/-- `established`: the connection, the candidate set and the set of its transport are bounded. -/
def established (s : ConnectionSelection Conn) (connection : Conn) (endpoint : ConnectedPoint) :
    Except SelectionError (ConnectionSelection Conn) :=
  if s.candidates.any (·.connection = connection) then .ok s
  else if s.candidates.length = perPeerCapacity then .error .full
  else
    let transport := classifyTransport endpoint.address
    if s.candidates.countP (·.ranked.transport = transport) = perTransportCapacity then
      .error .transportFull
    else
      let ranked : PathCandidate :=
        { id := s.nextId, samples := .new, path := if endpoint.relayed then .relayed else .direct
          transport := transport, established := s.nextOrder }
      .ok { candidates := s.candidates ++ [⟨connection, ranked⟩]
            nextId := (s.nextId + 1) % 2 ^ 64
            nextOrder := (s.nextOrder + 1) % 2 ^ 64 }

/-- The first candidate of the connection with one more sample. -/
def pingFirst (connection : Conn) (roundTrip : Nat) :
    List (TrackedCandidate Conn) → Option (Bool × List (TrackedCandidate Conn))
  | [] => none
  | c :: rest =>
    if c.connection = connection then
      let (pushed, samples) := c.ranked.samples.push roundTrip
      some (pushed, { c with ranked := { c.ranked with samples := samples } } :: rest)
    else (pingFirst connection roundTrip rest).map fun (pushed, rest) => (pushed, c :: rest)

def ping (s : ConnectionSelection Conn) (connection : Conn) (roundTrip : Nat) :
    Except SelectionError (Bool × ConnectionSelection Conn) :=
  match pingFirst connection roundTrip s.candidates with
  | none => .error .unknownCandidate
  | some (pushed, candidates) => .ok (pushed, { s with candidates := candidates })

def closed (s : ConnectionSelection Conn) (connection : Conn) : Bool × ConnectionSelection Conn :=
  match s.candidates.findIdx? (·.connection = connection) with
  | none => (false, s)
  | some index => (true, { s with candidates := swapRemove s.candidates index })

/-- The comparison of two tracked candidates. -/
def compareRanked (a b : TrackedCandidate Conn) : Ordering := compare a.ranked b.ranked

def result (s : ConnectionSelection Conn) (tracked : TrackedCandidate Conn) :
    ConnectionSelectionResult Conn where
  connection := tracked.connection
  losers := (s.candidates.filter (·.connection ≠ tracked.connection)).map (·.connection)
  path := (tracked.ranked.path, tracked.ranked.transport)

def finish (s : ConnectionSelection Conn) : Option (ConnectionSelectionResult Conn) :=
  (minBy compareRanked s.candidates).map s.result

def finishDirect (s : ConnectionSelection Conn) : Option (ConnectionSelectionResult Conn) :=
  (minBy compareRanked (s.candidates.filter (·.ranked.path = .direct))).map s.result

omit [DecidableEq Conn] in
def hasDirect (s : ConnectionSelection Conn) : Bool :=
  s.candidates.any (·.ranked.path = .direct)

omit [DecidableEq Conn] in
def hasDirectSample (s : ConnectionSelection Conn) : Bool :=
  s.candidates.any fun c => c.ranked.path = .direct ∧ c.ranked.samples.isUsable

/-- The candidates as the path policy sees them. -/
def ranked (s : ConnectionSelection Conn) : List PathCandidate := s.candidates.map (·.ranked)

/-- What happens to a selection window. -/
inductive Event (Conn : Type) where
  | established (connection : Conn) (endpoint : ConnectedPoint)
  | ping (connection : Conn) (roundTrip : Nat)
  | closed (connection : Conn)

/-- The window after an event; an error leaves it as it was. -/
def apply (s : ConnectionSelection Conn) : Event Conn → ConnectionSelection Conn
  | .established connection endpoint => (s.established connection endpoint).toOption.getD s
  | .ping connection roundTrip => ((s.ping connection roundTrip).toOption.map Prod.snd).getD s
  | .closed connection => (s.closed connection).2

def run (history : List (Event Conn)) : ConnectionSelection Conn := history.foldl apply new

/-! ## The winner -/

/-- The same winner for every order of the candidates: for the path policy and for both ways to
finish. -/
def WinnerFixed (s : ConnectionSelection Conn) : Prop :=
  ∀ t : ConnectionSelection Conn, t.candidates.Perm s.candidates →
    select t.ranked = select s.ranked ∧
      t.finish.map (·.connection) = s.finish.map (·.connection) ∧
      t.finishDirect.map (·.connection) = s.finishDirect.map (·.connection)

theorem winnerFixed_of_order {s : ConnectionSelection Conn}
    (hdistinct : (s.candidates.map (·.ranked.established)).Nodup)
    (h : StrictTotalOn compare s.ranked) : s.WinnerFixed := by
  intro t hperm
  have htracked : StrictTotalOn compareRanked s.candidates := by
    refine h.of_map fun a ha b hb he => ?_
    exact List.inj_on_of_nodup_map hdistinct ha hb (congrArg PathCandidate.established he)
  have hswap : ∀ a b : TrackedCandidate Conn, compareRanked b a = (compareRanked a b).swap :=
    fun a b => compare_swap a.ranked b.ranked
  have hwinner : ∀ l : List (TrackedCandidate Conn), l ⊆ s.candidates →
      ∀ l' : List (TrackedCandidate Conn), l'.Perm l →
        ((minBy compareRanked l').map t.result).map (·.connection) =
          ((minBy compareRanked l).map s.result).map (·.connection) := by
    intro l hsub l' hl
    rw [minBy_perm hswap (htracked.subset hsub) hl]
    cases minBy compareRanked l <;> rfl
  exact ⟨minBy_perm compare_swap h (hperm.map _), hwinner _ (List.Subset.refl _) _ hperm,
    hwinner _ List.filter_sublist.subset _ (hperm.filter _)⟩

/-- For candidates of distinct orders of establishment, the ranking is a strict total order and the
winner does not depend on the order of the candidates, exactly when no three of them are in a
circle. -/
theorem winner_law_iff (s : ConnectionSelection Conn)
    (hdistinct : (s.candidates.map (·.ranked.established)).Nodup) :
    (StrictTotalOn compare s.ranked ∧ s.WinnerFixed) ↔ ¬ Cyclic s.ranked := by
  have hranked : (s.ranked.map (·.established)).Nodup := by
    rw [ranked, List.map_map]
    exact hdistinct
  rw [← strictTotalOn_iff hranked]
  exact ⟨And.left, fun h => ⟨h, winnerFixed_of_order hdistinct h⟩⟩

/-- Connections 1, 2 and 3 with a median of 15 each, of which 2 has a single sample; connection 0 is
closed before connection 3 is established, or at the end. -/
def history (early : Bool) : List (Event Nat) :=
  [.established 0 ⟨[.tcp], false⟩, .established 1 ⟨[.udp, .quicV1], false⟩,
    .established 2 ⟨[.udp, .quicV1], false⟩] ++
  (if early then [.closed 0] else []) ++
  [.established 3 ⟨[.tcp], false⟩, .ping 1 10, .ping 1 20, .ping 2 15, .ping 3 14, .ping 3 16] ++
  (if early then [] else [.closed 0])

/-- The law at the candidates that a history leaves. -/
theorem winner_law_history :
    ((run (history true)).candidates.map (·.ranked.established)).Nodup ∧
      ((StrictTotalOn compare (run (history true)).ranked ∧ (run (history true)).WinnerFixed) ↔
        ¬ Cyclic (run (history true)).ranked) :=
  ⟨by decide, winner_law_iff (run (history true)) (by decide)⟩

/-- Two histories leave the same candidates, of distinct orders, and select different connections. -/
theorem winner_depends_on_history :
    ((run (history true)).candidates.map (·.ranked.established)).Nodup ∧
      (run (history false)).candidates.Perm (run (history true)).candidates ∧
      (run (history true)).finish.map (·.connection) = some 3 ∧
      (run (history false)).finish.map (·.connection) = some 2 ∧
      ¬ (StrictTotalOn compare (run (history true)).ranked ∧ (run (history true)).WinnerFixed) := by
  have hperm : (run (history false)).candidates.Perm (run (history true)).candidates := by decide
  refine ⟨by decide, hperm, by decide, by decide, ?_⟩
  rintro ⟨-, hfixed⟩
  exact absurd (hfixed _ hperm).2.1 (by decide)

end ConnectionSelection

end Yonder.Net
