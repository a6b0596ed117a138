import Yonder.Host.Target
import Yonder.Lib.Fallible
import Yonder.Lib.Live
import Yonder.Net.Selection

/-!
# Selecting the connection to a target

The controller collects the connections that a target establishes while several deadlines run, and
then binds itself to the best of them. With direct upgrade enabled the relayed connection that came
first is never good enough: the window waits for a direct connection and a ping sample of it, or for
the report that the upgrade failed.

`target_selection`: after every history the winner and the losers are the connections that were
accepted and not closed, the capacities hold, a settled window gives a direct winner or says that the
upgrade failed, and `connectTargetUntil` never returns a relayed path.
-/

namespace Yonder.Host

open Lib Net

variable {Peer Conn : Type} [DecidableEq Peer] [DecidableEq Conn]

/-! ## Events -/

inductive DirectUpgradePolicy where
  | enabled
  | disabled
deriving DecidableEq

inductive DirectUpgradeOutcome (Conn : Type) where
  | connected (connection : Conn)
  | failed
deriving DecidableEq

/-- The events of the endpoint that the selection looks at, and the others; the round trip of a failed
ping is missing. -/
inductive TargetEvent (Peer Conn : Type) where
  | established (peer : Peer) (connection : Conn) (endpoint : ConnectedPoint)
  | closed (peer : Peer) (connection : Conn)
  | ping (peer : Peer) (connection : Conn) (roundTrip : Option Nat)
  | directUpgradeFinished (peer : Peer) (outcome : DirectUpgradeOutcome Conn)
  | other

/-- `process_target_selection_event`: whether a candidate was accepted, the selection, and the
connections that the driver closes. -/
def processTargetSelectionEvent (selection : ConnectionSelection Conn) (target : Peer) :
    TargetEvent Peer Conn → Bool × ConnectionSelection Conn × List Conn
  | .established peer connection endpoint =>
    if peer = target then
      match selection.established connection endpoint with
      | .ok selection => (true, selection, [])
      | .error _ => (false, selection, [connection])
    else (false, selection, [])
  | .ping peer connection (some roundTrip) =>
    if peer = target then
      match selection.ping connection roundTrip with
      | .ok (_, selection) => (false, selection, [])
      | .error _ => (false, selection, [])
    else (false, selection, [])
  | .closed peer connection =>
    if peer = target then (false, (selection.closed connection).2, []) else (false, selection, [])
  | _ => (false, selection, [])

def finishTargetSelection (selection : ConnectionSelection Conn)
    (directUpgradeOutcome : Option (DirectUpgradeOutcome Conn)) (directUpgrade : DirectUpgradePolicy) :
    Except EndpointError (ConnectionSelectionResult Conn) :=
  match directUpgrade with
  | .enabled =>
    if selection.hasDirect then
      match selection.finishDirect with
      | some result => .ok result
      | none => .error .targetUpgradeDidNotSettle
    else
      match directUpgradeOutcome with
      | some .failed => .error .directUpgradeFailed
      | some (.connected _) => .error .targetUpgradeDidNotSettle
      | none => .error .targetUpgradeDidNotSettle
  | .disabled =>
    match selection.finish with
    | some result => .ok result
    | none => .error .relayUnavailable

def targetSelectionIsSettled (selection : ConnectionSelection Conn)
    (directUpgradeOutcome : Option (DirectUpgradeOutcome Conn)) (selectionElapsed : Bool)
    (directUpgrade : DirectUpgradePolicy) (lateSampleElapsed : Bool) : Bool :=
  if selectionElapsed = false ∨ directUpgrade ≠ .enabled then selectionElapsed
  else if selection.hasDirect then selection.hasDirectSample || lateSampleElapsed
  else directUpgradeOutcome = some .failed

/-! ## The loop -/

/-- `TARGET_SELECTION_WINDOW`, in nanoseconds. -/
def targetSelectionWindow : Nat := 1500000000

/-- `DIRECT_UPGRADE_WINDOW`. -/
def directUpgradeWindow : Nat := 3000000000

/-- `LATE_DIRECT_SAMPLE_WINDOW`. -/
def lateDirectSampleWindow : Nat := 750000000

/-- The variables of the loop, and the connections that the driver was asked to close. -/
structure TargetWindow (Conn : Type) where
  selection : ConnectionSelection Conn
  hasCandidate : Bool
  selectionDeadline : Option Nat
  selectionElapsed : Bool
  directUpgradeDeadline : Option Nat
  directUpgradeOutcome : Option (DirectUpgradeOutcome Conn)
  lateSampleDeadline : Option Nat
  lateSampleElapsed : Bool
  closing : List Conn

/-- What the wait for the next event ends with, and the clock readings that follow it. A timeout may
come at any time. -/
inductive Poll (Peer Conn : Type) where
  | timeout (now : Nat)
  | event (event : TargetEvent Peer Conn) (now later : Nat)

/-- The end of one turn of the loop. -/
inductive Turn (Conn : Type) where
  | next (window : TargetWindow Conn)
  | settled (window : TargetWindow Conn)
  | expired

structure SelectedConnection (Peer Conn : Type) where
  binding : Binding Peer Conn
  path : CandidatePath × TransportKind

namespace TargetWindow

def new : TargetWindow Conn := ⟨.new, false, none, false, none, none, none, false, []⟩

def deadline (w : TargetWindow Conn) (connectDeadline : Nat) : Nat :=
  if w.selectionElapsed then
    (w.lateSampleDeadline.filter fun _ => !w.lateSampleElapsed).getD
      (w.directUpgradeDeadline.getD connectDeadline)
  else w.selectionDeadline.getD connectDeadline

def isSettled (w : TargetWindow Conn) (directUpgrade : DirectUpgradePolicy) : Bool :=
  targetSelectionIsSettled w.selection w.directUpgradeOutcome w.selectionElapsed directUpgrade
    w.lateSampleElapsed

/-- `arm_late_sample_window`. -/
def armLateSampleWindow (w : TargetWindow Conn) (connectDeadline now : Nat) : TargetWindow Conn :=
  if w.selectionElapsed && w.selection.hasDirect && !w.selection.hasDirectSample then
    { w with
      lateSampleDeadline :=
        some (w.lateSampleDeadline.getD (min (now + lateDirectSampleWindow) connectDeadline)) }
  else w

/-- The outcome of an upgrade to the target. -/
def observe (w : TargetWindow Conn) (target : Peer) : TargetEvent Peer Conn → TargetWindow Conn
  | .directUpgradeFinished peer outcome =>
    if peer = target then { w with directUpgradeOutcome := some outcome } else w
  | _ => w

/-- The deadlines that the first candidate starts. -/
def start (w : TargetWindow Conn) (directUpgrade : DirectUpgradePolicy) (connectDeadline now : Nat) :
    TargetWindow Conn :=
  if w.hasCandidate && w.selectionDeadline.isNone then
    { w with
      selectionDeadline := some (min (now + targetSelectionWindow) connectDeadline)
      directUpgradeDeadline :=
        if directUpgrade = .enabled then some (min (now + directUpgradeWindow) connectDeadline)
        else w.directUpgradeDeadline }
  else w

/-- One turn of the loop. -/
def turn (w : TargetWindow Conn) (target : Peer) (directUpgrade : DirectUpgradePolicy)
    (connectDeadline : Nat) : Poll Peer Conn → Turn Conn
  | .timeout now =>
    if w.selectionDeadline.isSome && !w.selectionElapsed then
      let w := { w with selectionElapsed := true }
      if w.isSettled directUpgrade then .settled w
      else .next (w.armLateSampleWindow connectDeadline now)
    else if w.lateSampleDeadline = some (w.deadline connectDeadline) && !w.lateSampleElapsed then
      let w := { w with lateSampleElapsed := true }
      if w.isSettled directUpgrade then .settled w else .next w
    else .expired
  | .event event now later =>
    let w := w.observe target event
    let (accepted, selection, closing) := processTargetSelectionEvent w.selection target event
    let w := { w with
      selection := selection
      hasCandidate := w.hasCandidate || accepted
      closing := w.closing ++ closing }
    let w := w.start directUpgrade connectDeadline now
    if w.isSettled directUpgrade then .settled w
    else .next (w.armLateSampleWindow connectDeadline later)

/-- The end of `connect_target_until` once the window is settled; `closePeer` and `converge` are what
the driver answers when it closes the peer or waits for the binding. -/
def conclude (w : TargetWindow Conn) (target : Peer) (directUpgrade : DirectUpgradePolicy)
    (closePeer : Except EndpointError Unit) (converge : Conn → Except EndpointError Unit) :
    Except EndpointError (SelectedConnection Peer Conn) := do
  if directUpgrade = .enabled ∧ w.directUpgradeOutcome = some .failed ∧ w.selection.hasDirect = false
  then
    closePeer
    throw .directUpgradeFailed
  let result ← finishTargetSelection w.selection w.directUpgradeOutcome directUpgrade
  converge result.connection
  return ⟨⟨target, result.connection⟩, result.path⟩

/-- The loop of `connect_target_until`; it is pending when the polls end before it does. -/
def connectTargetUntil (target : Peer) (directUpgrade : DirectUpgradePolicy) (connectDeadline : Nat)
    (closePeer : Except EndpointError Unit) (converge : Conn → Except EndpointError Unit) :
    TargetWindow Conn → List (Poll Peer Conn) →
      Option (Except EndpointError (SelectedConnection Peer Conn))
  | _, [] => none
  | w, poll :: rest =>
    match w.turn target directUpgrade connectDeadline poll with
    | .next w => connectTargetUntil target directUpgrade connectDeadline closePeer converge w rest
    | .settled w => some (w.conclude target directUpgrade closePeer converge)
    | .expired => some (do
        closePeer
        throw (if w.hasCandidate then .targetUpgradeDidNotSettle else .relayUnavailable))

end TargetWindow

/-! ## What the events do to the candidates -/

/-- The connections of the candidates, with their transports. -/
def keys (s : ConnectionSelection Conn) : List (Conn × TransportKind) :=
  s.candidates.map fun c => (c.connection, c.ranked.transport)

def connections (s : ConnectionSelection Conn) : List Conn := s.candidates.map (·.connection)

variable {s t : ConnectionSelection Conn} {connection : Conn}

omit [DecidableEq Conn] in
theorem map_fst_keys (s : ConnectionSelection Conn) : (keys s).map Prod.fst = connections s := by
  rw [keys, connections, List.map_map]
  rfl

/-- An accepted establishment is a duplicate or adds a candidate that there is room for. -/
theorem established_keys {endpoint : ConnectedPoint}
    (h : s.established connection endpoint = .ok t) :
    (connection ∈ connections s ∧ t = s) ∨
      (connection ∉ connections s ∧ (keys s).length ≠ Net.perPeerCapacity ∧
        (keys s).countP (·.2 = classifyTransport endpoint.address) ≠ perTransportCapacity ∧
        keys t = keys s ++ [(connection, classifyTransport endpoint.address)]) := by
  have hany : s.candidates.any (·.connection = connection) = true ↔ connection ∈ connections s := by
    simp [connections]
  unfold ConnectionSelection.established at h
  split at h
  case isTrue hin =>
    cases h
    exact .inl ⟨hany.1 hin, rfl⟩
  case isFalse hout =>
    split at h
    case isTrue => cases h
    case isFalse hlen =>
      dsimp only at h
      split at h
      case isTrue => cases h
      case isFalse hcount =>
        cases h
        refine .inr ⟨mt hany.2 hout, ?_, ?_, List.map_append⟩
        · rwa [keys, List.length_map]
        · rwa [keys, List.countP_map]

theorem pingFirst_keys {roundTrip : Nat} {l l' : List (TrackedCandidate Conn)} {pushed : Bool}
    (h : ConnectionSelection.pingFirst connection roundTrip l = some (pushed, l')) :
    l'.map (fun c => (c.connection, c.ranked.transport)) =
      l.map fun c => (c.connection, c.ranked.transport) := by
  induction l generalizing l' with
  | nil => cases h
  | cons c rest ih =>
    rw [ConnectionSelection.pingFirst] at h
    split at h
    case isTrue =>
      cases h
      rfl
    case isFalse =>
      obtain ⟨⟨pushed', rest'⟩, hrest, heq⟩ := Option.map_eq_some_iff.1 h
      cases heq
      rw [List.map_cons, List.map_cons, ih hrest]

theorem ping_keys {roundTrip : Nat} {pushed : Bool}
    (h : s.ping connection roundTrip = .ok (pushed, t)) : keys t = keys s := by
  unfold ConnectionSelection.ping at h
  split at h
  case h_1 => cases h
  case h_2 hping =>
    cases h
    exact pingFirst_keys hping

theorem perm_swapRemove {α : Type} (l : List α) {i : Nat} (h : i < l.length) :
    l.Perm (l[i] :: swapRemove l i) := by
  refine (List.getElem_cons_eraseIdx_perm h).symm.trans (.cons _ ?_)
  rcases List.eq_nil_or_concat l with rfl | ⟨init, last, rfl⟩
  · cases h
  · rw [List.concat_eq_append] at h ⊢
    rw [swapRemove, List.getLast?_concat]
    by_cases hi : i < init.length
    case pos =>
      simp only [List.set_append_left _ _ hi, List.dropLast_concat,
        List.eraseIdx_append_of_lt_length hi]
      exact ((List.set_perm_cons_eraseIdx hi last).trans (List.perm_append_singleton _ _).symm).symm
    case neg =>
      -- the last element is removed itself
      obtain rfl : i = init.length := by simp at h; omega
      simp [List.eraseIdx_append_of_length_le, List.set_append_right]

theorem closed_keys (s : ConnectionSelection Conn) (connection : Conn) :
    (connection ∉ connections s ∧ (s.closed connection).2 = s) ∨
      ∃ transport, (keys s).Perm ((connection, transport) :: keys (s.closed connection).2) := by
  unfold ConnectionSelection.closed
  cases hfind : s.candidates.findIdx? (·.connection = connection) with
  | none =>
    rw [List.findIdx?_eq_none_iff] at hfind
    exact .inl ⟨by simpa [connections] using hfind, rfl⟩
  | some index =>
    obtain ⟨hlt, heq, -⟩ := List.findIdx?_eq_some_iff_getElem.1 hfind
    refine .inr ⟨s.candidates[index].ranked.transport, ?_⟩
    have hperm := (perm_swapRemove s.candidates hlt).map fun c => (c.connection, c.ranked.transport)
    rwa [List.map_cons, of_decide_eq_true heq] at hperm

/-! ## Histories -/

/-- An event, and whether it was accepted as a candidate. -/
structure Followed (Peer Conn : Type) where
  event : TargetEvent Peer Conn
  accepted : Bool

def Followed.adds : Followed Peer Conn → Option Conn
  | ⟨.established _ connection _, true⟩ => some connection
  | _ => none

/-- The connection of the target that an event closes. -/
def Followed.removes (target : Peer) : Followed Peer Conn → Option Conn
  | ⟨.closed peer connection, _⟩ => if peer = target then some connection else none
  | _ => none

/-- The selection and the log after an event. -/
def follow (target : Peer) (σ : ConnectionSelection Conn × List (Followed Peer Conn))
    (event : TargetEvent Peer Conn) : ConnectionSelection Conn × List (Followed Peer Conn) :=
  let (accepted, selection, _) := processTargetSelectionEvent σ.1 target event
  (selection, σ.2 ++ [⟨event, accepted⟩])

/-- The connection was accepted and not closed since. -/
def Held (target : Peer) (log : List (Followed Peer Conn)) (connection : Conn) : Prop :=
  Live Followed.adds (Followed.removes target) log connection

/-- The candidates are the connections that the log holds, within the capacities. -/
structure Collects (target : Peer) (s : ConnectionSelection Conn) (log : List (Followed Peer Conn)) :
    Prop where
  nodup : (connections s).Nodup
  held : ∀ c, c ∈ connections s ↔ Held target log c
  perPeer : (keys s).length ≤ Net.perPeerCapacity
  perTransport : ∀ transport, (keys s).countP (·.2 = transport) ≤ perTransportCapacity

variable {target : Peer} {log : List (Followed Peer Conn)}

omit [DecidableEq Conn] in
theorem collects_new (target : Peer) :
    Collects target (.new : ConnectionSelection Conn) ([] : List (Followed Peer Conn)) where
  nodup := List.nodup_nil
  held _ := iff_of_false List.not_mem_nil not_live_nil
  perPeer := Nat.zero_le _
  perTransport _ := Nat.zero_le _

omit [DecidableEq Conn] in
/-- An event that leaves the candidates and adds and removes nothing. -/
theorem Collects.same (h : Collects target s log) (hkeys : keys t = keys s)
    {entry : Followed Peer Conn} (hadds : entry.adds = none) (hremoves : entry.removes target = none) :
    Collects target t (log ++ [entry]) := by
  have hconnections : connections t = connections s := by
    rw [← map_fst_keys, ← map_fst_keys, hkeys]
  refine ⟨hconnections ▸ h.nodup, fun c => ?_, hkeys ▸ h.perPeer, hkeys ▸ h.perTransport⟩
  rw [hconnections, h.held, Held, Held, live_snoc_of_none hadds hremoves]

theorem Collects.established (h : Collects target s log) {peer : Peer} {endpoint : ConnectedPoint}
    (hok : s.established connection endpoint = .ok t) :
    Collects target t (log ++ [⟨.established peer connection endpoint, true⟩]) := by
  have hlive : ∀ c, Held target (log ++ [⟨.established peer connection endpoint, true⟩]) c ↔
      c = connection ∨ Held target log c := by
    intro c
    rw [Held, live_snoc]
    simp [Followed.adds, Followed.removes, Held, eq_comm]
  rcases established_keys hok with ⟨hin, rfl⟩ | ⟨hout, hlen, hcount, hkeys⟩
  · refine ⟨h.nodup, fun c => ?_, h.perPeer, h.perTransport⟩
    rw [hlive, ← h.held]
    exact ⟨.inr, fun hc => hc.elim (fun heq => heq ▸ hin) id⟩
  · have hconnections : connections t = connections s ++ [connection] := by
      rw [← map_fst_keys, ← map_fst_keys, hkeys, List.map_append]
      rfl
    constructor
    case nodup =>
      rw [hconnections, List.nodup_append_comm, List.singleton_append, List.nodup_cons]
      exact ⟨hout, h.nodup⟩
    case held =>
      intro c
      rw [hlive, hconnections, List.mem_append, List.mem_singleton, h.held, or_comm]
    case perPeer =>
      rw [hkeys, List.length_append, List.length_singleton]
      exact Nat.succ_le_of_lt (lt_of_le_of_ne h.perPeer hlen)
    case perTransport =>
      intro transport
      rw [hkeys, List.countP_append, List.countP_singleton]
      have hle := h.perTransport transport
      split
      case isTrue heq =>
        rw [decide_eq_true_eq] at heq
        subst heq
        exact Nat.succ_le_of_lt (lt_of_le_of_ne hle hcount)
      case isFalse => exact hle

theorem Collects.closed (h : Collects target s log) (connection : Conn) :
    Collects target (s.closed connection).2 (log ++ [⟨.closed target connection, false⟩]) := by
  have hlive : ∀ c, Held target (log ++ [⟨.closed target connection, false⟩]) c ↔
      Held target log c ∧ c ≠ connection := by
    intro c
    rw [Held, live_snoc]
    simp [Followed.adds, Followed.removes, Held, eq_comm]
  rcases closed_keys s connection with ⟨hout, hsame⟩ | ⟨transport, hperm⟩
  · rw [hsame]
    refine ⟨h.nodup, fun c => ?_, h.perPeer, h.perTransport⟩
    rw [hlive, ← h.held]
    exact ⟨fun hc => ⟨hc, fun heq => hout (heq ▸ hc)⟩, And.left⟩
  · have hconnections := hperm.map Prod.fst
    rw [List.map_cons, map_fst_keys, map_fst_keys] at hconnections
    have hnodup := List.nodup_cons.1 (hconnections.nodup_iff.1 h.nodup)
    refine ⟨hnodup.2, fun c => ?_, ?_, fun t => ?_⟩
    · rw [hlive, ← h.held, hconnections.mem_iff, List.mem_cons]
      constructor
      · exact fun hc => ⟨.inr hc, fun heq => hnodup.1 (heq ▸ hc)⟩
      · exact fun hc => hc.1.resolve_left hc.2
    · have hlen := hperm.length_eq
      have hle := h.perPeer
      rw [List.length_cons] at hlen
      omega
    · have hle := h.perTransport t
      rw [hperm.countP_eq, List.countP_cons] at hle
      omega

theorem Collects.follow (h : Collects target s log) (event : TargetEvent Peer Conn) :
    Collects target (Host.follow target (s, log) event).1 (Host.follow target (s, log) event).2 := by
  rw [Host.follow]
  cases event with
  | established peer connection endpoint =>
    dsimp only [processTargetSelectionEvent]
    split
    case isTrue =>
      split
      case h_1 hok => exact h.established hok
      case h_2 => exact h.same rfl rfl rfl
    case isFalse => exact h.same rfl rfl rfl
  | closed peer connection =>
    dsimp only [processTargetSelectionEvent]
    split
    case isTrue hpeer => exact hpeer ▸ h.closed connection
    case isFalse hpeer => exact h.same rfl rfl (if_neg hpeer)
  | ping peer connection roundTrip =>
    cases roundTrip with
    | none => exact h.same rfl rfl rfl
    | some roundTrip =>
      dsimp only [processTargetSelectionEvent]
      split
      case isTrue =>
        split
        case h_1 hok => exact h.same (ping_keys hok) rfl rfl
        case h_2 => exact h.same rfl rfl rfl
      case isFalse => exact h.same rfl rfl rfl
  | directUpgradeFinished peer outcome => exact h.same rfl rfl rfl
  | other => exact h.same rfl rfl rfl

theorem collects_run (target : Peer) (events : List (TargetEvent Peer Conn)) :
    let σ := events.foldl (Host.follow target) (.new, [])
    Collects target σ.1 σ.2 := by
  suffices hrun : ∀ s log, Collects target s log →
      let σ := events.foldl (Host.follow target) (s, log)
      Collects target σ.1 σ.2 from hrun _ _ (collects_new target)
  induction events with
  | nil => exact fun _ _ h => h
  | cons event rest ih => exact fun _ _ h => ih _ _ (h.follow event)

/-! ## The winner and the losers -/

/-- The winner and the losers of a result, without duplicates, are the connections that the log
holds. -/
def Covers (target : Peer) (log : List (Followed Peer Conn))
    (r : ConnectionSelectionResult Conn) : Prop :=
  (r.connection :: r.losers).Nodup ∧ ∀ c, c ∈ r.connection :: r.losers ↔ Held target log c

theorem Collects.covers (h : Collects target s log) {winner : TrackedCandidate Conn}
    (hmem : winner ∈ s.candidates) : Covers target log (s.result winner) := by
  have hlosers : (s.result winner).losers = (connections s).filter (· ≠ winner.connection) := by
    rw [connections, List.filter_map]
    rfl
  have hwinner : winner.connection ∈ connections s := List.mem_map_of_mem hmem
  constructor
  · rw [hlosers, List.nodup_cons]
    exact ⟨by simp [ConnectionSelection.result], h.nodup.filter _⟩
  · intro c
    rw [hlosers, ← h.held, List.mem_cons, List.mem_filter, decide_eq_true_eq]
    constructor
    · rintro (rfl | hc)
      · exact hwinner
      · exact hc.1
    · exact fun hc => (em (c = winner.connection)).imp id fun hne => ⟨hc, hne⟩

theorem Collects.finish_covers (h : Collects target s log) {r : ConnectionSelectionResult Conn}
    (hr : s.finish = some r) : Covers target log r := by
  obtain ⟨winner, hwinner, rfl⟩ := Option.map_eq_some_iff.1 hr
  exact h.covers (mem_of_minBy hwinner)

/-- The winner of `finish_direct` is direct. -/
theorem finishDirect_winner {r : ConnectionSelectionResult Conn} (hr : s.finishDirect = some r) :
    ∃ winner ∈ s.candidates, winner.ranked.path = .direct ∧ s.result winner = r := by
  obtain ⟨winner, hwinner, rfl⟩ := Option.map_eq_some_iff.1 hr
  have hmem := List.mem_filter.1 (mem_of_minBy hwinner)
  exact ⟨winner, hmem.1, of_decide_eq_true hmem.2, rfl⟩

theorem finish_eq_none : s.finish = none ↔ connections s = [] := by
  rw [ConnectionSelection.finish, Option.map_eq_none_iff, minBy_eq_none, connections,
    List.map_eq_nil_iff]

theorem finishDirect_eq_none : s.finishDirect = none ↔ s.hasDirect = false := by
  rw [ConnectionSelection.finishDirect, Option.map_eq_none_iff, minBy_eq_none,
    List.filter_eq_nil_iff, ConnectionSelection.hasDirect, List.any_eq_false]

/-- With direct upgrade enabled, the selection finishes with a direct winner only. -/
theorem finishTargetSelection_enabled {outcome : Option (DirectUpgradeOutcome Conn)}
    {r : ConnectionSelectionResult Conn} (h : finishTargetSelection s outcome .enabled = .ok r) :
    r.path.1 = .direct := by
  unfold finishTargetSelection at h
  dsimp only at h
  split at h
  case isTrue =>
    split at h
    case h_1 hfinish =>
      cases h
      obtain ⟨winner, -, hdirect, rfl⟩ := finishDirect_winner hfinish
      exact hdirect
    case h_2 => cases h
  case isFalse => split at h <;> cases h

/-- A settled window has a direct winner, or the upgrade failed. -/
theorem finishTargetSelection_of_settled {outcome : Option (DirectUpgradeOutcome Conn)}
    {selectionElapsed lateSampleElapsed : Bool}
    (h : targetSelectionIsSettled s outcome selectionElapsed .enabled lateSampleElapsed = true) :
    (∃ r, finishTargetSelection s outcome .enabled = .ok r ∧ r.path.1 = .direct) ∨
      finishTargetSelection s outcome .enabled = .error .directUpgradeFailed := by
  unfold targetSelectionIsSettled at h
  by_cases hdirect : s.hasDirect = true
  · have hsome : s.finishDirect ≠ none := by simp [finishDirect_eq_none, hdirect]
    obtain ⟨r, hr⟩ := Option.ne_none_iff_exists'.1 hsome
    have hok : finishTargetSelection s outcome .enabled = .ok r := by
      simp only [finishTargetSelection, hdirect, if_true, hr]
    exact .inl ⟨r, hok, finishTargetSelection_enabled hok⟩
  · -- the window has elapsed, and only a failed upgrade settles it
    cases selectionElapsed with
    | false => cases h
    | true =>
      have hfailed : outcome = some .failed := by simpa [hdirect] using h
      simp [finishTargetSelection, hdirect, hfailed]

omit [DecidableEq Peer] in
theorem conclude_enabled {w : TargetWindow Conn} {closePeer : Except EndpointError Unit}
    {converge : Conn → Except EndpointError Unit} {selected : SelectedConnection Peer Conn}
    (h : w.conclude target .enabled closePeer converge = .ok selected) :
    selected.path.1 = .direct := by
  unfold TargetWindow.conclude at h
  split at h
  case isTrue => cases closePeer <;> cases h
  case isFalse =>
    obtain ⟨result, hfinish, h⟩ := bind_eq_ok_iff.1 h
    obtain ⟨_, -, h⟩ := bind_eq_ok_iff.1 h
    cases h
    exact finishTargetSelection_enabled hfinish

theorem connectTargetUntil_enabled {connectDeadline : Nat} {closePeer : Except EndpointError Unit}
    {converge : Conn → Except EndpointError Unit} {selected : SelectedConnection Peer Conn}
    (w : TargetWindow Conn) (polls : List (Poll Peer Conn))
    (h : w.connectTargetUntil target .enabled connectDeadline closePeer converge polls =
      some (.ok selected)) : selected.path.1 = .direct := by
  induction polls generalizing w with
  | nil => cases h
  | cons poll rest ih =>
    rw [TargetWindow.connectTargetUntil] at h
    split at h
    case h_1 w' _ => exact ih w' h
    case h_2 => exact conclude_enabled (Option.some.inj h)
    case h_3 => cases closePeer <;> cases h

/-- After every history of events the results of both ways to finish hold exactly the connections
that were accepted and not closed, each once, and the capacities are kept. With direct upgrade
enabled a settled selection finishes with a direct winner or with the report that the upgrade failed,
and `connect_target_until` returns no relayed path, whatever it meets. -/
theorem target_selection (target : Peer) (events : List (TargetEvent Peer Conn)) :
    let s := (events.foldl (follow target) (.new, [])).1
    let log := (events.foldl (follow target) (.new, [])).2
    (∀ r, s.finish = some r → Covers target log r) ∧
      (∀ r, s.finishDirect = some r → Covers target log r) ∧
      (s.finish = none ↔ ∀ c, ¬ Held target log c) ∧
      (s.finishDirect = none ↔ s.hasDirect = false) ∧
      s.candidates.length ≤ Net.perPeerCapacity ∧
      (∀ transport,
        s.candidates.countP (·.ranked.transport = transport) ≤ perTransportCapacity) ∧
      (∀ outcome selectionElapsed lateSampleElapsed,
        targetSelectionIsSettled s outcome selectionElapsed .enabled lateSampleElapsed = true →
          (∃ r, finishTargetSelection s outcome .enabled = .ok r ∧ r.path.1 = .direct) ∨
            finishTargetSelection s outcome .enabled = .error .directUpgradeFailed) ∧
      ∀ connectDeadline closePeer converge (polls : List (Poll Peer Conn)) selected,
        TargetWindow.new.connectTargetUntil target .enabled connectDeadline closePeer converge polls =
          some (.ok selected) → selected.path.1 = .direct := by
  intro s log
  have h : Collects target s log := collects_run target events
  refine ⟨fun r hr => h.finish_covers hr, fun r hr => ?_, ?_, finishDirect_eq_none, ?_, ?_, ?_, ?_⟩
  · obtain ⟨winner, hmem, -, rfl⟩ := finishDirect_winner hr
    exact h.covers hmem
  · rw [finish_eq_none, List.eq_nil_iff_forall_not_mem]
    simp only [h.held]
  · have hle := h.perPeer
    rwa [keys, List.length_map] at hle
  · intro transport
    have hle := h.perTransport transport
    rwa [keys, List.countP_map] at hle
  · exact fun outcome selectionElapsed lateSampleElapsed => finishTargetSelection_of_settled
  · exact fun connectDeadline closePeer converge polls selected =>
      connectTargetUntil_enabled TargetWindow.new polls

end Yonder.Host
