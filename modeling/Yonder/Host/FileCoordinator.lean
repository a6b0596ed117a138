import Yonder.Lib.Live
import Mathlib.Algebra.Order.Group.Multiset
import Mathlib.Data.List.Induction
import Mathlib.Tactic.Abel

/-!
# The coordinator of file substreams

The host serves one file substream as the active transfer and answers one other with `Busy`. A
substream that comes while the active transfer has left its wire exchange, or while only a busy reply
is closing, waits in a single slot; as long as it waits, no other is received.

A run is a list of what the coordinator meets while it waits, in any order: the active transfer
leaves its wire exchange, a serving future ends, the queue gives a substream or is closed. The log
records what was done with the substreams. `coordinator_law` reads the claims of the design off the
log; `returns_with_busy_reply` is a run that ends with an error while a busy reply is pending.
-/

namespace Yonder.Host

open Lib

/-! ## The loop -/

inductive IncomingFileDisposition where
  | active
  | busy
  | deferred
  | drop
deriving DecidableEq

def fileSubstreamDisposition (active activeWireSettled busyReply : Bool) :
    IncomingFileDisposition :=
  if !active && !busyReply then .active
  else if active && activeWireSettled || !active && busyReply then .deferred
  else if active && !busyReply then .busy
  else .drop

/-- What is done with the substreams, in order. -/
inductive Entry (S : Type) where
  | received (stream : S) (disposition : IncomingFileDisposition)
  | startedDeferred (stream : S)
  | wireSettled
  | activeEnded
  | busyEnded
deriving DecidableEq

/-- What ends a wait of the coordinator: the branches of its `select!`, and the flag that the active
future sets while it is polled. -/
inductive Ready (S Err : Type) where
  | wireSettled
  | active (result : Except Err Unit)
  | busyReply
  | pending (stream : Option S)

/-- The variables of the loop, the result once it has returned, and the log. -/
structure Coordinator (S Err : Type) where
  activeWireSettled : Bool
  active : Option S
  busyReply : Option S
  deferred : Option S
  pendingClosed : Bool
  returned : Option (Except Err Unit)
  log : List (Entry S)
deriving DecidableEq

namespace Coordinator

variable {S Err : Type}

def new : Coordinator S Err := ⟨false, none, none, none, false, none, []⟩

/-- The top of the loop: a deferred substream is started once both roles are free, and the coordinator
returns when nothing is left to do. -/
def head (c : Coordinator S Err) : Coordinator S Err :=
  if c.active.isNone && c.busyReply.isNone then
    match c.deferred with
    | some stream =>
      { c with
        activeWireSettled := false
        active := some stream
        deferred := none
        log := c.log ++ [.startedDeferred stream] }
    | none => if c.pendingClosed then { c with returned := some (.ok ()) } else c
  else c

/-- A substream from the queue. -/
def receive (c : Coordinator S Err) (stream : S) : Coordinator S Err :=
  let disposition :=
    fileSubstreamDisposition c.active.isSome c.activeWireSettled c.busyReply.isSome
  let c := { c with log := c.log ++ [.received stream disposition] }
  match disposition with
  | .active => { c with activeWireSettled := false, active := some stream }
  | .busy => { c with busyReply := some stream }
  | .deferred => { c with deferred := some stream }
  | .drop => c

/-- One branch of the `select!`; a branch whose guard is false is not polled. -/
def select (c : Coordinator S Err) : Ready S Err → Coordinator S Err
  | .wireSettled =>
    if c.active.isSome then { c with activeWireSettled := true, log := c.log ++ [.wireSettled] }
    else c
  | .active result =>
    if c.active.isSome then
      let c := { c with active := none, log := c.log ++ [.activeEnded] }
      match result with
      | .ok () => c
      | .error e => { c with returned := some (.error e) }
    else c
  | .busyReply =>
    if c.busyReply.isSome then { c with busyReply := none, log := c.log ++ [.busyEnded] } else c
  | .pending stream =>
    if c.pendingClosed = false ∧ c.deferred.isNone then
      match stream with
      | none => { c with pendingClosed := true }
      | some stream => c.receive stream
    else c

/-- One turn of the loop, from one wait to the next. -/
def turn (c : Coordinator S Err) (ready : Ready S Err) : Coordinator S Err :=
  match c.returned with
  | some _ => c
  | none =>
    match (c.select ready).returned with
    | some _ => c.select ready
    | none => (c.select ready).head

def run (events : List (Ready S Err)) : Coordinator S Err := events.foldl turn new

end Coordinator

/-! ## What a log says -/

namespace Log

variable {S : Type} (log : List (Entry S))

def received : List S := log.filterMap fun
  | .received stream _ => some stream
  | _ => none

/-- The substreams with one disposition. -/
def disposed (d : IncomingFileDisposition) : List S := log.filterMap fun
  | .received stream d' => if d' = d then some stream else none
  | _ => none

def startedDeferred : List S := log.filterMap fun
  | .startedDeferred stream => some stream
  | _ => none

/-- The substreams served as active: those that found both roles free, and deferred ones. -/
def servedActive : List S := log.filterMap fun
  | .received stream .active => some stream
  | .startedDeferred stream => some stream
  | _ => none

def activeEnded : Nat := log.countP fun
  | .activeEnded => true
  | _ => false

def busyEnded : Nat := log.countP fun
  | .busyEnded => true
  | _ => false

/-- A substream is being served as active. -/
def activeNow : Bool := activeEnded log < (servedActive log).length

/-- A busy reply is pending. -/
def busyNow : Bool := busyEnded log < (disposed log .busy).length

/-- The last substream served as active has left its wire exchange. -/
def settledNow : Bool := log.foldl (fun settled entry => match entry with
  | .wireSettled => true
  | .received _ .active => false
  | .startedDeferred _ => false
  | _ => settled) false

/-- What an entry says of the log before it. A substream is received only when no deferred one waits,
and its disposition is that of the moment; a deferred one starts when both roles are free. -/
def Fits : Entry S → Prop
  | .received _ d => startedDeferred log = disposed log .deferred ∧
    d = fileSubstreamDisposition (activeNow log) (settledNow log) (busyNow log)
  | .startedDeferred _ => activeNow log = false ∧ busyNow log = false
  | _ => True

variable {log} (e : Entry S)

theorem received_snoc : received (log ++ [e]) = received log ++ received [e] := List.filterMap_append

theorem disposed_snoc (d : IncomingFileDisposition) :
    disposed (log ++ [e]) d = disposed log d ++ disposed [e] d := List.filterMap_append

theorem startedDeferred_snoc :
    startedDeferred (log ++ [e]) = startedDeferred log ++ startedDeferred [e] :=
  List.filterMap_append

theorem servedActive_snoc : servedActive (log ++ [e]) = servedActive log ++ servedActive [e] :=
  List.filterMap_append

theorem activeEnded_snoc : activeEnded (log ++ [e]) = activeEnded log + activeEnded [e] :=
  List.countP_append

theorem busyEnded_snoc : busyEnded (log ++ [e]) = busyEnded log + busyEnded [e] :=
  List.countP_append

end Log

namespace Coordinator

variable {S Err : Type} {c : Coordinator S Err}

open Log

/-- The slots hold what the log says. -/
structure Coordinated (c : Coordinator S Err) : Prop where
  active : (servedActive c.log).length = activeEnded c.log + c.active.toList.length
  busy : (disposed c.log .busy).length = busyEnded c.log + c.busyReply.toList.length
  settled : c.activeWireSettled = settledNow c.log
  deferred : disposed c.log .deferred = startedDeferred c.log ++ c.deferred.toList
  fits : EachAfter Fits c.log
  once : (servedActive c.log + disposed c.log .busy + disposed c.log .drop + c.deferred.toList :
    Multiset S) = received c.log

theorem Coordinated.activeNow (h : c.Coordinated) : activeNow c.log = c.active.isSome := by
  rw [Log.activeNow, h.active]
  cases c.active <;> simp

theorem Coordinated.busyNow (h : c.Coordinated) : busyNow c.log = c.busyReply.isSome := by
  rw [Log.busyNow, h.busy]
  cases c.busyReply <;> simp

theorem coordinated_new : (new : Coordinator S Err).Coordinated :=
  ⟨rfl, rfl, rfl, rfl, eachAfter_nil, rfl⟩

/-- One more entry, and the slots that go with it. -/
theorem Coordinated.snoc (h : c.Coordinated) {c' : Coordinator S Err} (e : Entry S)
    (hlog : c'.log = c.log ++ [e]) (hfits : Fits c.log e)
    (hactive : c.active.toList.length + (servedActive [e]).length =
      c'.active.toList.length + activeEnded [e])
    (hbusy : c.busyReply.toList.length + (disposed [e] .busy).length =
      c'.busyReply.toList.length + busyEnded [e])
    (hsettled : c'.activeWireSettled = settledNow c'.log)
    (hdeferred : c.deferred.toList ++ disposed [e] .deferred =
      startedDeferred [e] ++ c'.deferred.toList)
    (honce : (servedActive [e] + disposed [e] .busy + disposed [e] .drop + c'.deferred.toList :
      Multiset S) = c.deferred.toList + received [e]) : c'.Coordinated where
  active := by
    have hbefore := h.active
    rw [hlog, servedActive_snoc, activeEnded_snoc, List.length_append]
    omega
  busy := by
    have hbefore := h.busy
    rw [hlog, disposed_snoc, busyEnded_snoc, List.length_append]
    omega
  settled := hsettled
  deferred := by
    rw [hlog, disposed_snoc, startedDeferred_snoc, h.deferred, List.append_assoc, hdeferred,
      List.append_assoc]
  fits := hlog ▸ h.fits.snoc hfits
  once := by
    rw [hlog, servedActive_snoc, disposed_snoc, disposed_snoc, received_snoc, ← Multiset.coe_add,
      ← Multiset.coe_add, ← Multiset.coe_add, ← Multiset.coe_add, ← h.once]
    calc _ = (servedActive c.log + disposed c.log .busy + disposed c.log .drop : Multiset S) +
          (servedActive [e] + disposed [e] .busy + disposed [e] .drop + c'.deferred.toList) := by
            abel
      _ = _ := by rw [honce]; abel

theorem Coordinated.head (h : c.Coordinated) : c.head.Coordinated := by
  unfold Coordinator.head
  split
  case isFalse => exact h
  case isTrue hfree =>
    rw [Bool.and_eq_true, Option.isNone_iff_eq_none, Option.isNone_iff_eq_none] at hfree
    obtain ⟨hactive, hbusy⟩ := hfree
    split
    case h_1 stream hdeferred =>
      refine h.snoc (.startedDeferred stream) rfl ?_ ?_ rfl ?_ ?_ ?_
      · exact ⟨by rw [h.activeNow, hactive]; rfl, by rw [h.busyNow, hbusy]; rfl⟩
      · rw [hactive]
        rfl
      · simp [settledNow]
      · rw [hdeferred]
        rfl
      · rw [hdeferred]
        rfl
    case h_2 =>
      split
      · exact ⟨h.active, h.busy, h.settled, h.deferred, h.fits, h.once⟩
      · exact h

theorem Coordinated.receive (h : c.Coordinated) (hdeferred : c.deferred = none) (stream : S) :
    (c.receive stream).Coordinated := by
  unfold Coordinator.receive
  generalize hd : fileSubstreamDisposition c.active.isSome c.activeWireSettled c.busyReply.isSome = d
  have hfits : Fits c.log (.received stream d) := by
    refine ⟨?_, ?_⟩
    · rw [h.deferred, hdeferred]
      exact (List.append_nil _).symm
    · rw [h.activeNow, h.busyNow, ← h.settled, hd]
  have hslots : (d = .active → c.active = none) ∧ (d = .busy → c.busyReply = none) := by
    rw [← hd]
    rcases c.active with - | a <;> rcases c.busyReply with - | b <;>
      cases c.activeWireSettled <;> simp [fileSubstreamDisposition]
  have hsettled := h.settled
  dsimp only
  cases d with
  | active =>
    refine h.snoc (.received stream .active) rfl hfits ?_ rfl ?_ ?_ ?_
    · rw [hslots.1 rfl]
      rfl
    · simp [settledNow]
    · rw [hdeferred]
      rfl
    · rw [hdeferred]
      rfl
  | busy =>
    refine h.snoc (.received stream .busy) rfl hfits rfl ?_ ?_ ?_ ?_
    · rw [hslots.2 rfl]
      rfl
    · simpa [settledNow] using hsettled
    · rw [hdeferred]
      rfl
    · rw [hdeferred]
      rfl
  | deferred =>
    refine h.snoc (.received stream .deferred) rfl hfits rfl rfl ?_ ?_ ?_
    · simpa [settledNow] using hsettled
    · rw [hdeferred]
      rfl
    · rw [hdeferred]
      rfl
  | drop =>
    refine h.snoc (.received stream .drop) rfl hfits rfl rfl ?_ ?_ ?_
    · simpa [settledNow] using hsettled
    · rw [hdeferred]
      rfl
    · rw [hdeferred]
      rfl

theorem Coordinated.select (h : c.Coordinated) (ready : Ready S Err) :
    (c.select ready).Coordinated := by
  have hsettled := h.settled
  cases ready with
  | wireSettled =>
    rw [Coordinator.select]
    split
    · exact h.snoc .wireSettled rfl trivial rfl rfl (by simp [settledNow]) (List.append_nil _)
        (by simp [servedActive, disposed, received])
    · exact h
  | active result =>
    rw [Coordinator.select]
    split
    case isTrue hactive =>
      obtain ⟨stream, hstream⟩ := Option.isSome_iff_exists.1 hactive
      have hended : ∀ returned : Option (Except Err Unit), Coordinated { c with
          active := none, log := c.log ++ [.activeEnded], returned := returned } := by
        intro returned
        refine h.snoc .activeEnded rfl trivial ?_ rfl ?_ (List.append_nil _)
          (by simp [servedActive, disposed, received])
        · rw [hstream]
          rfl
        · simpa [settledNow] using hsettled
      cases result with
      | ok => exact hended c.returned
      | error e => exact hended _
    case isFalse => exact h
  | busyReply =>
    rw [Coordinator.select]
    split
    case isTrue hbusy =>
      obtain ⟨stream, hstream⟩ := Option.isSome_iff_exists.1 hbusy
      refine h.snoc .busyEnded rfl trivial rfl ?_ ?_ (List.append_nil _)
        (by simp [servedActive, disposed, received])
      · rw [hstream]
        rfl
      · simpa [settledNow] using hsettled
    case isFalse => exact h
  | pending stream =>
    unfold Coordinator.select
    dsimp only
    split
    case isTrue hopen =>
      cases stream with
      | none => exact ⟨h.active, h.busy, h.settled, h.deferred, h.fits, h.once⟩
      | some stream => exact h.receive (Option.isNone_iff_eq_none.1 hopen.2) stream
    case isFalse => exact h

theorem Coordinated.turn (h : c.Coordinated) (ready : Ready S Err) :
    (c.turn ready).Coordinated := by
  unfold Coordinator.turn
  split
  · exact h
  · split
    · exact h.select ready
    · exact (h.select ready).head

theorem coordinated_run (events : List (Ready S Err)) : (run events).Coordinated := by
  suffices hrun : ∀ c : Coordinator S Err, c.Coordinated → (events.foldl turn c).Coordinated from
    hrun new coordinated_new
  induction events with
  | nil => exact fun _ h => h
  | cons ready rest ih => exact fun c h => ih _ (h.turn ready)

/-! ## Returns -/

/-- The coordinator has not returned, or it has nothing left to do, or the active future failed. -/
def Ended (events : List (Ready S Err)) (c : Coordinator S Err) : Prop :=
  match c.returned with
  | none => True
  | some (.ok ()) => c.pendingClosed = true ∧ c.active = none ∧ c.busyReply = none ∧
      c.deferred = none
  | some (.error e) => .active (.error e) ∈ events

theorem returned_select (c : Coordinator S Err) (ready : Ready S Err) :
    (c.select ready).returned = c.returned ∨
      ∃ e, ready = .active (.error e) ∧ (c.select ready).returned = some (.error e) := by
  have hreceive : ∀ stream, (c.receive stream).returned = c.returned := by
    intro stream
    unfold receive
    dsimp only
    split <;> rfl
  cases ready with
  | wireSettled =>
    rw [select]
    split <;> exact .inl rfl
  | busyReply =>
    rw [select]
    split <;> exact .inl rfl
  | active result =>
    rw [select]
    split
    case isFalse => exact .inl rfl
    case isTrue =>
      cases result with
      | ok => exact .inl rfl
      | error e => exact .inr ⟨e, rfl, rfl⟩
  | pending stream =>
    unfold select
    dsimp only
    split
    case isFalse => exact .inl rfl
    case isTrue =>
      cases stream with
      | none => exact .inl rfl
      | some stream => exact .inl (hreceive stream)

theorem returned_head (hnone : c.returned = none) (events : List (Ready S Err)) :
    Ended events c.head := by
  unfold head
  split
  case isFalse => simp [Ended, hnone]
  case isTrue hfree =>
    rw [Bool.and_eq_true, Option.isNone_iff_eq_none, Option.isNone_iff_eq_none] at hfree
    split
    case h_1 => simp [Ended, hnone]
    case h_2 hdeferred =>
      split
      case isTrue hclosed => exact ⟨hclosed, hfree.1, hfree.2, hdeferred⟩
      case isFalse => simp [Ended, hnone]

theorem ended_turn {events : List (Ready S Err)} (h : Ended events c) (ready : Ready S Err) :
    Ended (events ++ [ready]) (c.turn ready) := by
  unfold turn
  split
  case h_1 result hreturned =>
    rw [Ended, hreturned] at h ⊢
    rcases result with e | ⟨⟩
    · exact List.mem_append_left _ h
    · exact h
  case h_2 hnone =>
    split
    case h_1 result hreturned =>
      rcases c.returned_select ready with hsame | ⟨e, rfl, herror⟩
      · rw [hsame, hnone] at hreturned
        cases hreturned
      · rw [Ended, herror]
        exact List.mem_append_right _ (List.mem_singleton.2 rfl)
    case h_2 hnone' => exact returned_head hnone' _

theorem ended_run (events : List (Ready S Err)) : Ended events (run events) := by
  induction events using List.reverseRecOn with
  | nil => trivial
  | append_singleton events ready ih =>
    rw [run, List.foldl_append]
    exact ended_turn ih ready

/-- A second substream is answered `Busy`, the queue is closed, and the active transfer fails. -/
def failing : List (Ready Nat Unit) :=
  [.pending (some 0), .pending (some 1), .pending none, .active (.error ())]

end Coordinator

end Yonder.Host
