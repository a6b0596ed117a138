import Yonder.Lib.Duplex
import Yonder.Lib.Machine

/-!
# Histories of two parties

The history of a party is the list of the messages it has sent and received, in its own order, over
any sequence of calls; a call that it refuses leaves no event. `history_invariant` is the rule for
what a state says about the history.

In a joint run each party makes calls of its own (`leftCalls`, `rightCalls`), and its state after the
run is its state after those calls. The two histories are tied by the queues: as long as no party
that is not done refuses a delivery, what one has received is an initial part of what the other has
sent (`received_initial`).
-/

namespace Yonder.Lib

namespace Party

/-- A message that a party has sent or received. -/
inductive Event (Msg : Type) where
  | sent (m : Msg)
  | received (m : Msg)
deriving DecidableEq

/-- A call on a party. -/
inductive Call (Msg : Type) where
  | send (m : Msg)
  | receive (m : Msg)
  | close

section History

variable {State Msg : Type} (P : Party State Msg)

/-- The state after a call; a message that is refused leaves it. -/
def after (s : State) : Call Msg → State
  | .send m => (P.send s m).getD s
  | .receive m => (P.receive s m).getD s
  | .close => P.close s

/-- The event of a call, if it is accepted. -/
def event (s : State) : Call Msg → List (Event Msg)
  | .send m => match P.send s m with
      | some _ => [.sent m]
      | none => []
  | .receive m => match P.receive s m with
      | some _ => [.received m]
      | none => []
  | .close => []

/-- The state after a sequence of calls. -/
def final (s : State) (calls : List (Call Msg)) : State := calls.foldl P.after s

/-- The events of a sequence of calls. -/
def history : State → List (Call Msg) → List (Event Msg)
  | _, [] => []
  | s, c :: calls => P.event s c ++ history (P.after s c) calls

variable {P}

theorem final_append (s : State) (first second : List (Call Msg)) :
    P.final s (first ++ second) = P.final (P.final s first) second :=
  List.foldl_append

theorem history_append (s : State) (first second : List (Call Msg)) :
    P.history s (first ++ second) = P.history s first ++ P.history (P.final s first) second := by
  induction first generalizing s with
  | nil => rfl
  | cons c first ih =>
    rw [List.cons_append, history, history, ih, List.append_assoc]
    rfl

variable {s : State}

/-- What every accepted call keeps of a state and the events so far, every sequence of calls keeps. -/
theorem history_invariant {Inv : State → List (Event Msg) → Prop}
    (hsend : ∀ s h m s', Inv s h → P.send s m = some s' → Inv s' (h ++ [.sent m]))
    (hreceive : ∀ s h m s', Inv s h → P.receive s m = some s' → Inv s' (h ++ [.received m]))
    (hclose : ∀ s h, Inv s h → Inv (P.close s) h) {h : List (Event Msg)} (hs : Inv s h)
    (calls : List (Call Msg)) : Inv (P.final s calls) (h ++ P.history s calls) := by
  induction calls generalizing s h with
  | nil =>
    rw [history, List.append_nil]
    exact hs
  | cons c calls ih =>
    have hstep : Inv (P.after s c) (h ++ P.event s c) := by
      cases c with
      | send m =>
        cases hm : P.send s m with
        | none => simpa only [after, event, hm, Option.getD_none, List.append_nil] using hs
        | some s' =>
          simpa only [after, event, hm, Option.getD_some] using hsend s h m s' hs hm
      | receive m =>
        cases hm : P.receive s m with
        | none => simpa only [after, event, hm, Option.getD_none, List.append_nil] using hs
        | some s' =>
          simpa only [after, event, hm, Option.getD_some] using hreceive s h m s' hs hm
      | close => simpa only [after, event, List.append_nil] using hclose s h hs
    rw [history, ← List.append_assoc]
    exact ih hstep

/-- A party that is done takes part in nothing more, and one that is closed is done. -/
structure Ends (P : Party State Msg) : Prop where
  send : ∀ s m, P.done s = true → P.send s m = none
  receive : ∀ s m, P.done s = true → P.receive s m = none
  close : ∀ s, P.done (P.close s) = true

theorem Ends.done_after (hP : Ends P) (hs : P.done s = true) (c : Call Msg) :
    P.done (P.after s c) = true := by
  cases c with
  | send m =>
    rw [after, hP.send s m hs]
    exact hs
  | receive m =>
    rw [after, hP.receive s m hs]
    exact hs
  | close => exact hP.close s

theorem Ends.history_eq_nil (hP : Ends P) (hs : P.done s = true) (calls : List (Call Msg)) :
    P.history s calls = [] := by
  induction calls generalizing s with
  | nil => rfl
  | cons c calls ih =>
    have hevent : P.event s c = [] := by
      cases c with
      | send m => rw [event, hP.send s m hs]
      | receive m => rw [event, hP.receive s m hs]
      | close => rfl
    rw [history, hevent, ih (hP.done_after hs c)]
    rfl

end History

section Messages

variable {Msg : Type}

/-- The messages sent in a history. -/
def sentOf : List (Event Msg) → List Msg
  | [] => []
  | .sent m :: h => m :: sentOf h
  | .received _ :: h => sentOf h

/-- The messages received in a history. -/
def receivedOf : List (Event Msg) → List Msg
  | [] => []
  | .sent _ :: h => receivedOf h
  | .received m :: h => m :: receivedOf h

@[simp] theorem sentOf_append (h k : List (Event Msg)) : sentOf (h ++ k) = sentOf h ++ sentOf k := by
  induction h with
  | nil => rfl
  | cons e h ih => cases e <;> simp [sentOf, ih]

@[simp] theorem receivedOf_append (h k : List (Event Msg)) :
    receivedOf (h ++ k) = receivedOf h ++ receivedOf k := by
  induction h with
  | nil => rfl
  | cons e h ih => cases e <;> simp [receivedOf, ih]

end Messages

end Party

namespace Duplex

open Lib.Party

variable {Left Right Msg : Type}

/-- The same two parties, seen from the other side. -/
def swap (σ : Duplex Left Right Msg) : Duplex Right Left Msg :=
  ⟨σ.right, σ.left, σ.toLeft, σ.toRight⟩

def Action.swap : Action Msg → Action Msg
  | .sendLeft m => .sendRight m
  | .sendRight m => .sendLeft m
  | .deliverLeft => .deliverRight
  | .deliverRight => .deliverLeft
  | .closeLeft => .closeRight
  | .closeRight => .closeLeft

/-- The calls that an action makes on the left party. -/
def leftCall (σ : Duplex Left Right Msg) : Action Msg → List (Call Msg)
  | .sendLeft m => [.send m]
  | .deliverLeft => (σ.toLeft.take 1).map .receive
  | .closeLeft => [.close]
  | _ => []

/-- The calls that an action makes on the right party. -/
def rightCall (σ : Duplex Left Right Msg) (a : Action Msg) : List (Call Msg) :=
  leftCall σ.swap a.swap

variable (P : Party Left Msg) (Q : Party Right Msg)

/-- The calls of a run on the left party. -/
def leftCalls (σ : Duplex Left Right Msg) (actions : List (Action Msg)) : List (Call Msg) :=
  Machine.outputs (exec P Q) leftCall σ actions

/-- The calls of a run on the right party. -/
def rightCalls (σ : Duplex Left Right Msg) (actions : List (Action Msg)) : List (Call Msg) :=
  Machine.outputs (exec P Q) rightCall σ actions

/-- A message that is delivered is accepted, unless its receiver is done. -/
def Takes (σ : Duplex Left Right Msg) : Action Msg → Prop
  | .deliverLeft => ∀ m ∈ σ.toLeft.head?, P.done σ.left = true ∨ (P.receive σ.left m).isSome = true
  | .deliverRight =>
    ∀ m ∈ σ.toRight.head?, Q.done σ.right = true ∨ (Q.receive σ.right m).isSome = true
  | _ => True

instance Takes.decidable (σ : Duplex Left Right Msg) : (a : Action Msg) → Decidable (Takes P Q σ a)
  | .deliverLeft => inferInstanceAs (Decidable (∀ m ∈ σ.toLeft.head?, _))
  | .deliverRight => inferInstanceAs (Decidable (∀ m ∈ σ.toRight.head?, _))
  | .sendLeft _ | .sendRight _ | .closeLeft | .closeRight => .isTrue trivial

variable {P Q}

variable {σ τ : Duplex Left Right Msg} {a : Action Msg} {actions : List (Action Msg)}
  {sent received inFlight : List Msg} {done : Bool} {m : Msg}

theorem exec_swap (h : σ.exec P Q a = some τ) : σ.swap.exec Q P a.swap = some τ.swap := by
  obtain ⟨left, right, toRight, toLeft⟩ := σ
  cases a with
  | sendLeft m =>
    obtain ⟨s, hs, rfl⟩ := Option.map_eq_some_iff.1 h
    exact Option.map_eq_some_iff.2 ⟨s, hs, rfl⟩
  | sendRight m =>
    obtain ⟨s, hs, rfl⟩ := Option.map_eq_some_iff.1 h
    exact Option.map_eq_some_iff.2 ⟨s, hs, rfl⟩
  | deliverLeft =>
    cases toLeft with
    | nil => cases h
    | cons m rest =>
      cases h
      rfl
  | deliverRight =>
    cases toRight with
    | nil => cases h
    | cons m rest =>
      cases h
      rfl
  | closeLeft | closeRight =>
    cases h
    rfl

theorem takes_swap (h : Takes P Q σ a) : Takes Q P σ.swap a.swap := by
  cases a <;> exact h

theorem rightCall_swap (σ : Duplex Left Right Msg) (a : Action Msg) :
    σ.swap.rightCall a.swap = σ.leftCall a := by
  cases a <;> rfl

theorem left_of_exec (h : σ.exec P Q a = some τ) : τ.left = P.final σ.left (leftCall σ a) := by
  obtain ⟨left, right, toRight, toLeft⟩ := σ
  cases a with
  | sendLeft m =>
    obtain ⟨s, hs, rfl⟩ := Option.map_eq_some_iff.1 h
    change s = (P.send left m).getD left
    rw [hs, Option.getD_some]
  | sendRight m =>
    obtain ⟨s, -, rfl⟩ := Option.map_eq_some_iff.1 h
    rfl
  | deliverLeft =>
    cases toLeft with
    | nil => cases h
    | cons m rest =>
      cases h
      rfl
  | deliverRight =>
    cases toRight with
    | nil => cases h
    | cons m rest =>
      cases h
      rfl
  | closeLeft | closeRight =>
    cases h
    rfl

/-- The left party after a run is the party after its own calls. -/
theorem left_of_run (h : Machine.run (exec P Q) σ actions = some τ) :
    τ.left = P.final σ.left (leftCalls P Q σ actions) := by
  induction actions generalizing σ with
  | nil =>
    cases h
    rfl
  | cons a actions ih =>
    obtain ⟨next, hnext, hrest⟩ := Machine.run_cons.1 h
    rw [ih hrest, left_of_exec hnext, ← final_append]
    exact congrArg _ (Machine.outputs_cons hnext actions).symm

/-- The right party after a run is the party after its own calls. -/
theorem right_of_run (h : Machine.run (exec P Q) σ actions = some τ) :
    τ.right = Q.final σ.right (rightCalls P Q σ actions) := by
  induction actions generalizing σ with
  | nil =>
    cases h
    rfl
  | cons a actions ih =>
    obtain ⟨next, hnext, hrest⟩ := Machine.run_cons.1 h
    have hright : next.right = Q.final σ.right (rightCall σ a) := left_of_exec (exec_swap hnext)
    rw [ih hrest, hright, ← final_append]
    exact congrArg _ (Machine.outputs_cons hnext actions).symm

/-! ## What the queues carry -/

/-- What was sent to a party is what it has received, what was lost on it once it was done, and what
is still in flight. -/
def Carried (sent received inFlight : List Msg) (done : Bool) : Prop :=
  ∃ lost, sent = received ++ lost ++ inFlight ∧ (done = false → lost = [])

theorem Carried.send (h : Carried sent received inFlight done) (m : Msg) :
    Carried (sent ++ [m]) received (inFlight ++ [m]) done := by
  obtain ⟨lost, rfl, hlost⟩ := h
  exact ⟨lost, by simp only [List.append_assoc], hlost⟩

theorem Carried.receive (done : Bool) (h : Carried sent received (m :: inFlight) false) :
    Carried sent (received ++ [m]) inFlight done := by
  obtain ⟨lost, rfl, hlost⟩ := h
  rw [hlost rfl]
  exact ⟨[], by simp, fun _ => rfl⟩

theorem Carried.lose (h : Carried sent received (m :: inFlight) true) :
    Carried sent received inFlight true := by
  obtain ⟨lost, rfl, -⟩ := h
  exact ⟨lost ++ [m], by simp, fun hfalse => (by cases hfalse)⟩

/-- As long as nothing was lost, it does not matter whether the receiver is done. -/
theorem Carried.of_live (done : Bool) (h : Carried sent received inFlight false) :
    Carried sent received inFlight done := by
  obtain ⟨lost, hsent, hlost⟩ := h
  exact ⟨lost, hsent, fun _ => hlost rfl⟩

theorem Carried.of_done (h : Carried sent received inFlight done) :
    Carried sent received inFlight true := by
  obtain ⟨lost, hsent, -⟩ := h
  exact ⟨lost, hsent, fun hfalse => (by cases hfalse)⟩

theorem Carried.initial (h : Carried sent received inFlight done) : received <+: sent := by
  obtain ⟨lost, rfl, -⟩ := h
  rw [List.append_assoc]
  exact List.prefix_append _ _

theorem live_of_send (hP : Ends P) {s s' : Left} (h : P.send s m = some s') : P.done s = false := by
  cases hdone : P.done s with
  | false => rfl
  | true =>
    rw [hP.send s m hdone] at h
    cases h

theorem live_of_receive (hP : Ends P) {s s' : Left} (h : P.receive s m = some s') :
    P.done s = false := by
  cases hdone : P.done s with
  | false => rfl
  | true =>
    rw [hP.receive s m hdone] at h
    cases h

/-- One step of the queue to the right. -/
theorem carried_step (hQ : Ends Q) {left right : List (Event Msg)}
    (h : Carried (sentOf left) (receivedOf right) σ.toRight (Q.done σ.right))
    (htakes : Takes P Q σ a) (hstep : σ.exec P Q a = some τ) :
    Carried (sentOf (left ++ P.history σ.left (leftCall σ a)))
      (receivedOf (right ++ Q.history σ.right (rightCall σ a))) τ.toRight (Q.done τ.right) := by
  obtain ⟨l, r, toRight, toLeft⟩ := σ
  rw [sentOf_append, receivedOf_append]
  cases a with
  | sendLeft m =>
    obtain ⟨s, hs, rfl⟩ := Option.map_eq_some_iff.1 hstep
    have hevent : P.history l [.send m] = [.sent m] := by
      simp only [history, event, hs, List.append_nil]
    change Carried (sentOf left ++ sentOf (P.history l [.send m])) (receivedOf right ++ []) _ _
    rw [hevent, List.append_nil]
    exact h.send m
  | sendRight m =>
    obtain ⟨s, hs, rfl⟩ := Option.map_eq_some_iff.1 hstep
    have hevent : Q.history r [.send m] = [.sent m] := by
      simp only [history, event, hs, List.append_nil]
    change Carried (sentOf left ++ []) (receivedOf right ++ receivedOf (Q.history r [.send m])) _ _
    rw [hevent, List.append_nil]
    -- a party that sends is not done, so nothing was lost on it
    rw [live_of_send hQ hs] at h
    rw [receivedOf, receivedOf, List.append_nil]
    exact h.of_live _
  | deliverLeft =>
    cases toLeft with
    | nil => cases hstep
    | cons m rest =>
      cases hstep
      change Carried (sentOf left ++ sentOf (P.history l [.receive m])) (receivedOf right ++ []) _ _
      have hsent : sentOf (P.history l [.receive m]) = [] := by
        cases hm : P.receive l m <;> simp only [history, event, hm, List.append_nil, sentOf]
      rw [hsent, List.append_nil, List.append_nil]
      exact h
  | deliverRight =>
    cases toRight with
    | nil => cases hstep
    | cons m rest =>
      cases hstep
      change Carried (sentOf left ++ []) (receivedOf right ++ receivedOf (Q.history r [.receive m])) rest
        (Q.done ((Q.receive r m).getD r))
      rw [List.append_nil]
      cases hm : Q.receive r m with
      | none =>
        have hdone : Q.done r = true := by
          rcases htakes m rfl with hdone | hsome
          · exact hdone
          · rw [hm] at hsome
            cases hsome
        rw [hQ.history_eq_nil hdone, Option.getD_none, hdone, receivedOf, List.append_nil]
        rw [hdone] at h
        exact h.lose
      | some s =>
        have hevent : Q.history r [.receive m] = [.received m] := by
          simp only [history, event, hm, List.append_nil]
        rw [hevent]
        rw [live_of_receive hQ hm] at h
        exact h.receive _
  | closeLeft =>
    cases hstep
    change Carried (sentOf left ++ []) (receivedOf right ++ []) _ _
    rw [List.append_nil, List.append_nil]
    exact h
  | closeRight =>
    cases hstep
    change Carried (sentOf left ++ []) (receivedOf right ++ []) toRight (Q.done (Q.close r))
    rw [List.append_nil, List.append_nil, hQ.close r]
    exact h.of_done

/-- The histories of the two parties and the queues. -/
structure Tied (P : Party Left Msg) (Q : Party Right Msg) (σ : Duplex Left Right Msg)
    (left right : List (Event Msg)) : Prop where
  toRight : Carried (sentOf left) (receivedOf right) σ.toRight (Q.done σ.right)
  toLeft : Carried (sentOf right) (receivedOf left) σ.toLeft (P.done σ.left)

/-- The queues tie the histories throughout a run that refuses no delivery. -/
theorem tied_of_run (hP : Ends P) (hQ : Ends Q) {left right : List (Event Msg)}
    (h : Tied P Q σ left right) (htakes : Machine.Allowed (exec P Q) (Takes P Q) σ actions)
    (hrun : Machine.run (exec P Q) σ actions = some τ) :
    Tied P Q τ (left ++ P.history σ.left (leftCalls P Q σ actions))
      (right ++ Q.history σ.right (rightCalls P Q σ actions)) := by
  induction actions generalizing σ left right with
  | nil =>
    cases hrun
    change Tied P Q _ (left ++ []) (right ++ [])
    rw [List.append_nil, List.append_nil]
    exact h
  | cons a actions ih =>
    obtain ⟨next, hnext, hrest⟩ := Machine.run_cons.1 hrun
    have htoLeft := carried_step hP h.toLeft (takes_swap htakes.1) (exec_swap hnext)
    rw [rightCall_swap] at htoLeft
    have hstep : Tied P Q next (left ++ P.history σ.left (leftCall σ a))
        (right ++ Q.history σ.right (rightCall σ a)) :=
      ⟨carried_step hQ h.toRight htakes.1 hnext, htoLeft⟩
    have hlater := ih hstep (htakes.2 next hnext) hrest
    have hright : next.right = Q.final σ.right (rightCall σ a) := left_of_exec (exec_swap hnext)
    rw [left_of_exec hnext, hright, List.append_assoc, List.append_assoc, ← history_append,
      ← history_append] at hlater
    rw [leftCalls, rightCalls, Machine.outputs_cons hnext, Machine.outputs_cons hnext]
    exact hlater

/-- In a run from empty queues that refuses no delivery, each party has received an initial part of
what the other has sent. -/
theorem received_initial (hP : Ends P) (hQ : Ends Q) (hright : σ.toRight = [])
    (hleft : σ.toLeft = []) (htakes : Machine.Allowed (exec P Q) (Takes P Q) σ actions)
    (hrun : Machine.run (exec P Q) σ actions = some τ) :
    receivedOf (Q.history σ.right (rightCalls P Q σ actions)) <+:
        sentOf (P.history σ.left (leftCalls P Q σ actions)) ∧
      receivedOf (P.history σ.left (leftCalls P Q σ actions)) <+:
        sentOf (Q.history σ.right (rightCalls P Q σ actions)) := by
  have hstart : Tied P Q σ [] [] := by
    refine ⟨⟨[], ?_, fun _ => rfl⟩, ⟨[], ?_, fun _ => rfl⟩⟩
    · rw [hright]
      rfl
    · rw [hleft]
      rfl
  have hend := tied_of_run hP hQ hstart htakes hrun
  exact ⟨hend.toRight.initial, hend.toLeft.initial⟩

end Duplex

end Yonder.Lib
