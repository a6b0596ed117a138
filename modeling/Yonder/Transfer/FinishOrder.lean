import Yonder.Lib.History
import Yonder.Transfer.Duality

/-!
# Finish before Committed

What the history of a wire session can be. `SenderStep` and `ReceiverStep` list, for the side that
sends the data and for the side that receives it, the events that a session accepts; `SenderHistory`
and `ReceiverHistory` say what the history is in each state. The tables let each side send a message
that only its peer should send (the uploading controller a `Ready`, the downloading controller a
`Data` or `Finish`). Such a message stays in the history, and where both sides reach `committed` over
queues that refuse nothing there is none.
-/

namespace Yonder.Transfer

open Lib Wire
open Lib.Party (sentOf receivedOf)

abbrev WireEvent := Party.Event FileTransferMessage

abbrev WireCall := Party.Call FileTransferMessage

/-- The side that sends the data. -/
def dataSender : TransferDirection → TransferSide
  | .upload => .controller
  | .download => .host

/-- The side that receives the data. -/
def dataReceiver : TransferDirection → TransferSide
  | .upload => .host
  | .download => .controller

theorem party_ends (d : TransferDirection) (side : TransferSide) : Party.Ends (party d side) where
  send s m hdone := by
    rw [party_send]
    cases s <;> cases hdone <;> cases d <;> cases side <;> rfl
  receive := party_final d side
  close _ := rfl

/-! ## The steps of a session -/

/-- The events that end a session without a commit. -/
inductive Stops : WireEvent → Prop
  | sentCancel : Stops (.sent .cancel)
  | sentError (code : FileTransferErrorCode) : Stops (.sent (.error code))
  | receivedCancel : Stops (.received .cancel)
  | receivedError (code : FileTransferErrorCode) : Stops (.received (.error code))

/-- The events that the side which sends the data accepts, with the states before and after. -/
inductive SenderStep : TransferDirection → WireState → WireEvent → WireState → Prop
  | openUpload (destination fileName : String) (size : UInt64) :
      SenderStep .upload .awaitingOpen (.sent (.uploadOpen destination fileName size)) .openSent
  | peerReady : SenderStep .upload .openSent (.received .ready) .transferring
  | ownReady : SenderStep .upload .openSent (.sent .ready) .transferring
  | openDownload (source : String) :
      SenderStep .download .awaitingOpen (.received (.downloadOpen source)) .openSent
  | offer (fileName : String) (size : UInt64) :
      SenderStep .download .openSent (.sent (.downloadOffer fileName size)) .awaitingReady
  | accepted : SenderStep .download .awaitingReady (.received .ready) .transferring
  | data (d : TransferDirection) (bytes : Bytes) :
      SenderStep d .transferring (.sent (.data bytes)) .transferring
  | finish (d : TransferDirection) (size : UInt64) (digest : Sha256Digest) :
      SenderStep d .transferring (.sent (.finish size digest)) .awaitingCommitted
  | committed (d : TransferDirection) :
      SenderStep d .awaitingCommitted (.received .committed) .committed
  | stop (d : TransferDirection) {s : WireState} {e : WireEvent} (he : Stops e) :
      SenderStep d s e .closed

/-- The events that the side which receives the data accepts. -/
inductive ReceiverStep : TransferDirection → WireState → WireEvent → WireState → Prop
  | openUpload (destination fileName : String) (size : UInt64) :
      ReceiverStep .upload .awaitingOpen (.received (.uploadOpen destination fileName size)) .openSent
  | ready : ReceiverStep .upload .openSent (.sent .ready) .transferring
  | openDownload (source : String) :
      ReceiverStep .download .awaitingOpen (.sent (.downloadOpen source)) .awaitingOffer
  | offer (fileName : String) (size : UInt64) :
      ReceiverStep .download .awaitingOffer (.received (.downloadOffer fileName size)) .awaitingReady
  | accept : ReceiverStep .download .awaitingReady (.sent .ready) .transferring
  | data (d : TransferDirection) (bytes : Bytes) :
      ReceiverStep d .transferring (.received (.data bytes)) .transferring
  | ownData (bytes : Bytes) :
      ReceiverStep .download .transferring (.sent (.data bytes)) .transferring
  | finish (d : TransferDirection) (size : UInt64) (digest : Sha256Digest) :
      ReceiverStep d .transferring (.received (.finish size digest)) .awaitingCommitted
  | ownFinish (size : UInt64) (digest : Sha256Digest) :
      ReceiverStep .download .transferring (.sent (.finish size digest)) .awaitingCommitted
  | committed (d : TransferDirection) :
      ReceiverStep d .awaitingCommitted (.sent .committed) .committed
  | stop (d : TransferDirection) {s : WireState} {e : WireEvent} (he : Stops e) :
      ReceiverStep d s e .closed

variable {d : TransferDirection} {s s' : WireState} {m : FileTransferMessage} {h : List WireEvent}
  {e : WireEvent}

theorem sender_send (h : (party d (dataSender d)).send s m = some s') :
    SenderStep d s (.sent m) s' := by
  rw [party_send, toOption_eq_some] at h
  cases d <;> cases s <;> cases m <;> cases h <;> constructor <;> constructor

theorem sender_receive (h : (party d (dataSender d)).receive s m = some s') :
    SenderStep d s (.received m) s' := by
  rw [party_receive, toOption_eq_some] at h
  cases d <;> cases s <;> cases m <;> cases h <;> constructor <;> constructor

theorem receiver_send (h : (party d (dataReceiver d)).send s m = some s') :
    ReceiverStep d s (.sent m) s' := by
  rw [party_send, toOption_eq_some] at h
  cases d <;> cases s <;> cases m <;> cases h <;> constructor <;> constructor

theorem receiver_receive (h : (party d (dataReceiver d)).receive s m = some s') :
    ReceiverStep d s (.received m) s' := by
  rw [party_receive, toOption_eq_some] at h
  cases d <;> cases s <;> cases m <;> cases h <;> constructor <;> constructor

/-! ## The history of the sender -/

/-- What the sender has seen before the first block. -/
inductive SenderOpening : TransferDirection → List WireEvent → Prop
  | upload (destination fileName : String) (size : UInt64) :
      SenderOpening .upload [.sent (.uploadOpen destination fileName size), .received .ready]
  | ownReady (destination fileName : String) (size : UInt64) :
      SenderOpening .upload [.sent (.uploadOpen destination fileName size), .sent .ready]
  | download (source fileName : String) (size : UInt64) :
      SenderOpening .download [.received (.downloadOpen source), .sent (.downloadOffer fileName size),
        .received .ready]

/-- The blocks that the sender has sent. -/
def sentBlocks (blocks : List Bytes) : List WireEvent :=
  blocks.map fun bytes => .sent (.data bytes)

/-- The history of the sender in a state that it has not been stopped in. -/
inductive SenderShape : TransferDirection → WireState → List WireEvent → Prop
  | start (d : TransferDirection) : SenderShape d .awaitingOpen []
  | uploadOpened (destination fileName : String) (size : UInt64) :
      SenderShape .upload .openSent [.sent (.uploadOpen destination fileName size)]
  | downloadOpened (source : String) :
      SenderShape .download .openSent [.received (.downloadOpen source)]
  | offered (source fileName : String) (size : UInt64) :
      SenderShape .download .awaitingReady
        [.received (.downloadOpen source), .sent (.downloadOffer fileName size)]
  | sending {d : TransferDirection} {opening : List WireEvent} (ho : SenderOpening d opening)
      (blocks : List Bytes) : SenderShape d .transferring (opening ++ sentBlocks blocks)
  | finished {d : TransferDirection} {opening : List WireEvent} (ho : SenderOpening d opening)
      (blocks : List Bytes) (size : UInt64) (digest : Sha256Digest) :
      SenderShape d .awaitingCommitted (opening ++ sentBlocks blocks ++ [.sent (.finish size digest)])
  | committed {d : TransferDirection} {opening : List WireEvent} (ho : SenderOpening d opening)
      (blocks : List Bytes) (size : UInt64) (digest : Sha256Digest) :
      SenderShape d .committed
        (opening ++ sentBlocks blocks ++ [.sent (.finish size digest), .received .committed])

/-- The history of the sender: that of a state, or that of a state in which it was stopped. -/
def SenderHistory (d : TransferDirection) (s : WireState) (h : List WireEvent) : Prop :=
  SenderShape d s h ∨
    s = .closed ∧ ∃ s' before stops, SenderShape d s' before ∧ (∀ e ∈ stops, Stops e) ∧
      h = before ++ stops

theorem SenderShape.step (hs : SenderShape d s h) (hstep : SenderStep d s e s') :
    SenderHistory d s' (h ++ [e]) := by
  cases hstep with
  | openUpload destination fileName size =>
    cases hs
    exact .inl (.uploadOpened destination fileName size)
  | peerReady =>
    cases hs with
    | uploadOpened destination fileName size =>
      exact .inl (.sending (.upload destination fileName size) [])
  | ownReady =>
    cases hs with
    | uploadOpened destination fileName size =>
      exact .inl (.sending (.ownReady destination fileName size) [])
  | openDownload source =>
    cases hs
    exact .inl (.downloadOpened source)
  | offer fileName size =>
    cases hs with
    | downloadOpened source => exact .inl (.offered source fileName size)
  | accepted =>
    cases hs with
    | offered source fileName size =>
      exact .inl (.sending (.download source fileName size) [])
  | data d bytes =>
    cases hs with
    | sending ho blocks =>
      have hblocks := SenderShape.sending ho (blocks ++ [bytes])
      rw [sentBlocks, List.map_append, ← List.append_assoc] at hblocks
      exact .inl hblocks
  | finish d size digest =>
    cases hs with
    | sending ho blocks => exact .inl (.finished ho blocks size digest)
  | committed d =>
    cases hs with
    | finished ho blocks size digest =>
      have hcommitted := SenderShape.committed ho blocks size digest
      rw [List.append_cons] at hcommitted
      exact .inl hcommitted
  | stop d he =>
    refine .inr ⟨rfl, s, h, [e], hs, fun e' he' => ?_, rfl⟩
    rw [List.mem_singleton.1 he']
    exact he

theorem sender_history (d : TransferDirection) (calls : List WireCall) :
    SenderHistory d ((party d (dataSender d)).final .awaitingOpen calls)
      ((party d (dataSender d)).history .awaitingOpen calls) := by
  -- a session that was stopped accepts nothing more, so only the shapes take steps
  have hlive : ∀ s h e s', SenderHistory d s h → s ≠ .closed → SenderStep d s e s' →
      SenderHistory d s' (h ++ [e]) := by
    rintro s h e s' (hs | ⟨hclosed, -⟩) hne hstep
    · exact hs.step hstep
    · exact absurd hclosed hne
  have hends := party_ends d (dataSender d)
  refine @Party.history_invariant _ _ _ _ (SenderHistory d) ?_ ?_ ?_ _ (.inl (.start d)) calls
  · intro s h m s' hs hsend
    refine hlive s h _ s' hs ?_ (sender_send hsend)
    rintro rfl
    rw [hends.send .closed m rfl] at hsend
    cases hsend
  · intro s h m s' hs hreceive
    refine hlive s h _ s' hs ?_ (sender_receive hreceive)
    rintro rfl
    rw [hends.receive .closed m rfl] at hreceive
    cases hreceive
  · rintro s h (hs | ⟨-, hstopped⟩)
    · exact .inr ⟨rfl, s, h, [], hs, fun e he => (by cases he), (List.append_nil h).symm⟩
    · exact .inr ⟨rfl, hstopped⟩

/-! ## What the sender has finished -/

/-- A `Finish` that was sent. -/
def SendsFinish : WireEvent → Prop
  | .sent (.finish ..) => True
  | _ => False

/-- A block that was sent or received. -/
def CarriesData : WireEvent → Prop
  | .sent (.data _) => True
  | .received (.data _) => True
  | _ => False

theorem Stops.not_sendsFinish (h : Stops e) : ¬ SendsFinish e := by
  cases h <;> exact id

theorem Stops.not_carriesData (h : Stops e) : ¬ CarriesData e := by
  cases h <;> exact id

theorem SenderOpening.not_sendsFinish {opening : List WireEvent} (h : SenderOpening d opening) :
    ∀ e ∈ opening, ¬ SendsFinish e := by
  cases h <;> simp [SendsFinish]

theorem not_sendsFinish_before {opening : List WireEvent} (blocks : List Bytes)
    (ho : SenderOpening d opening) : ∀ e ∈ opening ++ sentBlocks blocks, ¬ SendsFinish e := by
  intro e he
  rcases List.mem_append.1 he with he | he
  · exact ho.not_sendsFinish e he
  · obtain ⟨bytes, -, rfl⟩ := List.mem_map.1 he
    exact id

/-- The history of a sender that has not sent a `Finish`, or what came after the one it has sent. -/
theorem SenderShape.finish_cases (hs : SenderShape d s h) :
    (∀ e ∈ h, ¬ SendsFinish e) ∨
      ∃ before size digest rest, h = before ++ .sent (.finish size digest) :: rest ∧
        (∀ e ∈ before, ¬ SendsFinish e) ∧ (rest = [] ∨ rest = [.received .committed]) := by
  cases hs with
  | start => exact .inl fun e he => (by cases he)
  | uploadOpened | downloadOpened | offered => exact .inl (by simp [SendsFinish])
  | sending ho blocks => exact .inl (not_sendsFinish_before blocks ho)
  | finished ho blocks size digest =>
    exact .inr ⟨_, size, digest, [], rfl, not_sendsFinish_before blocks ho, .inl rfl⟩
  | committed ho blocks size digest =>
    exact .inr ⟨_, size, digest, [.received .committed], rfl, not_sendsFinish_before blocks ho, .inr rfl⟩

theorem SenderShape.of_committed (hs : SenderShape d .committed h) :
    ∃ opening blocks size digest, SenderOpening d opening ∧
      h = opening ++ sentBlocks blocks ++ [.sent (.finish size digest), .received .committed] := by
  cases hs with
  | @committed _ opening ho blocks size digest => exact ⟨opening, blocks, size, digest, ho, rfl⟩

/-- A list is cut in one way only at its first element of a kind. -/
theorem eq_of_first_eq {Item : Type} {p : Item → Prop} {before before' after after' : List Item}
    {x x' : Item} (h : before ++ x :: after = before' ++ x' :: after')
    (hb : ∀ y ∈ before, ¬ p y) (hafter : ∀ y ∈ after, ¬ p y) (hx' : p x') :
    before = before' ∧ after = after' := by
  induction before generalizing before' with
  | nil =>
    cases before' with
    | nil =>
      rw [List.nil_append, List.nil_append, List.cons.injEq] at h
      exact ⟨rfl, h.2⟩
    | cons y before' =>
      rw [List.nil_append, List.cons_append, List.cons.injEq] at h
      -- the second item of the kind would be behind the first
      have hmem : x' ∈ after := h.2 ▸ List.mem_append_right before' List.mem_cons_self
      exact absurd hx' (hafter x' hmem)
  | cons y before ih =>
    cases before' with
    | nil =>
      rw [List.nil_append, List.cons_append, List.cons.injEq] at h
      rw [← h.1] at hx'
      exact absurd hx' (hb y List.mem_cons_self)
    | cons y' before' =>
      rw [List.cons_append, List.cons_append, List.cons.injEq] at h
      obtain ⟨rfl, h⟩ := h
      obtain ⟨rfl, hrest⟩ := ih h fun z hz => hb z (List.mem_cons_of_mem _ hz)
      exact ⟨rfl, hrest⟩

/-- Nothing behind the `Finish` of a sender carries data. -/
theorem SenderHistory.no_data_after_finish {before rest : List WireEvent} {size : UInt64}
    {digest : Sha256Digest} (hs : SenderHistory d s h)
    (hcut : h = before ++ .sent (.finish size digest) :: rest) : ∀ e ∈ rest, ¬ CarriesData e := by
  -- the history is that of a shape, with events behind it that only stop the session
  obtain ⟨s', shape, stops, hshape, hstops, hh⟩ : ∃ s' shape stops, SenderShape d s' shape ∧
      (∀ e ∈ stops, Stops e) ∧ h = shape ++ stops := by
    rcases hs with hs | ⟨-, hstopped⟩
    · exact ⟨s, h, [], hs, fun e he => (by cases he), (List.append_nil h).symm⟩
    · exact hstopped
  rw [hh] at hcut
  rcases hshape.finish_cases with hnone | ⟨before', size', digest', rest', rfl, hbefore', hrest'⟩
  · have hmem : Party.Event.sent (.finish size digest) ∈ shape ++ stops :=
      hcut ▸ List.mem_append_right before List.mem_cons_self
    rcases List.mem_append.1 hmem with hmem | hmem
    · exact absurd trivial (hnone _ hmem)
    · exact absurd trivial (hstops _ hmem).not_sendsFinish
  · have hafter : ∀ e ∈ rest' ++ stops, ¬ SendsFinish e ∧ ¬ CarriesData e := by
      intro e he
      rcases List.mem_append.1 he with he | he
      · rcases hrest' with rfl | rfl
        · cases he
        · rw [List.mem_singleton.1 he]
          exact ⟨id, id⟩
      · exact ⟨(hstops e he).not_sendsFinish, (hstops e he).not_carriesData⟩
    rw [List.append_assoc, List.cons_append] at hcut
    obtain ⟨-, rfl⟩ := eq_of_first_eq hcut hbefore' (fun e he => (hafter e he).1) trivial
    exact fun e he => (hafter e he).2

/-! ## The history of the receiver -/

/-- What the receiver has seen before the first block. -/
inductive ReceiverOpening : TransferDirection → List WireEvent → Prop
  | upload (destination fileName : String) (size : UInt64) :
      ReceiverOpening .upload [.received (.uploadOpen destination fileName size), .sent .ready]
  | download (source fileName : String) (size : UInt64) :
      ReceiverOpening .download [.sent (.downloadOpen source),
        .received (.downloadOffer fileName size), .sent .ready]

/-- A block in the receiver's history. -/
inductive BlockEvent : TransferDirection → WireEvent → Prop
  | received (d : TransferDirection) (bytes : Bytes) : BlockEvent d (.received (.data bytes))
  | sent (bytes : Bytes) : BlockEvent .download (.sent (.data bytes))

/-- The `Finish` in the receiver's history. -/
inductive FinishEvent : TransferDirection → WireEvent → Prop
  | received (d : TransferDirection) (size : UInt64) (digest : Sha256Digest) :
      FinishEvent d (.received (.finish size digest))
  | sent (size : UInt64) (digest : Sha256Digest) : FinishEvent .download (.sent (.finish size digest))

/-- The history of the receiver in each state; nothing is said of one that is closed. -/
inductive ReceiverHistory : TransferDirection → WireState → List WireEvent → Prop
  | start (d : TransferDirection) : ReceiverHistory d .awaitingOpen []
  | opened (destination fileName : String) (size : UInt64) :
      ReceiverHistory .upload .openSent [.received (.uploadOpen destination fileName size)]
  | requested (source : String) :
      ReceiverHistory .download .awaitingOffer [.sent (.downloadOpen source)]
  | offered (source fileName : String) (size : UInt64) :
      ReceiverHistory .download .awaitingReady
        [.sent (.downloadOpen source), .received (.downloadOffer fileName size)]
  | receiving {d : TransferDirection} {opening blocks : List WireEvent}
      (ho : ReceiverOpening d opening) (hb : ∀ e ∈ blocks, BlockEvent d e) :
      ReceiverHistory d .transferring (opening ++ blocks)
  | finished {d : TransferDirection} {opening blocks : List WireEvent} {e : WireEvent}
      (ho : ReceiverOpening d opening) (hb : ∀ e ∈ blocks, BlockEvent d e) (he : FinishEvent d e) :
      ReceiverHistory d .awaitingCommitted (opening ++ blocks ++ [e])
  | committed {d : TransferDirection} {opening blocks : List WireEvent} {e : WireEvent}
      (ho : ReceiverOpening d opening) (hb : ∀ e ∈ blocks, BlockEvent d e) (he : FinishEvent d e) :
      ReceiverHistory d .committed (opening ++ blocks ++ [e, .sent .committed])
  | closed (d : TransferDirection) (h : List WireEvent) : ReceiverHistory d .closed h

theorem blocks_snoc {blocks : List WireEvent} (hb : ∀ e ∈ blocks, BlockEvent d e)
    (he : BlockEvent d e) : ∀ e' ∈ blocks ++ [e], BlockEvent d e' := by
  intro e' he'
  rcases List.mem_append.1 he' with he' | he'
  · exact hb e' he'
  · rw [List.mem_singleton.1 he']
    exact he

theorem ReceiverHistory.ready {opening : List WireEvent} (ho : ReceiverOpening d opening) :
    ReceiverHistory d .transferring opening := by
  have h := ReceiverHistory.receiving ho (fun e he => (by cases he) : ∀ e ∈ [], BlockEvent d e)
  rwa [List.append_nil] at h

theorem ReceiverHistory.step (hs : ReceiverHistory d s h) (hstep : ReceiverStep d s e s') :
    ReceiverHistory d s' (h ++ [e]) := by
  cases hstep with
  | openUpload destination fileName size =>
    cases hs
    exact .opened destination fileName size
  | ready =>
    cases hs with
    | opened destination fileName size =>
      exact .ready (.upload destination fileName size)
  | openDownload source =>
    cases hs
    exact .requested source
  | offer fileName size =>
    cases hs with
    | requested source => exact .offered source fileName size
  | accept =>
    cases hs with
    | offered source fileName size =>
      exact .ready (.download source fileName size)
  | data d bytes =>
    cases hs with
    | receiving ho hb =>
      rw [List.append_assoc]
      exact .receiving ho (blocks_snoc hb (.received d bytes))
  | ownData bytes =>
    cases hs with
    | receiving ho hb =>
      rw [List.append_assoc]
      exact .receiving ho (blocks_snoc hb (.sent bytes))
  | finish d size digest =>
    cases hs with
    | receiving ho hb => exact .finished ho hb (.received d size digest)
  | ownFinish size digest =>
    cases hs with
    | receiving ho hb => exact .finished ho hb (.sent size digest)
  | committed d =>
    cases hs with
    | finished ho hb he =>
      rw [← List.append_cons]
      exact .committed ho hb he
  | stop d he => exact .closed d _

theorem ReceiverHistory.of_committed (hr : ReceiverHistory d .committed h) :
    ∃ opening blocks e, ReceiverOpening d opening ∧ (∀ e ∈ blocks, BlockEvent d e) ∧ FinishEvent d e ∧
      h = opening ++ blocks ++ [e, .sent .committed] := by
  cases hr with
  | @committed _ opening blocks e ho hb he => exact ⟨opening, blocks, e, ho, hb, he, rfl⟩

theorem receiver_history (d : TransferDirection) (calls : List WireCall) :
    ReceiverHistory d ((party d (dataReceiver d)).final .awaitingOpen calls)
      ((party d (dataReceiver d)).history .awaitingOpen calls) := by
  refine @Party.history_invariant _ _ _ _ (ReceiverHistory d) ?_ ?_ ?_ _ (.start d) calls
  · exact fun s h m s' hs hsend => hs.step (receiver_send hsend)
  · exact fun s h m s' hs hreceive => hs.step (receiver_receive hreceive)
  · exact fun s h _ => .closed d h

/-! ## Both histories -/

/-- The blocks among messages. -/
def dataOf (messages : List FileTransferMessage) : List Bytes :=
  messages.filterMap fun
    | .data bytes => some bytes
    | _ => none

/-- The blocks that the receiver has received. -/
def receivedBlocks (blocks : List Bytes) : List WireEvent :=
  blocks.map fun bytes => .received (.data bytes)

theorem sentOf_sentBlocks (blocks : List Bytes) :
    sentOf (sentBlocks blocks) = blocks.map .data := by
  induction blocks with
  | nil => rfl
  | cons bytes blocks ih => exact congrArg _ ih

theorem receivedOf_sentBlocks (blocks : List Bytes) : receivedOf (sentBlocks blocks) = [] := by
  induction blocks with
  | nil => rfl
  | cons bytes blocks ih => exact ih

theorem receivedOf_receivedBlocks (blocks : List Bytes) :
    receivedOf (receivedBlocks blocks) = blocks.map .data := by
  induction blocks with
  | nil => rfl
  | cons bytes blocks ih => exact congrArg _ ih

/-- Blocks none of which the receiver sent itself. -/
theorem blocks_of_sentOf_nil {events : List WireEvent} (hb : ∀ e ∈ events, BlockEvent d e)
    (hsent : sentOf events = []) : ∃ blocks, events = receivedBlocks blocks := by
  induction events with
  | nil => exact ⟨[], rfl⟩
  | cons e events ih =>
    cases hb e List.mem_cons_self with
    | received d bytes =>
      obtain ⟨blocks, rfl⟩ := ih (fun e he => hb e (List.mem_cons_of_mem _ he)) hsent
      exact ⟨bytes :: blocks, rfl⟩
    | sent bytes => cases hsent

/-- What the receiver sent behind its `Ready` begins with `Committed` only if that is all. -/
theorem received_only {events : List WireEvent} {rest : List FileTransferMessage}
    (hb : ∀ e ∈ events, BlockEvent d e) (he : FinishEvent d e)
    (h : sentOf (events ++ [e, .sent .committed]) = .committed :: rest) :
    (∃ blocks, events = receivedBlocks blocks) ∧ ∃ size digest, e = .received (.finish size digest) := by
  have hnone : sentOf events = [] ∧ ∃ size digest, e = .received (.finish size digest) := by
    induction events with
    | nil =>
      refine ⟨rfl, ?_⟩
      cases he with
      | received d size digest => exact ⟨size, digest, rfl⟩
      | sent size digest => cases h
    | cons e' events ih =>
      cases hb e' List.mem_cons_self with
      | received d bytes => exact ih (fun e he => hb e (List.mem_cons_of_mem _ he)) h
      | sent bytes => cases h
  exact ⟨blocks_of_sentOf_nil hb hnone.1, hnone.2⟩

/-- Blocks and a `Finish` that are an initial part of blocks and a `Finish` are those. -/
theorem eq_of_blocks_initial {blocks blocks' : List Bytes} {m' : FileTransferMessage}
    (hm : ∀ bytes, m ≠ .data bytes) (hm' : ∀ bytes, m' ≠ .data bytes)
    (h : blocks.map .data ++ [m] <+: blocks'.map .data ++ [m']) : blocks = blocks' ∧ m = m' := by
  induction blocks generalizing blocks' with
  | nil =>
    cases blocks' with
    | nil => exact ⟨rfl, (List.cons_prefix_cons.1 h).1⟩
    | cons bytes' blocks' => exact absurd (List.cons_prefix_cons.1 h).1 (hm bytes')
  | cons bytes blocks ih =>
    cases blocks' with
    | nil => exact absurd (List.cons_prefix_cons.1 h).1.symm (hm' bytes)
    | cons bytes' blocks' =>
      obtain ⟨hhead, htail⟩ := List.cons_prefix_cons.1 h
      obtain ⟨rfl, rfl⟩ := ih htail
      cases hhead
      exact ⟨rfl, rfl⟩

theorem dataOf_append (first second : List FileTransferMessage) :
    dataOf (first ++ second) = dataOf first ++ dataOf second :=
  List.filterMap_append

theorem SenderOpening.dataOf_eq_nil {opening : List WireEvent} (h : SenderOpening d opening) :
    dataOf (sentOf opening) = [] := by
  cases h <;> rfl

theorem ReceiverOpening.dataOf_eq_nil {opening : List WireEvent} (h : ReceiverOpening d opening) :
    dataOf (receivedOf opening) = [] := by
  cases h <;> rfl

/-- The sender received `Committed` behind its opening. Then the receiver sent it right behind its
own, and the two openings are those of one transfer. -/
theorem openings_meet {opening opening' : List WireEvent} {later : List FileTransferMessage}
    (ho : SenderOpening d opening) (ho' : ReceiverOpening d opening')
    (h : receivedOf opening ++ [.committed] <+: sentOf opening' ++ later) :
    (∃ rest, later = .committed :: rest) ∧
      ∀ first second, receivedOf opening' ++ first <+: sentOf opening ++ second → first <+: second := by
  cases ho with
  | upload destination fileName size =>
    cases ho' with
    | upload destination' fileName' size' =>
      obtain ⟨-, rest, hrest⟩ := List.cons_prefix_cons.1 h
      exact ⟨⟨rest, hrest.symm⟩, fun _ _ hfirst => (List.cons_prefix_cons.1 hfirst).2⟩
  | ownReady destination fileName size =>
    -- the receiver's `Ready` would be in front of its `Committed`
    cases ho' with
    | upload destination' fileName' size' => cases (List.cons_prefix_cons.1 h).1
  | download source fileName size =>
    cases ho' with
    | download source' fileName' size' =>
      obtain ⟨-, htail⟩ := List.cons_prefix_cons.1 h
      obtain ⟨-, rest, hrest⟩ := List.cons_prefix_cons.1 htail
      exact ⟨⟨rest, hrest.symm⟩, fun _ _ hfirst => (List.cons_prefix_cons.1 hfirst).2⟩

/-- Two histories that both end committed. -/
theorem both_committed {sender receiver : List WireEvent} (hs : SenderShape d .committed sender)
    (hr : ReceiverHistory d .committed receiver)
    (htoReceiver : receivedOf receiver <+: sentOf sender)
    (htoSender : receivedOf sender <+: sentOf receiver) :
    ∃ size digest before before',
      sender = before ++ [.sent (.finish size digest), .received .committed] ∧
      receiver = before' ++ [.received (.finish size digest), .sent .committed] ∧
      dataOf (receivedOf before') = dataOf (sentOf before) := by
  obtain ⟨opening, blocks, size, digest, ho, rfl⟩ := hs.of_committed
  obtain ⟨opening', events, e, ho', hb, he, rfl⟩ := hr.of_committed
  rw [Party.receivedOf_append, Party.receivedOf_append, receivedOf_sentBlocks, List.append_nil,
    List.append_assoc, Party.sentOf_append] at htoSender
  obtain ⟨⟨rest, hrest⟩, hopenings⟩ := openings_meet ho ho' htoSender
  obtain ⟨⟨blocks', rfl⟩, size', digest', rfl⟩ := received_only hb he hrest
  rw [Party.receivedOf_append, Party.receivedOf_append, receivedOf_receivedBlocks, List.append_assoc,
    Party.sentOf_append, Party.sentOf_append, sentOf_sentBlocks, List.append_assoc] at htoReceiver
  obtain ⟨rfl, hfinish⟩ := eq_of_blocks_initial (by rintro bytes ⟨⟩) (by rintro bytes ⟨⟩)
    (hopenings _ _ htoReceiver)
  cases hfinish
  refine ⟨size, digest, _, _, rfl, rfl, ?_⟩
  rw [Party.receivedOf_append, Party.sentOf_append, receivedOf_receivedBlocks, sentOf_sentBlocks,
    dataOf_append, dataOf_append, ho.dataOf_eq_nil, ho'.dataOf_eq_nil]

/-! ## Joint runs -/

/-- One step of the two sessions. -/
abbrev joint (d : TransferDirection) : Substream → Action → Option Substream :=
  Duplex.exec (party d .controller) (party d .host)

/-- The calls of a joint run on one side. -/
def callsOf (d : TransferDirection) (actions : List Action) : TransferSide → List WireCall
  | .controller =>
    Duplex.leftCalls (party d .controller) (party d .host) (Substream.new d) actions
  | .host => Duplex.rightCalls (party d .controller) (party d .host) (Substream.new d) actions

/-- The messages that one side sent and received in a joint run. -/
def historyOf (d : TransferDirection) (side : TransferSide) (actions : List Action) :
    List WireEvent :=
  (party d side).history .awaitingOpen (callsOf d actions side)

def Substream.stateOf (σ : Substream) : TransferSide → WireState
  | .controller => σ.left
  | .host => σ.right

/-- One side of a joint run is in a state at some point of it. -/
def Reaches (d : TransferDirection) (side : TransferSide) (s : WireState) (actions : List Action) :
    Prop :=
  ∃ first, first <+: actions ∧ ∃ σ, Machine.run (joint d) (Substream.new d) first = some σ ∧
    σ.stateOf side = s

/-- A side that is done at some point of a run has its whole history by then. -/
theorem history_of_reaches {side : TransferSide} {actions : List Action}
    (h : Reaches d side s actions) (hs : s.isClosed = true) :
    ∃ calls, (party d side).final .awaitingOpen calls = s ∧
      historyOf d side actions = (party d side).history .awaitingOpen calls := by
  obtain ⟨first, ⟨second, rfl⟩, σ, hrun, rfl⟩ := h
  have hstate : (party d side).final .awaitingOpen (callsOf d first side) = σ.stateOf side := by
    cases side with
    | controller => exact (Duplex.left_of_run hrun).symm
    | host => exact (Duplex.right_of_run hrun).symm
  refine ⟨callsOf d first side, hstate, ?_⟩
  have hcalls : ∃ later, callsOf d (first ++ second) side = callsOf d first side ++ later := by
    cases side with
    | controller => exact ⟨_, Machine.outputs_append hrun second⟩
    | host => exact ⟨_, Machine.outputs_append hrun second⟩
  obtain ⟨later, hlater⟩ := hcalls
  have hdone : (party d side).history (σ.stateOf side) later = [] :=
    (party_ends d side).history_eq_nil hs later
  rw [historyOf, hlater, Party.history_append, hstate, hdone, List.append_nil]

/-- On the side that sends the data, over any calls: it is committed only after one `Finish` that it
sent and a `Committed` that it received behind it; it accepts no data behind a `Finish`; and it accepts
nothing once it is committed or closed. In every joint run in which no message is refused that is
delivered to a side which is not done: where both sides reach `committed`, the receiver sent
`Committed` behind the `Finish` of the sender, and before that it received the blocks that the sender
sent before it. -/
theorem commit_needs_finish :
    (∀ (d : TransferDirection) (calls : List WireCall),
      ((party d (dataSender d)).final .awaitingOpen calls = .committed →
        ∃ before size digest between,
          (party d (dataSender d)).history .awaitingOpen calls =
            before ++ .sent (.finish size digest) :: (between ++ [.received .committed]) ∧
          ∀ e ∈ before ++ between, ¬ SendsFinish e) ∧
      (∀ before size digest rest,
        (party d (dataSender d)).history .awaitingOpen calls =
            before ++ .sent (.finish size digest) :: rest → ∀ e ∈ rest, ¬ CarriesData e) ∧
      (((party d (dataSender d)).final .awaitingOpen calls).isClosed = true →
        ∀ more, (party d (dataSender d)).history
          ((party d (dataSender d)).final .awaitingOpen calls) more = [])) ∧
    ∀ (d : TransferDirection) (actions : List Action) (σ : Substream),
      Machine.run (joint d) (Substream.new d) actions = some σ →
      Machine.Allowed (joint d) (Duplex.Takes (party d .controller) (party d .host)) (Substream.new d)
        actions →
      Reaches d (dataSender d) .committed actions → Reaches d (dataReceiver d) .committed actions →
        ∃ size digest before before',
          historyOf d (dataSender d) actions =
            before ++ [.sent (.finish size digest), .received .committed] ∧
          historyOf d (dataReceiver d) actions =
            before' ++ [.received (.finish size digest), .sent .committed] ∧
          dataOf (receivedOf before') = dataOf (sentOf before) := by
  refine ⟨fun d calls => ⟨fun hcommitted => ?_, ?_, ?_⟩, ?_⟩
  · have hhistory := sender_history d calls
    rw [hcommitted] at hhistory
    rcases hhistory with hshape | ⟨hclosed, -⟩
    · obtain ⟨opening, blocks, size, digest, ho, heq⟩ := hshape.of_committed
      refine ⟨_, size, digest, [], heq, fun e he => not_sendsFinish_before blocks ho e ?_⟩
      rwa [List.append_nil] at he
    · cases hclosed
  · exact fun before size digest rest hcut => (sender_history d calls).no_data_after_finish hcut
  · exact fun hdone more => (party_ends d (dataSender d)).history_eq_nil hdone more
  · intro d actions σ hrun htakes hsender hreceiver
    obtain ⟨calls, hstate, hhistory⟩ := history_of_reaches hsender rfl
    obtain ⟨calls', hstate', hhistory'⟩ := history_of_reaches hreceiver rfl
    have hs : SenderShape d .committed (historyOf d (dataSender d) actions) := by
      have h := sender_history d calls
      rw [hstate, ← hhistory] at h
      rcases h with hshape | ⟨hclosed, -⟩
      · exact hshape
      · cases hclosed
    have hr : ReceiverHistory d .committed (historyOf d (dataReceiver d) actions) := by
      have h := receiver_history d calls'
      rwa [hstate', ← hhistory'] at h
    obtain ⟨htoHost, htoController⟩ := Duplex.received_initial (party_ends d .controller)
      (party_ends d .host) (σ := Substream.new d) rfl rfl htakes hrun
    cases d with
    | upload => exact both_committed hs hr htoHost htoController
    | download => exact both_committed hs hr htoController htoHost

/-- An upload of one block that both sides commit. -/
def oneBlockUpload (digest : Sha256Digest) : List Action :=
  [.sendLeft (.uploadOpen "" "a" 1), .deliverRight, .sendRight .ready, .deliverLeft,
    .sendLeft (.data [7]), .deliverRight, .sendLeft (.finish 1 digest), .deliverRight,
    .sendRight .committed, .deliverLeft]

/-- Both parts at that upload: the first for the controller's own calls, the second for the run. -/
theorem commit_needs_finish_upload :
    (∃ before size digest between,
      (party .upload .controller).history .awaitingOpen
          (callsOf .upload (oneBlockUpload (.replicate 32 0)) .controller) =
        before ++ .sent (.finish size digest) :: (between ++ [.received .committed]) ∧
      ∀ e ∈ before ++ between, ¬ SendsFinish e) ∧
    ∃ size digest before before',
      historyOf .upload .controller (oneBlockUpload (.replicate 32 0)) =
        before ++ [.sent (.finish size digest), .received .committed] ∧
      historyOf .upload .host (oneBlockUpload (.replicate 32 0)) =
        before' ++ [.received (.finish size digest), .sent .committed] ∧
      dataOf (receivedOf before') = dataOf (sentOf before) := by
  have hrun : ∃ σ, Machine.run (joint .upload) (Substream.new .upload)
      (oneBlockUpload (.replicate 32 0)) = some σ ∧ σ.left = .committed ∧ σ.right = .committed :=
    ⟨_, rfl, rfl, rfl⟩
  obtain ⟨σ, hσ, hleft, hright⟩ := hrun
  refine ⟨(commit_needs_finish.1 .upload _).1 rfl, ?_⟩
  exact commit_needs_finish.2 .upload _ σ hσ (by decide +kernel) ⟨_, List.prefix_rfl, σ, hσ, hleft⟩
    ⟨_, List.prefix_rfl, σ, hσ, hright⟩

end Yonder.Transfer
