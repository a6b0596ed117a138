import Yonder.Lib.Duplex
import Yonder.Wire.FileTransfer

/-!
# The two wire sessions of a transfer

The sessions of the controller and the host, joined by two queues. The tables of `send` and `receive`
are not dual everywhere: `Allowed` lists the sends whose message the other side can refuse, each with
the states in which it cannot, and `duality_iff` says that a run refuses nothing, whatever is
delivered after each of its steps, exactly when it has none of the others.
-/

namespace Yonder.Transfer

open Lib Wire

/-- A wire session as a party, in its state. -/
def party (d : TransferDirection) (side : TransferSide) : Party WireState FileTransferMessage where
  send := fun s m => ((WireSession.mk d side s).send m).toOption.map (·.state)
  receive := fun s m => ((WireSession.mk d side s).receive m).toOption.map (·.state)
  close := fun s => (WireSession.mk d side s).close.state
  done := fun s => (WireSession.mk d side s).isClosed

/-- The two sessions, the controller on the left. -/
abbrev Substream := Duplex WireState WireState FileTransferMessage

/-- Two new sessions. -/
def Substream.new (d : TransferDirection) : Substream :=
  ⟨(WireSession.new d .controller).state, (WireSession.new d .host).state, [], []⟩

abbrev Action := Duplex.Action FileTransferMessage

theorem party_send (d : TransferDirection) (side : TransferSide) (s : WireState)
    (m : FileTransferMessage) : (party d side).send s m = (sendState d side s m).toOption := by
  simp only [party, WireSession.send]
  cases sendState d side s m <;> rfl

theorem party_receive (d : TransferDirection) (side : TransferSide) (s : WireState)
    (m : FileTransferMessage) :
    (party d side).receive s m = (receiveState d side s m).toOption := by
  simp only [party, WireSession.receive]
  cases receiveState d side s m <;> rfl

@[simp] theorem party_done (d : TransferDirection) (side : TransferSide) (s : WireState) :
    (party d side).done s = s.isClosed := rfl

theorem party_final (d : TransferDirection) (side : TransferSide) :
    Duplex.Party.Final (party d side) := by
  intro s m hdone
  rw [party_receive]
  cases s <;> cases hdone <;> cases d <;> cases side <;> rfl

variable {s c h : WireState} {q out back : List FileTransferMessage} {d : TransferDirection}
  {side : TransferSide} {σ : Substream} {m : FileTransferMessage}

theorem toOption_eq_some {e : Except WireStateError WireState} :
    e.toOption = some s ↔ e = .ok s := by
  cases e <;> simp [Except.toOption]

/-! ## The sends that can be refused -/

/-- The sends that refuse nothing. For the sends listed here the other side must be done or be in the
state in which it accepts the message, and where the sender's own state changes, nothing that it would
then refuse may be in flight. -/
def Allowed (d : TransferDirection) (σ : Substream) : Action → Prop
  | .sendLeft m => match d, σ.left, m with
      | .upload, .openSent, .ready => σ.right.isClosed = true ∧ σ.toLeft = []
      | .download, .awaitingOffer, .cancel => σ.right.isClosed = true ∨ σ.right = .awaitingReady
      | .download, .awaitingOffer, .error _ => σ.right.isClosed = true ∨ σ.right = .awaitingReady
      | .download, .transferring, .data _ => σ.right.isClosed = true
      | .download, .transferring, .finish .. => σ.right.isClosed = true ∧ σ.toLeft = []
      | .download, .transferring, .cancel => σ.right.isClosed = true ∨ σ.right = .awaitingCommitted
      | .download, .transferring, .error _ => σ.right.isClosed = true ∨ σ.right = .awaitingCommitted
      | _, _, _ => True
  | .sendRight m => match d, σ.right, m with
      | .upload, .transferring, .error _ => σ.left.isClosed = true ∨ σ.left = .awaitingCommitted
      | _, _, _ => True
  | _ => True

/-! ## What is in flight -/

/-- Data blocks. -/
def Blocks (q : List FileTransferMessage) : Prop := ∀ m ∈ q, ∃ bytes, m = .data bytes

/-- The states of the controller and the host, and the queues to the host and to the controller, while
neither side is done. -/
inductive Live : TransferDirection → WireState → WireState → List FileTransferMessage →
    List FileTransferMessage → Prop
  | start (d : TransferDirection) : Live d .awaitingOpen .awaitingOpen [] []
  | opening (destination fileName : String) (size : UInt64) :
      Live .upload .openSent .awaitingOpen [.uploadOpen destination fileName size] []
  | opened : Live .upload .openSent .openSent [] []
  | readying : Live .upload .openSent .transferring [] [.ready]
  | sending (q : List FileTransferMessage) (hq : Blocks q) :
      Live .upload .transferring .transferring q []
  | finishing (q : List FileTransferMessage) (hq : Blocks q) (size : UInt64)
      (digest : Sha256Digest) :
      Live .upload .awaitingCommitted .transferring (q ++ [.finish size digest]) []
  | finished (d : TransferDirection) : Live d .awaitingCommitted .awaitingCommitted [] []
  | requesting (source : String) :
      Live .download .awaitingOffer .awaitingOpen [.downloadOpen source] []
  | requested : Live .download .awaitingOffer .openSent [] []
  | offering (fileName : String) (size : UInt64) :
      Live .download .awaitingOffer .awaitingReady [] [.downloadOffer fileName size]
  | offered : Live .download .awaitingReady .awaitingReady [] []
  | accepting : Live .download .transferring .awaitingReady [.ready] []
  | receiving (q : List FileTransferMessage) (hq : Blocks q) :
      Live .download .transferring .transferring [] q
  | ending (q : List FileTransferMessage) (hq : Blocks q) (size : UInt64) (digest : Sha256Digest) :
      Live .download .transferring .awaitingCommitted [] (q ++ [.finish size digest])

/-! ## What a side accepts -/

@[simp] theorem accepts_nil (d : TransferDirection) (side : TransferSide) (s : WireState) :
    (party d side).Accepts s [] ↔ True := Iff.rfl

@[simp] theorem accepts_cons (d : TransferDirection) (side : TransferSide) (s : WireState)
    (m : FileTransferMessage) (q : List FileTransferMessage) :
    (party d side).Accepts s (m :: q) ↔ s.isClosed = true ∨
      ∃ s', receiveState d side s m = .ok s' ∧ (party d side).Accepts s' q := by
  rw [Party.Accepts, party_receive, party_done]
  cases receiveState d side s m <;> simp [Except.toOption]

theorem accepts_of_closed (d : TransferDirection) (side : TransferSide) (h : s.isClosed = true)
    (q : List FileTransferMessage) : (party d side).Accepts s q :=
  Duplex.accepts_of_done h q

theorem blocks_append (hq : Blocks q) (bytes : Bytes) : Blocks (q ++ [.data bytes]) := by
  intro m hm
  rcases List.mem_append.1 hm with hm | hm
  · exact hq m hm
  · exact ⟨bytes, List.mem_singleton.1 hm⟩

/-- The receiver of the data takes the blocks first. -/
theorem accepts_blocks
    (hdata : ∀ bytes, receiveState d side .transferring (.data bytes) = .ok .transferring)
    (hq : Blocks q) (tail : List FileTransferMessage) :
    (party d side).Accepts .transferring (q ++ tail) ↔
      (party d side).Accepts .transferring tail := by
  induction q with
  | nil => rfl
  | cons m rest ih =>
    obtain ⟨bytes, rfl⟩ := hq m List.mem_cons_self
    rw [← ih fun m hm => hq m (List.mem_cons_of_mem _ hm)]
    simp [hdata, WireState.isClosed]

theorem accepts_upload_blocks (hq : Blocks q) (tail : List FileTransferMessage) :
    (party .upload .host).Accepts .transferring (q ++ tail) ↔
      (party .upload .host).Accepts .transferring tail :=
  accepts_blocks (fun _ => rfl) hq tail

theorem accepts_download_blocks (hq : Blocks q) (tail : List FileTransferMessage) :
    (party .download .controller).Accepts .transferring (q ++ tail) ↔
      (party .download .controller).Accepts .transferring tail :=
  accepts_blocks (fun _ => rfl) hq tail

theorem Live.accepted (hlive : Live d c h out back) :
    (party d .controller).Accepts c back ∧ (party d .host).Accepts h out := by
  cases hlive with
  | sending q hq =>
    rw [← List.append_nil out]
    exact ⟨trivial, (accepts_upload_blocks hq []).2 trivial⟩
  | finishing q hq size digest =>
    refine ⟨trivial, (accepts_upload_blocks hq _).2 ?_⟩
    simp [receiveState]
  | receiving q hq =>
    rw [← List.append_nil back]
    exact ⟨(accepts_download_blocks hq []).2 trivial, trivial⟩
  | ending q hq size digest =>
    refine ⟨(accepts_download_blocks hq _).2 ?_, trivial⟩
    simp [receiveState]
  | _ => simp [receiveState]

/-- What holds in every run of allowed steps. -/
structure Inv (d : TransferDirection) (σ : Substream) : Prop where
  accepted : σ.Accepted (party d .controller) (party d .host)
  shape : Live d σ.left σ.right σ.toRight σ.toLeft ∨ σ.left.isClosed = true ∨
    σ.right.isClosed = true

theorem Live.inv (h : Live d σ.left σ.right σ.toRight σ.toLeft) : Inv d σ := ⟨h.accepted, Or.inl h⟩

theorem inv_of_left_closed (h : σ.left.isClosed = true)
    (hq : (party d .host).Accepts σ.right σ.toRight) : Inv d σ :=
  ⟨⟨accepts_of_closed d .controller h _, hq⟩, Or.inr (Or.inl h)⟩

theorem inv_of_right_closed (h : σ.right.isClosed = true)
    (hq : (party d .controller).Accepts σ.left σ.toLeft) : Inv d σ :=
  ⟨⟨hq, accepts_of_closed d .host h _⟩, Or.inr (Or.inr h)⟩

theorem inv_new (d : TransferDirection) : Inv d (Substream.new d) := Live.inv (.start d)

/-! ## Steps -/

/-- The controller sends while neither side is done. -/
theorem sendLeft_live (hlive : Live d c h out back) (hs : sendState d .controller c m = .ok s) :
    (Allowed d ⟨c, h, out, back⟩ (.sendLeft m) → Inv d ⟨s, h, out ++ [m], back⟩) ∧
      (¬ Allowed d ⟨c, h, out, back⟩ (.sendLeft m) →
        ¬ (party d .host).Accepts h (out ++ [m])) := by
  cases hlive with
  | start =>
    cases d <;> cases m <;> simp only [sendState, reduceCtorEq, Except.ok.injEq] at hs <;>
      subst hs <;> refine ⟨fun _ => ?_, fun h => absurd trivial h⟩
    · exact Live.inv (.opening _ _ _)
    · exact Live.inv (.requesting _)
  | opening | opened | readying =>
    cases m <;> simp only [sendState, reduceCtorEq, Except.ok.injEq] at hs <;> subst hs
    case ready => simp [Allowed, WireState.isClosed, receiveState]
    all_goals
      refine ⟨fun _ => inv_of_left_closed rfl ?_, fun h => absurd trivial h⟩
      simp [receiveState, WireState.isClosed]
  | sending q hq =>
    cases m <;> simp only [sendState, reduceCtorEq, Except.ok.injEq] at hs <;> subst hs <;>
      refine ⟨fun _ => ?_, fun h => absurd trivial h⟩
    case data => exact Live.inv (.sending _ (blocks_append hq _))
    case finish => exact Live.inv (.finishing _ hq _ _)
    all_goals
      refine inv_of_left_closed rfl ((accepts_upload_blocks hq _).2 ?_)
      simp [receiveState, WireState.isClosed]
  | finishing q hq size digest => cases hs
  | finished =>
    cases d <;> cases m <;> simp only [sendState, reduceCtorEq, Except.ok.injEq] at hs
    subst hs
    refine ⟨fun _ => inv_of_left_closed rfl ?_, fun h => absurd trivial h⟩
    simp [receiveState]
  | requesting | requested | offering =>
    cases m <;> simp only [sendState, reduceCtorEq, Except.ok.injEq] at hs <;> subst hs
    all_goals
      refine ⟨fun hallowed => inv_of_left_closed rfl ?_, fun hnot => ?_⟩
      · simp_all [Allowed, receiveState, WireState.isClosed]
      · simp_all [Allowed, receiveState, WireState.isClosed]
  | offered =>
    cases m <;> simp only [sendState, reduceCtorEq, Except.ok.injEq] at hs <;> subst hs <;>
      refine ⟨fun _ => ?_, fun h => absurd trivial h⟩
    case ready => exact Live.inv .accepting
    all_goals
      refine inv_of_left_closed rfl ?_
      simp [receiveState, WireState.isClosed]
  | accepting | receiving | ending =>
    cases m <;> simp only [sendState, reduceCtorEq, Except.ok.injEq] at hs <;> subst hs
    case data | finish => simp [Allowed, receiveState, WireState.isClosed]
    all_goals
      refine ⟨fun hallowed => inv_of_left_closed rfl ?_, fun hnot => ?_⟩
      · simp_all [Allowed, receiveState, WireState.isClosed]
      · simp_all [Allowed, receiveState, WireState.isClosed]

/-- The host sends while neither side is done. -/
theorem sendRight_live (hlive : Live d c h out back) (hs : sendState d .host h m = .ok s) :
    (Allowed d ⟨c, h, out, back⟩ (.sendRight m) → Inv d ⟨c, s, out, back ++ [m]⟩) ∧
      (¬ Allowed d ⟨c, h, out, back⟩ (.sendRight m) →
        ¬ (party d .controller).Accepts c (back ++ [m])) := by
  cases hlive with
  | start => cases d <;> cases hs
  | opening | requesting | offering | offered | accepting | ending => cases hs
  | opened =>
    cases m <;> simp only [sendState, reduceCtorEq, Except.ok.injEq] at hs
    subst hs
    exact ⟨fun _ => Live.inv .readying, fun h => absurd trivial h⟩
  | readying | sending | finishing =>
    cases m <;> simp only [sendState, reduceCtorEq, Except.ok.injEq] at hs
    subst hs
    refine ⟨fun hallowed => inv_of_right_closed rfl ?_, fun hnot => ?_⟩
    · simp_all [Allowed, receiveState, WireState.isClosed]
    · simp_all [Allowed, receiveState, WireState.isClosed]
  | finished =>
    cases d <;> cases m <;> simp only [sendState, reduceCtorEq, Except.ok.injEq] at hs
    subst hs
    refine ⟨fun _ => inv_of_right_closed rfl ?_, fun h => absurd trivial h⟩
    simp [receiveState]
  | requested =>
    cases m <;> simp only [sendState, reduceCtorEq, Except.ok.injEq] at hs
    subst hs
    exact ⟨fun _ => Live.inv (.offering _ _), fun h => absurd trivial h⟩
  | receiving q hq =>
    cases m <;> simp only [sendState, reduceCtorEq, Except.ok.injEq] at hs <;> subst hs <;>
      refine ⟨fun _ => ?_, fun h => absurd trivial h⟩
    case data => exact Live.inv (.receiving _ (blocks_append hq _))
    case finish => exact Live.inv (.ending _ hq _ _)
    case error =>
      refine inv_of_right_closed rfl ((accepts_download_blocks hq _).2 ?_)
      simp [receiveState]

theorem not_closed_of_send {s' : WireState} (h : sendState d side s m = .ok s') :
    s.isClosed = false := by
  cases s <;> first | rfl | (cases d <;> cases side <;> cases h)

theorem allowed_sendRight_of_closed (hclosed : c.isClosed = true) (m : FileTransferMessage) :
    Allowed d ⟨c, h, out, back⟩ (.sendRight m) := by
  cases d <;> cases h <;> cases m <;> first | trivial | exact Or.inl hclosed

/-- The controller sends to a host that is done: the two sends after which it accepts nothing more
need an empty queue. -/
theorem sendLeft_to_closed (hclosed : h.isClosed = true)
    (hback : (party d .controller).Accepts c back) (hs : sendState d .controller c m = .ok s) :
    (party d .controller).Accepts s back ↔ Allowed d ⟨c, h, out, back⟩ (.sendLeft m) := by
  cases d <;> cases c <;> cases m <;>
    simp only [sendState, reduceCtorEq, Except.ok.injEq] at hs <;> subst hs <;>
    cases back with
    | nil => simp [Allowed, hclosed]
    | cons x rest =>
      cases x <;> simp_all [Allowed, receiveState, WireState.isClosed]

/-- The host sends to a controller that is done. -/
theorem sendRight_to_closed (hout : (party d .host).Accepts h out)
    (hs : sendState d .host h m = .ok s) : (party d .host).Accepts s out := by
  cases d <;> cases h <;> cases m <;>
    simp only [sendState, reduceCtorEq, Except.ok.injEq] at hs <;> subst hs <;>
    cases out with
    | nil => trivial
    | cons x rest =>
      cases x <;> simp_all [receiveState, WireState.isClosed]

/-- A message to the controller arrives while neither side is done. -/
theorem deliverLeft_live (hlive : Live d c h out q) (hq : q = m :: back) :
    ∃ s, receiveState d .controller c m = .ok s ∧ Live d s h out back := by
  cases hlive with
  | readying =>
    cases hq
    exact ⟨_, rfl, .sending [] nofun⟩
  | offering =>
    cases hq
    exact ⟨_, rfl, .offered⟩
  | receiving _ hblocks =>
    subst hq
    obtain ⟨bytes, rfl⟩ := hblocks m List.mem_cons_self
    exact ⟨_, rfl, .receiving _ fun x hx => hblocks x (List.mem_cons_of_mem _ hx)⟩
  | ending q hblocks size digest =>
    cases q with
    | nil =>
      cases hq
      exact ⟨_, rfl, .finished _⟩
    | cons x rest =>
      cases hq
      obtain ⟨bytes, rfl⟩ := hblocks m List.mem_cons_self
      exact ⟨_, rfl, .ending _ (fun x hx => hblocks x (List.mem_cons_of_mem _ hx)) _ _⟩
  | _ => cases hq

/-- A message to the host arrives while neither side is done. -/
theorem deliverRight_live (hlive : Live d c h q back) (hq : q = m :: out) :
    ∃ s, receiveState d .host h m = .ok s ∧ Live d c s out back := by
  cases hlive with
  | opening =>
    cases hq
    exact ⟨_, rfl, .opened⟩
  | sending _ hblocks =>
    subst hq
    obtain ⟨bytes, rfl⟩ := hblocks m List.mem_cons_self
    exact ⟨_, rfl, .sending _ fun x hx => hblocks x (List.mem_cons_of_mem _ hx)⟩
  | finishing q hblocks size digest =>
    cases q with
    | nil =>
      cases hq
      exact ⟨_, rfl, .finished _⟩
    | cons x rest =>
      cases hq
      obtain ⟨bytes, rfl⟩ := hblocks m List.mem_cons_self
      exact ⟨_, rfl, .finishing _ (fun x hx => hblocks x (List.mem_cons_of_mem _ hx)) _ _⟩
  | requesting =>
    cases hq
    exact ⟨_, rfl, .requested⟩
  | accepting =>
    cases hq
    exact ⟨_, rfl, .receiving [] nofun⟩
  | _ => cases hq

theorem isClosed_deliver (h : s.isClosed = true) (m : FileTransferMessage) :
    (((party d side).receive s m).getD s).isClosed = true := by
  rw [party_final d side s m h]
  exact h

/-- An allowed step keeps the invariant. -/
theorem Inv.step {τ : Substream} {a : Action} (h : Inv d σ)
    (hstep : σ.exec (party d .controller) (party d .host) a = some τ) (hallowed : Allowed d σ a) :
    Inv d τ := by
  obtain ⟨c, hs, out, back⟩ := σ
  cases a with
  | sendLeft m =>
    obtain ⟨s, hsend, rfl⟩ := Option.map_eq_some_iff.1 hstep
    rw [party_send, toOption_eq_some] at hsend
    rcases h.shape with hlive | hclosed | hclosed
    · exact (sendLeft_live hlive hsend).1 hallowed
    · rw [not_closed_of_send hsend] at hclosed
      cases hclosed
    · exact inv_of_right_closed hclosed
        ((sendLeft_to_closed hclosed h.accepted.1 hsend).2 hallowed)
  | sendRight m =>
    obtain ⟨s, hsend, rfl⟩ := Option.map_eq_some_iff.1 hstep
    rw [party_send, toOption_eq_some] at hsend
    rcases h.shape with hlive | hclosed | hclosed
    · exact (sendRight_live hlive hsend).1 hallowed
    · exact inv_of_left_closed hclosed (sendRight_to_closed h.accepted.2 hsend)
    · rw [not_closed_of_send hsend] at hclosed
      cases hclosed
  | deliverLeft =>
    have haccepted := h.accepted.delivers (party_final _ _) (party_final _ _) (Or.inl hstep)
    cases back with
    | nil => cases hstep
    | cons m rest =>
      cases hstep
      refine ⟨haccepted, ?_⟩
      rcases h.shape with hlive | hclosed | hclosed
      · obtain ⟨s, hreceive, hnext⟩ := deliverLeft_live hlive rfl
        refine Or.inl ?_
        rw [party_receive, hreceive]
        exact hnext
      · exact Or.inr (Or.inl (isClosed_deliver hclosed m))
      · exact Or.inr (Or.inr hclosed)
  | deliverRight =>
    have haccepted := h.accepted.delivers (party_final _ _) (party_final _ _) (Or.inr hstep)
    cases out with
    | nil => cases hstep
    | cons m rest =>
      cases hstep
      refine ⟨haccepted, ?_⟩
      rcases h.shape with hlive | hclosed | hclosed
      · obtain ⟨s, hreceive, hnext⟩ := deliverRight_live hlive rfl
        refine Or.inl ?_
        rw [party_receive, hreceive]
        exact hnext
      · exact Or.inr (Or.inl hclosed)
      · exact Or.inr (Or.inr (isClosed_deliver hclosed m))
  | closeLeft =>
    cases hstep
    exact inv_of_left_closed rfl h.accepted.2
  | closeRight =>
    cases hstep
    exact inv_of_right_closed rfl h.accepted.1

/-- A step that is not allowed leaves a message in flight that is refused. -/
theorem Inv.not_accepted {τ : Substream} {a : Action} (h : Inv d σ)
    (hstep : σ.exec (party d .controller) (party d .host) a = some τ) (hnot : ¬ Allowed d σ a) :
    ¬ τ.Accepted (party d .controller) (party d .host) := by
  obtain ⟨c, hs, out, back⟩ := σ
  cases a with
  | sendLeft m =>
    obtain ⟨s, hsend, rfl⟩ := Option.map_eq_some_iff.1 hstep
    rw [party_send, toOption_eq_some] at hsend
    rcases h.shape with hlive | hclosed | hclosed
    · exact fun haccepted => (sendLeft_live hlive hsend).2 hnot haccepted.2
    · rw [not_closed_of_send hsend] at hclosed
      cases hclosed
    · exact fun haccepted =>
        hnot ((sendLeft_to_closed hclosed h.accepted.1 hsend).1 haccepted.1)
  | sendRight m =>
    obtain ⟨s, hsend, rfl⟩ := Option.map_eq_some_iff.1 hstep
    rw [party_send, toOption_eq_some] at hsend
    rcases h.shape with hlive | hclosed | hclosed
    · exact fun haccepted => (sendRight_live hlive hsend).2 hnot haccepted.1
    · exact absurd (allowed_sendRight_of_closed hclosed m) hnot
    · rw [not_closed_of_send hsend] at hclosed
      cases hclosed
  | deliverLeft | deliverRight | closeLeft | closeRight => exact absurd trivial hnot

/-! ## Duality -/

/-- For both directions and every run of sends, deliveries and closings of two new sessions: nothing
that is in flight at any point of the run is refused when it is delivered to a side that is not done,
exactly when every send of the run is allowed. -/
theorem duality_iff (d : TransferDirection) (actions : List Action)
    (hruns : Duplex.Runs (party d .controller) (party d .host) (Substream.new d) actions) :
    Duplex.SafeRun (party d .controller) (party d .host) (Substream.new d) actions ↔
      Duplex.AllowedRun (party d .controller) (party d .host) (Allowed d) (Substream.new d)
        actions := by
  have hiff := fun σ : Substream =>
    Duplex.safeFrom_iff (party_final d .controller) (party_final d .host) σ
  refine Duplex.run_safe_iff (Inv d) (fun σ h => (hiff σ).2 h.accepted)
    (fun σ a τ h hstep hallowed => h.step hstep hallowed) ?_ (inv_new d) actions hruns
  intro σ a τ h hstep hnot hsafe
  exact h.not_accepted hstep hnot ((hiff τ).1 hsafe)

/-- The equivalence at an upload of one block. -/
theorem duality_upload :
    Duplex.Runs (party .upload .controller) (party .upload .host) (Substream.new .upload)
        [.sendLeft (.uploadOpen "" "a" 1), .deliverRight, .sendRight .ready, .deliverLeft,
          .sendLeft (.data [7]), .deliverRight] ∧
      (Duplex.SafeRun (party .upload .controller) (party .upload .host) (Substream.new .upload)
          [.sendLeft (.uploadOpen "" "a" 1), .deliverRight, .sendRight .ready, .deliverLeft,
            .sendLeft (.data [7]), .deliverRight] ↔
        Duplex.AllowedRun (party .upload .controller) (party .upload .host) (Allowed .upload)
          (Substream.new .upload)
          [.sendLeft (.uploadOpen "" "a" 1), .deliverRight, .sendRight .ready, .deliverLeft,
            .sendLeft (.data [7]), .deliverRight]) := by
  have hruns : Duplex.Runs (party .upload .controller) (party .upload .host) (Substream.new .upload)
      [.sendLeft (.uploadOpen "" "a" 1), .deliverRight, .sendRight .ready, .deliverLeft,
        .sendLeft (.data [7]), .deliverRight] :=
    ⟨_, rfl, _, rfl, _, rfl, _, rfl, _, rfl, _, rfl, trivial⟩
  exact ⟨hruns, duality_iff .upload _ hruns⟩

/-- During an upload the host may send an error that the controller refuses, and during a download
the controller may send a cancellation that the host refuses. -/
theorem error_and_cancel_refused :
    (∃ σ : Substream,
      List.foldlM (fun σ a => Duplex.exec (party .upload .controller) (party .upload .host) σ a)
        (Substream.new .upload) [.sendLeft (.uploadOpen "" "a" 1), .deliverRight, .sendRight .ready,
          .deliverLeft, .sendRight (.error .writeFailed)] = some σ ∧
      Duplex.Refused (party .upload .controller) (party .upload .host) σ) ∧
    ∃ σ : Substream,
      List.foldlM (fun σ a => Duplex.exec (party .download .controller) (party .download .host) σ a)
        (Substream.new .download) [.sendLeft (.downloadOpen "a"), .deliverRight,
          .sendRight (.downloadOffer "a" 1), .deliverLeft, .sendLeft .ready, .deliverRight,
          .sendLeft .cancel] = some σ ∧
      Duplex.Refused (party .download .controller) (party .download .host) σ :=
  ⟨⟨_, rfl, Or.inl ⟨_, _, rfl, rfl, rfl⟩⟩, _, rfl, Or.inr ⟨_, _, rfl, rfl, rfl⟩⟩

end Yonder.Transfer
