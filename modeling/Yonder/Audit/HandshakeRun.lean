import Yonder.Audit.Handshake

/-!
# Any sequence of handshake calls

`HandshakeState` has one case for each phase from `Fresh` to `Active`. A run is any list of calls with
any messages; a call in the wrong phase or with a message that fails its checks is an error and
changes nothing.

* `InOrder`: an active session has accepted a hello, has computed its ready and has accepted a ready,
  in this order, each of them checked.
* `Agreement`: two active sessions that accepted each other's readies have opposite roles, hold each
  other's hello and contribution and have the same session id and binding.

`handshake_safe` proves both. The readies do not cover the connection secret, so equal input keys need
equal secrets; and `build_header` embeds the ready it is given.
-/

namespace Yonder.Audit

open Lib Wire

/-- A session up to its active phase, with what each phase has set. -/
inductive HandshakeState where
  | fresh (own : FreshSession)
  | handshake (own : FreshSession) (peer : AuditHello) (contribution : Digest32)
  /-- The terminal hello digest of the facts is zero until a header is built. -/
  | ready (facts : SessionFacts)
  | active (facts : SessionFacts) (peerReady : AuditReady)

inductive HandshakeCall where
  | receivePeerHello (hello : AuditHello) (contribution : Digest32)
  | computeReady (secret : ConnectionSecret)
  | buildHeader (ready : AuditReady) (terminalHelloDigest : Digest32)
  | receivePeerReady (ready : AuditReady)

section

variable (c : Crypto)

namespace HandshakeState

/-- One call. `require_phase` refuses it in every phase but its own. -/
def call : HandshakeState → HandshakeCall → Except AuditError HandshakeState
  | fresh own, .receivePeerHello hello contribution => do
      own.receivePeerHello c hello contribution
      return handshake own hello contribution
  | handshake own peer contribution, .computeReady secret =>
    return ready (own.computeReady c peer contribution secret zeroHead)
  | ready facts, .buildHeader _ terminalHelloDigest =>
    return ready { facts with terminalHelloDigest := terminalHelloDigest }
  | ready facts, .receivePeerReady peerReady => do
      facts.receivePeerReady c peerReady
      return active facts peerReady
  | _, _ => .error (.invalidState "the session is not in the required phase")

/-- The session after the call; an error leaves it as it was. -/
def next (s : HandshakeState) (a : HandshakeCall) : HandshakeState :=
  match s.call c a with
  | .error _ => s
  | .ok s' => s'

def run (s : HandshakeState) (calls : List HandshakeCall) : HandshakeState := calls.foldl (next c) s

@[simp] theorem run_cons (s : HandshakeState) (a : HandshakeCall) (calls : List HandshakeCall) :
    s.run c (a :: calls) = (s.next c a).run c calls := rfl

/-- The header that the call returns. -/
def header : HandshakeState → HandshakeCall → Option AuditContainerHeader
  | ready facts, .buildHeader own terminalHelloDigest =>
    some (SessionFacts.buildHeader c
      { facts with ready := own, terminalHelloDigest := terminalHelloDigest })
  | _, _ => none

end HandshakeState

/-- A session in its handshake, the secret `compute_ready` was called with and the headers built. -/
structure Handshaking where
  state : HandshakeState
  secret : Option ConnectionSecret := none
  headers : List AuditContainerHeader := []

namespace Handshaking

def call (t : Handshaking) (a : HandshakeCall) : Handshaking :=
  match t.state.call c a with
  | .error _ => t
  | .ok state =>
    { state := state
      secret := match a with
        | .computeReady secret => some secret
        | _ => t.secret
      headers := t.headers ++ (t.state.header c a).toList }

def run (t : Handshaking) (calls : List HandshakeCall) : Handshaking := calls.foldl (call c) t

theorem state_call (t : Handshaking) (a : HandshakeCall) :
    (t.call c a).state = t.state.next c a := by
  cases h : t.state.call c a <;> simp only [call, HandshakeState.next, h]

theorem state_run (t : Handshaking) (calls : List HandshakeCall) :
    (t.run c calls).state = t.state.run c calls := by
  induction calls generalizing t with
  | nil => rfl
  | cons a calls ih =>
    rw [HandshakeState.run_cons, ← state_call]
    exact ih (t.call c a)

end Handshaking

/-! ## What an active session has accepted -/

/-- A hello, the computation of the ready and the peer's ready, in this order among the calls. -/
structure InOrder (own : FreshSession) (calls : List HandshakeCall) (facts : SessionFacts)
    (peerReady : AuditReady) : Prop where
  fresh_eq : facts.fresh = own
  hello_ok : own.receivePeerHello c facts.peerHello facts.peerContribution = .ok ()
  established : facts.Established c
  ready_ok : facts.receivePeerReady c peerReady = .ok ()
  order : ∃ first second third last secret,
    calls = first ++ .receivePeerHello facts.peerHello facts.peerContribution ::
      (second ++ .computeReady secret :: (third ++ .receivePeerReady peerReady :: last)) ∧
    facts.inputKey = own.deriveInputCommitmentKey c facts.peerHello facts.peerContribution secret
      (own.computeSessionId c facts.peerHello)

variable {c} {own : FreshSession} {facts : SessionFacts} {peerReady : AuditReady}

theorem HandshakeState.next_hello {hello : AuditHello} {contribution : Digest32}
    (h : own.receivePeerHello c hello contribution = .ok ()) :
    (fresh own).next c (.receivePeerHello hello contribution) =
      handshake own hello contribution := by
  simp only [next, call, h, bind, Except.bind, pure, Except.pure]

theorem HandshakeState.next_ready (h : facts.receivePeerReady c peerReady = .ok ()) :
    (ready facts).next c (.receivePeerReady peerReady) = active facts peerReady := by
  simp only [next, call, h, bind, Except.bind, pure, Except.pure]

/-- An active session takes no handshake call. -/
theorem HandshakeState.run_active (calls : List HandshakeCall) :
    (active facts peerReady).run c calls = active facts peerReady := by
  induction calls with
  | nil => rfl
  | cons a calls ih =>
    have hnext : (active facts peerReady).next c a = active facts peerReady := by
      cases a <;> rfl
    rw [run_cons, hnext, ih]

/-- From the ready phase the session gets active by an accepted ready. -/
theorem HandshakeState.run_ready (calls : List HandshakeCall) {f : SessionFacts}
    (h : (ready f).run c calls = active facts peerReady) :
    ∃ terminal third last, facts = { f with terminalHelloDigest := terminal } ∧
      f.receivePeerReady c peerReady = .ok () ∧
      calls = third ++ .receivePeerReady peerReady :: last := by
  induction calls generalizing f with
  | nil => cases h
  | cons a calls ih =>
    rw [run_cons] at h
    -- only a header and an accepted ready move the session
    cases a with
    | receivePeerHello hello contribution =>
      obtain ⟨terminal, third, last, hfacts, hok, rfl⟩ := ih (f := f) h
      exact ⟨terminal, _ :: third, last, hfacts, hok, rfl⟩
    | computeReady secret =>
      obtain ⟨terminal, third, last, hfacts, hok, rfl⟩ := ih (f := f) h
      exact ⟨terminal, _ :: third, last, hfacts, hok, rfl⟩
    | buildHeader own digest =>
      obtain ⟨terminal, third, last, hfacts, hok, rfl⟩ :=
        ih (f := { f with terminalHelloDigest := digest }) h
      exact ⟨terminal, _ :: third, last, hfacts, hok, rfl⟩
    | receivePeerReady own =>
      cases hready : f.receivePeerReady c own with
      | error e =>
        have hnext : (ready f).next c (.receivePeerReady own) = ready f := by
          simp only [next, call, hready, bind, Except.bind]
        rw [hnext] at h
        obtain ⟨terminal, third, last, hfacts, hok, rfl⟩ := ih h
        exact ⟨terminal, _ :: third, last, hfacts, hok, rfl⟩
      | ok _ =>
        rw [next_ready hready, run_active] at h
        cases h
        exact ⟨facts.terminalHelloDigest, [], calls, rfl, hready, rfl⟩

/-- From the handshake phase it gets ready by `compute_ready`. -/
theorem HandshakeState.run_handshake (calls : List HandshakeCall) {peer : AuditHello}
    {contribution : Digest32}
    (h : (handshake own peer contribution).run c calls = active facts peerReady) :
    ∃ second secret rest, calls = second ++ .computeReady secret :: rest ∧
      (ready (own.computeReady c peer contribution secret zeroHead)).run c rest =
        active facts peerReady := by
  induction calls with
  | nil => cases h
  | cons a calls ih =>
    cases a with
    | computeReady secret => exact ⟨[], secret, calls, rfl, h⟩
    | receivePeerHello hello _ =>
      obtain ⟨second, secret, rest, rfl, hrun⟩ := ih h
      exact ⟨_ :: second, secret, rest, rfl, hrun⟩
    | buildHeader _ digest =>
      obtain ⟨second, secret, rest, rfl, hrun⟩ := ih h
      exact ⟨_ :: second, secret, rest, rfl, hrun⟩
    | receivePeerReady _ =>
      obtain ⟨second, secret, rest, rfl, hrun⟩ := ih h
      exact ⟨_ :: second, secret, rest, rfl, hrun⟩

/-- From the fresh phase it enters the handshake by an accepted hello. -/
theorem HandshakeState.run_fresh (calls : List HandshakeCall)
    (h : (fresh own).run c calls = active facts peerReady) :
    ∃ first hello contribution rest, calls = first ++ .receivePeerHello hello contribution :: rest ∧
      own.receivePeerHello c hello contribution = .ok () ∧
      (handshake own hello contribution).run c rest = active facts peerReady := by
  induction calls with
  | nil => cases h
  | cons a calls ih =>
    rw [run_cons] at h
    cases a with
    | receivePeerHello hello contribution =>
      cases hhello : own.receivePeerHello c hello contribution with
      | error e =>
        have hnext : (fresh own).next c (.receivePeerHello hello contribution) = fresh own := by
          simp only [next, call, hhello, bind, Except.bind]
        rw [hnext] at h
        obtain ⟨first, hello', contribution', rest, rfl, hok, hrun⟩ := ih h
        exact ⟨_ :: first, hello', contribution', rest, rfl, hok, hrun⟩
      | ok _ =>
        rw [next_hello hhello] at h
        exact ⟨[], hello, contribution, calls, rfl, hhello, h⟩
    | computeReady secret =>
      obtain ⟨first, hello, contribution, rest, rfl, hok, hrun⟩ := ih h
      exact ⟨_ :: first, hello, contribution, rest, rfl, hok, hrun⟩
    | buildHeader _ digest =>
      obtain ⟨first, hello, contribution, rest, rfl, hok, hrun⟩ := ih h
      exact ⟨_ :: first, hello, contribution, rest, rfl, hok, hrun⟩
    | receivePeerReady _ =>
      obtain ⟨first, hello, contribution, rest, rfl, hok, hrun⟩ := ih h
      exact ⟨_ :: first, hello, contribution, rest, rfl, hok, hrun⟩

/-- A session that is active has its facts from messages it accepted in order. -/
theorem HandshakeState.inOrder (calls : List HandshakeCall)
    (h : (fresh own).run c calls = active facts peerReady) :
    InOrder c own calls facts peerReady := by
  obtain ⟨first, hello, contribution, afterHello, rfl, hhello, hhandshake⟩ := run_fresh calls h
  obtain ⟨second, secret, afterReady, rfl, hcomputed⟩ := run_handshake afterHello hhandshake
  obtain ⟨terminal, third, last, rfl, hready, rfl⟩ := run_ready afterReady hcomputed
  exact
    { fresh_eq := rfl
      hello_ok := hhello
      ready_ok := hready
      established := FreshSession.computeReady_established c secret terminal hhello
      order := ⟨first, second, third, last, secret, rfl, rfl⟩ }

/-- The calls of `establish`, in their order. -/
def establishCalls (hello : AuditHello) (contribution : Digest32) (secret : ConnectionSecret)
    (ready : AuditReady) (terminalHelloDigest : Digest32) (peerReady : AuditReady) :
    List HandshakeCall :=
  [.receivePeerHello hello contribution, .computeReady secret,
    .buildHeader ready terminalHelloDigest, .receivePeerReady peerReady]

/-- With messages that pass their checks, `establish` makes the session active. -/
theorem HandshakeState.run_establish {hello : AuditHello} {contribution terminalHelloDigest : Digest32}
    {secret : ConnectionSecret} (ready : AuditReady)
    (hhello : own.receivePeerHello c hello contribution = .ok ())
    (hready : (own.computeReady c hello contribution secret terminalHelloDigest).receivePeerReady c
      peerReady = .ok ()) :
    (fresh own).run c
        (establishCalls hello contribution secret ready terminalHelloDigest peerReady) =
      active (own.computeReady c hello contribution secret terminalHelloDigest) peerReady := by
  rw [establishCalls, run_cons, next_hello hhello]
  exact next_ready hready

/-- A completed handshake is such a run on both sides. -/
theorem handshake_active {fresh : AuditRole → FreshSession} {secret : ConnectionSecret}
    {terminalHelloDigest : Digest32} {facts : AuditRole → SessionFacts}
    (h : Audit.handshake c fresh secret terminalHelloDigest = .ok facts) (p : AuditRole) :
    (HandshakeState.fresh (fresh p)).run c
        (establishCalls ((fresh p.peer).hello c) (fresh p.peer).contribution secret (facts p).ready
          terminalHelloDigest (facts p.peer).ready) =
      .active (facts p) (facts p.peer).ready := by
  obtain ⟨hhello, rfl, hready⟩ := handshake_ok c h
  exact HandshakeState.run_establish _ (hhello p) (hready p)

end

/-! ## What the headers and the key are made of -/

section

variable {c : Crypto} {own : FreshSession}

/-- The key and the headers of a session that has computed its ready. -/
structure Handshaking.Made (c : Crypto) (t : Handshaking) (facts : SessionFacts) : Prop where
  key : ∃ secret, t.secret = some secret ∧ facts.inputKey =
    facts.fresh.deriveInputCommitmentKey c facts.peerHello facts.peerContribution secret facts.sessionId
  headers : ∀ header ∈ t.headers,
    header.peerIdentityPubkey = facts.peerHello.persistentAuditKey ∧
      header.peerSessionPubkey = facts.peerHello.sessionKey

def Handshaking.Inv (c : Crypto) (t : Handshaking) : Prop :=
  match t.state with
  | .fresh _ => t.headers = []
  | .handshake _ _ _ => t.headers = []
  | .ready facts => t.Made c facts
  | .active facts _ => t.Made c facts

theorem Handshaking.Inv.call {t : Handshaking} (h : t.Inv c) (a : HandshakeCall) :
    (t.call c a).Inv c := by
  obtain ⟨state, secret, headers⟩ := t
  cases state with
  | fresh own =>
    cases a with
    | receivePeerHello hello contribution =>
      cases hhello : own.receivePeerHello c hello contribution with
      | error e =>
        simp only [Handshaking.call, HandshakeState.call, hhello, bind, Except.bind]
        exact h
      | ok _ =>
        simp only [Handshaking.call, HandshakeState.call, hhello, bind, Except.bind, pure,
          Except.pure]
        have hnone : headers = [] := h
        rw [hnone]
        rfl
    | _ => exact h
  | handshake own peer contribution =>
    cases a with
    | computeReady secret =>
      have hnone : headers = [] := h
      subst hnone
      exact ⟨⟨secret, rfl, rfl⟩, nofun⟩
    | _ => exact h
  | ready facts =>
    have hmade : Handshaking.Made c ⟨.ready facts, secret, headers⟩ facts := h
    cases a with
    | buildHeader own digest =>
      refine ⟨hmade.key, ?_⟩
      intro header hmem
      rcases List.mem_append.1 hmem with hold | hnew
      · exact hmade.headers header hold
      · cases List.mem_singleton.1 hnew
        exact ⟨rfl, rfl⟩
    | receivePeerReady peerReady =>
      cases hready : facts.receivePeerReady c peerReady with
      | error e =>
        simp only [Handshaking.call, HandshakeState.call, hready, bind, Except.bind]
        exact h
      | ok _ =>
        simp only [Handshaking.call, HandshakeState.call, hready, bind, Except.bind, pure,
          Except.pure]
        refine ⟨hmade.key, ?_⟩
        intro header hmem
        rcases List.mem_append.1 hmem with hold | hnew
        · exact hmade.headers header hold
        · cases hnew
    | _ => exact h
  | active facts peerReady =>
    cases a <;> exact h

theorem Handshaking.Inv.run {t : Handshaking} (h : t.Inv c) (calls : List HandshakeCall) :
    (t.run c calls).Inv c := by
  induction calls generalizing t with
  | nil => exact h
  | cons a calls ih => exact ih (h.call a)

theorem Handshaking.made_of_active {calls : List HandshakeCall} {facts : SessionFacts}
    {peerReady : AuditReady}
    (h : (Handshaking.run c { state := .fresh own } calls).state = .active facts peerReady) :
    (Handshaking.run c { state := .fresh own } calls).Made c facts := by
  have hinv : (Handshaking.run c { state := .fresh own } calls).Inv c :=
    Handshaking.Inv.run (t := { state := .fresh own }) rfl calls
  rw [Handshaking.Inv, h] at hinv
  exact hinv

end

/-! ## Two sessions -/

section

variable {c : Crypto} {f f' : SessionFacts} {r r' : AuditReady}

/-- What two sessions hash of the hellos and the contributions they made and accepted. -/
def handshakeInputs (c : Crypto) (f f' : SessionFacts) : List Bytes :=
  [AuditHello.codec.enc (f.fresh.hello c), AuditHello.codec.enc (f'.fresh.hello c),
    AuditHello.codec.enc f.peerHello, AuditHello.codec.enc f'.peerHello,
    f.fresh.contribution.1, f'.fresh.contribution.1, f.peerContribution.1, f'.peerContribution.1]

/-- Both sessions are active, each by a ready of the other. An unforgeable signature makes the signed
part of an accepted ready one that the other session has signed; the signature itself may differ. -/
structure MetEachOther (c : Crypto) (t t' : Handshaking) (f f' : SessionFacts) (r r' : AuditReady) :
    Prop where
  active : t.state = .active f r
  active' : t'.state = .active f' r'
  ready : r.signingInput = f'.ready.signingInput
  ready' : r'.signingInput = f.ready.signingInput
  collisionFree : CollisionFree c (handshakeInputs c f f')

/-- The two sessions have the same view of the exchange. -/
structure Agreement (c : Crypto) (f f' : SessionFacts) : Prop where
  role_eq : f'.fresh.role = f.fresh.role.peer
  binding_eq : f'.fresh.binding = f.fresh.binding
  sessionId_eq : f'.sessionId = f.sessionId
  peerHello_eq : f.peerHello = f'.fresh.hello c
  peerHello_eq' : f'.peerHello = f.fresh.hello c
  peerContribution_eq : f.peerContribution = f'.fresh.contribution
  peerContribution_eq' : f'.peerContribution = f.fresh.contribution

/-- The header names the keys of the other session, and its hello by the digest in the own ready. -/
structure Names (c : Crypto) (header : AuditContainerHeader) (f f' : SessionFacts) : Prop where
  identity : header.peerIdentityPubkey = f'.fresh.identityPubkey c
  session : header.peerSessionPubkey = f'.fresh.sessionPubkey c
  hello : header.auditReady = f.ready →
    header.auditReady.peerAuditHelloDigest = c.sha256 (AuditHello.codec.enc (f'.fresh.hello c))

theorem SessionFacts.receivePeerReady_ok (h : f.receivePeerReady c r = .ok ()) :
    r.sessionId = f.sessionId ∧
      r.peerAuditHelloDigest = c.sha256 (AuditHello.codec.enc (f.fresh.hello c)) ∧
      r.formatVersion = auditFormatVersion ∧
      c.verify f.peerHello.sessionKey r.signingInput r.signature = true := by
  unfold SessionFacts.receivePeerReady at h
  split_ifs at h with hid hdigest hformat hsigned
  exact ⟨not_not.1 hid, not_not.1 hdigest, not_not.1 hformat, by simpa using hsigned⟩

theorem AuditReady.unsigned_eq_of_signingInput (hr : r.formatVersion ≠ 0)
    (hr' : r'.formatVersion ≠ 0) (h : r.signingInput = r'.signingInput) : r.unsigned = r'.unsigned := by
  refine AuditReady.unsignedCodec.enc_inj ?_ ?_ (List.append_cancel_left h)
  · simpa [AuditReady.unsignedCodec, AuditReady.unsigned, digestCodec] using hr
  · simpa [AuditReady.unsignedCodec, AuditReady.unsigned, digestCodec] using hr'

theorem AuditHello.eq_of_enc {m m' : AuditHello} (hm : m.formatVersion = auditFormatVersion)
    (hm' : m'.formatVersion = auditFormatVersion)
    (h : AuditHello.codec.enc m = AuditHello.codec.enc m') : m = m' := by
  refine AuditHello.codec.enc_inj ?_ ?_ h
  · rw [helloCodec_ok, hm]
    decide
  · rw [helloCodec_ok, hm']
    decide

/-- The ready that a session accepts, if it is the other's, says which hello the other has accepted. -/
theorem heard_of_ready (hready : f.receivePeerReady c r = .ok ()) (hest : f'.Established c)
    (hsigned : r.signingInput = f'.ready.signingInput)
    (hfree : CollisionFree c (handshakeInputs c f f')) :
    f'.sessionId = f.sessionId ∧ f'.peerHello = f.fresh.hello c := by
  obtain ⟨hid, hdigest, hformat, -⟩ := SessionFacts.receivePeerReady_ok hready
  have hformat' : f'.ready.formatVersion = auditFormatVersion := by
    rw [hest.ready_eq]
    rfl
  have hunsigned : r.unsigned = f'.ready.unsigned := by
    refine AuditReady.unsigned_eq_of_signingInput ?_ ?_ hsigned
    · rw [hformat]
      decide
    · rw [hformat']
      decide
  have hid' : r.sessionId = f'.ready.sessionId := congrArg Prod.fst hunsigned
  have hdigest' : r.peerAuditHelloDigest = f'.ready.peerAuditHelloDigest :=
    congrArg (fun u => u.2.1) hunsigned
  have hreadyId : f'.ready.sessionId = f'.sessionId := by
    rw [hest.ready_eq]
    rfl
  have hreadyDigest : f'.ready.peerAuditHelloDigest = c.sha256 (AuditHello.codec.enc f'.peerHello) := by
    rw [hest.ready_eq]
    rfl
  refine ⟨hreadyId.symm.trans (hid'.symm.trans hid), ?_⟩
  have hhello := (f'.fresh.receivePeerHello_ok c hest.hello_ok).2.2.1
  refine AuditHello.eq_of_enc hhello rfl (hfree _ ?_ _ ?_ ?_)
  · simp [handshakeInputs]
  · simp [handshakeInputs]
  · exact hreadyDigest.symm.trans (hdigest'.symm.trans hdigest)

/-- A contribution that opens the commitment of the other's hello is the other's contribution. -/
theorem contribution_of_hello (hest : f.Established c) (hhello : f.peerHello = f'.fresh.hello c)
    (hmem : f.peerContribution.1 ∈ handshakeInputs c f f')
    (hmem' : f'.fresh.contribution.1 ∈ handshakeInputs c f f')
    (hfree : CollisionFree c (handshakeInputs c f f')) :
    f.peerContribution = f'.fresh.contribution := by
  have hcommitment := (f.fresh.receivePeerHello_ok c hest.hello_ok).2.2.2.2
  rw [hhello] at hcommitment
  exact Subtype.ext (hfree _ hmem _ hmem' hcommitment)

theorem MetEachOther.agreement {t t' : Handshaking} (h : MetEachOther c t t' f f' r r')
    (hest : f.Established c) (hest' : f'.Established c) (hready : f.receivePeerReady c r = .ok ())
    (hready' : f'.receivePeerReady c r' = .ok ()) : Agreement c f f' := by
  have hfree' : CollisionFree c (handshakeInputs c f' f) := by
    have hsub : ∀ x ∈ handshakeInputs c f' f, x ∈ handshakeInputs c f f' := by
      simp only [handshakeInputs, List.mem_cons, List.not_mem_nil]
      tauto
    exact fun x hx y hy => h.collisionFree x (hsub x hx) y (hsub y hy)
  obtain ⟨hid, hheard⟩ := heard_of_ready hready hest' h.ready h.collisionFree
  obtain ⟨-, hheard'⟩ := heard_of_ready hready' hest h.ready' hfree'
  obtain ⟨hrole, hbinding, -⟩ := f.fresh.receivePeerHello_ok c hest.hello_ok
  rw [hheard'] at hrole hbinding
  exact
    { role_eq := hrole
      binding_eq := hbinding
      sessionId_eq := hid
      peerHello_eq := hheard'
      peerHello_eq' := hheard
      peerContribution_eq := contribution_of_hello hest hheard' (by simp [handshakeInputs])
        (by simp [handshakeInputs]) h.collisionFree
      peerContribution_eq' := contribution_of_hello hest' hheard (by simp [handshakeInputs])
        (by simp [handshakeInputs]) hfree' }

/-- Two sessions that agree derive one key from one secret. -/
theorem Agreement.derive_eq (h : Agreement c f f') (secret : ConnectionSecret) :
    f'.fresh.deriveInputCommitmentKey c f'.peerHello f'.peerContribution secret f'.sessionId =
      f.fresh.deriveInputCommitmentKey c f.peerHello f.peerContribution secret f.sessionId := by
  rw [h.peerHello_eq, h.peerHello_eq', h.peerContribution_eq, h.peerContribution_eq', h.sessionId_eq]
  have hrole := h.role_eq
  have hbinding := h.binding_eq
  cases hown : f.fresh.role <;> rw [hown] at hrole <;> cases secret <;>
    simp [FreshSession.deriveInputCommitmentKey, FreshSession.byRole, hown, hrole, hbinding,
      AuditRole.peer, FreshSession.hello, FreshSession.unsignedHello]

theorem Agreement.symm (h : Agreement c f f') : Agreement c f' f where
  role_eq := by
    rw [h.role_eq]
    cases f.fresh.role <;> rfl
  binding_eq := h.binding_eq.symm
  sessionId_eq := h.sessionId_eq.symm
  peerHello_eq := h.peerHello_eq'
  peerHello_eq' := h.peerHello_eq
  peerContribution_eq := h.peerContribution_eq'
  peerContribution_eq' := h.peerContribution_eq

theorem Agreement.names {t : Handshaking} (h : Agreement c f f') (hest : f.Established c)
    (hmade : t.Made c f) : ∀ header ∈ t.headers, Names c header f f' := by
  intro header hmem
  obtain ⟨hidentity, hsession⟩ := hmade.headers header hmem
  rw [h.peerHello_eq] at hidentity hsession
  refine ⟨hidentity, hsession, ?_⟩
  intro hready
  rw [hready, hest.ready_eq, h.peerHello_eq]
  rfl

end

/-! ## An honest pair -/

/-- The two fresh sessions of one connection, and what they are given. -/
structure HonestPair where
  fresh : AuditRole → FreshSession
  role_eq : ∀ p, (fresh p).role = p
  binding_eq : ∀ p, (fresh p.peer).binding = (fresh p).binding
  secret : ConnectionSecret
  digest : AuditRole → Digest32

namespace HonestPair

variable (c : Crypto) (pair : HonestPair) (p : AuditRole)

def facts : SessionFacts :=
  (pair.fresh p).computeReady c ((pair.fresh p.peer).hello c) (pair.fresh p.peer).contribution
    pair.secret (pair.digest p)

theorem agreement : Agreement c (pair.facts c p) (pair.facts c p.peer) := by
  have hbinding : (pair.fresh .host).binding = (pair.fresh .controller).binding :=
    pair.binding_eq .controller
  constructor
  case role_eq => exact (pair.role_eq p.peer).trans (congrArg _ (pair.role_eq p).symm)
  case binding_eq => exact pair.binding_eq p
  case sessionId_eq =>
    cases p <;>
      simp only [facts, FreshSession.computeReady, FreshSession.computeSessionId, FreshSession.byRole,
        pair.role_eq, hbinding, AuditRole.peer] <;> rfl
  all_goals cases p <;> rfl

/-- Whatever the keys and the secret, two sessions of one connection that take each other's messages
get active, with one session id and one input key. -/
theorem establishes :
    (HandshakeState.fresh (pair.fresh p)).run c (establishCalls ((pair.fresh p.peer).hello c)
        (pair.fresh p.peer).contribution pair.secret (pair.facts c p).ready (pair.digest p)
        (pair.facts c p.peer).ready) = .active (pair.facts c p) (pair.facts c p.peer).ready ∧
    (pair.facts c p.peer).sessionId = (pair.facts c p).sessionId ∧
    (pair.facts c p.peer).inputKey = (pair.facts c p).inputKey := by
  have hagree := pair.agreement c p
  refine ⟨HandshakeState.run_establish _ ?_ ?_, hagree.sessionId_eq, hagree.derive_eq pair.secret⟩
  · have hrole : (pair.fresh p.peer).role ≠ (pair.fresh p).role := by
      rw [pair.role_eq, pair.role_eq]
      cases p <;> decide
    refine (if_neg hrole).trans ((if_neg (not_not.2 (pair.binding_eq p))).trans ?_)
    exact (if_neg (not_not.2 rfl)).trans ((if_neg (ne_false_of_eq_true (c.verify_sign _ _))).trans
      (if_neg (not_not.2 rfl)))
  · have hheard := congrArg (fun m => c.sha256 (AuditHello.codec.enc m)) hagree.peerHello_eq'
    refine (if_neg (not_not.2 hagree.sessionId_eq)).trans ((if_neg (not_not.2 hheard)).trans ?_)
    exact (if_neg (not_not.2 rfl)).trans (if_neg (ne_false_of_eq_true (c.verify_sign _ _)))

end HonestPair

/-! ## Two connection secrets -/

/-- The controller of the fixed pair with a secret that its host does not use. -/
def secretFacts : SessionFacts :=
  (plainSession .controller).computeReady .transparent ((plainSession .host).hello .transparent)
    (plainSession .host).contribution (.authenticated [1]) (FixedBytes.replicate 32 10)

def plainCalls (p : AuditRole) (secret : ConnectionSecret) : List HandshakeCall :=
  establishCalls ((plainSession p.peer).hello .transparent) (plainSession p.peer).contribution secret
    (plainFacts p).ready (FixedBytes.replicate 32 10) (plainFacts p.peer).ready

/-- The run of the fixed pair's `establish`. -/
def plainHandshake (p : AuditRole) (secret : ConnectionSecret) : Handshaking :=
  Handshaking.run .transparent { state := .fresh (plainSession p) } (plainCalls p secret)

theorem state_plainHandshake (p : AuditRole) :
    (plainHandshake p .notExportable).state = .active (plainFacts p) (plainFacts p.peer).ready :=
  (Handshaking.state_run _ _ _).trans (handshake_active handshake_plain p)

/-- The readies are the same for every secret, so the controller gets active with the host's. -/
theorem state_secretHandshake :
    (plainHandshake .controller (.authenticated [1])).state =
      .active secretFacts (plainFacts .host).ready :=
  (Handshaking.state_run _ _ _).trans
    (HandshakeState.run_establish _ ((handshake_ok _ handshake_plain).1 .controller)
      (by decide +kernel))

end Yonder.Audit
