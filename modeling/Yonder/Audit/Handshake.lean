import Yonder.Audit.Chain
import Yonder.Lib.Fallible

/-!
# The audit handshake

A session exchanges a signed `AuditHello` and a secret contribution, derives the session id and the
input commitment key, builds its container header, and becomes active once the peer's `AuditReady`
verifies. The phases before `Active` are separate types here: a value of the next type can only be
made by the call that the source allows in that phase.
-/

namespace Yonder.Audit

open Lib Wire

/-- A structured audit failure. The I/O failures of the storage layer are one case. -/
inductive AuditError where
  | handshakeInvalid
  | sessionBindingMismatch
  | checkpointMismatch
  | peerSignatureInvalid
  | finalManifestMismatch
  | ledgerInvalid
  | ledgerConflict
  | ledgerCommitFailed
  | recordWriteFailed
  | containerInvalid
  | protocol
  | segmentTooLarge
  | invalidState (message : String)
  | failedClosed
deriving DecidableEq, Repr

/-- The source of the input key material of the input commitment key. -/
inductive ConnectionSecret where
  | authenticated (secret : Bytes)
  | notExportable

/-- A session that has built its hello and waits for the peer's. -/
structure FreshSession where
  role : AuditRole
  identityKey : FixedBytes 32
  ledgerSequence : UInt64
  ledgerRoot : Digest32
  sessionKey : FixedBytes 32
  nonce : Digest32
  contribution : Digest32
  binding : Digest32
  utcStartSeconds : UInt64

/-- What the handshake fixes for the rest of the session. -/
structure SessionFacts where
  fresh : FreshSession
  peerHello : AuditHello
  peerContribution : Digest32
  sessionId : Digest32
  inputKey : Digest32
  ready : AuditReady
  terminalHelloDigest : Digest32

section

variable (c : Crypto)

namespace FreshSession

/-- The session-start ledger snapshot digest carried by every checkpoint. -/
def ledgerSnapshotDigest (s : FreshSession) : Digest32 :=
  c.sha256 (Codec.u64.enc s.ledgerSequence ++ s.ledgerRoot.1)

def commitment (s : FreshSession) : Digest32 := c.sha256 s.contribution.1

def sessionPubkey (s : FreshSession) : Ed25519PublicKey := c.publicKey s.sessionKey

def identityPubkey (s : FreshSession) : Ed25519PublicKey := c.publicKey s.identityKey

/-- The fingerprint of the persistent identity. -/
def fingerprint (s : FreshSession) : Digest32 := c.sha256 (s.identityPubkey c).1

def unsignedHello (s : FreshSession) : AuditHello where
  role := s.role
  persistentAuditKey := s.identityPubkey c
  sessionKey := s.sessionPubkey c
  nonce := s.nonce
  ledgerSequence := s.ledgerSequence
  ledgerRoot := s.ledgerRoot
  connectionBinding := s.binding
  formatVersion := auditFormatVersion
  inputCommitment := s.commitment c
  signature := FixedBytes.replicate 64 0

/-- `local_hello`: the hello signed by the persistent identity. -/
def hello (s : FreshSession) : AuditHello :=
  { s.unsignedHello c with signature := c.sign s.identityKey (s.unsignedHello c).signingInput }

/-- `receive_peer_hello`: the checks on the peer's hello and contribution, in the source's order. -/
def receivePeerHello (s : FreshSession) (hello : AuditHello) (contribution : Digest32) :
    Except AuditError Unit :=
  if hello.role = s.role then .error .handshakeInvalid
  else if hello.connectionBinding ≠ s.binding then .error .sessionBindingMismatch
  else if hello.formatVersion ≠ auditFormatVersion then .error .handshakeInvalid
  else if c.verify hello.persistentAuditKey hello.signingInput hello.signature = false then
    .error .peerSignatureInvalid
  else if c.sha256 contribution.1 ≠ hello.inputCommitment then .error .handshakeInvalid
  else .ok ()

/-- The controller's and the host's value of a fact held by both sides. -/
def byRole {α : Type} (s : FreshSession) (own peer : α) : α × α :=
  match s.role with
  | .controller => (own, peer)
  | .host => (peer, own)

/-- `compute_session_id`. -/
def computeSessionId (s : FreshSession) (peer : AuditHello) : Digest32 :=
  let nonces := s.byRole s.nonce peer.nonce
  let identities := s.byRole (s.identityPubkey c) peer.persistentAuditKey
  let keys := s.byRole (s.sessionPubkey c) peer.sessionKey
  let commitments := s.byRole (s.commitment c) peer.inputCommitment
  c.sha256 (utf8 "yonder-audit-session-v3" ++ (s.binding.1 ++ (nonces.1.1 ++ (nonces.2.1 ++
    (identities.1.1 ++ (identities.2.1 ++ (keys.1.1 ++ (keys.2.1 ++
      (commitments.1.1 ++ commitments.2.1)))))))))

/-- `derive_input_commitment_key`. -/
def deriveInputCommitmentKey (s : FreshSession) (peer : AuditHello) (peerContribution : Digest32)
    (secret : ConnectionSecret) (sessionId : Digest32) : Digest32 :=
  let contributions := s.byRole s.contribution peerContribution
  let nonces := s.byRole s.nonce peer.nonce
  let salt := contributions.1.1 ++ contributions.2.1
  let label := utf8 "yonder-audit-input-commitment-v3"
  match secret with
  | .authenticated connectionSecret =>
    c.hkdf (some salt) connectionSecret (label ++ sessionId.1)
  | .notExportable =>
    c.hkdf none salt (label ++ (s.binding.1 ++ (nonces.1.1 ++ (nonces.2.1 ++ sessionId.1))))

/-- The local `AuditReady` over a session id and the peer's hello. -/
def readyFor (s : FreshSession) (peer : AuditHello) (sessionId : Digest32) : AuditReady :=
  let ready : AuditReady :=
    { sessionId := sessionId
      peerAuditHelloDigest := c.sha256 (AuditHello.codec.enc peer)
      formatVersion := auditFormatVersion
      signature := FixedBytes.replicate 64 0 }
  { ready with signature := c.sign s.sessionKey ready.signingInput }

/-- `compute_ready` and the terminal hello digest that `build_header` stores. -/
def computeReady (s : FreshSession) (peer : AuditHello) (peerContribution : Digest32)
    (secret : ConnectionSecret) (terminalHelloDigest : Digest32) : SessionFacts :=
  let sessionId := s.computeSessionId c peer
  { fresh := s
    peerHello := peer
    peerContribution := peerContribution
    sessionId := sessionId
    inputKey := s.deriveInputCommitmentKey c peer peerContribution secret sessionId
    ready := s.readyFor c peer sessionId
    terminalHelloDigest := terminalHelloDigest }

end FreshSession

namespace SessionFacts

/-- The container header before it is signed. -/
def unsignedHeader (f : SessionFacts) : AuditContainerHeader where
  role := f.fresh.role
  sessionId := f.sessionId
  identityPubkey := f.fresh.identityPubkey c
  sessionPubkey := f.fresh.sessionPubkey c
  peerIdentityPubkey := f.peerHello.persistentAuditKey
  peerSessionPubkey := f.peerHello.sessionKey
  ledgerSequence := f.fresh.ledgerSequence
  previousLedgerRoot := f.fresh.ledgerRoot
  utcStartSeconds := f.fresh.utcStartSeconds
  authMode := .enterprise
  terminalHelloDigest := f.terminalHelloDigest
  auditHello := f.fresh.hello c
  auditReady := f.ready
  headerSignature := FixedBytes.replicate 64 0

/-- `build_header`. -/
def buildHeader (f : SessionFacts) : AuditContainerHeader :=
  { f.unsignedHeader c with
    headerSignature := c.sign f.fresh.identityKey (f.unsignedHeader c).signingInput }

/-- `receive_peer_ready`. -/
def receivePeerReady (f : SessionFacts) (ready : AuditReady) : Except AuditError Unit :=
  if ready.sessionId ≠ f.sessionId then .error .handshakeInvalid
  else if ready.peerAuditHelloDigest ≠ c.sha256 (AuditHello.codec.enc (f.fresh.hello c)) then
    .error .handshakeInvalid
  else if ready.formatVersion ≠ auditFormatVersion then .error .handshakeInvalid
  else if c.verify f.peerHello.sessionKey ready.signingInput ready.signature = false then
    .error .peerSignatureInvalid
  else .ok ()

/-- The fingerprint of the peer's persistent identity. -/
def peerFingerprint (f : SessionFacts) : Digest32 := c.sha256 f.peerHello.persistentAuditKey.1

/-- The facts come out of an accepted exchange: the peer's hello passed its checks and everything
derived from it is what `compute_ready` derives. -/
structure Established (f : SessionFacts) : Prop where
  hello_ok : f.fresh.receivePeerHello c f.peerHello f.peerContribution = .ok ()
  sessionId_eq : f.sessionId = f.fresh.computeSessionId c f.peerHello
  ready_eq : f.ready = f.fresh.readyFor c f.peerHello f.sessionId

end SessionFacts

theorem FreshSession.computeReady_established {s : FreshSession} {peer : AuditHello}
    {peerContribution : Digest32} (secret : ConnectionSecret) (terminalHelloDigest : Digest32)
    (h : s.receivePeerHello c peer peerContribution = .ok ()) :
    (s.computeReady c peer peerContribution secret terminalHelloDigest).Established c :=
  ⟨h, rfl, rfl⟩

/-- An accepted peer hello passed every check. -/
theorem FreshSession.receivePeerHello_ok {s : FreshSession} {peer : AuditHello}
    {contribution : Digest32} (h : s.receivePeerHello c peer contribution = .ok ()) :
    peer.role = s.role.peer ∧ peer.connectionBinding = s.binding ∧
      peer.formatVersion = auditFormatVersion ∧
      c.verify peer.persistentAuditKey peer.signingInput peer.signature = true ∧
      c.sha256 contribution.1 = peer.inputCommitment := by
  unfold FreshSession.receivePeerHello at h
  split at h
  · cases h
  split at h
  · cases h
  split at h
  · cases h
  split at h
  · cases h
  split at h
  · cases h
  rename_i hrole hbind hfmt hsig hcom
  refine ⟨?_, not_not.1 hbind, not_not.1 hfmt, ?_, not_not.1 hcom⟩
  · cases hp : peer.role <;> cases hs : s.role <;> simp_all [AuditRole.peer]
  · simpa using hsig

/-! ## Two endpoints -/

/-- `establish` of both endpoints with each other, over the same terminal hello. -/
def handshake (fresh : AuditRole → FreshSession) (secret : ConnectionSecret)
    (terminalHelloDigest : Digest32) : Except AuditError (AuditRole → SessionFacts) := do
  (fresh .controller).receivePeerHello c ((fresh .host).hello c) (fresh .host).contribution
  (fresh .host).receivePeerHello c ((fresh .controller).hello c) (fresh .controller).contribution
  let facts : AuditRole → SessionFacts := fun p =>
    (fresh p).computeReady c ((fresh p.peer).hello c) (fresh p.peer).contribution secret
      terminalHelloDigest
  (facts .controller).receivePeerReady c (facts .host).ready
  (facts .host).receivePeerReady c (facts .controller).ready
  return facts

variable {fresh : AuditRole → FreshSession}

/-- Every check of a completed handshake has passed. -/
theorem handshake_ok {secret : ConnectionSecret} {terminalHelloDigest : Digest32}
    {facts : AuditRole → SessionFacts}
    (h : handshake c fresh secret terminalHelloDigest = .ok facts) :
    (∀ p, (fresh p).receivePeerHello c ((fresh p.peer).hello c) (fresh p.peer).contribution =
      .ok ()) ∧
      (facts = fun p => (fresh p).computeReady c ((fresh p.peer).hello c) (fresh p.peer).contribution
        secret terminalHelloDigest) ∧
      ∀ p, (facts p).receivePeerReady c (facts p.peer).ready = .ok () := by
  unfold handshake at h
  obtain ⟨_, hfirst, h⟩ := bind_eq_ok_iff.1 h
  obtain ⟨_, hsecond, h⟩ := bind_eq_ok_iff.1 h
  obtain ⟨_, hthird, h⟩ := bind_eq_ok_iff.1 h
  obtain ⟨_, hfourth, h⟩ := bind_eq_ok_iff.1 h
  cases h
  refine ⟨?_, rfl, ?_⟩
  · intro p
    cases p
    exacts [hfirst, hsecond]
  · intro p
    cases p
    exacts [hthird, hfourth]

end

/-- Two sessions with fixed keys over one connection, for runs on fixed inputs. -/
def plainSession (p : AuditRole) : FreshSession :=
  let seed : UInt8 := match p with
    | .controller => 1
    | .host => 2
  { role := p
    identityKey := ⟨List.replicate 32 seed, by simp⟩
    ledgerSequence := 0
    ledgerRoot := FixedBytes.replicate 32 0
    sessionKey := ⟨List.replicate 32 (seed + 2), by simp⟩
    nonce := ⟨List.replicate 32 (seed + 4), by simp⟩
    contribution := ⟨List.replicate 32 (seed + 6), by simp⟩
    binding := FixedBytes.replicate 32 9
    utcStartSeconds := 0 }

def plainFacts (p : AuditRole) : SessionFacts :=
  (plainSession p).computeReady .transparent ((plainSession p.peer).hello .transparent)
    (plainSession p.peer).contribution .notExportable (FixedBytes.replicate 32 10)

theorem handshake_plain : handshake .transparent plainSession .notExportable
    (FixedBytes.replicate 32 10) = .ok plainFacts := by
  have hhello : ∀ p, (plainSession p).receivePeerHello .transparent
      ((plainSession p.peer).hello .transparent) (plainSession p.peer).contribution = .ok () := by
    intro p
    cases p <;> decide +kernel
  have hready : ∀ p, (plainFacts p).receivePeerReady .transparent (plainFacts p.peer).ready =
      .ok () := by
    intro p
    cases p <;> decide +kernel
  have hfirst := hhello .controller
  have hsecond := hhello .host
  have hthird := hready .controller
  have hfourth := hready .host
  simp only [AuditRole.peer, plainFacts] at hfirst hsecond hthird hfourth
  simp only [handshake, AuditRole.peer, hfirst, hsecond, hthird, hfourth, bind, Except.bind, pure,
    Except.pure]
  rfl

end Yonder.Audit
