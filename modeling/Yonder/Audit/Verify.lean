import Yonder.Audit.Session
import Yonder.Audit.Walker

/-!
# The offline verifier

`ChainVerifier` is the state in which the verifier replays the records of one file: the shared chains
and the local chain, what the local records are related to, and the checkpoint and manifest evidence.
`walkFooter` ends the walk over a container: it reads the footer, or finds a truncated tail. A file is
its contents.
-/

namespace Yonder.Audit

open Lib Wire

/-- The pending relation of a local observation to the shared blocks that follow it. -/
structure BatchState where
  related : Digest32
  sawBlock : Bool
deriving DecidableEq

/-- A checkpoint seen in the evidence. -/
structure CheckpointRef where
  sequence : UInt64
  digest : Digest32
  snapshot : SharedSnapshot
deriving DecidableEq

structure ChainVerifier where
  header : AuditContainerHeader
  hello : AuditHello
  shared : SharedStream → SharedChain
  localHead : Digest32
  localCount : UInt64
  lastBlock : SharedStream → Digest32
  latestFileEvent : Option LatestFileEvent
  inputBatch : Option BatchState
  outputBatch : Option BatchState
  lastSentCheckpointSeq : UInt64
  lastReceivedCheckpointSeq : UInt64
  lastReceivedCheckpoint : Option CheckpointRef
  lastSentCheckpoint : Option CheckpointRef
  lastReceivedAckSeq : UInt64
  lastSentAckSeq : UInt64
  lastConfirmedSent : Option CheckpointRef
  prevConfirmedSent : Option CheckpointRef
  lastConfirmedReceived : Option CheckpointRef
  prevConfirmedReceived : Option CheckpointRef
  manifestEvidence : Option Bytes
  receivedManifestEvidence : Option Bytes
  sentManifestSignature : Option Ed25519Signature
  receivedManifestSignature : Option Ed25519Signature

/-- `control_kind_payload_len`: the fixed payload length of a control event kind. -/
def controlKindPayloadLen (kind : UInt8) (len : Nat) : Bool :=
  if kind = controlKindResize then decide (len = 4)
  else if kind = controlKindTerminalHello then decide (len = 32)
  else if kind = controlKindTerminalReady ∨ kind = controlKindTerminalComplete then decide (len = 0)
  else if kind = controlKindTerminalExit then decide (len = 4)
  else if kind = controlKindCloseReason then decide (len = 1)
  else false

namespace ChainVerifier

def new (header : AuditContainerHeader) (hello : AuditHello) : ChainVerifier where
  header := header
  hello := hello
  shared _ := ⟨0, zeroHead⟩
  localHead := zeroHead
  localCount := 0
  lastBlock _ := zeroHead
  latestFileEvent := none
  inputBatch := none
  outputBatch := none
  lastSentCheckpointSeq := 0
  lastReceivedCheckpointSeq := 0
  lastReceivedCheckpoint := none
  lastSentCheckpoint := none
  lastReceivedAckSeq := 0
  lastSentAckSeq := 0
  lastConfirmedSent := none
  prevConfirmedSent := none
  lastConfirmedReceived := none
  prevConfirmedReceived := none
  manifestEvidence := none
  receivedManifestEvidence := none
  sentManifestSignature := none
  receivedManifestSignature := none

def sharedSnapshot (v : ChainVerifier) : SharedSnapshot :=
  .ofFun fun stream => ⟨(v.shared stream).count, (v.shared stream).head⟩

/-- The shared file event kinds. -/
def fileKindValid (kind : UInt8) : Bool :=
  decide (kind = fileKindStart ∨ kind = fileKindSuccess ∨ kind = fileKindCancelled ∨
    kind = fileKindFailed)

end ChainVerifier

/-! ## One file -/

/-- The decoded footer with the absolute digest boundaries. -/
structure FooterFacts where
  manifestBytes : Bytes
  controllerSignature : Ed25519Signature
  hostSignature : Ed25519Signature
  recordSeal : LocalRecordSeal
  commit : LedgerCommit
  sealedPrefixEnd : Nat
  sealEnd : Nat
  ledgerEnd : Nat
  finalDigest : Digest32
deriving DecidableEq

/-- The verified facts of one file: the file itself, the verifier's end state and the footer. -/
structure VerifiedFile where
  file : Bytes
  chain : ChainVerifier
  footer : Option FooterFacts
  truncatedTail : Bool

section

variable (c : Crypto)

/-- The greatest confirmed sequence of either direction, or zero. -/
def confirmedSequence (v : ChainVerifier) : UInt64 :=
  max ((v.lastConfirmedSent.map CheckpointRef.sequence).getD 0)
    ((v.lastConfirmedReceived.map CheckpointRef.sequence).getD 0)

/-- The manifest's keys and fingerprints against the container's, by role. -/
def manifestMatchesContainer (header : AuditContainerHeader) (m : JointManifest) :
    Except StreamError Unit :=
  let (controllerKey, hostKey) := match header.role with
    | .controller => (header.sessionPubkey, header.peerSessionPubkey)
    | .host => (header.peerSessionPubkey, header.sessionPubkey)
  let (controllerId, hostId) := match header.role with
    | .controller => (header.identityPubkey, header.peerIdentityPubkey)
    | .host => (header.peerIdentityPubkey, header.identityPubkey)
  if m.controllerSessionKey ≠ controllerKey ∨ m.hostSessionKey ≠ hostKey then
    .error (.tampered "the joint manifest does not match the container keys")
  else if m.controllerFingerprint ≠ c.sha256 controllerId.1 ∨
      m.hostFingerprint ≠ c.sha256 hostId.1 then
    .error (.tampered "the joint manifest does not match the container identities")
  else .ok ()

/-- The manifest against the walked chains and both manifest signatures. -/
def verifyFooterManifest (v : ChainVerifier) (footer : FooterFacts) (m : JointManifest) :
    Except StreamError Unit := do
  if m.formatVersion ≠ auditFormatVersion ∨ m.sessionId ≠ v.header.sessionId then
    throw (.tampered "the joint manifest is invalid")
  manifestMatchesContainer c v.header m
  if m.connectionBinding ≠ v.hello.connectionBinding then
    throw (.tampered "the joint manifest does not match the container binding")
  if m.terminalHelloDigest ≠ v.header.terminalHelloDigest then
    throw (.tampered "the joint manifest does not match the container header")
  if m.finalSnapshot ≠ v.sharedSnapshot then
    throw (.tampered "the joint manifest does not match the recorded chains")
  if m.finalCheckpointSequence ≠ confirmedSequence v then
    throw (.tampered "the joint manifest does not match the recorded checkpoints")
  match m.signingInput with
  | none => throw (.tampered "the joint manifest is invalid")
  | some input =>
    if c.verify m.controllerSessionKey input footer.controllerSignature = false then
      throw (.tampered "the controller session signature is invalid")
    if c.verify m.hostSessionKey input footer.hostSignature = false then
      throw (.tampered "the host session signature is invalid")

/-- The seal and the ledger commit of a footer. -/
def verifyFooterSeal (v : ChainVerifier) (footer : FooterFacts) (m : JointManifest) :
    Except StreamError Unit := do
  let recordSeal := footer.recordSeal
  let commit := footer.commit
  let manifestDigest := c.sha256 footer.manifestBytes
  if recordSeal.sessionId ≠ m.sessionId ∨ recordSeal.role ≠ v.header.role then
    throw (.tampered "the local record seal is invalid")
  if recordSeal.finalLocalEventRoot ≠ v.localHead ∨ recordSeal.localEventCount ≠ v.localCount then
    throw (.tampered "the local record seal does not match the local chain")
  if recordSeal.finalSharedRoots ≠ v.sharedSnapshot.roots then
    throw (.tampered "the local record seal does not match the shared chains")
  if recordSeal.jointManifestDigest ≠ manifestDigest then
    throw (.tampered "the local record seal does not match the joint manifest")
  if c.verify v.header.sessionPubkey recordSeal.signingInput recordSeal.signature = false then
    throw (.tampered "the local record seal signature is invalid")
  if commit.sessionId ≠ m.sessionId then throw (.tampered "the ledger commit is invalid")
  if commit.manifestDigest ≠ manifestDigest then
    throw (.tampered "the ledger commit does not match the joint manifest")
  if c.verify v.header.identityPubkey commit.signingInput commit.signature = false then
    throw (.tampered "the ledger commit signature is invalid")

/-- The three prefix digests of a completed container. -/
def verifyPrefixDigests (file : Bytes) (footer : FooterFacts) : Except StreamError Unit := do
  if file.length < footer.ledgerEnd then throw (.tampered "the audit container is truncated")
  if footer.recordSeal.sealedPrefixDigest ≠ c.sha256 (file.take footer.sealedPrefixEnd) then
    throw (.tampered "the local record seal digest is invalid")
  if footer.commit.sealedRecordDigest ≠ c.sha256 (file.take footer.sealEnd) then
    throw (.tampered "the ledger commit digest is invalid")
  if footer.finalDigest ≠ c.sha256 (file.take footer.ledgerEnd) then
    throw (.tampered "the container digest does not match its contents")

/-- `verify_footer`. -/
def verifyFooter (file : Bytes) (v : ChainVerifier) (footer : FooterFacts) :
    Except StreamError Unit :=
  match JointManifest.codec.dec footer.manifestBytes with
  | none => .error (.tampered "the joint manifest is invalid")
  | some m => do
      verifyFooterManifest c v footer m
      verifyFooterSeal c v footer m
      if v.manifestEvidence.any (fun evidence => decide (evidence ≠ footer.manifestBytes)) then
        throw (.tampered "the joint manifest is invalid")
      verifyPrefixDigests c file footer

def maxFooterLen : Nat := 1132
def minLegalFooterLen : Nat := 1136

/-- The footer part of `walk_file`. It always runs, on whatever the walk left unread: `rest` is read
as if the footer magic stood right before it. -/
def walkFooter (file : Bytes) (v : ChainVerifier) (truncatedTail : Bool) (rest : Bytes) :
    Except StreamError VerifiedFile :=
  let footerStart := file.length - rest.length - footerMagic.length
  if maxFooterLen < rest.length then
    .error (.tampered "the audit container has trailing bytes")
  else
    match decodeFooter (footerMagic ++ rest) with
    | some d =>
      match d.manifest.encodePayload with
      | none => .error (.tampered "the joint manifest is invalid")
      | some manifestBytes => do
          let footer : FooterFacts :=
            { manifestBytes := manifestBytes
              controllerSignature := d.controllerSessionSignature
              hostSignature := d.hostSessionSignature
              recordSeal := d.recordSeal
              commit := d.ledgerCommit
              sealedPrefixEnd := footerStart + d.sealedPrefixEnd
              sealEnd := footerStart + d.sealEnd
              ledgerEnd := footerStart + d.ledgerEnd
              finalDigest := d.finalContainerDigest }
          verifyFooter c file v footer
          return ⟨file, v, some footer, truncatedTail⟩
    | none =>
      if minLegalFooterLen ≤ rest.length + footerMagic.length then
        .error (.tampered "the container footer is invalid")
      else .ok ⟨file, v, none, true⟩

end

end Yonder.Audit
