import Yonder.Lib.Codec

/-!
# The audit wire messages

The fixed message set of `/yonder/audit/3.0.0`: roles, close reasons, chain snapshots and the signed
messages, each with its byte layout and its canonical signing input (a domain label followed by
every field but the signature). The layouts are `Codec`s, so every message round-trips and a decoder
accepts exactly one byte string per value.

The 32-byte newtypes of the wire layer (session id, chain head, digest, fingerprint, ledger root,
binding digest, commitment) are one type here: the code converts between them byte for byte.
-/

namespace Yonder.Wire

open Lib

/-- A SHA-256 digest, a chain head, a session id, a fingerprint or a public key. -/
abbrev Digest32 := FixedBytes 32

/-- A per-session or persistent Ed25519 public key. -/
abbrev Ed25519PublicKey := FixedBytes 32

/-- An Ed25519 signature. -/
abbrev Ed25519Signature := FixedBytes 64

/-- The genesis head of every chain: 32 zero bytes. -/
def zeroHead : Digest32 := FixedBytes.replicate 32 0

def auditFormatVersion : UInt16 := 3

/-! ## Enumerations -/

/-- The role a session side plays. -/
inductive AuditRole where
  | controller
  | host
deriving DecidableEq, Repr

namespace AuditRole

def code : AuditRole → UInt8
  | controller => 0x01
  | host => 0x02

def fromByte (b : UInt8) : Option AuditRole :=
  if b = 0x01 then some controller else if b = 0x02 then some host else none

/-- The other side. -/
def peer : AuditRole → AuditRole
  | controller => host
  | host => controller

theorem fromByte_eq_some (b : UInt8) (r : AuditRole) : fromByte b = some r ↔ r.code = b := by
  unfold fromByte
  cases r <;> grind [code]

end AuditRole

/-- The authentication mode recorded in the container header. -/
inductive AuthMode where
  | enterprise
deriving DecidableEq, Repr

namespace AuthMode

def code : AuthMode → UInt8
  | enterprise => 0x02

def fromByte (b : UInt8) : Option AuthMode :=
  if b = 0x02 then some enterprise else none

theorem fromByte_eq_some (b : UInt8) (m : AuthMode) : fromByte b = some m ↔ m.code = b := by
  unfold fromByte
  cases m
  grind [code]

end AuthMode

/-- The session result recorded in a ledger commit. -/
inductive SessionResult where
  | normal
  | interrupted
  | auditFailed
deriving DecidableEq, Repr

namespace SessionResult

def code : SessionResult → UInt8
  | normal => 0x01
  | interrupted => 0x02
  | auditFailed => 0x03

def fromByte (b : UInt8) : Option SessionResult :=
  if b = 0x01 then some normal
  else if b = 0x02 then some interrupted
  else if b = 0x03 then some auditFailed
  else none

theorem fromByte_eq_some (b : UInt8) (r : SessionResult) : fromByte b = some r ↔ r.code = b := by
  unfold fromByte
  cases r <;> grind [code]

end SessionResult

/-- A structured session close reason. -/
inductive AuditCloseReason where
  | normalShellExit
  | controllerDetach
  | localInterrupt
  | connectionLost
  | auditFailure
deriving DecidableEq, Repr

namespace AuditCloseReason

def code : AuditCloseReason → UInt8
  | normalShellExit => 0x01
  | controllerDetach => 0x02
  | localInterrupt => 0x03
  | connectionLost => 0x04
  | auditFailure => 0x05

def fromByte (b : UInt8) : Option AuditCloseReason :=
  if b = 0x01 then some normalShellExit
  else if b = 0x02 then some controllerDetach
  else if b = 0x03 then some localInterrupt
  else if b = 0x04 then some connectionLost
  else if b = 0x05 then some auditFailure
  else none

theorem fromByte_eq_some (b : UInt8) (r : AuditCloseReason) :
    fromByte b = some r ↔ r.code = b := by
  unfold fromByte
  cases r <;> grind [code]

end AuditCloseReason

/-- How a session ended, as recorded in the joint manifest. -/
inductive ManifestEnding where
  | shellExit (exitCode : UInt32)
  | closeReason (reason : AuditCloseReason)
deriving DecidableEq, Repr

namespace ManifestEnding

def tag : ManifestEnding → UInt8
  | shellExit _ => 0x01
  | closeReason _ => 0x02

def value : ManifestEnding → UInt32
  | shellExit exitCode => exitCode
  | closeReason reason => reason.code.toUInt32

def fromBytes (raw : UInt8 × UInt32) : Option ManifestEnding :=
  if raw.1 = 0x01 then some (shellExit raw.2)
  else if raw.1 = 0x02 then
    if raw.2 = 0x01 then some (closeReason .normalShellExit)
    else if raw.2 = 0x02 then some (closeReason .controllerDetach)
    else if raw.2 = 0x03 then some (closeReason .localInterrupt)
    else if raw.2 = 0x04 then some (closeReason .connectionLost)
    else if raw.2 = 0x05 then some (closeReason .auditFailure)
    else none
  else none

theorem fromBytes_eq_some (raw : UInt8 × UInt32) (e : ManifestEnding) :
    fromBytes raw = some e ↔ (e.tag, e.value) = raw := by
  obtain ⟨t, v⟩ := raw
  unfold fromBytes
  cases e with
  | shellExit exitCode => grind [tag, value]
  | closeReason reason =>
    have widen : UInt8.toUInt32 1 = 1 ∧ UInt8.toUInt32 2 = 2 ∧ UInt8.toUInt32 3 = 3 ∧
        UInt8.toUInt32 4 = 4 ∧ UInt8.toUInt32 5 = 5 := by decide
    cases reason <;> grind [tag, value, AuditCloseReason.code]

end ManifestEnding

/-- The fixed audit failure codes. -/
inductive AuditErrorCode where
  | auditIdentityMissing
  | auditIdentityInvalid
  | auditIdentityPermissions
  | auditLedgerInvalid
  | auditLedgerConflict
  | auditDirectoryUnavailable
  | auditRecordCreateFailed
  | auditRecordWriteFailed
  | auditRecordSyncFailed
  | auditProtocolUnsupported
  | auditHandshakeInvalid
  | auditSessionBindingMismatch
  | auditCheckpointMismatch
  | auditPeerSignatureInvalid
  | auditFinalManifestMismatch
  | auditLedgerCommitFailed
  | auditReplayUnsafe
  | auditContainerInvalid
deriving DecidableEq, Repr

namespace AuditErrorCode

def code : AuditErrorCode → UInt16
  | auditIdentityMissing => 1
  | auditIdentityInvalid => 2
  | auditIdentityPermissions => 3
  | auditLedgerInvalid => 4
  | auditLedgerConflict => 5
  | auditDirectoryUnavailable => 6
  | auditRecordCreateFailed => 7
  | auditRecordWriteFailed => 8
  | auditRecordSyncFailed => 9
  | auditProtocolUnsupported => 10
  | auditHandshakeInvalid => 11
  | auditSessionBindingMismatch => 12
  | auditCheckpointMismatch => 13
  | auditPeerSignatureInvalid => 14
  | auditFinalManifestMismatch => 15
  | auditLedgerCommitFailed => 16
  | auditReplayUnsafe => 17
  | auditContainerInvalid => 18

end AuditErrorCode

/-- One shared fact chain. -/
inductive SharedStream where
  | input
  | output
  | control
  | fileTransfer
deriving DecidableEq, Repr

/-- The fixed zero-based wire position of the stream. -/
def SharedStream.index : SharedStream → Nat
  | input => 0
  | output => 1
  | control => 2
  | fileTransfer => 3

/-! ## Snapshots -/

/-- The count and chain head of one shared stream. -/
structure StreamSnapshot where
  count : UInt64
  head : Digest32
deriving DecidableEq

/-- The snapshots of all shared chains, in the fixed wire order. -/
structure SharedSnapshot where
  input : StreamSnapshot
  output : StreamSnapshot
  control : StreamSnapshot
  fileTransfer : StreamSnapshot
deriving DecidableEq

/-- The snapshot with a given value at each stream. -/
def SharedSnapshot.ofFun (f : SharedStream → StreamSnapshot) : SharedSnapshot :=
  ⟨f .input, f .output, f .control, f .fileTransfer⟩

def digestCodec : Codec Digest32 := Codec.bytes 32

def signatureCodec : Codec Ed25519Signature := Codec.bytes 64

def roleCodec : Codec AuditRole := Codec.tag AuditRole.code AuditRole.fromByte AuditRole.fromByte_eq_some

/-- `count || head`. -/
def streamSnapshotCodec : Codec StreamSnapshot :=
  (Codec.u64.prod digestCodec).iso
    ⟨fun (c, h) => ⟨c, h⟩, fun s => (s.count, s.head), fun _ => rfl, fun _ => rfl⟩

/-- `write_snapshot` and `decode_snapshot`: the streams in wire order. -/
def snapshotCodec : Codec SharedSnapshot :=
  (streamSnapshotCodec.prod (streamSnapshotCodec.prod
    (streamSnapshotCodec.prod streamSnapshotCodec))).iso
    ⟨fun (a, b, c, d) => ⟨a, b, c, d⟩, fun s => (s.input, s.output, s.control, s.fileTransfer),
      fun _ => rfl, fun _ => rfl⟩

/-! ## Messages -/

/-- The audit handshake opener. -/
structure AuditHello where
  role : AuditRole
  persistentAuditKey : Ed25519PublicKey
  sessionKey : Ed25519PublicKey
  nonce : Digest32
  ledgerSequence : UInt64
  ledgerRoot : Digest32
  connectionBinding : Digest32
  formatVersion : UInt16
  inputCommitment : Digest32
  signature : Ed25519Signature
deriving DecidableEq

namespace AuditHello

/-- Every field but the signature, in wire order. -/
def unsignedCodec : Codec (AuditRole × Digest32 × Digest32 × Digest32 × UInt64 × Digest32 ×
    Digest32 × UInt16 × Digest32) :=
  roleCodec.prod (digestCodec.prod (digestCodec.prod (digestCodec.prod (Codec.u64.prod
    (digestCodec.prod (digestCodec.prod ((Codec.u16.guard (· ≠ 0)).prod digestCodec)))))))

def unsigned (m : AuditHello) : AuditRole × Digest32 × Digest32 × Digest32 × UInt64 × Digest32 ×
    Digest32 × UInt16 × Digest32 :=
  (m.role, m.persistentAuditKey, m.sessionKey, m.nonce, m.ledgerSequence, m.ledgerRoot,
    m.connectionBinding, m.formatVersion, m.inputCommitment)

def codec : Codec AuditHello :=
  (unsignedCodec.prod signatureCodec).iso
    ⟨fun ((r, pk, sk, n, ls, lr, cb, fv, ic), sig) => ⟨r, pk, sk, n, ls, lr, cb, fv, ic, sig⟩,
      fun m => (m.unsigned, m.signature), fun _ => rfl, fun _ => rfl⟩

def signingInput (m : AuditHello) : Bytes :=
  utf8 "yonder-audit-hello-v3" ++ unsignedCodec.enc m.unsigned

end AuditHello

/-- The audit handshake confirmation. -/
structure AuditReady where
  sessionId : Digest32
  peerAuditHelloDigest : Digest32
  formatVersion : UInt16
  signature : Ed25519Signature
deriving DecidableEq

namespace AuditReady

def unsignedCodec : Codec (Digest32 × Digest32 × UInt16) :=
  digestCodec.prod (digestCodec.prod (Codec.u16.guard (· ≠ 0)))

def unsigned (m : AuditReady) : Digest32 × Digest32 × UInt16 :=
  (m.sessionId, m.peerAuditHelloDigest, m.formatVersion)

def codec : Codec AuditReady :=
  (unsignedCodec.prod signatureCodec).iso
    ⟨fun ((s, d, v), sig) => ⟨s, d, v, sig⟩, fun m => (m.unsigned, m.signature),
      fun _ => rfl, fun _ => rfl⟩

def signingInput (m : AuditReady) : Bytes :=
  utf8 "yonder-audit-ready-v3" ++ unsignedCodec.enc m.unsigned

end AuditReady

/-- A bilateral checkpoint: a signed snapshot of the state before it was generated. -/
structure Checkpoint where
  sessionId : Digest32
  sequence : UInt64
  snapshot : SharedSnapshot
  localChainHead : Digest32
  ledgerSnapshotDigest : Digest32
  signature : Ed25519Signature
deriving DecidableEq

namespace Checkpoint

def unsignedCodec : Codec (Digest32 × UInt64 × SharedSnapshot × Digest32 × Digest32) :=
  digestCodec.prod (Codec.u64.prod (snapshotCodec.prod (digestCodec.prod digestCodec)))

def unsigned (m : Checkpoint) : Digest32 × UInt64 × SharedSnapshot × Digest32 × Digest32 :=
  (m.sessionId, m.sequence, m.snapshot, m.localChainHead, m.ledgerSnapshotDigest)

def codec : Codec Checkpoint :=
  (unsignedCodec.prod signatureCodec).iso
    ⟨fun ((s, q, sn, h, l), sig) => ⟨s, q, sn, h, l, sig⟩, fun m => (m.unsigned, m.signature),
      fun _ => rfl, fun _ => rfl⟩

def signingInput (m : Checkpoint) : Bytes :=
  utf8 "yonder-audit-checkpoint-v3" ++ unsignedCodec.enc m.unsigned

end Checkpoint

/-- The receiver's confirmation of a checkpoint. -/
structure CheckpointAck where
  sessionId : Digest32
  sequence : UInt64
  checkpointDigest : Digest32
  snapshot : SharedSnapshot
  signature : Ed25519Signature
deriving DecidableEq

namespace CheckpointAck

def unsignedCodec : Codec (Digest32 × UInt64 × Digest32 × SharedSnapshot) :=
  digestCodec.prod (Codec.u64.prod (digestCodec.prod snapshotCodec))

def unsigned (m : CheckpointAck) : Digest32 × UInt64 × Digest32 × SharedSnapshot :=
  (m.sessionId, m.sequence, m.checkpointDigest, m.snapshot)

def codec : Codec CheckpointAck :=
  (unsignedCodec.prod signatureCodec).iso
    ⟨fun ((s, q, d, sn), sig) => ⟨s, q, d, sn, sig⟩, fun m => (m.unsigned, m.signature),
      fun _ => rfl, fun _ => rfl⟩

def signingInput (m : CheckpointAck) : Bytes :=
  utf8 "yonder-audit-checkpoint-ack-v3" ++ unsignedCodec.enc m.unsigned

end CheckpointAck

/-- The final joint manifest. -/
structure JointManifest where
  formatVersion : UInt16
  sessionId : Digest32
  controllerFingerprint : Digest32
  hostFingerprint : Digest32
  controllerSessionKey : Ed25519PublicKey
  hostSessionKey : Ed25519PublicKey
  connectionBinding : Digest32
  terminalHelloDigest : Digest32
  finalSnapshot : SharedSnapshot
  ending : ManifestEnding
  endedNormally : Bool
  finalCheckpointSequence : UInt64
deriving DecidableEq

def endingCodec : Codec ManifestEnding :=
  (Codec.u8.prod Codec.u32).partialIso ManifestEnding.fromBytes (fun e => (e.tag, e.value))
    ManifestEnding.fromBytes_eq_some

/-- The `ended_normally` byte, which must be `0` or `1`. -/
def flagCodec : Codec Bool :=
  Codec.tag (fun b => if b then 1 else 0)
    (fun b => if b = 0 then some false else if b = 1 then some true else none)
    (by intro b a; cases a <;> grind)

namespace JointManifest

/-- The manifest layout; both directions insist on the frozen format version. -/
def codec : Codec JointManifest :=
  ((Codec.u16.guard (· = auditFormatVersion)).prod (digestCodec.prod (digestCodec.prod
    (digestCodec.prod (digestCodec.prod (digestCodec.prod (digestCodec.prod (digestCodec.prod
    (snapshotCodec.prod (endingCodec.prod (flagCodec.prod Codec.u64))))))))))).iso
    ⟨fun (v, s, cf, hf, ck, hk, b, t, sn, e, n, q) => ⟨v, s, cf, hf, ck, hk, b, t, sn, e, n, q⟩,
      fun m => (m.formatVersion, m.sessionId, m.controllerFingerprint, m.hostFingerprint,
        m.controllerSessionKey, m.hostSessionKey, m.connectionBinding, m.terminalHelloDigest,
        m.finalSnapshot, m.ending, m.endedNormally, m.finalCheckpointSequence),
      fun _ => rfl, fun _ => rfl⟩

/-- `encode_payload`: refused for another format version. -/
def encodePayload (m : JointManifest) : Option Bytes :=
  if m.formatVersion = auditFormatVersion then some (codec.enc m) else none

def signingInput (m : JointManifest) : Option Bytes :=
  m.encodePayload.map fun payload => utf8 "yonder-audit-manifest-v3" ++ payload

end JointManifest

/-- The local record seal. -/
structure LocalRecordSeal where
  sessionId : Digest32
  role : AuditRole
  finalLocalEventRoot : Digest32
  localEventCount : UInt64
  finalSharedRoots : Digest32 × Digest32 × Digest32 × Digest32
  jointManifestDigest : Digest32
  sealedPrefixDigest : Digest32
  signature : Ed25519Signature
deriving DecidableEq

/-- Every stream chain head in wire order. -/
def SharedSnapshot.roots (s : SharedSnapshot) : Digest32 × Digest32 × Digest32 × Digest32 :=
  (s.input.head, s.output.head, s.control.head, s.fileTransfer.head)

namespace LocalRecordSeal

def unsignedCodec : Codec (Digest32 × AuditRole × Digest32 × UInt64 ×
    (Digest32 × Digest32 × Digest32 × Digest32) × Digest32 × Digest32) :=
  digestCodec.prod (roleCodec.prod (digestCodec.prod (Codec.u64.prod
    ((digestCodec.prod (digestCodec.prod (digestCodec.prod digestCodec))).prod
      (digestCodec.prod digestCodec)))))

def unsigned (m : LocalRecordSeal) : Digest32 × AuditRole × Digest32 × UInt64 ×
    (Digest32 × Digest32 × Digest32 × Digest32) × Digest32 × Digest32 :=
  (m.sessionId, m.role, m.finalLocalEventRoot, m.localEventCount, m.finalSharedRoots,
    m.jointManifestDigest, m.sealedPrefixDigest)

def codec : Codec LocalRecordSeal :=
  (unsignedCodec.prod signatureCodec).iso
    ⟨fun ((s, r, l, n, rs, md, pd), sig) => ⟨s, r, l, n, rs, md, pd, sig⟩,
      fun m => (m.unsigned, m.signature), fun _ => rfl, fun _ => rfl⟩

def signingInput (m : LocalRecordSeal) : Bytes :=
  utf8 "yonder-audit-seal-v3" ++ unsignedCodec.enc m.unsigned

end LocalRecordSeal

/-- The persistent ledger commit. -/
structure LedgerCommit where
  sequence : UInt64
  previousRoot : Digest32
  sessionId : Digest32
  manifestDigest : Digest32
  sealedRecordDigest : Digest32
  peerIdentityFingerprint : Digest32
  result : SessionResult
  signature : Ed25519Signature
deriving DecidableEq

namespace LedgerCommit

def unsignedCodec : Codec (UInt64 × Digest32 × Digest32 × Digest32 × Digest32 × Digest32 ×
    SessionResult) :=
  Codec.u64.prod (digestCodec.prod (digestCodec.prod (digestCodec.prod (digestCodec.prod
    (digestCodec.prod (Codec.tag SessionResult.code SessionResult.fromByte
      SessionResult.fromByte_eq_some))))))

def unsigned (m : LedgerCommit) : UInt64 × Digest32 × Digest32 × Digest32 × Digest32 × Digest32 ×
    SessionResult :=
  (m.sequence, m.previousRoot, m.sessionId, m.manifestDigest, m.sealedRecordDigest,
    m.peerIdentityFingerprint, m.result)

def codec : Codec LedgerCommit :=
  (unsignedCodec.prod signatureCodec).iso
    ⟨fun ((q, p, s, m, d, f, r), sig) => ⟨q, p, s, m, d, f, r, sig⟩,
      fun m => (m.unsigned, m.signature), fun _ => rfl, fun _ => rfl⟩

def signingInput (m : LedgerCommit) : Bytes :=
  utf8 "yonder-audit-ledger-commit-v3" ++ unsignedCodec.enc m.unsigned

end LedgerCommit

/-! ## The lengths and acceptance checks of the layouts -/

@[simp] theorem helloCodec_width : AuditHello.codec.width = 267 := rfl
@[simp] theorem readyCodec_width : AuditReady.codec.width = 130 := rfl
@[simp] theorem checkpointCodec_width : Checkpoint.codec.width = 328 := rfl
@[simp] theorem ackCodec_width : CheckpointAck.codec.width = 296 := rfl
@[simp] theorem manifestCodec_width : JointManifest.codec.width = 400 := rfl
@[simp] theorem sealCodec_width : LocalRecordSeal.codec.width = 329 := rfl
@[simp] theorem commitCodec_width : LedgerCommit.codec.width = 233 := rfl

@[simp] theorem helloCodec_ok (m : AuditHello) : AuditHello.codec.ok m ↔ m.formatVersion ≠ 0 := by
  simp [AuditHello.codec, AuditHello.unsignedCodec, AuditHello.unsigned, roleCodec, digestCodec,
    signatureCodec]

@[simp] theorem readyCodec_ok (m : AuditReady) : AuditReady.codec.ok m ↔ m.formatVersion ≠ 0 := by
  simp [AuditReady.codec, AuditReady.unsignedCodec, AuditReady.unsigned, digestCodec,
    signatureCodec]

@[simp] theorem snapshotCodec_ok (s : SharedSnapshot) : snapshotCodec.ok s := by
  simp [snapshotCodec, streamSnapshotCodec, digestCodec]

@[simp] theorem checkpointCodec_ok (m : Checkpoint) : Checkpoint.codec.ok m := by
  simp [Checkpoint.codec, Checkpoint.unsignedCodec, digestCodec, signatureCodec]

@[simp] theorem ackCodec_ok (m : CheckpointAck) : CheckpointAck.codec.ok m := by
  simp [CheckpointAck.codec, CheckpointAck.unsignedCodec, digestCodec, signatureCodec]

@[simp] theorem manifestCodec_ok (m : JointManifest) :
    JointManifest.codec.ok m ↔ m.formatVersion = auditFormatVersion := by
  simp [JointManifest.codec, digestCodec, endingCodec, flagCodec]

@[simp] theorem sealCodec_ok (m : LocalRecordSeal) : LocalRecordSeal.codec.ok m := by
  simp [LocalRecordSeal.codec, LocalRecordSeal.unsignedCodec, digestCodec, signatureCodec, roleCodec]

@[simp] theorem commitCodec_ok (m : LedgerCommit) : LedgerCommit.codec.ok m := by
  simp [LedgerCommit.codec, LedgerCommit.unsignedCodec, digestCodec, signatureCodec]

theorem encodePayload_eq_some {m : JointManifest} {bs : Bytes} :
    m.encodePayload = some bs ↔
      m.formatVersion = auditFormatVersion ∧ JointManifest.codec.enc m = bs := by
  unfold JointManifest.encodePayload
  split <;> simp_all

end Yonder.Wire
