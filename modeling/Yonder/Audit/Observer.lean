import Yonder.Audit.File

/-!
# The observer of an endpoint

`Observer` is `AuditObserver` after the handshake: the session, its writer, the flag for an
outstanding checkpoint and where the endpoint stands between recording and the finished file. Its
functions are the source's: the handling of a checkpoint and of an acknowledgment, and the failure
close.
-/

namespace Yonder.Audit

open Lib Wire

/-- The frames of the audit substream after the handshake. -/
inductive AuditMessage where
  | checkpoint (checkpoint : Checkpoint)
  | checkpointAck (ack : CheckpointAck)
  | closeNotice (reason : AuditCloseReason)
  | auditError (code : AuditErrorCode)
  | jointManifest (manifest : JointManifest)
  | manifestSignature (signature : Ed25519Signature)

/-- The ending that `close_and_finalize` is called with. -/
structure Closing where
  ending : ManifestEnding
  endedNormally : Bool
deriving DecidableEq

/-- Where an endpoint stands. While it is running, `notice` is the close reason that a received close
notice has surfaced to the pump; the other cases are the read and write points of
`close_and_finalize`, in order, and the ends of `close_interrupted` and of a failure. -/
inductive Stage where
  | running (notice : Option AuditCloseReason)
  | awaitNotice (closing : Closing)
  | barrier (closing : Closing) (reason : AuditCloseReason)
  | exchange (closing : Closing) (reason : AuditCloseReason) (ownFinalSent peerFinalSeen : Bool)
  | awaitManifest (own : JointManifest) (ownSignature : Ed25519Signature)
  | awaitSignature (own : JointManifest) (ownSignature : Ed25519Signature) (peer : JointManifest)
  | footer (own : JointManifest) (ownSignature peerSignature : Ed25519Signature)
  | finished (own : JointManifest) (ownSignature peerSignature : Ed25519Signature)
  | interrupted
  | failed (error : AuditError)

structure Observer where
  session : AuditSession
  writer : AuditWriter
  awaitingAck : Bool
  stage : Stage

namespace Observer

section

variable (c : Crypto)

/-- The observer that `establish` hands over once the header is written. -/
def start (facts : SessionFacts) : Observer where
  session := .start facts
  writer := ⟨.recording, AuditContainerHeader.codec.enc (facts.buildHeader c)⟩
  awaitingAck := false
  stage := .running none

def fail (o : Observer) (error : AuditError) : Observer := { o with stage := .failed error }

/-- Appends a batch; what a refused record leaves written stays. -/
def append (o : Observer) (rs : List Record) : Except AuditError Unit × Observer :=
  let (result, writer) := o.writer.appendBatch rs
  (result, { o with writer := writer })

/-- `handle_checkpoint`: evidence first, then the acknowledgment. -/
def handleCheckpoint (o : Observer) (checkpoint : Checkpoint) (policy : CheckpointPolicy)
    (now : UInt64) : Observer × List AuditMessage :=
  match o.session.receiveCheckpointWithPolicy c checkpoint now policy with
  | (.error error, session) => (({ o with session := session } : Observer).fail error, [])
  | (.ok (ack, rs), session) =>
    match ({ o with session := session } : Observer).append rs with
    | (.ok (), o') => (o', [.checkpointAck ack])
    | (.error error, o') => (o'.fail error, [])

/-- The acknowledgment case of `handle_frame`. -/
def handleAck (o : Observer) (ack : CheckpointAck) (now : UInt64) : Observer × List AuditMessage :=
  match o.session.receiveCheckpointAck c ack now with
  | (.error error, session) => (({ o with session := session } : Observer).fail error, [])
  | (.ok evidence, session) =>
    match ({ o with session := session, awaitingAck := false } : Observer).append
      (evidence.getD []) with
    | (.ok (), o') => (o', [])
    | (.error error, o') => (o'.fail error, [])

/-! ## Closing -/

/-- `fail_closed`: the failure records, best effort, and the notice to the peer. -/
def failClosed (o : Observer) (code : Option AuditErrorCode) (reason : AuditCloseReason)
    (now : UInt64) : Observer × List AuditMessage :=
  let code := code.getD .auditRecordWriteFailed
  let notices := [.auditError code, .closeNotice reason]
  if o.session.phase = .failed then (o.fail .failedClosed, notices)
  else
    match o.session.failClosedRecords c code reason now with
    | .error _ => (o.fail .failedClosed, notices)
    | .ok (session, rs) =>
      ((({ o with session := session } : Observer).append rs).2.fail .failedClosed, notices)

end

end Observer

end Yonder.Audit
