import Yonder.Audit.Handshake

/-!
# The audit session

`AuditSession` is the state of a session after its handshake: the four shared chains, the local
chain, the byte-stream normalizers, the checkpoint counters and the phase. Every recording call
returns the new state with the records it appends, in file order; a call that fails returns the
error and leaves the state as it was, except for a rejected checkpoint or acknowledgment, which
fails the session.

The two primitives `commitShared` and `pushLocal` advance one chain by one event; everything else is
built from them.
-/

namespace Yonder.Audit

open Lib Wire

def canonicalBlockLen : Nat := 16384
def checkpointSizeTrigger : UInt64 := 1048576
def maxInputSegment : Nat := 65536
def maxLocalOutputSegment : Nat := 65496
def maxProtocolPathLen : Nat := 4096
def maxProtocolFileNameLen : Nat := 1024
def maxLocalPathLen : Nat := 4096

def lifecycleKindTerminalHello : UInt8 := 1
def lifecycleKindTerminalReady : UInt8 := 2
def lifecycleKindTerminalExit : UInt8 := 3
def lifecycleKindTerminalComplete : UInt8 := 4

def connectionStateClosed : UInt8 := 3

def outcomeConfirmed : UInt8 := 1
def outcomeUnconfirmed : UInt8 := 2

def evidenceSentCheckpoint : UInt8 := 1
def evidenceReceivedCheckpoint : UInt8 := 2
def evidenceSentCheckpointAck : UInt8 := 3
def evidenceReceivedCheckpointAck : UInt8 := 4

/-! ## The byte-stream normalizer -/

/-- The partial block of one byte direction. -/
structure Normalizer where
  buffer : Bytes
  closed : Bool
deriving DecidableEq

namespace Normalizer

def new : Normalizer := ⟨[], false⟩

/-- `whole` consecutive blocks from the front of `bytes`. -/
def wholeBlocks (bytes : Bytes) (whole : Nat) : List Bytes :=
  (List.range whole).map fun i => (bytes.drop (i * canonicalBlockLen)).take canonicalBlockLen

/-- `feed`: the blocks completed by a segment and the new partial block. -/
def feed (n : Normalizer) (bytes : Bytes) : List Bytes × Bytes :=
  if canonicalBlockLen ≤ bytes.length then
    if 0 < n.buffer.length then
      -- fill the current partial block first, then emit whole blocks from the segment
      let take := canonicalBlockLen - n.buffer.length
      let rest := bytes.drop take
      let whole := rest.length / canonicalBlockLen
      ((n.buffer ++ bytes.take take) :: wholeBlocks rest whole,
        rest.drop (whole * canonicalBlockLen))
    else
      let whole := bytes.length / canonicalBlockLen
      (wholeBlocks bytes whole, bytes.drop (whole * canonicalBlockLen))
  else if canonicalBlockLen ≤ bytes.length + n.buffer.length then
    let take := canonicalBlockLen - n.buffer.length
    ([n.buffer ++ bytes.take take], bytes.drop take)
  else ([], n.buffer ++ bytes)

/-- `finish`: the partial block, if there is one. -/
def finish (n : Normalizer) : List Bytes :=
  if n.buffer.length = 0 then [] else [n.buffer]

end Normalizer

/-! ## The session state -/

/-- The phases after the handshake. -/
inductive Phase where
  | active
  | finalizing
  | finished
  | failed
deriving DecidableEq, Repr

/-- One shared chain: event count and head. -/
structure SharedChain where
  count : UInt64
  head : Digest32
deriving DecidableEq

/-- The latest shared file event, to which a local path or result may be related. -/
structure LatestFileEvent where
  head : Digest32
  transferId : UInt64
  direction : UInt8
  kind : UInt8
  localPathRecorded : Bool
  ambiguityRecorded : Bool
deriving DecidableEq

/-- `expected_local_file_ambiguity_kind`. -/
def expectedLocalFileAmbiguityKind (role : AuditRole) (direction : UInt8) : Option UInt8 :=
  match role with
  | .controller =>
    if direction = directionCtrlToHost then some fileLocalKindCommitStatusUnknown
    else if direction = directionHostToCtrl then some fileLocalKindCommittedUnconfirmed
    else none
  | .host =>
    if direction = directionHostToCtrl then some fileLocalKindCommitStatusUnknown
    else if direction = directionCtrlToHost then some fileLocalKindCommittedUnconfirmed
    else none

structure AuditSession where
  facts : SessionFacts
  shared : SharedStream → SharedChain
  localHead : Digest32
  localCount : UInt64
  inputNormalizer : Normalizer
  outputNormalizer : Normalizer
  lastBlock : SharedStream → Option Digest32
  latestFileEvent : Option LatestFileEvent
  nextCheckpointSequence : UInt64
  lastCheckpointTimeNs : UInt64
  lastConfirmedSent : UInt64
  lastConfirmedReceived : UInt64
  lastReceivedCheckpoint : Option (UInt64 × Digest32)
  lastSentCheckpoint : Option Checkpoint
  checkpointSharedBytes : UInt64
  checkpointDueFlag : Bool
  peerManifestReceived : Bool
  phase : Phase

/-- Whether a received checkpoint is a running observation or the exact final prefix. -/
inductive CheckpointPolicy where
  | observation
  | exactPrefix
deriving DecidableEq

/-- The record type of a shared stream's events. -/
def sharedRecordType : SharedStream → RecordType
  | .input => .sharedInputCommitment
  | .output => .sharedOutputBlock
  | .control => .sharedControlEvent
  | .fileTransfer => .sharedFileTransferEvent

namespace AuditSession

/-- The session that the handshake hands over. -/
def start (facts : SessionFacts) : AuditSession where
  facts := facts
  shared _ := ⟨0, zeroHead⟩
  localHead := zeroHead
  localCount := 0
  inputNormalizer := .new
  outputNormalizer := .new
  lastBlock _ := none
  latestFileEvent := none
  nextCheckpointSequence := 1
  lastCheckpointTimeNs := 0
  lastConfirmedSent := 0
  lastConfirmedReceived := 0
  lastReceivedCheckpoint := none
  lastSentCheckpoint := none
  checkpointSharedBytes := 0
  checkpointDueFlag := false
  peerManifestReceived := false
  phase := .active

def sharedSnapshot (s : AuditSession) : SharedSnapshot :=
  .ofFun fun stream => ⟨(s.shared stream).count, (s.shared stream).head⟩

/-- `last_confirmed_checkpoint_sequence`: the greater of the two directions. -/
def lastConfirmedCheckpointSequence (s : AuditSession) : UInt64 :=
  if s.lastConfirmedReceived ≤ s.lastConfirmedSent then s.lastConfirmedSent
  else s.lastConfirmedReceived

def requirePhase (s : AuditSession) (expected : Phase) : Except AuditError Unit :=
  if s.phase = .failed then .error .failedClosed
  else if s.phase ≠ expected then .error (.invalidState "the session is not in the required phase")
  else .ok ()

def requireRecordable (s : AuditSession) : Except AuditError Unit :=
  match s.phase with
  | .active => .ok ()
  | .failed => .error .failedClosed
  | .finalizing => .error (.invalidState "recording is closed after direction finalization")
  | .finished => .error (.invalidState "the session is not active")

/-- The last completed block of a stream, or the zero head. -/
def lastBlockOrZero (s : AuditSession) (stream : SharedStream) : Digest32 :=
  (s.lastBlock stream).getD zeroHead

/-- `related_for_direction`: every direction but controller-to-host relates to the output stream. -/
def relatedForDirection (s : AuditSession) (direction : UInt8) : Digest32 :=
  s.lastBlockOrZero (if direction = directionCtrlToHost then .input else .output)

/-- Accounts for new shared bytes; 1 MiB of them makes a checkpoint due. -/
def noteSharedBytes (s : AuditSession) (bytes : UInt64) : AuditSession :=
  { s with
    checkpointSharedBytes := s.checkpointSharedBytes + bytes
    checkpointDueFlag :=
      s.checkpointDueFlag || decide (checkpointSizeTrigger ≤ s.checkpointSharedBytes + bytes) }

section

variable (c : Crypto)

/-- The record that the next event of its stream makes. -/
def nextSharedRecord (s : AuditSession) (direction : UInt8) (e : SharedEvent) : SharedRecord :=
  let chain := s.shared e.stream
  ⟨direction, chain.count + 1, e, chain.head,
    sharedEventHash c chain.head direction (chain.count + 1) e⟩

/-- Advances a shared chain over one event. -/
def commitShared (s : AuditSession) (direction : UInt8) (e : SharedEvent) :
    AuditSession × Record :=
  let r := s.nextSharedRecord c direction e
  ({ s with
      shared := Function.update s.shared e.stream ⟨r.sequence, r.newHead⟩
      lastBlock := Function.update s.lastBlock e.stream (some r.newHead) },
    ⟨sharedRecordType e.stream, r.payload⟩)

/-- `push_local`: advances the local chain over one record. -/
def pushLocal (s : AuditSession) (type : RecordType) (kindPayload : Bytes) (related : Digest32)
    (nowNs : UInt64) : AuditSession × Record :=
  ({ s with
      localHead :=
        localEventHash c s.localHead (s.localCount + 1) nowNs type.code kindPayload related
      localCount := s.localCount + 1 },
    ⟨type, localPayload nowNs related kindPayload⟩)

/-- `push_evidence`. -/
def pushEvidence (s : AuditSession) (kind : UInt8) (evidence : Bytes) (nowNs : UInt64) :
    AuditSession × Record :=
  s.pushLocal c .checkpointEvidence (kind :: (Codec.u32.enc (UInt32.ofNat evidence.length) ++
    evidence)) zeroHead nowNs

/-- The next input block event: its length and its HMAC under the session's input key. -/
def inputEvent (s : AuditSession) (block : Bytes) : SharedEvent :=
  let length := UInt64.ofNat block.length
  .input length (c.hmac s.facts.inputKey (chainDomain .input ++ (directionCtrlToHost ::
    (Codec.u64.enc ((s.shared .input).count + 1) ++ (Codec.u64.enc length ++ block)))))

/-- The next output block event. -/
def outputEvent (block : Bytes) : SharedEvent :=
  .output (UInt64.ofNat block.length) (c.sha256 block)

def commitInputBlock (s : AuditSession) (block : Bytes) : AuditSession × Record :=
  let (s', r) := s.commitShared c directionCtrlToHost (s.inputEvent c block)
  (s'.noteSharedBytes (UInt64.ofNat block.length), r)

def commitOutputBlock (s : AuditSession) (block : Bytes) : AuditSession × Record :=
  let (s', r) := s.commitShared c directionHostToCtrl (outputEvent c block)
  (s'.noteSharedBytes (UInt64.ofNat block.length), r)

/-- Commits completed blocks in order. -/
def commitBlocks (commit : AuditSession → Bytes → AuditSession × Record) :
    AuditSession → List Bytes → AuditSession × List Record
  | s, [] => (s, [])
  | s, block :: blocks =>
    let (s₁, r) := commit s block
    let (s₂, rs) := commitBlocks commit s₁ blocks
    (s₂, r :: rs)

/-! ## Recording -/

/-- `record_input`: the local commitment record first, then the blocks the segment completed. The
local record is related to the last of them, or to the zero head. -/
def recordInput (s : AuditSession) (bytes : Bytes) (nowNs : UInt64) :
    Except AuditError (AuditSession × List Record) := do
  s.requireRecordable
  if maxInputSegment < bytes.length then throw .segmentTooLarge
  if bytes.isEmpty then return (s, [])
  if s.inputNormalizer.closed then throw (.invalidState "the canonical stream is already closed")
  let (blocks, buffer) := s.inputNormalizer.feed bytes
  let (s₁, shared) := commitBlocks (commitInputBlock c)
    { s with inputNormalizer := { s.inputNormalizer with buffer := buffer } } blocks
  let related := if blocks.isEmpty then zeroHead else s₁.lastBlockOrZero .input
  let (s₂, r) := s₁.pushLocal c .localInputCommitment
    (directionCtrlToHost :: Codec.u64.enc (UInt64.ofNat bytes.length)) related nowNs
  return (s₂, r :: shared)

/-- `record_output_step`: the raw record, the completed blocks, then the display record. -/
def recordOutputStep (s : AuditSession) (bytes : Bytes) (nowNs : UInt64) (display : Option Bytes) :
    Except AuditError (AuditSession × List Record) := do
  s.requireRecordable
  if maxLocalOutputSegment < bytes.length ∨
      display.any (fun d => decide (maxLocalOutputSegment < d.length)) then
    throw .segmentTooLarge
  if s.outputNormalizer.closed then throw (.invalidState "the canonical stream is already closed")
  let (blocks, buffer) := s.outputNormalizer.feed bytes
  let (s₁, shared) := commitBlocks (commitOutputBlock c)
    { s with outputNormalizer := { s.outputNormalizer with buffer := buffer } } blocks
  let related := if blocks.isEmpty then zeroHead else s₁.lastBlockOrZero .output
  let (s₂, r) := s₁.pushLocal c .localRawOutput bytes related nowNs
  match display with
  | none => return (s₂, r :: shared)
  | some d =>
    let (s₃, r') := s₂.pushLocal c .localDisplayBytes d related nowNs
    return (s₃, r :: shared ++ [r'])

def recordOutput (s : AuditSession) (bytes : Bytes) (nowNs : UInt64) :
    Except AuditError (AuditSession × List Record) :=
  s.recordOutputStep c bytes nowNs none

def recordControllerOutput (s : AuditSession) (raw display : Bytes) (nowNs : UInt64) :
    Except AuditError (AuditSession × List Record) :=
  s.recordOutputStep c raw nowNs (some display)

/-- `record_local_only`: one local record of an active session. -/
def recordLocalOnly (s : AuditSession) (type : RecordType) (kindPayload : Bytes)
    (related : Digest32) (nowNs : UInt64) : Except AuditError (AuditSession × List Record) := do
  s.requireRecordable
  let (s', r) := s.pushLocal c type kindPayload related nowNs
  return (s', [r])

def recordDisplayBytes (s : AuditSession) (display : Bytes) (nowNs : UInt64) :
    Except AuditError (AuditSession × List Record) := do
  s.requireRecordable
  if maxLocalOutputSegment < display.length then throw .segmentTooLarge
  s.recordLocalOnly c .localDisplayBytes display (s.lastBlockOrZero .output) nowNs

def outcomeCode (confirmed : Bool) : UInt8 :=
  if confirmed then outcomeConfirmed else outcomeUnconfirmed

/-- `record_send_outcome`; the direction is not checked. -/
def recordSendOutcome (s : AuditSession) (direction : UInt8) (confirmed : Bool) (bytes nowNs : UInt64) :
    Except AuditError (AuditSession × List Record) :=
  s.recordLocalOnly c .localSendOutcome (direction :: outcomeCode confirmed :: Codec.u64.enc bytes)
    (s.relatedForDirection direction) nowNs

def recordPtyWriteOutcome (s : AuditSession) (confirmed : Bool) (bytes nowNs : UInt64) :
    Except AuditError (AuditSession × List Record) :=
  s.recordLocalOnly c .localPtyWriteOutcome (outcomeCode confirmed :: Codec.u64.enc bytes)
    (s.lastBlockOrZero .input) nowNs

def recordDisplayWriteOutcome (s : AuditSession) (confirmed : Bool) (bytes nowNs : UInt64) :
    Except AuditError (AuditSession × List Record) :=
  s.recordLocalOnly c .localDisplayWriteOutcome (outcomeCode confirmed :: Codec.u64.enc bytes)
    (s.lastBlockOrZero .output) nowNs

/-- `commit_shared_control`. -/
def commitSharedControl (s : AuditSession) (direction kind : UInt8) (payload : Bytes) :
    AuditSession × Record :=
  let (s', r) := s.commitShared c direction (.control kind payload)
  (s'.noteSharedBytes (UInt64.ofNat r.payload.length), r)

/-- A shared control event followed by the local record that is related to it. -/
def recordControlPair (s : AuditSession) (direction kind : UInt8) (payload : Bytes)
    (type : RecordType) (kindPayload : Bytes) (nowNs : UInt64) :
    Except AuditError (AuditSession × List Record) := do
  s.requireRecordable
  let (s₁, r) := s.commitSharedControl c direction kind payload
  let (s₂, r') := s₁.pushLocal c type kindPayload (s₁.shared .control).head nowNs
  return (s₂, [r, r'])

/-- `record_resize`; the direction is not checked. -/
def recordResize (s : AuditSession) (direction : UInt8) (cols rows : UInt16) (nowNs : UInt64) :
    Except AuditError (AuditSession × List Record) :=
  s.recordControlPair c direction controlKindResize (Codec.u16.enc cols ++ Codec.u16.enc rows)
    .localResizeEvent (direction :: (Codec.u16.enc cols ++ Codec.u16.enc rows)) nowNs

def recordTerminalHello (s : AuditSession) (digest : Digest32) (nowNs : UInt64) :
    Except AuditError (AuditSession × List Record) :=
  s.recordControlPair c directionCtrlToHost controlKindTerminalHello digest.1
    .localLifecycleEvent [lifecycleKindTerminalHello] nowNs

def recordTerminalReady (s : AuditSession) (nowNs : UInt64) :
    Except AuditError (AuditSession × List Record) :=
  s.recordControlPair c directionHostToCtrl controlKindTerminalReady []
    .localLifecycleEvent [lifecycleKindTerminalReady] nowNs

def recordTerminalExit (s : AuditSession) (exitCode : UInt32) (nowNs : UInt64) :
    Except AuditError (AuditSession × List Record) :=
  s.recordControlPair c directionHostToCtrl controlKindTerminalExit (Codec.u32.enc exitCode)
    .localLifecycleEvent [lifecycleKindTerminalExit] nowNs

def recordTerminalComplete (s : AuditSession) (nowNs : UInt64) :
    Except AuditError (AuditSession × List Record) :=
  s.recordControlPair c directionCtrlToHost controlKindTerminalComplete []
    .localLifecycleEvent [lifecycleKindTerminalComplete] nowNs

/-- `record_shared_close_reason`; the direction is not checked. -/
def recordSharedCloseReason (s : AuditSession) (direction : UInt8) (reason : AuditCloseReason)
    (nowNs : UInt64) : Except AuditError (AuditSession × List Record) :=
  s.recordControlPair c direction controlKindCloseReason [reason.code]
    .localCloseEvent [reason.code, outcomeConfirmed] nowNs

/-- `record_local_lifecycle`; the related head is the caller's. -/
def recordLocalLifecycle (s : AuditSession) (kind : UInt8) (related : Digest32) (nowNs : UInt64) :
    Except AuditError (AuditSession × List Record) :=
  s.recordLocalOnly c .localLifecycleEvent [kind] related nowNs

def recordKeyAction (s : AuditSession) (action : UInt8) (nowNs : UInt64) :
    Except AuditError (AuditSession × List Record) :=
  s.recordLocalOnly c .localKeyAction [action] zeroHead nowNs

def recordConnectionState (s : AuditSession) (state : UInt8) (nowNs : UInt64) :
    Except AuditError (AuditSession × List Record) :=
  s.recordLocalOnly c .localConnectionState [state] zeroHead nowNs

def recordLocalAuditError (s : AuditSession) (code : AuditErrorCode) (nowNs : UInt64) :
    Except AuditError (AuditSession × List Record) :=
  s.recordLocalOnly c .localAuditError (Codec.u16.enc code.code) zeroHead nowNs

/-- The local file record that carries a local path. -/
def localPathPayload (kind : UInt8) (transferId : UInt64) (path : String) : Bytes :=
  kind :: (Codec.u64.enc transferId ++ writePrefixed (utf8 path))

/-- `record_file_transfer`: the shared event, then the local path record when a path is given. -/
def recordFileTransfer (s : AuditSession) (facts : FileTransferFacts) (localPath : Option String)
    (nowNs : UInt64) : Except AuditError (AuditSession × List Record) := do
  s.requireRecordable
  if ¬ (facts.direction = directionCtrlToHost ∨ facts.direction = directionHostToCtrl) ∨
      ¬ (facts.kind = fileKindStart ∨ facts.kind = fileKindSuccess ∨
        facts.kind = fileKindCancelled ∨ facts.kind = fileKindFailed) then
    throw (.invalidState "the shared file transfer event is invalid")
  if maxProtocolPathLen < (utf8 facts.remotePath).length then throw .segmentTooLarge
  if maxProtocolFileNameLen < (utf8 facts.fileName).length then throw .segmentTooLarge
  if localPath.any (fun p => decide (maxLocalPathLen < (utf8 p).length)) then throw .segmentTooLarge
  let event : SharedEvent := .file facts.kind facts.transferId facts.declaredSize facts.finalSize
    facts.digest facts.remotePath facts.fileName facts.errorCode
  let (s₁, r) := s.commitShared c facts.direction event
  let head := (s₁.shared .fileTransfer).head
  let (s₂, rs) := match localPath with
    | none => (s₁, [])
    | some path =>
      let (s', r') := s₁.pushLocal c .localFileTransferEvent
        (localPathPayload facts.kind facts.transferId path) head nowNs
      (s', [r'])
  return ({ s₂ with
    latestFileEvent := some ⟨head, facts.transferId, facts.direction, facts.kind,
      localPath.isSome, false⟩
    checkpointSharedBytes := s₂.checkpointSharedBytes + UInt64.ofNat r.payload.length
    checkpointDueFlag := true }, r :: rs)

/-- `record_local_file_transfer_result`: a result that cannot enter the shared chain, related to the
start event of its transfer. -/
def recordLocalFileTransferResult (s : AuditSession) (kind : UInt8) (transferId finalSize : UInt64)
    (digest : Digest32) (localPath : Option String) (nowNs : UInt64) :
    Except AuditError (AuditSession × List Record) := do
  s.requireRecordable
  if ¬ (kind = fileLocalKindCommittedUnconfirmed ∨ kind = fileLocalKindCommitStatusUnknown) then
    throw (.invalidState "the local file transfer result kind is invalid")
  if localPath.any (fun p => decide (maxLocalPathLen < (utf8 p).length)) then throw .segmentTooLarge
  match s.latestFileEvent with
  | none => throw (.invalidState "a local file result requires a shared transfer start")
  | some latest =>
    if latest.kind ≠ fileKindStart ∨ latest.transferId ≠ transferId ∨
        latest.ambiguityRecorded = true ∨
        expectedLocalFileAmbiguityKind s.facts.fresh.role latest.direction ≠ some kind then
      throw (.invalidState "the local file transfer result does not match the active transfer")
    -- the path is recorded once, with the start event it belongs to
    let path := localPath.filter fun _ => !latest.localPathRecorded
    let (s₁, rs) := match path with
      | none => (s, [])
      | some path =>
        let (s', r) := s.pushLocal c .localFileTransferEvent
          (localPathPayload fileKindStart transferId path) latest.head nowNs
        (s', [r])
    let (s₂, r) := s₁.pushLocal c .localFileTransferEvent
      (kind :: (Codec.u64.enc transferId ++ (Codec.u64.enc finalSize ++ (digest.1 ++ [0, 0]))))
      latest.head nowNs
    return ({ s₂ with
      latestFileEvent := some { latest with
        localPathRecorded := latest.localPathRecorded || path.isSome
        ambiguityRecorded := true }
      checkpointDueFlag := true }, rs ++ [r])

/-! ## Checkpoints -/

/-- The checkpoint of the present state, signed with the session key. -/
def nextCheckpoint (s : AuditSession) : Checkpoint :=
  let unsigned : Checkpoint :=
    { sessionId := s.facts.sessionId
      sequence := s.nextCheckpointSequence
      snapshot := s.sharedSnapshot
      localChainHead := s.localHead
      ledgerSnapshotDigest := s.facts.fresh.ledgerSnapshotDigest c
      signature := FixedBytes.replicate 64 0 }
  { unsigned with signature := c.sign s.facts.fresh.sessionKey unsigned.signingInput }

/-- `build_checkpoint_with_policy`. -/
def buildCheckpointWithPolicy (s : AuditSession) (nowNs : UInt64) (policy : CheckpointPolicy) :
    Except AuditError (AuditSession × Checkpoint × List Record) := do
  match policy with
  | .observation => s.requireRecordable
  | .exactPrefix => s.requirePhase .finalizing
  let checkpoint := s.nextCheckpoint c
  let (s', r) := s.pushEvidence c evidenceSentCheckpoint (Checkpoint.codec.enc checkpoint) nowNs
  return ({ s' with
    lastSentCheckpoint := some checkpoint
    nextCheckpointSequence := checkpoint.sequence + 1
    lastCheckpointTimeNs := nowNs
    checkpointSharedBytes := 0
    checkpointDueFlag := false }, checkpoint, [r])

/-- `build_ack`: the receiver's signed copy of the sender's snapshot. -/
def buildAck (s : AuditSession) (checkpoint : Checkpoint) (digest : Digest32) : CheckpointAck :=
  let unsigned : CheckpointAck :=
    { sessionId := s.facts.sessionId
      sequence := checkpoint.sequence
      checkpointDigest := digest
      snapshot := checkpoint.snapshot
      signature := FixedBytes.replicate 64 0 }
  { unsigned with signature := c.sign s.facts.fresh.sessionKey unsigned.signingInput }

/-- `fail_checkpoint`: the state a rejected checkpoint leaves. -/
def failed (s : AuditSession) : AuditSession := { s with phase := .failed }

/-- `receive_checkpoint_with_policy`, with the state it leaves. -/
def receiveCheckpointWithPolicy (s : AuditSession) (checkpoint : Checkpoint) (nowNs : UInt64)
    (policy : CheckpointPolicy) :
    Except AuditError (CheckpointAck × List Record) × AuditSession :=
  let phaseCheck : Except AuditError Unit := match policy with
    | .observation =>
      if s.phase = .active ∨ s.phase = .finalizing then .ok ()
      else .error (.invalidState "checkpoint observation outside an active session")
    | .exactPrefix => s.requirePhase .finalizing
  match phaseCheck with
  | .error e => (.error e, s)
  | .ok () =>
    let digest := c.sha256 (Checkpoint.codec.enc checkpoint)
    let lastSequence := (s.lastReceivedCheckpoint.map Prod.fst).getD 0
    if checkpoint.sessionId ≠ s.facts.sessionId then (.error .checkpointMismatch, s.failed)
    else if c.verify s.facts.peerHello.sessionKey checkpoint.signingInput checkpoint.signature =
        false then (.error .checkpointMismatch, s.failed)
    else if policy = .exactPrefix ∧ checkpoint.snapshot ≠ s.sharedSnapshot then
      (.error .checkpointMismatch, s.failed)
    else if checkpoint.sequence ≠ lastSequence + 1 then
      if s.lastReceivedCheckpoint = some (checkpoint.sequence, digest) then
        -- a retransmission is acknowledged again without new evidence
        (.ok (s.buildAck c checkpoint digest, []), s)
      else (.error .checkpointMismatch, s.failed)
    else
      let s₁ := { s with
        lastReceivedCheckpoint := some (checkpoint.sequence, digest)
        lastConfirmedReceived := checkpoint.sequence }
      let (s₂, r) := s₁.pushEvidence c evidenceReceivedCheckpoint
        (Checkpoint.codec.enc checkpoint) nowNs
      let ack := s₂.buildAck c checkpoint digest
      let (s₃, r') := s₂.pushEvidence c evidenceSentCheckpointAck
        (CheckpointAck.codec.enc ack) nowNs
      (.ok (ack, [r, r']), s₃)

/-- `receive_checkpoint_ack`, with the state it leaves. -/
def receiveCheckpointAck (s : AuditSession) (ack : CheckpointAck) (nowNs : UInt64) :
    Except AuditError (Option (List Record)) × AuditSession :=
  if ¬ (s.phase = .active ∨ s.phase = .finalizing) then
    (.error (if s.phase = .failed then .failedClosed
      else .invalidState "checkpoint acknowledgment outside an active session"), s)
  else if ack.sessionId ≠ s.facts.sessionId then (.error .checkpointMismatch, s.failed)
  else
    match s.lastSentCheckpoint with
    | none => (.error (.invalidState "no checkpoint awaiting confirmation"), s)
    | some sent =>
      if ack.sequence ≠ sent.sequence then (.error .checkpointMismatch, s.failed)
      else if ack.checkpointDigest ≠ c.sha256 (Checkpoint.codec.enc sent) ∨
          ack.snapshot ≠ sent.snapshot then (.error .checkpointMismatch, s.failed)
      else if c.verify s.facts.peerHello.sessionKey ack.signingInput ack.signature = false then
        (.error .checkpointMismatch, s.failed)
      else if ack.sequence ≤ s.lastConfirmedSent then (.ok none, s)
      else
        let s₁ := { s with lastConfirmedSent := ack.sequence }
        let (s₂, r) := s₁.pushEvidence c evidenceReceivedCheckpointAck
          (CheckpointAck.codec.enc ack) nowNs
        (.ok (some [r]), s₂)

/-! ## Finalization -/

/-- `close_directions`: the final partial blocks as shared records, without local records. -/
def closeDirections (s : AuditSession) : Except AuditError (AuditSession × List Record) := do
  s.requireRecordable
  if s.inputNormalizer.closed then throw (.invalidState "the canonical stream is already closed")
  let (s₁, rs) := commitBlocks (commitInputBlock c) { s with inputNormalizer := ⟨[], true⟩ }
    s.inputNormalizer.finish
  if s.outputNormalizer.closed then throw (.invalidState "the canonical stream is already closed")
  let (s₂, rs') := commitBlocks (commitOutputBlock c) { s₁ with outputNormalizer := ⟨[], true⟩ }
    s.outputNormalizer.finish
  return ({ s₂ with phase := .finalizing }, rs ++ rs')

/-- The joint manifest of the present state: keys and fingerprints in role order. -/
def manifestFor (s : AuditSession) (ending : ManifestEnding) (endedNormally : Bool) :
    JointManifest :=
  let fresh := s.facts.fresh
  let fingerprints := fresh.byRole (fresh.fingerprint c) (s.facts.peerFingerprint c)
  let keys := fresh.byRole (fresh.sessionPubkey c) s.facts.peerHello.sessionKey
  { formatVersion := auditFormatVersion
    sessionId := s.facts.sessionId
    controllerFingerprint := fingerprints.1
    hostFingerprint := fingerprints.2
    controllerSessionKey := keys.1
    hostSessionKey := keys.2
    connectionBinding := fresh.binding
    terminalHelloDigest := s.facts.terminalHelloDigest
    finalSnapshot := s.sharedSnapshot
    ending := ending
    endedNormally := endedNormally
    finalCheckpointSequence := s.lastConfirmedCheckpointSequence }

/-- `build_seal`. -/
def buildSeal (s : AuditSession) (sealedPrefixDigest jointManifestDigest : Digest32) :
    LocalRecordSeal :=
  let unsigned : LocalRecordSeal :=
    { sessionId := s.facts.sessionId
      role := s.facts.fresh.role
      finalLocalEventRoot := s.localHead
      localEventCount := s.localCount
      finalSharedRoots := s.sharedSnapshot.roots
      jointManifestDigest := jointManifestDigest
      sealedPrefixDigest := sealedPrefixDigest
      signature := FixedBytes.replicate 64 0 }
  { unsigned with signature := c.sign s.facts.fresh.sessionKey unsigned.signingInput }

/-- `build_ledger_commit`. -/
def buildLedgerCommit (s : AuditSession) (sequence : UInt64)
    (previousRoot manifestDigest sealedRecordDigest : Digest32) : LedgerCommit :=
  let unsigned : LedgerCommit :=
    { sequence := sequence
      previousRoot := previousRoot
      sessionId := s.facts.sessionId
      manifestDigest := manifestDigest
      sealedRecordDigest := sealedRecordDigest
      peerIdentityFingerprint := s.facts.peerFingerprint c
      result := .normal
      signature := FixedBytes.replicate 64 0 }
  { unsigned with signature := c.sign s.facts.fresh.identityKey unsigned.signingInput }

/-- `fail_closed_records`: the failure-close records of an interrupted prefix. -/
def failClosedRecords (s : AuditSession) (code : AuditErrorCode) (reason : AuditCloseReason)
    (nowNs : UInt64) : Except AuditError (AuditSession × List Record) :=
  if s.phase = .failed then .error .failedClosed
  else
    let (s₁, r₁) := s.pushLocal c .localAuditError (Codec.u16.enc code.code) zeroHead nowNs
    let (s₂, r₂) := s₁.pushLocal c .localConnectionState [connectionStateClosed] zeroHead nowNs
    let (s₃, r₃) := s₂.pushLocal c .localCloseEvent [reason.code, outcomeUnconfirmed] zeroHead nowNs
    .ok (s₃.failed, [r₁, r₂, r₃])

end

end AuditSession

end Yonder.Audit
