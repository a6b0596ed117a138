import Yonder.Audit.Evidence

/-!
# The recording calls of one session

`RecordOp` is the public recording interface of a session as data. A recording call leaves the
handshake, the checkpoint exchange and the manifest alone (`RecordOp.apply_sameExchange`), it needs an
active session (`RecordOp.apply_active`), and the local records it writes pass the size check of the
writer (`Record.Fits`).
-/

namespace Yonder.Audit

open Lib Wire

/-! ## The recording calls -/

/-- The public recording calls of a session with their arguments; the time is given separately. -/
inductive RecordOp where
  | input (bytes : Bytes)
  | output (bytes : Bytes)
  | controllerOutput (raw display : Bytes)
  | displayBytes (display : Bytes)
  | sendOutcome (direction : UInt8) (confirmed : Bool) (bytes : UInt64)
  | ptyWriteOutcome (confirmed : Bool) (bytes : UInt64)
  | displayWriteOutcome (confirmed : Bool) (bytes : UInt64)
  | resize (direction : UInt8) (cols rows : UInt16)
  | terminalHello (digest : Digest32)
  | terminalReady
  | terminalExit (exitCode : UInt32)
  | terminalComplete
  | sharedCloseReason (direction : UInt8) (reason : AuditCloseReason)
  | localLifecycle (kind : UInt8) (related : Digest32)
  | keyAction (action : UInt8)
  | connectionState (state : UInt8)
  | localAuditError (code : AuditErrorCode)
  | fileTransfer (facts : FileTransferFacts) (localPath : Option String)
  | localFileTransferResult (kind : UInt8) (transferId finalSize : UInt64) (digest : Digest32)
      (localPath : Option String)

namespace RecordOp

/-- The call that an operation stands for. -/
def apply (c : Crypto) (s : AuditSession) (now : UInt64) :
    RecordOp → Except AuditError (AuditSession × List Record)
  | input bytes => s.recordInput c bytes now
  | output bytes => s.recordOutput c bytes now
  | controllerOutput raw display => s.recordControllerOutput c raw display now
  | displayBytes display => s.recordDisplayBytes c display now
  | sendOutcome direction confirmed bytes => s.recordSendOutcome c direction confirmed bytes now
  | ptyWriteOutcome confirmed bytes => s.recordPtyWriteOutcome c confirmed bytes now
  | displayWriteOutcome confirmed bytes => s.recordDisplayWriteOutcome c confirmed bytes now
  | resize direction cols rows => s.recordResize c direction cols rows now
  | terminalHello digest => s.recordTerminalHello c digest now
  | terminalReady => s.recordTerminalReady c now
  | terminalExit exitCode => s.recordTerminalExit c exitCode now
  | terminalComplete => s.recordTerminalComplete c now
  | sharedCloseReason direction reason => s.recordSharedCloseReason c direction reason now
  | localLifecycle kind related => s.recordLocalLifecycle c kind related now
  | keyAction action => s.recordKeyAction c action now
  | connectionState state => s.recordConnectionState c state now
  | localAuditError code => s.recordLocalAuditError c code now
  | fileTransfer facts localPath => s.recordFileTransfer c facts localPath now
  | localFileTransferResult kind transferId finalSize digest localPath =>
    s.recordLocalFileTransferResult c kind transferId finalSize digest localPath now

end RecordOp

/-! ## What a recording call leaves alone -/

/-- Everything the checkpoint exchange and the close read is the same in both states. -/
structure SameExchange (s s' : AuditSession) : Prop where
  facts_eq : s'.facts = s.facts
  next_eq : s'.nextCheckpointSequence = s.nextCheckpointSequence
  sent_eq : s'.lastSentCheckpoint = s.lastSentCheckpoint
  received_eq : s'.lastReceivedCheckpoint = s.lastReceivedCheckpoint
  confirmedSent_eq : s'.lastConfirmedSent = s.lastConfirmedSent
  confirmedReceived_eq : s'.lastConfirmedReceived = s.lastConfirmedReceived
  phase_eq : s'.phase = s.phase
  inputClosed_eq : s'.inputNormalizer.closed = s.inputNormalizer.closed
  outputClosed_eq : s'.outputNormalizer.closed = s.outputNormalizer.closed

theorem SameExchange.refl (s : AuditSession) : SameExchange s s :=
  ⟨rfl, rfl, rfl, rfl, rfl, rfl, rfl, rfl, rfl⟩

theorem SameExchange.trans {s₁ s₂ s₃ : AuditSession} (h₁ : SameExchange s₁ s₂)
    (h₂ : SameExchange s₂ s₃) : SameExchange s₁ s₃ where
  facts_eq := h₂.facts_eq.trans h₁.facts_eq
  next_eq := h₂.next_eq.trans h₁.next_eq
  sent_eq := h₂.sent_eq.trans h₁.sent_eq
  received_eq := h₂.received_eq.trans h₁.received_eq
  confirmedSent_eq := h₂.confirmedSent_eq.trans h₁.confirmedSent_eq
  confirmedReceived_eq := h₂.confirmedReceived_eq.trans h₁.confirmedReceived_eq
  phase_eq := h₂.phase_eq.trans h₁.phase_eq
  inputClosed_eq := h₂.inputClosed_eq.trans h₁.inputClosed_eq
  outputClosed_eq := h₂.outputClosed_eq.trans h₁.outputClosed_eq

section

variable {c : Crypto} {s s' : AuditSession} {now : UInt64} {rs : List Record}

theorem sameExchange_pushLocal (s : AuditSession) (type : RecordType) (kind : Bytes)
    (related : Digest32) (now : UInt64) : SameExchange s (s.pushLocal c type kind related now).1 :=
  ⟨rfl, rfl, rfl, rfl, rfl, rfl, rfl, rfl, rfl⟩

theorem sameExchange_commitBlocks {commit : AuditSession → Bytes → AuditSession × Record}
    (hcommit : ∀ s block, SameExchange s (commit s block).1) (blocks : List Bytes) :
    ∀ s, SameExchange s (AuditSession.commitBlocks commit s blocks).1 := by
  induction blocks with
  | nil => exact SameExchange.refl
  | cons block blocks ih => exact fun s => (hcommit s block).trans (ih _)

theorem sameExchange_inputBlocks (s : AuditSession) (blocks : List Bytes) :
    SameExchange s (AuditSession.commitBlocks (AuditSession.commitInputBlock c) s blocks).1 :=
  sameExchange_commitBlocks (fun _ _ => ⟨rfl, rfl, rfl, rfl, rfl, rfl, rfl, rfl, rfl⟩) blocks s

theorem sameExchange_outputBlocks (s : AuditSession) (blocks : List Bytes) :
    SameExchange s (AuditSession.commitBlocks (AuditSession.commitOutputBlock c) s blocks).1 :=
  sameExchange_commitBlocks (fun _ _ => ⟨rfl, rfl, rfl, rfl, rfl, rfl, rfl, rfl, rfl⟩) blocks s

theorem sameExchange_recordInput {bytes : Bytes} (h : s.recordInput c bytes now = .ok (s', rs)) :
    SameExchange s s' := by
  rcases recordInput_ok h with ⟨rfl, -, -⟩ |
    ⟨blocks, buffer, s₁, shared, related, -, hblocks, -, rfl, -⟩
  · exact SameExchange.refl _
  · have hkeep := sameExchange_inputBlocks (c := c)
      { s with inputNormalizer := { s.inputNormalizer with buffer := buffer } } blocks
    rw [hblocks] at hkeep
    exact ⟨hkeep.1, hkeep.2, hkeep.3, hkeep.4, hkeep.5, hkeep.6, hkeep.7, hkeep.8, hkeep.9⟩

theorem sameExchange_recordOutputStep {bytes : Bytes} {display : Option Bytes}
    (h : s.recordOutputStep c bytes now display = .ok (s', rs)) : SameExchange s s' := by
  obtain ⟨-, -, blocks, buffer, s₁, shared, related, -, hblocks, -, hend⟩ := recordOutputStep_ok h
  have hkeep := sameExchange_outputBlocks (c := c)
    { s with outputNormalizer := { s.outputNormalizer with buffer := buffer } } blocks
  rw [hblocks] at hkeep
  have hraw : SameExchange s (s₁.pushLocal c .localRawOutput bytes related now).1 :=
    ⟨hkeep.1, hkeep.2, hkeep.3, hkeep.4, hkeep.5, hkeep.6, hkeep.7, hkeep.8, hkeep.9⟩
  cases display with
  | none =>
    obtain ⟨rfl, -⟩ := hend
    exact hraw
  | some d =>
    obtain ⟨rfl, -⟩ := hend
    exact hraw.trans (sameExchange_pushLocal _ _ _ _ _)

theorem sameExchange_recordLocalOnly {type : RecordType} {kind : Bytes} {related : Digest32}
    (h : s.recordLocalOnly c type kind related now = .ok (s', rs)) : SameExchange s s' := by
  obtain ⟨rfl, -⟩ := recordLocalOnly_ok h
  exact sameExchange_pushLocal _ _ _ _ _

theorem recordDisplayBytes_ok {display : Bytes}
    (h : s.recordDisplayBytes c display now = .ok (s', rs)) :
    display.length ≤ maxLocalOutputSegment ∧
      s.recordLocalOnly c .localDisplayBytes display (s.lastBlockOrZero .output) now =
        .ok (s', rs) := by
  unfold AuditSession.recordDisplayBytes at h
  obtain ⟨-, -, h⟩ := bind_eq_ok_iff.1 h
  split at h
  · cases h
  · rename_i hlen
    exact ⟨not_lt.1 hlen, h⟩

theorem sameExchange_recordControlPair {direction kind : UInt8} {payload kindPayload : Bytes}
    {type : RecordType}
    (h : s.recordControlPair c direction kind payload type kindPayload now = .ok (s', rs)) :
    SameExchange s s' := by
  obtain ⟨s₁, r, hcommit, rfl, -⟩ := recordControlPair_ok h
  cases hcommit
  exact ⟨rfl, rfl, rfl, rfl, rfl, rfl, rfl, rfl, rfl⟩

theorem sameExchange_recordFileTransfer {facts : FileTransferFacts} {localPath : Option String}
    (h : s.recordFileTransfer c facts localPath now = .ok (s', rs)) : SameExchange s s' := by
  obtain ⟨-, -, -, -, s₂, paths, bytes, head, -, hpaths, rfl, -⟩ := recordFileTransfer_ok h
  cases localPath with
  | none =>
    obtain ⟨rfl, -⟩ := hpaths
    exact ⟨rfl, rfl, rfl, rfl, rfl, rfl, rfl, rfl, rfl⟩
  | some path =>
    obtain ⟨rfl, -⟩ := hpaths
    exact ⟨rfl, rfl, rfl, rfl, rfl, rfl, rfl, rfl, rfl⟩

theorem sameExchange_recordLocalFileTransferResult {kind : UInt8} {transferId finalSize : UInt64}
    {digest : Digest32} {localPath : Option String}
    (h : s.recordLocalFileTransferResult c kind transferId finalSize digest localPath now =
      .ok (s', rs)) : SameExchange s s' := by
  obtain ⟨-, -, latest, s₁, paths, path, -, -, -, -, -, -, hpaths, rfl, -⟩ :=
    recordLocalFileTransferResult_ok h
  cases path with
  | none =>
    obtain ⟨rfl, -⟩ := hpaths
    exact ⟨rfl, rfl, rfl, rfl, rfl, rfl, rfl, rfl, rfl⟩
  | some path =>
    obtain ⟨rfl, -⟩ := hpaths
    exact ⟨rfl, rfl, rfl, rfl, rfl, rfl, rfl, rfl, rfl⟩

/-- A recording call only advances chains. -/
theorem RecordOp.apply_sameExchange (op : RecordOp) (h : op.apply c s now = .ok (s', rs)) :
    SameExchange s s' := by
  cases op with
  | input bytes => exact sameExchange_recordInput h
  | output bytes => exact sameExchange_recordOutputStep h
  | controllerOutput raw display => exact sameExchange_recordOutputStep h
  | displayBytes display => exact sameExchange_recordLocalOnly (recordDisplayBytes_ok h).2
  | sendOutcome direction confirmed bytes => exact sameExchange_recordLocalOnly h
  | ptyWriteOutcome confirmed bytes => exact sameExchange_recordLocalOnly h
  | displayWriteOutcome confirmed bytes => exact sameExchange_recordLocalOnly h
  | resize direction cols rows => exact sameExchange_recordControlPair h
  | terminalHello digest => exact sameExchange_recordControlPair h
  | terminalReady => exact sameExchange_recordControlPair h
  | terminalExit exitCode => exact sameExchange_recordControlPair h
  | terminalComplete => exact sameExchange_recordControlPair h
  | sharedCloseReason direction reason => exact sameExchange_recordControlPair h
  | localLifecycle kind related => exact sameExchange_recordLocalOnly h
  | keyAction action => exact sameExchange_recordLocalOnly h
  | connectionState state => exact sameExchange_recordLocalOnly h
  | localAuditError code => exact sameExchange_recordLocalOnly h
  | fileTransfer facts localPath => exact sameExchange_recordFileTransfer h
  | localFileTransferResult kind transferId finalSize digest localPath =>
    exact sameExchange_recordLocalFileTransferResult h

end

/-! ## Every record passes the writer's check -/

/-- A payload that fits every record type. -/
def Record.Fits (r : Record) : Prop := r.payload.length ≤ 65536

theorem Record.Fits.valid {r : Record} (h : Record.Fits r) : r.Valid := by
  have hlen : r.payload.length ≤ 65536 := h
  have h₁ : r.payload.length + 1 ≤ maxRecordFrameLen := by
    show r.payload.length + 1 ≤ 1048576
    omega
  have h₂ : ¬ maxRawOutputFrameLen < r.payload.length + 1 := by
    show ¬ 65537 < r.payload.length + 1
    omega
  simp [Record.Valid, validateFrameLen, h₁, h₂]

theorem length_localPayload (now : UInt64) (related : Digest32) (kind : Bytes) :
    (localPayload now related kind).length = 40 + kind.length := by
  simp only [localPayload, List.length_append, length_u64_enc, related.2]
  omega

theorem SharedRecord.length_payload (r : SharedRecord) :
    r.payload.length = 73 + r.event.canonical.length := by
  simp only [SharedRecord.payload, List.length_cons, List.length_append, length_u64_enc,
    r.previousHead.2, r.newHead.2]
  omega

theorem fits_local {type : RecordType} {now : UInt64} {related : Digest32} {kind : Bytes}
    (h : kind.length ≤ maxLocalOutputSegment) :
    Record.Fits ⟨type, localPayload now related kind⟩ := by
  have hlen : kind.length ≤ 65496 := h
  show (localPayload now related kind).length ≤ 65536
  rw [length_localPayload]
  omega

/-! ## Recording needs an active session -/

section

variable {c : Crypto} {s s' : AuditSession} {now : UInt64} {rs : List Record}

theorem requireRecordable_ok (h : s.requireRecordable = .ok ()) : s.phase = .active := by
  unfold AuditSession.requireRecordable at h
  cases hphase : s.phase <;> simp_all

/-- A call that starts with the check on the phase. -/
theorem active_of_bind {α : Type} {f : Unit → Except AuditError α} {a : α}
    (h : (s.requireRecordable >>= f) = .ok a) : s.phase = .active := by
  obtain ⟨_, hrec, -⟩ := bind_eq_ok_iff.1 h
  exact requireRecordable_ok hrec

theorem RecordOp.apply_active (op : RecordOp) (h : op.apply c s now = .ok (s', rs)) :
    s.phase = .active := by
  cases op <;> exact active_of_bind h

theorem closeDirections_active (h : s.closeDirections c = .ok (s', rs)) : s.phase = .active :=
  active_of_bind h

theorem requirePhase_ok {expected : Phase} (h : s.requirePhase expected = .ok ()) :
    s.phase = expected := by
  unfold AuditSession.requirePhase at h
  split at h
  · cases h
  split at h
  · cases h
  rename_i hne
  exact not_not.1 hne

theorem fits_failClosedRecords {code : AuditErrorCode} {reason : AuditCloseReason}
    (h : s.failClosedRecords c code reason now = .ok (s', rs)) : ∀ r ∈ rs, Record.Fits r := by
  unfold AuditSession.failClosedRecords at h
  split at h
  · cases h
  cases h
  simp only [List.forall_mem_cons, List.not_mem_nil, false_implies, implies_true, and_true]
  refine ⟨fits_local ?_, fits_local ?_, fits_local ?_⟩
  · simp [length_u16_enc, maxLocalOutputSegment]
  · simp [maxLocalOutputSegment]
  · simp [maxLocalOutputSegment]

end

end Yonder.Audit
