import Yonder.Audit.Verify

/-!
# The verifier follows the session

`Sim c n s v` relates a session `s` to the verifier state `v` that has read everything `s` wrote, at
most `n` records: the chains, the last blocks, the latest file event and the checkpoint counters
agree. Each record the session writes takes the verifier to a state related to the session's next
one. The bound `n` is there for the checkpoint sequences, which the session lets wrap and the
verifier does not: a file has fewer than `2 ^ 64` records.
-/

namespace Yonder.Audit

open Lib Wire

variable {related : Digest32} {direction kind : UInt8} {now : UInt64} {s' : AuditSession}
  {localPath : Option String}

section

variable (c : Crypto)

/-- The reference the verifier keeps of a checkpoint. -/
def checkpointRef (k : Checkpoint) : CheckpointRef :=
  ⟨k.sequence, c.sha256 (Checkpoint.codec.enc k), k.snapshot⟩

variable {c} {s : AuditSession}

/-! ## One record -/

/-- The two flow directions. -/
def FlowDirection (direction : UInt8) : Prop :=
  direction = directionCtrlToHost ∨ direction = directionHostToCtrl

/-! ## Input and output steps

The session commits the completed blocks and then pushes the local record, which it writes first;
the local and the shared chains do not meet, so the order makes no difference. -/

variable {rs : List Record}

theorem recordInput_ok {bytes : Bytes} (h : s.recordInput c bytes now = .ok (s', rs)) :
    (s' = s ∧ bytes = [] ∧ rs = []) ∨ ∃ blocks buffer s₁ shared related,
      s.inputNormalizer.feed bytes = (blocks, buffer) ∧
      AuditSession.commitBlocks (AuditSession.commitInputBlock c)
        { s with inputNormalizer := { s.inputNormalizer with buffer := buffer } } blocks =
          (s₁, shared) ∧
      related = (if blocks.isEmpty then zeroHead else s₁.lastBlockOrZero .input) ∧
      s' = (s₁.pushLocal c .localInputCommitment
        (directionCtrlToHost :: Codec.u64.enc (UInt64.ofNat bytes.length)) related now).1 ∧
      rs = ⟨.localInputCommitment, localPayload now related
        (directionCtrlToHost :: Codec.u64.enc (UInt64.ofNat bytes.length))⟩ :: shared := by
  unfold AuditSession.recordInput at h
  obtain ⟨-, -, h⟩ := bind_eq_ok_iff.1 h
  simp only [bind, Except.bind, pure, Except.pure, throw, throwThe, MonadExceptOf.throw] at h
  split at h
  · cases h
  · split at h
    · rename_i hempty
      cases h
      exact Or.inl ⟨rfl, List.isEmpty_iff.1 hempty, rfl⟩
    · split at h
      · cases h
      · right
        cases h
        exact ⟨_, _, _, _, _, rfl, rfl, rfl, rfl, rfl⟩

theorem recordOutputStep_ok {bytes : Bytes} {display : Option Bytes}
    (h : s.recordOutputStep c bytes now display = .ok (s', rs)) :
    bytes.length ≤ maxLocalOutputSegment ∧
      (∀ d, display = some d → d.length ≤ maxLocalOutputSegment) ∧
    ∃ blocks buffer s₁ shared related,
      s.outputNormalizer.feed bytes = (blocks, buffer) ∧
      AuditSession.commitBlocks (AuditSession.commitOutputBlock c)
        { s with outputNormalizer := { s.outputNormalizer with buffer := buffer } } blocks =
          (s₁, shared) ∧
      related = (if blocks.isEmpty then zeroHead else s₁.lastBlockOrZero .output) ∧
      match display with
      | none => s' = (s₁.pushLocal c .localRawOutput bytes related now).1 ∧
          rs = ⟨.localRawOutput, localPayload now related bytes⟩ :: shared
      | some d => s' = ((s₁.pushLocal c .localRawOutput bytes related now).1.pushLocal c
            .localDisplayBytes d related now).1 ∧
          rs = ⟨.localRawOutput, localPayload now related bytes⟩ :: shared ++
            [⟨.localDisplayBytes, localPayload now related d⟩] := by
  unfold AuditSession.recordOutputStep at h
  obtain ⟨-, -, h⟩ := bind_eq_ok_iff.1 h
  simp only [bind, Except.bind, pure, Except.pure, throw, throwThe, MonadExceptOf.throw] at h
  split at h
  · cases h
  · rename_i hlen
    rw [not_or] at hlen
    refine ⟨not_lt.1 hlen.1, ?_, ?_⟩
    · rintro d rfl
      simpa using hlen.2
    split at h
    · cases h
    · cases display with
      | none =>
        cases h
        exact ⟨_, _, _, _, _, rfl, rfl, rfl, rfl, rfl⟩
      | some d =>
        cases h
        exact ⟨_, _, _, _, _, rfl, rfl, rfl, rfl, rfl⟩

/-! ## Local records -/

theorem recordLocalOnly_ok {type : RecordType} {kind : Bytes}
    (h : s.recordLocalOnly c type kind related now = .ok (s', rs)) :
    s' = (s.pushLocal c type kind related now).1 ∧ rs = [⟨type, localPayload now related kind⟩] := by
  unfold AuditSession.recordLocalOnly at h
  obtain ⟨-, -, h⟩ := bind_eq_ok_iff.1 h
  cases h
  exact ⟨rfl, rfl⟩

/-! ## Control events -/

theorem recordControlPair_ok {payload kindPayload : Bytes} {type : RecordType}
    (h : s.recordControlPair c direction kind payload type kindPayload now = .ok (s', rs)) :
    ∃ s₁ r, s.commitSharedControl c direction kind payload = (s₁, r) ∧
      s' = (s₁.pushLocal c type kindPayload (s₁.shared .control).head now).1 ∧
      rs = [r, ⟨type, localPayload now (s₁.shared .control).head kindPayload⟩] := by
  unfold AuditSession.recordControlPair at h
  obtain ⟨-, -, h⟩ := bind_eq_ok_iff.1 h
  cases h
  exact ⟨_, _, rfl, rfl, rfl⟩

/-! ## File transfers -/

/-- The shared event of file transfer facts. -/
def FileTransferFacts.event (facts : FileTransferFacts) : SharedEvent :=
  .file facts.kind facts.transferId facts.declaredSize facts.finalSize facts.digest
    facts.remotePath facts.fileName facts.errorCode

theorem commitShared_head (s : AuditSession) (direction : UInt8) (e : SharedEvent) :
    ((s.commitShared c direction e).1.shared e.stream).head =
      (s.nextSharedRecord c direction e).newHead := by
  simp [AuditSession.commitShared]

theorem recordFileTransfer_ok {facts : FileTransferFacts}
    (h : s.recordFileTransfer c facts localPath now = .ok (s', rs)) :
    FlowDirection facts.direction ∧ ChainVerifier.fileKindValid facts.kind = true ∧
      ((utf8 facts.remotePath).length ≤ maxProtocolPathLen ∧
        (utf8 facts.fileName).length ≤ maxProtocolFileNameLen) ∧
      (∀ path, localPath = some path → (utf8 path).length ≤ maxLocalPathLen) ∧
      ∃ s₂ paths bytes head,
        head = (s.nextSharedRecord c facts.direction facts.event).newHead ∧
        (match localPath with
          | none => s₂ = (s.commitShared c facts.direction facts.event).1 ∧ paths = []
          | some path =>
            s₂ = ((s.commitShared c facts.direction facts.event).1.pushLocal c
              .localFileTransferEvent
              (AuditSession.localPathPayload facts.kind facts.transferId path) head now).1 ∧
            paths = [⟨.localFileTransferEvent, localPayload now head
              (AuditSession.localPathPayload facts.kind facts.transferId path)⟩]) ∧
        s' = { s₂ with
          latestFileEvent := some ⟨head, facts.transferId, facts.direction, facts.kind,
            localPath.isSome, false⟩
          checkpointSharedBytes := bytes
          checkpointDueFlag := true } ∧
        rs = (s.commitShared c facts.direction facts.event).2 :: paths := by
  unfold AuditSession.recordFileTransfer at h
  obtain ⟨-, -, h⟩ := bind_eq_ok_iff.1 h
  simp only [bind, Except.bind, pure, Except.pure, throw, throwThe, MonadExceptOf.throw] at h
  split at h
  · cases h
  rename_i hvalid
  split at h
  · cases h
  rename_i hremote
  split at h
  · cases h
  rename_i hname
  split at h
  · cases h
  rename_i hlocal
  rw [not_or, not_not, not_not] at hvalid
  refine ⟨hvalid.1, decide_eq_true hvalid.2, ⟨not_lt.1 hremote, not_lt.1 hname⟩, ?_, ?_⟩
  · rintro path rfl
    simpa using hlocal
  · cases localPath with
    | none =>
      cases h
      exact ⟨_, _, _, _, commitShared_head s facts.direction facts.event, ⟨rfl, rfl⟩, rfl, rfl⟩
    | some path =>
      cases h
      exact ⟨_, _, _, _, commitShared_head s facts.direction facts.event, ⟨rfl, rfl⟩, rfl, rfl⟩

theorem recordLocalFileTransferResult_ok {transferId finalSize : UInt64} {digest : Digest32}
    (h : s.recordLocalFileTransferResult c kind transferId finalSize digest localPath now =
      .ok (s', rs)) :
    (kind = fileLocalKindCommittedUnconfirmed ∨ kind = fileLocalKindCommitStatusUnknown) ∧
      (∀ path, localPath = some path → (utf8 path).length ≤ maxLocalPathLen) ∧
      ∃ latest s₁ paths path,
        s.latestFileEvent = some latest ∧ latest.kind = fileKindStart ∧
        latest.transferId = transferId ∧ latest.ambiguityRecorded = false ∧
        expectedLocalFileAmbiguityKind s.facts.fresh.role latest.direction = some kind ∧
        path = localPath.filter (fun _ => !latest.localPathRecorded) ∧
        (match path with
          | none => s₁ = s ∧ paths = []
          | some p =>
            s₁ = (s.pushLocal c .localFileTransferEvent
              (AuditSession.localPathPayload fileKindStart transferId p) latest.head now).1 ∧
            paths = [⟨.localFileTransferEvent, localPayload now latest.head
              (AuditSession.localPathPayload fileKindStart transferId p)⟩]) ∧
        s' = { (s₁.pushLocal c .localFileTransferEvent
            (kind :: (Codec.u64.enc transferId ++ (Codec.u64.enc finalSize ++ (digest.1 ++ [0, 0]))))
            latest.head now).1 with
          latestFileEvent := some { latest with
            localPathRecorded := latest.localPathRecorded || path.isSome
            ambiguityRecorded := true }
          checkpointDueFlag := true } ∧
        rs = paths ++ [⟨.localFileTransferEvent, localPayload now latest.head
          (kind :: (Codec.u64.enc transferId ++
            (Codec.u64.enc finalSize ++ (digest.1 ++ [0, 0]))))⟩] := by
  unfold AuditSession.recordLocalFileTransferResult at h
  obtain ⟨-, -, h⟩ := bind_eq_ok_iff.1 h
  simp only [bind, Except.bind, pure, Except.pure, throw, throwThe, MonadExceptOf.throw] at h
  split at h
  · cases h
  rename_i hkind
  split at h
  · cases h
  rename_i hlocal
  refine ⟨not_not.1 hkind, ?_, ?_⟩
  · rintro path rfl
    simpa using hlocal
  cases hlatest : s.latestFileEvent with
  | none =>
    rw [hlatest] at h
    cases h
  | some latest =>
    simp only [hlatest] at h
    split at h
    · cases h
    rename_i hmatch
    rw [not_or, not_or, not_or, not_not, not_not, not_not] at hmatch
    obtain ⟨hstart, hid, hamb, hexp⟩ := hmatch
    refine ⟨latest, ?_⟩
    cases hpath : localPath.filter (fun _ => !latest.localPathRecorded) with
    | none =>
      simp only [hpath] at h
      cases h
      exact ⟨_, _, _, rfl, hstart, hid, by simpa using hamb, hexp, rfl, ⟨rfl, rfl⟩, rfl, rfl⟩
    | some p =>
      simp only [hpath] at h
      cases h
      exact ⟨_, _, _, rfl, hstart, hid, by simpa using hamb, hexp, rfl, ⟨rfl, rfl⟩, rfl, rfl⟩

end

end Yonder.Audit
