import Yonder.Audit.Chain
import Yonder.Transfer.Files

/-!
# What the two sides of a transfer have in common

Reading and writing one frame on the substream, the outcomes of the failures there, and the audit
events around a transfer. What the stream, the clock and the cancel flag do to a read or a write is
an input; a write may have handed any number of the frame's bytes to the stream when it fails. Once a
side has its outcome it does not use its wire session again, so closing the session is left out.
-/

namespace Yonder.Transfer

open Lib Wire Audit

/-! ## The substream -/

/-- One direction of the substream: the bytes that are on the way, and whether no more will come. -/
structure Link where
  bytes : Bytes := []
  closed : Bool := false

/-- A frame, and how many of its bytes the stream accepted. -/
structure Written where
  message : FileTransferMessage
  accepted : Nat

/-- The bytes of the frame that were accepted. -/
def Written.bytes (w : Written) : Bytes := ((encodeFrame w.message).getD []).take w.accepted

/-- What a side wrote in one step. -/
abbrev Output := Option Written

/-- What is written after the stream was cut goes nowhere. -/
def Link.write (l : Link) (output : Output) : Link :=
  match output with
  | none => l
  | some w => if l.closed then l else { l with bytes := l.bytes ++ w.bytes }

inductive FrameReadError where
  | eof
  | truncated
  | protocol
  | timeout
  | io
deriving DecidableEq, Repr

/-- The end of the stream where a read begins, of a header or of a payload, is a boundary. -/
def eofError (bytes : Bytes) : FrameReadError :=
  if bytes.length = 0 ∨ bytes.length = frameHeaderLen then .eof else .truncated

/-- What may end the wait for a frame besides the frame. -/
inductive ReadFault where
  | timeout
  | io
deriving DecidableEq, Repr

/-- `read_frame`: it waits as long as there is no whole frame and the stream has not ended. -/
def readLink (sink : Bool) (fault : Option ReadFault) (l : Link) :
    Option (Except FrameReadError (FileTransferMessage × Link)) :=
  match fault with
  | some .timeout => some (.error .timeout)
  | some .io => some (.error .io)
  | none =>
    match readFrame sink l.bytes with
    | .message m rest => some (.ok (m, { l with bytes := rest }))
    | .protocol => some (.error .protocol)
    | .more => if l.closed then some (.error (eofError l.bytes)) else none

/-- How a bounded write went; a number is how many bytes were accepted before it failed. -/
inductive WriteOutcome where
  | done
  /-- The cancel flag was set before the write. -/
  | refused
  | cancelled (accepted : Nat)
  | timeout (accepted : Nat)
  | io (accepted : Nat)
deriving DecidableEq, Repr

inductive WriteFrameError where
  | protocol
  | timeout (started : Bool)
  | cancelled (started : Bool)
  | io (started : Bool)
deriving DecidableEq, Repr

/-- A frame that was handed over. -/
def whole (m : FileTransferMessage) (frame : Bytes) : Written := ⟨m, frame.length⟩

/-- `write_frame_bounded`: the session records the send before any byte is written. -/
def writeFrameBounded (session : WireSession) (m : FileTransferMessage) (w : WriteOutcome) :
    WireSession × Output × Except WriteFrameError Unit :=
  if w = .refused then (session, none, .error (.cancelled false))
  else
    match session.send m with
    | .error _ => (session, none, .error .protocol)
    | .ok session =>
      match encodeFrame m with
      | none => (session, none, .error .protocol)
      | some frame =>
        match w with
        | .done => (session, some (whole m frame), .ok ())
        | .refused => (session, none, .error (.cancelled false))
        | .cancelled n => (session, some ⟨m, n⟩, .error (.cancelled (0 < n)))
        | .timeout n => (session, some ⟨m, n⟩, .error (.timeout (0 < n)))
        | .io n => (session, some ⟨m, n⟩, .error (.io (0 < n)))

/-- `best_effort_send`: a message the session does not allow is not sent. -/
def bestEffortSend (session : WireSession) (m : FileTransferMessage) (accepted : Nat) : Output :=
  match session.send m with
  | .error _ => none
  | .ok _ => some ⟨m, accepted⟩

/-- `fail_local`: a failure with a code is written whatever the session says, the others are not
told. -/
def failLocal (error : FileSemanticsError) (fallback : FileTransferErrorCode) (accepted : Nat) :
    Output × TransferOutcome :=
  match error.wireCode with
  | some code => (some ⟨.error code, accepted⟩, .failed code)
  | none => (none, .failed fallback)

def sendFailure : WriteFrameError → TransferOutcome
  | .protocol => .failed .invalidRequest
  | .cancelled _ => .cancelled
  | .timeout _ => .failed .sessionClosing
  | .io _ => .failed .sessionClosing

def committedAckFailure (_ : WriteFrameError) (bytes : Nat) : TransferOutcome :=
  .committedUnconfirmed bytes

def finishSendFailure (error : WriteFrameError) (bytes : Nat) : TransferOutcome :=
  match error with
  | .protocol => .failed .invalidRequest
  | .cancelled false => .cancelled
  | .cancelled true => .commitStatusUnknown bytes
  | .timeout true => .commitStatusUnknown bytes
  | .timeout false => .failed .sessionClosing
  | .io true => .commitStatusUnknown bytes
  | .io false => .failed .sessionClosing

def readFailureOutcome : FrameReadError → TransferOutcome
  | .protocol => .failed .invalidRequest
  | .truncated => .failed .invalidRequest
  | .eof => .failed .sessionClosing
  | .timeout => .failed .sessionClosing
  | .io => .failed .sessionClosing

def protocolViolation : TransferOutcome := .failed .invalidRequest

/-- `record_received`. -/
def recordReceived (session : WireSession) (m : FileTransferMessage) :
    Except TransferOutcome WireSession :=
  match session.receive m with
  | .ok session => .ok session
  | .error _ => .error protocolViolation

/-! ## The audit events -/

def fileTransferIdLabel : Bytes := utf8 "yonder-audit-file-transfer-id-v3"

/-- The direction byte of a file event. -/
def directionByte : TransferDirection → UInt8
  | .upload => directionCtrlToHost
  | .download => directionHostToCtrl

/-- The protocol facts of a transfer that began. -/
structure StartFacts where
  remotePath : String
  fileName : String
  declaredSize : UInt64
deriving DecidableEq

/-- What an observer is asked to record. -/
inductive AuditEntry where
  | shared (facts : FileTransferFacts) (localPath : Option String)
  | result (kind : UInt8) (transferId finalSize : UInt64) (digest : Digest32)
      (localPath : Option String)
deriving DecidableEq

/-- The observer, if the session has one, the facts collected for it, and what it recorded. -/
structure TransferAudit where
  observed : Bool
  start : Option StartFacts := none
  digest : Option Sha256Digest := none
  localPath : Option String := none
  log : List AuditEntry := []

section Audit

variable (sha : Bytes → Sha256Digest)

/-- `file_transfer_id`. -/
def fileTransferId (direction : UInt8) (start : StartFacts) : UInt64 :=
  UInt64.ofNat (beNat ((sha (fileTransferIdLabel ++ direction :: (utf8 start.remotePath ++
    (utf8 start.fileName ++ Codec.u64.enc start.declaredSize)))).1.take 8))

/-- The bytes that `file_transfer_id` hashes: the two names stand one after the other. -/
def fileTransferIdInput (direction : UInt8) (start : StartFacts) : Bytes :=
  fileTransferIdLabel ++ direction :: (utf8 start.remotePath ++
    (utf8 start.fileName ++ Codec.u64.enc start.declaredSize))

theorem fileTransferId_eq (direction : UInt8) (start : StartFacts) :
    fileTransferId sha direction start =
      UInt64.ofNat (beNat ((sha (fileTransferIdInput direction start)).1.take 8)) := rfl

/-- The hashed bytes determine the direction, the size and the two names as one string. -/
theorem fileTransferIdInput_eq_iff {direction direction' : UInt8} {start start' : StartFacts} :
    fileTransferIdInput direction start = fileTransferIdInput direction' start' ↔
      direction = direction' ∧ start.declaredSize = start'.declaredSize ∧
        utf8 start.remotePath ++ utf8 start.fileName =
          utf8 start'.remotePath ++ utf8 start'.fileName := by
  constructor
  · intro h
    obtain ⟨hdirection, hrest⟩ := List.cons.inj (List.append_cancel_left h)
    rw [← List.append_assoc, ← List.append_assoc] at hrest
    -- The size is of fixed length and stands last.
    obtain ⟨hnames, hsize⟩ := List.append_inj' hrest
      ((Codec.u64.enc_length _).trans (Codec.u64.enc_length _).symm)
    exact ⟨hdirection, Codec.u64.enc_inj (Codec.u64_ok _) (Codec.u64_ok _) hsize, hnames⟩
  · rintro ⟨rfl, hsize, hnames⟩
    rw [fileTransferIdInput, fileTransferIdInput, ← List.append_assoc (utf8 start.remotePath), hnames,
      hsize, List.append_assoc]

theorem utf8_injective {s t : String} (h : utf8 s = utf8 t) : s = t := by
  have hs := (ofUtf8_eq_some (utf8 t) s).2 h
  rw [(ofUtf8_eq_some (utf8 t) t).2 rfl] at hs
  exact (Option.some.inj hs).symm

/-- Among transfers whose remote paths have one length, the hashed bytes determine everything. -/
theorem fileTransferIdInput_inj {direction direction' : UInt8} {start start' : StartFacts}
    (hlen : (utf8 start.remotePath).length = (utf8 start'.remotePath).length)
    (h : fileTransferIdInput direction start = fileTransferIdInput direction' start') :
    direction = direction' ∧ start = start' := by
  obtain ⟨hdirection, hsize, hnames⟩ := fileTransferIdInput_eq_iff.1 h
  obtain ⟨hpath, hname⟩ := List.append_inj hnames hlen
  obtain ⟨remotePath, fileName, declaredSize⟩ := start
  rw [StartFacts.mk.injEq]
  exact ⟨hdirection, utf8_injective hpath, utf8_injective hname, hsize⟩

/-- The identifier of a transfer tells apart the transfers that differ in direction, in size or in the
string of their two names, up to collisions of the truncated hash; among transfers with remote paths
of one length it tells apart all. -/
theorem fileTransferId_separates (direction direction' : UInt8) (start start' : StartFacts) :
    (fileTransferIdInput direction start = fileTransferIdInput direction' start' ↔
      direction = direction' ∧ start.declaredSize = start'.declaredSize ∧
        utf8 start.remotePath ++ utf8 start.fileName =
          utf8 start'.remotePath ++ utf8 start'.fileName) ∧
    ((utf8 start.remotePath).length = (utf8 start'.remotePath).length →
      fileTransferIdInput direction start = fileTransferIdInput direction' start' →
        direction = direction' ∧ start = start') ∧
    ∀ sha : Bytes → Sha256Digest,
      ((sha (fileTransferIdInput direction start)).1.take 8 =
          (sha (fileTransferIdInput direction' start')).1.take 8 →
        fileTransferIdInput direction start = fileTransferIdInput direction' start') →
      fileTransferId sha direction start = fileTransferId sha direction' start' →
        direction = direction' ∧ start.declaredSize = start'.declaredSize ∧
          utf8 start.remotePath ++ utf8 start.fileName =
            utf8 start'.remotePath ++ utf8 start'.fileName := by
  refine ⟨fileTransferIdInput_eq_iff, fileTransferIdInput_inj, ?_⟩
  intro sha hfree hid
  apply fileTransferIdInput_eq_iff.1
  apply hfree
  -- An identifier is the number of the eight bytes it was read from.
  have hwidth : ∀ d : Sha256Digest, (d.1.take 8).length = 8 := by
    intro d
    rw [List.length_take, d.2]
    rfl
  have hback : ∀ d : Sha256Digest,
      beBytes 8 (UInt64.ofNat (beNat (d.1.take 8))).toNat = d.1.take 8 := by
    intro d
    have hlt := beNat_lt (d.1.take 8)
    rw [hwidth] at hlt
    rw [UInt64.toNat_ofNat_of_lt' (by simpa using hlt)]
    have hdigits := beBytes_beNat (d.1.take 8)
    rwa [hwidth] at hdigits
  calc (sha (fileTransferIdInput direction start)).1.take 8
      = beBytes 8 (fileTransferId sha direction start).toNat := (hback _).symm
    _ = beBytes 8 (fileTransferId sha direction' start').toNat := by rw [hid]
    _ = (sha (fileTransferIdInput direction' start')).1.take 8 := hback _

/-- Two uploads of ten bytes, of `c` to `ab` and of `bc` to `a`, have one identifier. -/
theorem fileTransferId_names_run_together :
    fileTransferIdInput directionCtrlToHost ⟨"ab", "c", 10⟩ =
        fileTransferIdInput directionCtrlToHost ⟨"a", "bc", 10⟩ ∧
      ∀ sha : Bytes → Sha256Digest, fileTransferId sha directionCtrlToHost ⟨"ab", "c", 10⟩ =
        fileTransferId sha directionCtrlToHost ⟨"a", "bc", 10⟩ := by
  have hinput : fileTransferIdInput directionCtrlToHost ⟨"ab", "c", 10⟩ =
      fileTransferIdInput directionCtrlToHost ⟨"a", "bc", 10⟩ := by
    decide
  refine ⟨hinput, fun sha => ?_⟩
  rw [fileTransferId_eq, fileTransferId_eq, hinput]

/-- A shared event of the transfer. -/
def sharedFacts (direction : TransferDirection) (start : StartFacts) (kind : UInt8)
    (finalSize : UInt64) (digest : Digest32) (errorCode : UInt16) : FileTransferFacts where
  transferId := fileTransferId sha (directionByte direction) start
  direction := directionByte direction
  kind := kind
  declaredSize := start.declaredSize
  finalSize := finalSize
  digest := digest
  remotePath := start.remotePath
  fileName := start.fileName
  errorCode := errorCode

namespace TransferAudit

def append (a : TransferAudit) (entry : AuditEntry) : TransferAudit :=
  { a with log := a.log ++ [entry] }

/-- `record_transfer_start`; `ok` is whether the observer recorded. -/
def recordTransferStart (a : TransferAudit) (direction : TransferDirection) (start : StartFacts)
    (ok : Bool) : Except Unit TransferAudit :=
  if a.observed then
    if ok then
      .ok { a.append (.shared (sharedFacts sha direction start fileKindStart 0 zeroHead 0)
        a.localPath) with start := some start }
    else .error ()
  else .ok a

/-- What `record_transfer_end` has to record. -/
def endEntry (a : TransferAudit) (direction : TransferDirection) (start : StartFacts) :
    TransferOutcome → Option AuditEntry
  | .committed bytes =>
    some (.shared (sharedFacts sha direction start fileKindSuccess (UInt64.ofNat bytes)
      (a.digest.getD zeroHead) 0) a.localPath)
  | .committedUnconfirmed bytes => a.digest.map fun digest =>
    .result fileLocalKindCommittedUnconfirmed (fileTransferId sha (directionByte direction) start)
      (UInt64.ofNat bytes) digest a.localPath
  | .commitStatusUnknown bytes => a.digest.map fun digest =>
    .result fileLocalKindCommitStatusUnknown (fileTransferId sha (directionByte direction) start)
      (UInt64.ofNat bytes) digest a.localPath
  | .auditFailed _ => none
  | .auditFailedBeforeCommit => none
  | .cancelled =>
    some (.shared (sharedFacts sha direction start fileKindCancelled 0 (a.digest.getD zeroHead) 0)
      a.localPath)
  | .failed code =>
    some (.shared (sharedFacts sha direction start fileKindFailed 0 (a.digest.getD zeroHead)
      code.code) a.localPath)

/-- `record_transfer_end`; whether it failed is the second component. -/
def recordTransferEnd (a : TransferAudit) (direction : TransferDirection)
    (outcome : TransferOutcome) (ok : Bool) : TransferAudit × Bool :=
  match a.observed, a.start with
  | true, some start =>
    if outcome.isAuditFailure then (a, true)
    else
      match a.endEntry sha direction start outcome with
      | some entry => if ok then (a.append entry, false) else (a, true)
      | none => (a, false)
  | _, _ => (a, false)

end TransferAudit

end Audit

/-- `apply_transfer_audit_result`. -/
def applyTransferAuditResult (outcome : TransferOutcome) (failed : Bool) : TransferOutcome :=
  match outcome, failed with
  | .committed bytes, true => .auditFailed bytes
  | outcome, _ => outcome

end Yonder.Transfer
