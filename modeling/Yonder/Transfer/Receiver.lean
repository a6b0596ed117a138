import Yonder.Transfer.Stream

/-!
# The receiving side

`upload_receive_tail` of the host and `run_download_impl` of the controller, as one machine with a
step for each stretch between two uses of the substream. `target` is what this transfer created at
the final path: the private file is committed there as it is, or nothing is created. The two
directions differ in how the transfer is opened, in how a cancellation is told and in that only the
host is sent a `Cancel`.
-/

namespace Yonder.Transfer

open Lib Wire

inductive ReceiverPhase where
  /-- Download: `DownloadOpen` is to be written. -/
  | start
  /-- Download: the offer is awaited. -/
  | awaitOffer
  /-- Upload: the opening frame is awaited. -/
  | awaitOpen
  | recordStart
  /-- The destination is to be resolved and the private file created. -/
  | prepare
  | ready
  | receiving
  | sealing (actualSize : UInt64) (digest : Sha256Digest)
  | acknowledge
  | settled (outcome : TransferOutcome)
  | ended (outcome : TransferOutcome)
deriving DecidableEq

structure Receiver where
  direction : TransferDirection
  session : WireSession
  phase : ReceiverPhase
  /-- The destination of an upload, the source path of a download. -/
  remotePath : String
  fileName : String
  declaredSize : UInt64
  temp : TempFile
  target : Option Bytes
  audit : TransferAudit

/-- What the awaits of one step met. -/
structure ReceiverMet where
  cancelled : Bool := false
  fault : Option ReadFault := none
  write : WriteOutcome := .done
  notice : Nat := 0
  resolve : Option FileSemanticsError := none
  localPath : Option String := none
  createTemp : Option FileSemanticsError := none
  writeBlock : Option FileSemanticsError := none
  finish : Option FileSemanticsError := none
  commit : Option FileSemanticsError := none
  recorded : Bool := true

namespace Receiver

def settle (r : Receiver) (outcome : TransferOutcome) : Receiver :=
  { r with phase := .settled outcome }

def startFacts (r : Receiver) : StartFacts := ⟨r.remotePath, r.fileName, r.declaredSize⟩

/-- What a cancellation sends while the file is received. -/
def cancelNotice : TransferDirection → FileTransferMessage
  | .upload => .error .sessionClosing
  | .download => .cancel

def send (r : Receiver) (m : FileTransferMessage) (met : ReceiverMet) (next : ReceiverPhase)
    (failure : WriteFrameError → TransferOutcome) : Receiver × Output :=
  match writeFrameBounded r.session m met.write with
  | (session, output, .ok ()) => ({ r with session := session, phase := next }, output)
  | (session, output, .error error) => ({ r with session := session }.settle (failure error), output)

def accept (r : Receiver) (m : FileTransferMessage) (next : ReceiverPhase) : Receiver :=
  match recordReceived r.session m with
  | .ok session => { r with session := session, phase := next }
  | .error outcome => r.settle outcome

/-- A local failure ends the transfer; the private file is dropped. -/
def failed (r : Receiver) (error : FileSemanticsError) (fallback : FileTransferErrorCode)
    (met : ReceiverMet) : Receiver × Output :=
  let (output, outcome) := failLocal error fallback met.notice
  (r.settle outcome, output)

def onStart (r : Receiver) (met : ReceiverMet) : Receiver × Output :=
  if met.cancelled then (r.settle .cancelled, none)
  else r.send (.downloadOpen r.remotePath) met .awaitOffer sendFailure

def onOffer (r : Receiver) (m : FileTransferMessage) : Receiver :=
  match m with
  | .downloadOffer fileName declaredSize =>
    { r with fileName := fileName, declaredSize := declaredSize }.accept m .recordStart
  | .error code => r.accept m (.settled (.failed code))
  | _ => r.settle protocolViolation

/-- The opening frame of an upload. -/
def onOpen (r : Receiver) (m : FileTransferMessage) : Receiver :=
  match m with
  | .uploadOpen destination fileName declaredSize =>
    { r with
      remotePath := destination
      fileName := fileName
      declaredSize := declaredSize }.accept m .recordStart
  | _ => r.settle protocolViolation

def onRecordStart (sha : Bytes → Sha256Digest) (r : Receiver) (met : ReceiverMet) : Receiver :=
  match r.audit.recordTransferStart sha r.direction r.startFacts met.recorded with
  | .error () => r.settle .auditFailedBeforeCommit
  | .ok audit => { r with audit := audit, phase := .prepare }

def onPrepare (r : Receiver) (met : ReceiverMet) : Receiver × Output :=
  match met.resolve with
  | some error => r.failed error .invalidRequest met
  | none =>
    let r := { r with audit := { r.audit with localPath := met.localPath } }
    match met.createTemp with
    | some error => r.failed error .invalidRequest met
    | none => ({ r with temp := {}, phase := .ready }, none)

def onReady (r : Receiver) (met : ReceiverMet) : Receiver × Output :=
  r.send .ready met .receiving sendFailure

/-- A block is recorded by the session and then written to the private file. -/
def onData (r : Receiver) (m : FileTransferMessage) (block : Bytes) (met : ReceiverMet) :
    Receiver × Output :=
  match recordReceived r.session m with
  | .error outcome => (r.settle outcome, none)
  | .ok session =>
    let r := { r with session := session }
    match met.writeBlock with
    | some error => r.failed error .writeFailed met
    | none => ({ r with temp := r.temp.writeBlock block }, none)

def onReceived (r : Receiver) (m : FileTransferMessage) (met : ReceiverMet) : Receiver × Output :=
  match m, r.direction with
  | .data block, _ => r.onData m block met
  | .finish actualSize digest, _ => (r.accept m (.sealing actualSize digest), none)
  | .cancel, .upload =>
    (r.settle .cancelled, bestEffortSend r.session (.error .cancelled) met.notice)
  | .error code, _ => (r.accept m (.settled (.failed code)), none)
  | _, _ => (r.settle protocolViolation, none)

/-- The sizes and the digests that have to agree before the commit. -/
def verify (sha : Bytes → Sha256Digest) (r : Receiver) (actualSize : UInt64)
    (digest : Sha256Digest) : Except FileSemanticsError Unit :=
  if actualSize ≠ r.declaredSize then
    .error (.sizeMismatch r.declaredSize.toNat actualSize.toNat)
  else r.temp.verifyFinish sha r.declaredSize digest

/-- Seal, verify and commit. -/
def onSealing (sha : Bytes → Sha256Digest) (r : Receiver) (actualSize : UInt64)
    (digest : Sha256Digest) (met : ReceiverMet) : Receiver × Output :=
  match met.finish with
  | some error => r.failed error .writeFailed met
  | none =>
    match r.verify sha actualSize digest with
    | .error error => r.failed error .sizeMismatch met
    | .ok () =>
      match met.commit with
      | some error => r.failed error .commitFailed met
      | none =>
        ({ r with
          target := some r.temp.content
          audit := { r.audit with digest := some digest }
          phase := .acknowledge }, none)

def onAcknowledge (r : Receiver) (met : ReceiverMet) : Receiver × Output :=
  r.send .committed met (.settled (.committed r.temp.written))
    fun error => committedAckFailure error r.temp.written

def onSettled (sha : Bytes → Sha256Digest) (r : Receiver) (outcome : TransferOutcome)
    (met : ReceiverMet) : Receiver :=
  let (audit, failed) := r.audit.recordTransferEnd sha r.direction outcome met.recorded
  { r with audit := audit, phase := .ended (applyTransferAuditResult outcome failed) }

/-- One step: the new state, what was written, and what is left to read. -/
def step (sha : Bytes → Sha256Digest) (r : Receiver) (met : ReceiverMet) (inbox : Link) :
    Option (Receiver × Output × Link) :=
  let quiet (r : Receiver) := some (r, (none : Output), inbox)
  let wrote (result : Receiver × Output) := some (result.1, result.2, inbox)
  match r.phase with
  | .start => wrote (r.onStart met)
  | .awaitOffer =>
    if met.cancelled then wrote (r.settle .cancelled, bestEffortSend r.session .cancel met.notice)
    else (readLink false met.fault inbox).map fun
      | .error error => (r.settle (readFailureOutcome error), none, inbox)
      | .ok (m, inbox) => (r.onOffer m, none, inbox)
  | .awaitOpen =>
    if met.cancelled then quiet (r.settle .cancelled)
    else (readLink false met.fault inbox).map fun
      | .error error => (r.settle (readFailureOutcome error), none, inbox)
      | .ok (m, inbox) => (r.onOpen m, none, inbox)
  | .recordStart => quiet (r.onRecordStart sha met)
  | .prepare => wrote (r.onPrepare met)
  | .ready => wrote (r.onReady met)
  | .receiving =>
    if met.cancelled then
      wrote (r.settle .cancelled, bestEffortSend r.session (cancelNotice r.direction) met.notice)
    else (readLink true met.fault inbox).map fun
      | .error error => (r.settle (readFailureOutcome error), none, inbox)
      | .ok (m, inbox) => ((r.onReceived m met).1, (r.onReceived m met).2, inbox)
  | .sealing actualSize digest => wrote (r.onSealing sha actualSize digest met)
  | .acknowledge => wrote (r.onAcknowledge met)
  | .settled outcome => quiet (r.onSettled sha outcome met)
  | .ended _ => none

end Receiver

end Yonder.Transfer
