import Yonder.Transfer.Stream

/-!
# The sending side

`run_upload_impl` of the controller and `download_send_tail` of the host, as one machine with a step
for each stretch between two uses of the substream. The two differ in how the transfer is opened and
in how a cancellation is told: the controller sends `Cancel`, the host may only send
`Error(SessionClosing)`, and only once the transfer is under way.
-/

namespace Yonder.Transfer

open Lib Wire

inductive SenderPhase where
  /-- Upload: `UploadOpen` is to be written. -/
  | start
  /-- Download: the opening frame is awaited. -/
  | awaitOpen
  /-- Download: the source is to be resolved and opened. -/
  | openSource
  | recordStart
  /-- Download: `DownloadOffer` is to be written. -/
  | offer
  | awaitReady
  | streaming
  | finishing
  | awaitCommitted
  /-- The wire has its outcome; the end event is to be recorded. -/
  | settled (outcome : TransferOutcome)
  | ended (outcome : TransferOutcome)
deriving DecidableEq

structure Sender where
  direction : TransferDirection
  session : WireSession
  phase : SenderPhase
  /-- The destination of an upload, the source path of a download. -/
  remotePath : String
  fileName : String
  source : Source
  audit : TransferAudit

/-- What the awaits of one step met. -/
structure SenderMet where
  /-- The cancel flag, where it is loaded or awaited. -/
  cancelled : Bool := false
  fault : Option ReadFault := none
  write : WriteOutcome := .done
  /-- How many bytes of a notice were accepted. -/
  notice : Nat := 0
  resolve : Option FileSemanticsError := none
  opened : Except FileSemanticsError UInt64 := .error .io
  offerName : Option String := none
  localPath : Option String := none
  file : Source.FileRead := {}
  recheck : Option FileSemanticsError := none
  recorded : Bool := true

namespace Sender

def settle (s : Sender) (outcome : TransferOutcome) : Sender := { s with phase := .settled outcome }

/-- The protocol facts that open the transfer. -/
def startFacts (s : Sender) : StartFacts := ⟨s.remotePath, s.fileName, s.source.size⟩

/-- What a cancellation sends while the transfer is under way. -/
def cancelNotice : TransferDirection → FileTransferMessage
  | .upload => .cancel
  | .download => .error .sessionClosing

/-- A frame is written; the next phase, if it was. -/
def send (s : Sender) (m : FileTransferMessage) (met : SenderMet) (next : SenderPhase)
    (failure : WriteFrameError → TransferOutcome) : Sender × Output :=
  match writeFrameBounded s.session m met.write with
  | (session, output, .ok ()) => ({ s with session := session, phase := next }, output)
  | (session, output, .error error) => ({ s with session := session }.settle (failure error), output)

/-- A received message takes the session on to the next phase. -/
def accept (s : Sender) (m : FileTransferMessage) (next : SenderPhase) : Sender :=
  match recordReceived s.session m with
  | .ok session => { s with session := session, phase := next }
  | .error outcome => s.settle outcome

def onStart (s : Sender) (met : SenderMet) : Sender × Output :=
  if met.cancelled then (s.settle .cancelled, none)
  else s.send (.uploadOpen s.remotePath s.fileName s.source.size) met .recordStart sendFailure

/-- The opening frame of a download. -/
def onOpen (s : Sender) (m : FileTransferMessage) : Sender :=
  match m with
  | .downloadOpen source => { s with remotePath := source }.accept m .openSource
  | _ => s.settle protocolViolation

def onOpenSource (s : Sender) (met : SenderMet) : Sender × Output :=
  match met.resolve with
  | some error =>
    let (output, outcome) := failLocal error .invalidRequest met.notice
    (s.settle outcome, output)
  | none =>
    match met.opened with
    | .error error =>
      let (output, outcome) := failLocal error .sourceNotFound met.notice
      (s.settle outcome, output)
    | .ok size =>
      let s := { s with audit := { s.audit with localPath := met.localPath } }
      match met.offerName with
      | none => (s.settle (.failed .invalidRequest), none)
      | some name =>
        ({ s with fileName := name, source := ⟨size, []⟩, phase := .recordStart }, none)

def onRecordStart (sha : Bytes → Sha256Digest) (s : Sender) (met : SenderMet) : Sender :=
  match s.audit.recordTransferStart sha s.direction s.startFacts met.recorded with
  | .error () => s.settle .auditFailedBeforeCommit
  | .ok audit =>
    { s with
      audit := audit
      phase := match s.direction with
        | .upload => .awaitReady
        | .download => .offer }

def onOffer (s : Sender) (met : SenderMet) : Sender × Output :=
  s.send (.downloadOffer s.fileName s.source.size) met .awaitReady sendFailure

/-- The flag is set while `Ready` is awaited: the host may not send anything then. -/
def onCancelReady (s : Sender) (met : SenderMet) : Sender × Output :=
  match s.direction with
  | .upload => (s.settle .cancelled, bestEffortSend s.session .cancel met.notice)
  | .download => (s.settle .cancelled, none)

/-- The answer to the opening; a host is refused the reply to a `Cancel` by its session. -/
def onReady (s : Sender) (m : FileTransferMessage) (met : SenderMet) : Sender × Output :=
  match m, s.direction with
  | .ready, _ => (s.accept m .streaming, none)
  | .error code, _ => (s.accept m (.settled (.failed code)), none)
  | .cancel, .download =>
    (s.settle .cancelled, bestEffortSend s.session (.error .cancelled) met.notice)
  | _, _ => (s.settle protocolViolation, none)

/-- A block that was read is written. The host tells a cancellation that came before the first byte
of the block. -/
def sendBlock (s : Sender) (block : Bytes) (met : SenderMet) : Sender × Output :=
  match writeFrameBounded s.session (.data block) met.write with
  | (session, output, .ok ()) => ({ s with session := session }, output)
  | (session, output, .error error) =>
    if s.direction = .download ∧ error = .cancelled false then
      (s.settle .cancelled, bestEffortSend session (.error .sessionClosing) met.notice)
    else (s.settle (sendFailure error), output)

def onStreaming (s : Sender) (met : SenderMet) : Sender × Output :=
  if met.cancelled then
    (s.settle .cancelled, bestEffortSend s.session (cancelNotice s.direction) met.notice)
  else
    match s.source.readBlock met.file with
    | .error error =>
      let (output, outcome) := failLocal error .readFailed met.notice
      (s.settle outcome, output)
    | .ok (source, block) =>
      if block = [] then ({ s with phase := .finishing }, none)
      else { s with source := source }.sendBlock block met

def onFinishing (sha : Bytes → Sha256Digest) (s : Sender) (met : SenderMet) : Sender × Output :=
  match met.recheck with
  | some error =>
    let (output, outcome) := failLocal error .readFailed met.notice
    (s.settle outcome, output)
  | none =>
    let digest := sha s.source.content
    let transferred := s.source.bytesRead
    match writeFrameBounded s.session (.finish (UInt64.ofNat transferred) digest) met.write with
    | (session, output, .ok ()) =>
      ({ s with
        session := session
        audit := { s.audit with digest := some digest }
        phase := .awaitCommitted }, output)
    | (_, output, .error error) => (s.settle (finishSendFailure error transferred), output)

/-- The answer to `Finish`. -/
def onCommitted (s : Sender) (m : FileTransferMessage) : Sender :=
  let transferred := s.source.bytesRead
  match m with
  | .committed => s.accept m (.settled (.committed transferred))
  | .error code => s.accept m (.settled (.failed code))
  | _ => s.settle (.commitStatusUnknown transferred)

def onSettled (sha : Bytes → Sha256Digest) (s : Sender) (outcome : TransferOutcome)
    (met : SenderMet) : Sender :=
  let (audit, failed) := s.audit.recordTransferEnd sha s.direction outcome met.recorded
  { s with audit := audit, phase := .ended (applyTransferAuditResult outcome failed) }

/-- One step: the new state, what was written, and what is left to read. -/
def step (sha : Bytes → Sha256Digest) (s : Sender) (met : SenderMet) (inbox : Link) :
    Option (Sender × Output × Link) :=
  let quiet (s : Sender) := some (s, (none : Output), inbox)
  let wrote (result : Sender × Output) := some (result.1, result.2, inbox)
  match s.phase with
  | .start => wrote (s.onStart met)
  | .awaitOpen =>
    if met.cancelled then quiet (s.settle .cancelled)
    else (readLink false met.fault inbox).map fun
      | .error error => (s.settle (readFailureOutcome error), none, inbox)
      | .ok (m, inbox) => (s.onOpen m, none, inbox)
  | .openSource => wrote (s.onOpenSource met)
  | .recordStart => quiet (s.onRecordStart sha met)
  | .offer => wrote (s.onOffer met)
  | .awaitReady =>
    if met.cancelled then wrote (s.onCancelReady met)
    else (readLink false met.fault inbox).map fun
      | .error error => (s.settle (readFailureOutcome error), none, inbox)
      | .ok (m, inbox) => ((s.onReady m met).1, (s.onReady m met).2, inbox)
  | .streaming => wrote (s.onStreaming met)
  | .finishing => wrote (s.onFinishing sha met)
  | .awaitCommitted =>
    if met.cancelled then quiet (s.settle (.commitStatusUnknown s.source.bytesRead))
    else (readLink false met.fault inbox).map fun
      | .error _ => (s.settle (.commitStatusUnknown s.source.bytesRead), none, inbox)
      | .ok (m, inbox) => (s.onCommitted m, none, inbox)
  | .settled outcome => quiet (s.onSettled sha outcome met)
  | .ended _ => none

end Sender

end Yonder.Transfer
