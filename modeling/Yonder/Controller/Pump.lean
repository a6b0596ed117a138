import Yonder.Controller.LocalControl
import Yonder.Lib.Machine
import Yonder.Transfer.Files

/-!
# The terminal pump of the controller

The loop of `run_terminal`, from its start to its `break`. At its head the loop handles what is
pending, one thing at a time, if no owner is busy; else it waits for an event of its `select`. An
owner is a step that an event started and another event ends: the send or the processing of an audit
frame, the record of an exit or of a cancellation, the forwarding of local input, the record and the
display of remote output, a resize, the running transfer. What the awaits of a handler met is part of
the action.
-/

namespace Yonder.Controller

open Lib Wire Transfer

inductive ControllerError where
  | interrupted
  | remoteCompletionTimeout
  | endpoint
  | audit
  | io
  | protocol
  /-- A failed `expect`. -/
  | panicked
deriving DecidableEq, Repr

/-- What an await of a handler fails with: a write, its timeout, or an audit record. -/
inductive LocalFailure where
  | io
  | timeout
  | audit
deriving DecidableEq, Repr

def LocalFailure.error : LocalFailure → ControllerError
  | .io => .io
  | .timeout => .remoteCompletionTimeout
  | .audit => .audit

/-- `RemoteCompletion`. The deadline is set once and only tells whether there is one. -/
inductive RemoteCompletion where
  | awaitingBoth
  | drainingBoth
  | awaitingExit
  | awaitingOutput (code : UInt32)
  | complete (code : UInt32)
deriving DecidableEq

namespace RemoteCompletion

def outputOpen : RemoteCompletion → Bool
  | .awaitingBoth | .drainingBoth | .awaitingOutput _ => true
  | _ => false

def exitPending : RemoteCompletion → Bool
  | .awaitingBoth | .drainingBoth | .awaitingExit => true
  | _ => false

def hasDeadline : RemoteCompletion → Bool
  | .awaitingBoth => false
  | _ => true

def observeTransportClose : RemoteCompletion → RemoteCompletion
  | .awaitingBoth => .drainingBoth
  | r => r

def observeOutputEof : RemoteCompletion → RemoteCompletion × Option UInt32
  | .awaitingBoth => (.awaitingExit, none)
  | .drainingBoth => (.awaitingExit, none)
  | .awaitingOutput code => (.complete code, some code)
  | r => (r, none)

def observeExit (code : UInt32) : RemoteCompletion → RemoteCompletion × Option UInt32
  | .awaitingBoth => (.awaitingOutput code, none)
  | .drainingBoth => (.awaitingOutput code, none)
  | .awaitingExit => (.complete code, some code)
  | r => (r, none)

end RemoteCompletion

/-- What the path prompt made of the bytes it was fed. -/
inductive PromptProgress where
  | active
  | reprompt
  | nextField
  | completed
  | cancelled
deriving DecidableEq

/-- How `begin_file_transfer_modal` went. -/
inductive ModalStart where
  | ready
  | notReady
  | cancelled
deriving DecidableEq

/-- How `begin_transfer` went, up to the armed transfer. -/
inductive TransferStart where
  | armed
  | noBase
  | openFailed
  | cancelled
  | sourceFailed
deriving DecidableEq

/-- What the awaits at the head of the loop met. -/
structure HeadOutcome where
  failure : Option LocalFailure := none
  startFailure : Option LocalFailure := none
  progress : PromptProgress := .active
  modal : ModalStart := .ready
  start : TransferStart := .armed
  auditFailed : Bool := false

/-- What the pump did with local input. -/
inductive PumpObservation where
  /-- `process` returned it. -/
  | processed (p : ProcessedInput)
  /-- It was forwarded and waits to be handled. -/
  | parked (p : ProcessedInput)
  /-- It was forwarded and cancels the running transfer. -/
  | cancels (p : ProcessedInput)
  /-- The cancellation is stored. -/
  | cancelStored
  | handled (p : ProcessedInput)
deriving DecidableEq

/-- The pump. The audit-failure slot is filled only by a branch that breaks, and is left out; the
display writer is away exactly while a display write is busy. -/
structure Pump where
  audited : Bool
  control : LocalControlInput
  flow : Bool
  direction : Option TransferDirection
  delayedOverflow : Bool
  localEnded : Bool
  auditSend : Bool
  auditProcess : Bool
  terminalExitAudit : Option UInt32
  cancelActionAudit : Bool
  localInput : Option ProcessedInput
  remoteOutput : Bool
  remoteWrite : Bool
  resize : Bool
  transfer : Bool
  transferCancel : Bool
  pendingTransfer : Option TransferOutcome
  pendingLocalEof : Bool
  pendingLocalInput : Option ProcessedInput
  pendingCompletion : Option UInt32
  completedCode : Option UInt32
  remote : RemoteCompletion
  detached : Bool
  outcome : Option (Except ControllerError UInt32)
  log : List PumpObservation

inductive FrameEvent where
  | none
  | close
  | peerAuditError
deriving DecidableEq

inductive DriverEvent where
  | ignored
  | bindingLost
  | transportClosed
deriving DecidableEq

inductive PumpAction where
  | head (met : HeadOutcome)
  | completionDeadline
  | cancelled
  | driver (event : DriverEvent)
  | auditFrame (frame : Except LocalFailure Bool)
  | auditPoll
  | auditSent (ok : Bool)
  | auditProcessed (event : Option FrameEvent)
  | remoteExitAudited (ok : Bool)
  | transferCancelAudited (ok : Bool)
  | localForwarded (result : Except LocalFailure Unit)
  | localRead (chunk : Except LocalFailure (Option Bytes))
  | remoteRecorded (ok overflow : Bool)
  | remoteWritten (ok : Bool)
  | resizeProcessed (result : Except LocalFailure Unit)
  | remoteRead (chunk : Except LocalFailure Bool) (overflow : Bool)
  | remoteExit (code : Except ControllerError UInt32)
  | resizeDetected (changed : Bool)
  | transferDone (outcome : TransferOutcome)

namespace Pump

/-- The pump when the terminal is ready. -/
def start (audited interactive : Bool) : Pump where
  audited := audited
  control := .new interactive false
  flow := false
  direction := none
  delayedOverflow := false
  localEnded := false
  auditSend := false
  auditProcess := false
  terminalExitAudit := none
  cancelActionAudit := false
  localInput := none
  remoteOutput := false
  remoteWrite := false
  resize := false
  transfer := false
  transferCancel := false
  pendingTransfer := none
  pendingLocalEof := false
  pendingLocalInput := none
  pendingCompletion := none
  completedCode := none
  remote := .awaitingBoth
  detached := false
  outcome := none
  log := []

/-- `owners_idle`. -/
def ownersIdle (σ : Pump) : Bool :=
  !σ.auditSend && !σ.auditProcess && σ.terminalExitAudit.isNone && !σ.cancelActionAudit &&
    σ.localInput.isNone && !σ.remoteOutput && !σ.remoteWrite && !σ.resize && !σ.transfer

/-- The head of the loop has something to do before the pump waits. -/
def atHead (σ : Pump) : Bool :=
  σ.ownersIdle && (σ.pendingTransfer.isSome || σ.pendingLocalEof || σ.pendingLocalInput.isSome ||
    σ.delayedOverflow || σ.pendingCompletion.isSome || σ.completedCode.isSome)

def stop (σ : Pump) (result : Except ControllerError UInt32) : Pump :=
  { σ with outcome := some result }

def record (σ : Pump) (o : PumpObservation) : Pump := { σ with log := o :: σ.log }

/-- `TransferUi::leave_modal`. -/
def leaveModal (σ : Pump) : Pump :=
  { σ with
    flow := false
    direction := none
    delayedOverflow := false
    control := σ.control.leaveModal.1 }

/-! ### The head of the loop -/

/-- `handle_transfer_event`. -/
def handleTransferEvent (σ : Pump) (outcome : TransferOutcome) (met : HeadOutcome) : Pump :=
  let σ := { σ with pendingTransfer := none }
  match σ.direction, met.failure with
  | none, _ => σ.stop (.error .panicked)
  | some _, some failure => σ.stop (.error failure.error)
  | some _, none =>
    let σ := { σ.leaveModal with transfer := false, transferCancel := false }
    if outcome.isAuditFailure || (σ.audited && met.auditFailed) then σ.stop (.error .audit)
    else { σ with pendingCompletion := none }

/-- `finish_local_input_eof`. -/
def finishLocalInputEof (σ : Pump) (met : HeadOutcome) : Pump :=
  let σ := { σ with pendingLocalEof := false, localEnded := true, control := σ.control.finish.1 }
  match met.failure with
  | some failure => σ.stop (.error failure.error)
  | none => if σ.flow then σ.leaveModal else σ

inductive LocalInputHandling where
  | done
  | startModal (direction : TransferDirection)
  | runTransfer
deriving DecidableEq

/-- What the prompt, if there is one, does with the chunk; whether a transfer is to run. -/
def feedPrompt (σ : Pump) (met : HeadOutcome) : Pump × Bool :=
  if σ.flow then
    match met.progress with
    | .completed => ({ σ with flow := false }, true)
    | .cancelled => (σ.leaveModal, false)
    | _ => (σ, false)
  else (σ, false)

/-- `handle_processed_input`. -/
def handleProcessedInput (σ : Pump) (processed : ProcessedInput) (met : HeadOutcome) :
    Pump × Except ControllerError LocalInputHandling :=
  match met.failure with
  | some failure => (σ, .error failure.error)
  | none =>
    let (σ, run) := σ.feedPrompt met
    let finish := if run then LocalInputHandling.runTransfer else .done
    match processed.action with
    | .detach => (σ, .error .interrupted)
    | .cancelOp =>
      if σ.flow then (σ.leaveModal, .ok finish)
      else ({ σ with transferCancel := true }, .ok finish)
    | .startUpload => (σ, .ok (.startModal .upload))
    | .startDownload => (σ, .ok (.startModal .download))
    | _ => (σ, .ok finish)

/-- `begin_file_transfer_modal`. -/
def beginFileTransferModal (σ : Pump) (direction : TransferDirection) (met : HeadOutcome) : Pump :=
  match met.modal, met.startFailure with
  | .cancelled, _ => σ.stop (.error .interrupted)
  | _, some failure => σ.stop (.error failure.error)
  | .notReady, none => σ.leaveModal
  | .ready, none => { σ with direction := some direction, flow := true }

/-- `begin_transfer`. -/
def beginTransfer (σ : Pump) (met : HeadOutcome) : Pump :=
  match met.start, σ.control.enterTransfer, met.startFailure with
  | .noBase, _, none => σ.leaveModal
  | .noBase, _, some failure => σ.stop (.error failure.error)
  | _, none, _ => σ.stop (.error .panicked)
  | .cancelled, some _, _ => σ.stop (.error .interrupted)
  | _, some _, some failure => σ.stop (.error failure.error)
  | .openFailed, some control, none => { σ with control := control }.leaveModal
  | start, some control, none =>
    let σ := { σ with control := control }
    if σ.transferCancel || start = .sourceFailed then σ.leaveModal
    else { σ with transfer := true }

/-- The pending chunk is handled. -/
def handleLocalInput (σ : Pump) (processed : ProcessedInput) (met : HeadOutcome) : Pump :=
  let σ := { σ with pendingLocalInput := none }.record (.handled processed)
  match σ.handleProcessedInput processed met with
  | (σ, .ok .done) => σ
  | (σ, .ok (.startModal direction)) => σ.beginFileTransferModal direction met
  | (σ, .ok .runTransfer) => σ.beginTransfer met
  | (σ, .error error) => { σ with detached := error = ControllerError.interrupted }.stop (.error error)

/-- The head of the loop, with idle owners. -/
def head (σ : Pump) (met : HeadOutcome) : Pump :=
  match σ.pendingTransfer with
  | some outcome => σ.handleTransferEvent outcome met
  | none =>
    if σ.pendingLocalEof then σ.finishLocalInputEof met
    else
      match σ.pendingLocalInput with
      | some processed => σ.handleLocalInput processed met
      | none =>
        if σ.delayedOverflow then
          let σ := { σ with delayedOverflow := false }
          match met.failure with
          | some failure => σ.stop (.error failure.error)
          | none => σ.leaveModal
        else
          match σ.pendingCompletion, σ.completedCode with
          | some code, _ =>
            let σ := { σ with pendingCompletion := none }
            match met.failure with
            | some failure => σ.stop (.error failure.error)
            | none => { σ with completedCode := some code }
          | none, some code => σ.stop (.ok code)
          | none, none => σ

/-! ### The events -/

def complete (σ : Pump) (observed : RemoteCompletion × Option UInt32) : Pump :=
  { σ with
    remote := observed.1
    pendingCompletion := observed.2.orElse fun _ => σ.pendingCompletion }

/-- Remote output goes to the display, or to the delayed buffer while a prompt is open. -/
def display (σ : Pump) (overflow : Bool) : Pump :=
  if σ.flow then { σ with delayedOverflow := σ.delayedOverflow || overflow }
  else { σ with remoteWrite := true }

/-- `local_input_reserve`. -/
def localInputReserve (control : LocalControlInput) : Nat :=
  if control.enabled && control.pendingPrefix then 1 else 0

/-- A chunk of local input: it is processed, and its forwarding begins. -/
def readChunk (σ : Pump) (chunk : Bytes) : Pump :=
  let (control, processed) := σ.control.process chunk
  { σ with control := control, localInput := some processed }.record (.processed processed)

/-- `LocalInputProcessed`: a chunk is parked, in place of whatever was; a cancellation of the running
transfer is stored, after its record in an audited session. -/
def forwarded (σ : Pump) (processed : ProcessedInput) : Pump :=
  let σ := { σ with localInput := none }
  if processed.action = .cancelOp ∧ σ.transfer then
    let σ := σ.record (.cancels processed)
    if σ.audited then { σ with cancelActionAudit := true }
    else { σ with transferCancel := true }.record .cancelStored
  else { σ with pendingLocalInput := some processed }.record (.parked processed)

/-- The event of a branch of the `select`, if the branch is enabled. -/
def select (σ : Pump) (a : PumpAction) : Option Pump :=
  match a with
  | .head _ => none
  | .completionDeadline =>
    if σ.remote.hasDeadline then some (σ.stop (.error .remoteCompletionTimeout)) else none
  | .cancelled => some (σ.stop (.error .interrupted))
  | .driver .ignored => some σ
  | .driver .bindingLost => some (σ.stop (.error .endpoint))
  | .driver .transportClosed => some { σ with remote := σ.remote.observeTransportClose }
  | .auditFrame frame =>
    if σ.audited && !σ.auditSend && !σ.auditProcess then
      match frame with
      | .ok true => some { σ with auditProcess := true }
      | .ok false => some (σ.stop (.error .audit))
      | .error failure => some (σ.stop (.error failure.error))
    else none
  | .auditPoll =>
    if σ.audited && !σ.auditSend && !σ.auditProcess then some { σ with auditSend := true }
    else none
  | .auditSent ok =>
    if σ.auditSend then
      let σ := { σ with auditSend := false }
      some (if ok then σ else σ.stop (.error .audit))
    else none
  | .auditProcessed event =>
    if σ.auditProcess then
      let σ := { σ with auditProcess := false }
      some (if event = some .none then σ else σ.stop (.error .audit))
    else none
  | .remoteExitAudited ok =>
    match σ.terminalExitAudit with
    | some code =>
      let σ := { σ with terminalExitAudit := none }
      some (if ok then σ.complete (σ.remote.observeExit code) else σ.stop (.error .audit))
    | none => none
  | .transferCancelAudited ok =>
    if σ.cancelActionAudit then
      let σ := { σ with cancelActionAudit := false }
      some (if ok then { σ with transferCancel := true }.record .cancelStored
        else σ.stop (.error .audit))
    else none
  | .localForwarded result =>
    match σ.localInput with
    | some processed =>
      if σ.remoteWrite then none
      else
        match result with
        | .ok () => some (σ.forwarded processed)
        | .error failure => some ({ σ with localInput := none }.stop (.error failure.error))
    | none => none
  | .localRead chunk =>
    if !σ.localEnded && σ.completedCode.isNone && σ.localInput.isNone && !σ.remoteWrite then
      match chunk with
      | .ok (some chunk) =>
        if chunk ≠ [] ∧ chunk.length + localInputReserve σ.control ≤ inputCapacity then
          some (σ.readChunk chunk)
        else none
      | .ok none =>
        some { σ with localEnded := true, transferCancel := true, pendingLocalEof := true }
      | .error failure => some (σ.stop (.error failure.error))
    else none
  | .remoteRecorded ok overflow =>
    if σ.remoteOutput then
      let σ := { σ with remoteOutput := false }
      some (if ok then σ.display overflow else σ.stop (.error .audit))
    else none
  | .remoteWritten ok =>
    if σ.remoteWrite then
      let σ := { σ with remoteWrite := false }
      some (if ok then σ else σ.stop (.error .io))
    else none
  | .resizeProcessed result =>
    if σ.resize then
      let σ := { σ with resize := false }
      match result with
      | .ok () => some σ
      | .error failure => some (σ.stop (.error failure.error))
    else none
  | .remoteRead chunk overflow =>
    if σ.remote.outputOpen && !σ.remoteOutput && !σ.remoteWrite then
      match chunk with
      | .ok true => some (if σ.audited then { σ with remoteOutput := true } else σ.display overflow)
      | .ok false => some (σ.complete σ.remote.observeOutputEof)
      | .error failure => some (σ.stop (.error failure.error))
    else none
  | .remoteExit code =>
    if σ.remote.exitPending && σ.terminalExitAudit.isNone && !σ.remoteWrite then
      match code with
      | .error error => some (σ.stop (.error error))
      | .ok code =>
        some (if σ.audited then { σ with terminalExitAudit := some code }
          else σ.complete (σ.remote.observeExit code))
    else none
  | .resizeDetected changed =>
    if σ.control.enabled && !σ.resize && σ.completedCode.isNone then
      some (if changed then { σ with resize := true } else σ)
    else none
  | .transferDone outcome =>
    if σ.transfer && σ.pendingTransfer.isNone then
      some { σ with transfer := false, pendingTransfer := some outcome }
    else none

/-- One step of the pump. -/
def step (σ : Pump) (a : PumpAction) : Option Pump :=
  if σ.outcome.isSome then none
  else if σ.atHead then
    match a with
    | .head met => some (σ.head met)
    | _ => none
  else σ.select a

end Pump

end Yonder.Controller
