import Yonder.Host.Target
import Yonder.Relay.Registry

/-!
# The run of a host session

`HostSession::run` as a machine: `Phase` is the await the loop is in, an `Action` is what that await
meets, and `step` goes on to the next await. Where the source drives the endpoint while it waits for
something else, the inputs that can come in between are `Input`s, and a rejection of an extra
authentication holds up the phase it interrupts. The log keeps what the run did, newest first.
-/

namespace Yonder.Host

open Lib

inductive RelayAccessMode where
  | standard
  | enterprise
deriving DecidableEq, Repr

inductive HostError where
  | endpoint (error : EndpointError)
  | relay
  | application
  | random
  | pake
  | peerIdentity
  | timeout
  | io
  | protocol
  | session (error : TransitionError)
  | terminal
  | connectionLost
  | relayAccessUnavailable
  | relayAccessMismatch
  | relayAccessChanged
  | protocolRegistrationEnded
  | interrupted
  | output
  | auditPreflight
  | audit
deriving DecidableEq, Repr

/-- `binding_event`. -/
def bindingEvent : EndpointError → SessionEvent
  | .additionalBoundConnection => .extraConnection
  | _ => .connectionLost

/-- `host_error_event`. -/
def hostErrorEvent (error : HostError) (fallback : SessionEvent) : SessionEvent :=
  match error with
  | .endpoint error => bindingEvent error
  | _ => fallback

/-- `AdvertisedLease`: what the code on display stands for. -/
structure AdvertisedLease (Reg : Type) where
  locator : Relay.Locator
  registration : Reg

structure AuthClientHello where
  nonce : Bytes
  ke1 : Bytes

/-- `PakeContext`: what an exchange is bound to. -/
structure PakeContext (Peer : Type) where
  locator : Relay.Locator
  controller : Peer
  target : Peer
  controllerNonce : Bytes
  targetNonce : Bytes

/-- The server side of the password exchange. -/
structure Pake (Peer Reg PakeState : Type) where
  serverStart : Reg → Bytes → PakeContext Peer → Bytes → Option (PakeState × Bytes)
  serverFinish : PakeState → Bytes → Bool

/-- What `authenticate` draws and reads. -/
structure AuthExchange where
  targetNonce : Bytes
  randomness : Bytes
  ke3 : Bytes

/-- `authenticate`, on an exchange whose messages all came through. -/
def authenticate {Peer Reg PakeState : Type} (pake : Pake Peer Reg PakeState)
    (advertised : AdvertisedLease Reg) (controller target : Peer) (hello : AuthClientHello)
    (x : AuthExchange) : Except HostError Unit :=
  let context : PakeContext Peer :=
    { locator := advertised.locator, controller := controller, target := target
      controllerNonce := hello.nonce, targetNonce := x.targetNonce }
  match pake.serverStart advertised.registration hello.ke1 context x.randomness with
  | none => .error .pake
  | some (state, _) => if pake.serverFinish state x.ke3 then .ok () else .error .pake

/-- How far the start of the terminal is: the audit root is looked up before `start_terminal`. -/
inductive StartStage where
  | root
  | hello
  | audit
  | opening
  | recording
  | flushing
deriving DecidableEq

section

variable (Peer Conn Reg : Type)

/-- The await that the run is in. -/
inductive Phase where
  | top
  | recovering
  | waitingAuth
  | quiescing (controller : Peer)
  | closing (controller : Peer)
  | readingHello (b : Binding Peer Conn)
  | retrying (b : Binding Peer Conn)
  | authenticating (b : Binding Peer Conn) (hello : AuthClientHello)
  | acknowledging (b : Binding Peer Conn) (acknowledged data control : Bool)
  | starting (b : Binding Peer Conn) (stage : StartStage)
  | settling (b : Binding Peer Conn)
  | releasing (b : Binding Peer Conn)
  | bridging (b : Binding Peer Conn)
  | shuttingDown (b : Binding Peer Conn) (outcome : Except HostError UInt32)
  | finalizing (b : Binding Peer Conn) (code : UInt32) (shutdown : Except HostError Unit)
  | interrupting (b : Binding Peer Conn) (error : HostError)
  | ended (result : Except HostError UInt32)

/-- What the run did. -/
inductive Observation where
  | waitAuth
  | authenticated (controller : Peer) (advertised : AdvertisedLease Reg) (hello : AuthClientHello)
      (exchange : AuthExchange)
  | opened (b : Binding Peer Conn) (advertised : AdvertisedLease Reg) (unique : Option Conn)
  | readyFlushed
  | illegal (error : TransitionError)

structure HostRun where
  book : ConnectionBook Peer Conn
  advertised : AdvertisedLease Reg
  session : TargetSessionState
  /-- A rejection of an extra authentication holds up the phase. -/
  rejecting : Bool
  phase : Phase Peer Conn
  log : List (Observation Peer Conn Reg)

/-- What can come in while the run waits for something else. -/
inductive Input where
  | driver (event : EndpointEvent Peer Conn)
  | authStream (peer : Peer)
  | terminalStream (peer : Peer) (control : Bool)
  | fileStream
  | registrationEnded
  | signal (error : HostError)

/-- What an await meets. -/
inductive Action where
  | input (i : Input Peer Conn)
  | rejected (finished : Bool)
  | lease (usable : Bool)
  | recovery (result : Except HostError (Option (AdvertisedLease Reg)))
  | upgradeReady
  | deadline
  | peerClosed (result : Except EndpointError Unit)
  | hello (result : Except HostError AuthClientHello) (permitted : Bool)
  | retrySent
  | exchanged (result : Except HostError AuthExchange)
  | acknowledged (result : Except HostError Unit)
  | auditRoot (result : Except HostError Unit)
  | progressed (result : Except HostError Unit)
  | released
  | bridged (outcome : Except HostError UInt32)
  | shutdown (result : Except HostError Unit)
  | finalized (result : Except HostError Unit)
  | closedInterrupted

end

/-- The binding that is enforced in a phase. -/
def Phase.bound {Peer Conn : Type} : Phase Peer Conn → Option (Binding Peer Conn)
  | .readingHello b => some b
  | .retrying b => some b
  | .authenticating b _ => some b
  | .acknowledging b _ _ _ => some b
  | .starting b _ => some b
  | _ => none

/-- What does not change during a run. -/
structure HostSetup (Peer Reg PakeState : Type) where
  pake : Pake Peer Reg PakeState
  target : Peer
  access : RelayAccessMode

namespace HostRun

variable {Peer Conn Reg PakeState : Type} [DecidableEq Peer] [DecidableEq Conn]

/-- A new run. -/
def start (book : ConnectionBook Peer Conn) (advertised : AdvertisedLease Reg) :
    HostRun Peer Conn Reg :=
  { book := book, advertised := advertised, session := .advertised, rejecting := false
    phase := .top, log := [] }

/-- On to a phase; a rejection does not outlive the phase it held up. -/
def goto (h : HostRun Peer Conn Reg) (phase : Phase Peer Conn) : HostRun Peer Conn Reg :=
  { h with phase := phase, rejecting := false }

def fail (h : HostRun Peer Conn Reg) (error : HostError) : HostRun Peer Conn Reg :=
  h.goto (.ended (.error error))

def record (h : HostRun Peer Conn Reg) (o : Observation Peer Conn Reg) : HostRun Peer Conn Reg :=
  { h with log := o :: h.log }

/-- `session.apply(event)?`, and on. -/
def apply (h : HostRun Peer Conn Reg) (event : SessionEvent)
    (next : HostRun Peer Conn Reg → HostRun Peer Conn Reg) : HostRun Peer Conn Reg :=
  match h.session.apply event with
  | .ok session => next { h with session := session }
  | .error error => (h.record (.illegal error)).fail (.session error)

/-- `settle_binding_change`, up to its await. -/
def settle (h : HostRun Peer Conn Reg) (b : Binding Peer Conn) (error : EndpointError) :
    HostRun Peer Conn Reg :=
  if error = .additionalBoundConnection then h.goto (.settling b) else h.goto .top

/-- The run after an error of `drive_session_inputs`, or of the phase that drives its inputs itself,
by the phase that was driven. -/
def driveFailed (h : HostRun Peer Conn Reg) (b : Binding Peer Conn) (error : HostError) :
    HostRun Peer Conn Reg :=
  match h.phase, error with
  | .readingHello _, .endpoint error => h.settle b error
  | .retrying _, .endpoint error => h.settle b error
  | .authenticating .., .endpoint error =>
    h.apply (bindingEvent error) fun h => h.settle b error
  | .acknowledging .., .endpoint error =>
    h.apply (bindingEvent error) fun h => h.settle b error
  | .acknowledging .., _ => h.apply .connectionLost fun h => h.goto .top
  | .starting .., .endpoint error =>
    h.apply (hostErrorEvent (.endpoint error) .terminalStartFailed) fun h => h.settle b error
  | .starting .., error =>
    h.apply (hostErrorEvent error .terminalStartFailed) fun h => h.fail error
  | _, error => h.fail error

/-- `enforce_binding(binding)?` while the phase is driven. -/
def enforce (h : HostRun Peer Conn Reg) (b : Binding Peer Conn)
    (next : HostRun Peer Conn Reg → HostRun Peer Conn Reg) : HostRun Peer Conn Reg :=
  match h.book.validateBinding b with
  | .ok () => next h
  | .error error => h.driveFailed b (.endpoint error)

/-- An event of the driver while the phase is driven: the binding is enforced after events about its
peer. -/
def drive (h : HostRun Peer Conn Reg) (b : Binding Peer Conn) (event : EndpointEvent Peer Conn) :
    HostRun Peer Conn Reg :=
  let (book, reported) := h.book.next event
  let h := { h with book := book }
  if reported = some b.peer then h.enforce b id else h

/-- An input of `drive_session_inputs`, or of the acknowledgement, which keeps terminal streams of the
controller. A rejection starts only for a peer with a unique connection. -/
def driveInput (h : HostRun Peer Conn Reg) (b : Binding Peer Conn) :
    Input Peer Conn → HostRun Peer Conn Reg
  | .driver event => h.drive b event
  | .authStream peer =>
    if (h.book.unique peer).isSome then h.enforce b fun h => { h with rejecting := true } else h
  | .terminalStream peer control =>
    match h.phase with
    | .acknowledging b' acknowledged data control' =>
      if peer = b'.peer then
        { h with phase := if control then .acknowledging b' acknowledged data true
            else .acknowledging b' acknowledged true control' }
      else h
    | _ => h
  | .fileStream => h
  | .registrationEnded => h.driveFailed b .protocolRegistrationEnded
  | .signal error => h.driveFailed b error

/-- What `reject_extra_auth` meets: it drives only the endpoint, and enforces the binding again when
the answer is written; its timeout does not. -/
def rejectStep (h : HostRun Peer Conn Reg) (b : Binding Peer Conn) :
    Action Peer Conn Reg → Option (HostRun Peer Conn Reg)
  | .input (.driver event) => some (h.drive b event)
  | .rejected true => some (h.enforce b fun h => { h with rejecting := false })
  | .rejected false => some { h with rejecting := false }
  | _ => none

/-- The run after `authenticate`. -/
def finishAuthentication (setup : HostSetup Peer Reg PakeState) (h : HostRun Peer Conn Reg)
    (b : Binding Peer Conn) (hello : AuthClientHello) (result : Except HostError AuthExchange) :
    HostRun Peer Conn Reg :=
  match result with
  | .error _ => h.apply .authenticationFailed fun h => h.goto .top
  | .ok x =>
    match authenticate setup.pake h.advertised b.peer setup.target hello x with
    | .error _ => h.apply .authenticationFailed fun h => h.goto .top
    | .ok () =>
      (h.record (.authenticated b.peer h.advertised hello x)).apply .authenticationSucceeded
        fun h => h.goto (.acknowledging b false false false)

/-- The acknowledgement is complete once it is written and both streams are there. -/
def acknowledge (h : HostRun Peer Conn Reg) : HostRun Peer Conn Reg :=
  match h.phase with
  | .acknowledging b true true true =>
    h.apply .terminalStreamsReady fun h => h.goto (.starting b .root)
  | _ => h

/-- The error of `start_terminal` itself, which the driver returned. -/
def startFailed (h : HostRun Peer Conn Reg) (b : Binding Peer Conn) (error : HostError) :
    HostRun Peer Conn Reg :=
  h.apply (hostErrorEvent error .terminalStartFailed) fun h =>
    match error with
    | .endpoint error => h.settle b error
    | _ => h.goto .top

/-- The next stage of `start_terminal`. The flush of `TerminalReady` is its last await, so it returns
with it. -/
def startNext (setup : HostSetup Peer Reg PakeState) (h : HostRun Peer Conn Reg)
    (b : Binding Peer Conn) : StartStage → HostRun Peer Conn Reg
  | .root => h.goto (.starting b .hello)
  | .hello =>
    if setup.access = .enterprise then h.goto (.starting b .audit)
    else h.goto (.starting b .opening)
  | .audit => h.goto (.starting b .opening)
  | .opening =>
    let h := h.record (.opened b h.advertised (h.book.unique b.peer))
    if setup.access = .enterprise then h.goto (.starting b .recording)
    else h.goto (.starting b .flushing)
  | .recording => h.goto (.starting b .flushing)
  | .flushing =>
    (h.record .readyFlushed).enforce b fun h =>
      h.apply .terminalReadyFlushed fun h => h.goto (.releasing b)

/-- The end of a bridged session, once the terminal is shut down. -/
def finishBridge (setup : HostSetup Peer Reg PakeState) (h : HostRun Peer Conn Reg)
    (b : Binding Peer Conn) (outcome : Except HostError UInt32) (shutdown : Except HostError Unit) :
    HostRun Peer Conn Reg :=
  match outcome with
  | .ok code =>
    if setup.access = .enterprise then h.goto (.finalizing b code shutdown)
    else h.apply .shellExited fun h =>
      h.goto (.ended (shutdown.bind fun _ => .ok code))
  | .error error =>
    if setup.access = .enterprise ∧ error ≠ .audit then h.goto (.interrupting b error)
    else h.apply (hostErrorEvent error .connectionLost) fun h => h.fail error

/-- A step of the active session, which only goes towards its end. -/
def activeStep (setup : HostSetup Peer Reg PakeState) (h : HostRun Peer Conn Reg)
    (a : Action Peer Conn Reg) : Option (HostRun Peer Conn Reg) :=
  match h.phase, a with
  | .releasing _, .input (.driver event) => some { h with book := (h.book.next event).1 }
  | .releasing b, .released => some (h.goto (.bridging b))
  | .bridging _, .input (.driver event) => some { h with book := (h.book.next event).1 }
  | .bridging b, .bridged outcome => some (h.goto (.shuttingDown b outcome))
  | .shuttingDown b outcome, .shutdown result => some (finishBridge setup h b outcome result)
  | .finalizing _ _ _, .input (.driver event) => some { h with book := (h.book.next event).1 }
  | .finalizing _ code shutdown, .finalized (.ok ()) =>
    some (h.apply .shellExited fun h => h.goto (.ended (shutdown.bind fun _ => .ok code)))
  | .finalizing _ _ _, .finalized (.error error) =>
    some (h.apply .connectionLost fun h => h.fail error)
  | .interrupting _ error, .closedInterrupted =>
    some (h.apply (hostErrorEvent error .connectionLost) fun h => h.fail error)
  | _, _ => none

/-- An input while nothing is bound. -/
def looseInput (h : HostRun Peer Conn Reg) : Input Peer Conn → Option (HostRun Peer Conn Reg)
  | .driver event => some { h with book := (h.book.next event).1 }
  | .terminalStream .. => some h
  | .fileStream => some h
  | _ => none

/-- A step of an attempt, from the bound connection to the flush of `TerminalReady`. -/
def attemptStep (setup : HostSetup Peer Reg PakeState) (h : HostRun Peer Conn Reg)
    (a : Action Peer Conn Reg) : Option (HostRun Peer Conn Reg) :=
  match h.phase, a with
  -- The start of an authentication.
  | .readingHello b, .input i => some (h.driveInput b i)
  | .readingHello b, .hello (.ok hello) permitted =>
    some (h.enforce b fun h =>
      if permitted then
        h.apply .beginAuthentication fun h => h.goto (.authenticating b hello)
      else h.goto (.retrying b))
  | .readingHello b, .hello (.error _) _ => some (h.enforce b fun h => h.goto .top)
  | .retrying b, .input i => some (h.driveInput b i)
  | .retrying b, .retrySent => some (h.enforce b fun h => h.goto .top)
  -- The exchange.
  | .authenticating b _, .input i => some (h.driveInput b i)
  | .authenticating b hello, .exchanged result =>
    some (h.enforce b fun h => h.finishAuthentication setup b hello result)
  -- The acknowledgement and the terminal streams.
  | .acknowledging b _ _ _, .input i => some (h.driveInput b i).acknowledge
  | .acknowledging b false data control, .acknowledged (.ok ()) =>
    some ({ h with phase := .acknowledging b true data control } :
      HostRun Peer Conn Reg).acknowledge
  | .acknowledging b false _ _, .acknowledged (.error error) => some (h.driveFailed b error)
  | .acknowledging b _ _ _, .deadline => some (h.driveFailed b .timeout)
  -- The terminal. The lookup of the audit root is no await, and is made in an enterprise only.
  | .starting b .root, .auditRoot result =>
    match setup.access, result with
    | .enterprise, .error error => some (h.fail error)
    | _, _ => some (startNext setup h b .root)
  | .starting _ .root, _ => none
  | .starting b _, .input i => some (h.driveInput b i)
  | .starting b stage, .progressed (.ok ()) => some (startNext setup h b stage)
  | .starting b _, .progressed (.error error) =>
    some (h.enforce b fun h => h.startFailed b error)
  | _, _ => none

/-- A step outside an attempt. -/
def looseStep (setup : HostSetup Peer Reg PakeState) (h : HostRun Peer Conn Reg)
    (a : Action Peer Conn Reg) : Option (HostRun Peer Conn Reg) :=
  match h.phase, a with
  -- The head of the loop.
  | .top, .lease true => some ((h.record .waitAuth).goto .waitingAuth)
  | .top, .lease false => some (h.goto .recovering)
  | .recovering, .recovery (.error error) => some (h.fail error)
  | .recovering, .recovery (.ok replacement) =>
    some (({ h with advertised := replacement.getD h.advertised }.record .waitAuth).goto
      .waitingAuth)
  | .recovering, .input (.driver event) => some { h with book := (h.book.next event).1 }
  -- `wait_for_auth`.
  | .waitingAuth, .lease false => some (h.goto .top)
  | .waitingAuth, .input (.authStream peer) => some (h.goto (.quiescing peer))
  | .waitingAuth, .input .registrationEnded => some (h.fail .protocolRegistrationEnded)
  | .waitingAuth, .input (.signal error) => some (h.fail error)
  | .waitingAuth, .input i => h.looseInput i
  -- `wait_for_controller_quiescence`; all its errors go back to the head of the loop.
  | .quiescing controller, .upgradeReady =>
    match h.book.bind controller with
    | .ok b => some (h.goto (.readingHello b))
    | .error _ => none
  | .quiescing controller, .deadline => some (h.goto (.closing controller))
  | .quiescing _, .input (.authStream _) => some h
  | .quiescing _, .input .registrationEnded => some (h.goto .top)
  | .quiescing _, .input (.signal _) => some (h.goto .top)
  | .quiescing _, .input i => h.looseInput i
  | .closing _, .input (.driver event) => some { h with book := (h.book.next event).1 }
  | .closing _, .peerClosed _ => some (h.goto .top)
  -- The connections of the peer are closed after an additional one.
  | .settling _, .input (.driver event) => some { h with book := (h.book.next event).1 }
  | .settling _, .peerClosed (.ok ()) => some (h.goto .top)
  | .settling _, .peerClosed (.error error) => some (h.fail (.endpoint error))
  | _, a => h.activeStep setup a

/-- One step of the run, or nothing if its phase does not wait for the action. -/
def step (setup : HostSetup Peer Reg PakeState) (h : HostRun Peer Conn Reg)
    (a : Action Peer Conn Reg) : Option (HostRun Peer Conn Reg) :=
  match h.phase.bound with
  | some b => if h.rejecting then h.rejectStep b a else h.attemptStep setup a
  | none => h.looseStep setup a

/-- A run over a list of actions. -/
def run (setup : HostSetup Peer Reg PakeState) (h : HostRun Peer Conn Reg) :
    List (Action Peer Conn Reg) → Option (HostRun Peer Conn Reg)
  | [] => some h
  | a :: actions => (h.step setup a).bind fun h => run setup h actions

end HostRun

end Yonder.Host
