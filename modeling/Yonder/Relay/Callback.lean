import Yonder.Relay.Enterprise

/-!
# The enterprise resolve service

The stream tasks (`enterprise_resolve_exchange`), the callback handlers (`CallbackSessionHandler`) and
the owner of the callback registry, as one machine. An `Action` is what one await of one of them
meets, or one request that the owner handles, so that a list of actions is an interleaving. A task or
a handler can be dropped at any await; a request that is in a channel is handled all the same. The log
keeps what was issued, consumed, verified and written, newest first.
-/

namespace Yonder.Relay

open Lib

inductive EnterpriseResolveResponse where
  | providers (providers : List EnterpriseProvider)
  | retry (retryAfter : Nat)
  | authenticate (url : Bytes)
  | resolved (peer : Bytes)
  | cancelled
  | expired
  | failed
  | unavailable
deriving DecidableEq

/-- `resolve_enterprise_target`, on what the rendezvous registry answered. -/
def resolveEnterpriseTarget : ResolveResponse → EnterpriseResolveResponse
  | .resolved peer => .resolved peer
  | .retry _ => .unavailable
  | .unavailable => .unavailable

inductive CallbackResult where
  | admitted
  | rejected
  | invalidState
  | platform
  | limited
deriving DecidableEq, Repr

inductive CallbackAuthorization where
  | code (code : Bytes)
  | denied
  | providerFailed
deriving DecidableEq

inductive VerifyError where
  | platform
  | rejected
  | responseTooLarge
  | invalidCode
deriving DecidableEq, Repr

/-- `CallbackCompletion`. -/
structure CallbackCompletion where
  result : CallbackResult
  session : EnterpriseResolveSession

/-- How an exchange goes on when its transaction is removed. -/
inductive Removal where
  | expired
  | closed
  | writeFailed
  | abandoned
deriving DecidableEq

section

variable (Stream Call : Type)

/-- The await that a stream task is in. A request to register stays in its channel when the task is
dropped. -/
inductive ResolveTask where
  | admitting (locator : Locator)
  | offering (session : EnterpriseResolveSession) (providers : List EnterpriseProvider)
  | selecting (session : EnterpriseResolveSession) (providers : List EnterpriseProvider)
  | registering (state : OAuthState) (entry : CallbackEntry Stream) (url : Bytes) (now : Nat)
      (attached : Bool)
  | announcing (state : OAuthState)
  | waiting (state : OAuthState)
  | removing (state : OAuthState) (removal : Removal)
  | resolving (session : EnterpriseResolveSession)
  | answering
  | ended

/-- The await that a callback handler is in. -/
inductive CallbackTask where
  | taking (provider : EnterpriseProvider) (authorization : CallbackAuthorization)
      (state : OAuthState) (now : Nat) (attached : Bool)
  | verifying (provider : EnterpriseProvider) (state : OAuthState) (entry : CallbackEntry Stream)
  | finishing (entry : CallbackEntry Stream) (result : CallbackResult)
  | completing (entry : CallbackEntry Stream) (result : CallbackResult)
  | ended

inductive ServiceObservation where
  | issued (stream : Stream) (provider : EnterpriseProvider) (state : OAuthState)
  | consumed (call : Call) (provider : EnterpriseProvider) (state : OAuthState)
  | verified (call : Call) (identity : MemberIdentity)
  | resumed (stream : Stream) (session : EnterpriseResolveSession) (now : Nat)
  | wrote (stream : Stream) (response : EnterpriseResolveResponse)
deriving DecidableEq

/-- The service. `outcomes` holds what was sent on the outcome channel of each stream. -/
structure Service where
  registry : CallbackRegistry Stream
  streams : Stream → Option (ResolveTask Stream)
  callbacks : Call → Option (CallbackTask Stream)
  outcomes : Stream → Option CallbackCompletion
  log : List (ServiceObservation Stream Call)

inductive StreamAction where
  | start (locator : Locator)
  | deferred (retryAfter : Nat)
  | admitted (now : Nat) (requestId : Option UInt64) (providers : Option (List EnterpriseProvider))
  | written (ok : Bool)
  | selected (provider : EnterpriseProvider) (random : Option OAuthState) (url : Option Bytes)
      (now : Nat)
  | registered
  | completed (now : Nat)
  | outcomeDropped
  | slept
  | peerClosed
  | removed
  | resolved (response : Except RegistryError ResolveResponse)
  | abort

inductive CallbackAction where
  | arrive (provider : EnterpriseProvider) (authorization : CallbackAuthorization) (state : Bytes)
      (now : Nat)
  | taken
  | verification (result : Except VerifyError MemberIdentity)
  | cancelled
  | deadline
  | permit
  | completed (late : Bool)
  | abort

inductive ServiceAction where
  | stream (stream : Stream) (action : StreamAction)
  | callback (call : Call) (action : CallbackAction)

end

/-- `decode_state`, over the decoder of the alphabet. -/
def decodeState (base64 : Bytes → Option Bytes) (state : Bytes) : Option OAuthState :=
  if state.length ≠ 43 then none else (base64 state).bind OAuthState.fromBytes

namespace Service

variable {Stream Call : Type} [DecidableEq Stream] [DecidableEq Call]

def start (capacity : Nat) : Service Stream Call where
  registry := .withCapacity capacity
  streams := fun _ => none
  callbacks := fun _ => none
  outcomes := fun _ => none
  log := []

def record (r : Service Stream Call) (o : ServiceObservation Stream Call) : Service Stream Call :=
  { r with log := o :: r.log }

def setStream (r : Service Stream Call) (s : Stream) (task : ResolveTask Stream) :
    Service Stream Call :=
  { r with streams := Function.update r.streams s (some task) }

def setCallback (r : Service Stream Call) (c : Call) (task : CallbackTask Stream) :
    Service Stream Call :=
  { r with callbacks := Function.update r.callbacks c (some task) }

/-- A last answer: the write begins. -/
def answer (r : Service Stream Call) (s : Stream) (response : EnterpriseResolveResponse) :
    Service Stream Call :=
  (r.record (.wrote s response)).setStream s .answering

omit [DecidableEq Stream] [DecidableEq Call] in
/-- `cancellation_requested`: the stream task sent its cancellation, or dropped the sender. -/
def cancellationRequested (r : Service Stream Call) (s : Stream) : Bool :=
  match r.streams s with
  | some (.registering _ _ _ _ attached) => !attached
  | some (.announcing _) => false
  | some (.waiting _) => false
  | _ => true

/-- `CallbackEntry::complete`. -/
def complete (r : Service Stream Call) (entry : CallbackEntry Stream) (result : CallbackResult) :
    Service Stream Call :=
  { r with outcomes := Function.update r.outcomes entry.stream (some ⟨result, entry.session⟩) }

/-! ### The stream task -/

/-- The start of a session after its admission, up to the offer of the providers. -/
def offer (r : Service Stream Call) (s : Stream) (locator : Locator) (now : Nat)
    (requestId : Option UInt64) (providers : Option (List EnterpriseProvider)) :
    Service Stream Call :=
  match requestId with
  | none => r.setStream s .ended
  | some requestId =>
    match (EnterpriseResolveSession.new requestId locator now).offerProviders, providers with
    | (session, .ok ()), some providers =>
      (r.record (.wrote s (.providers providers))).setStream s (.offering session providers)
    | _, _ => r.setStream s .ended

/-- The selection of a provider, up to the request to register the transaction. -/
def select (r : Service Stream Call) (s : Stream) (session : EnterpriseResolveSession)
    (providers : List EnterpriseProvider) (provider : EnterpriseProvider)
    (random : Option OAuthState) (url : Option Bytes) (now : Nat) : Service Stream Call :=
  if provider ∉ providers then r.answer s .failed
  else
    match session.select provider random with
    | (_, .error _) => r.setStream s .ended
    | (session, .ok state) =>
      let r := r.record (.issued s provider state)
      match url with
      | none => r.setStream s .ended
      | some url =>
        r.setStream s (.registering state
          { session := session, stream := s, requestId := session.requestId
            deadline := session.deadline } url now true)

/-- The owner registers the transaction. -/
def register (r : Service Stream Call) (s : Stream) (state : OAuthState)
    (entry : CallbackEntry Stream) (url : Bytes) (now : Nat) (attached : Bool) :
    Service Stream Call :=
  let (registry, result) := r.registry.insert state entry now
  let r := { r with registry := registry }
  match attached, result with
  | false, _ => r.setStream s .ended
  | true, .error _ => r.answer s .failed
  | true, .ok () => (r.record (.wrote s (.authenticate url))).setStream s (.announcing state)

/-- The exchange resumes with what the callback sent. -/
def resume (r : Service Stream Call) (s : Stream) (completion : CallbackCompletion) (now : Nat) :
    Service Stream Call :=
  match completion.result with
  | .admitted =>
    let r := r.record (.resumed s completion.session now)
    if completion.session.isExpired now then r.answer s .expired
    else
      match completion.session.beginResolve with
      | (session, .ok ()) => r.setStream s (.resolving session)
      | (_, .error _) => r.setStream s .ended
  | _ => r.answer s .failed

/-- The owner removes the transaction; the entry dies with its session. -/
def removeTransaction (r : Service Stream Call) (s : Stream) (state : OAuthState)
    (removal : Removal) : Service Stream Call :=
  let r := { r with registry := (r.registry.remove state).1 }
  match removal with
  | .expired => r.answer s .expired
  | _ => r.setStream s .ended

/-- The answer of the resolution. -/
def finishResolve (r : Service Stream Call) (s : Stream) (session : EnterpriseResolveSession)
    (response : Except RegistryError ResolveResponse) : Service Stream Call :=
  match response with
  | .error _ => r.setStream s .ended
  | .ok response =>
    let target := resolveEnterpriseTarget response
    let transition :=
      match target with
      | .resolved peer => session.complete peer
      | _ => session.unavailable
    match transition with
    | (_, .ok ()) => r.answer s target
    | (_, .error _) => r.setStream s .ended

/-- The task is dropped, or an error ends it. -/
def abortStream (r : Service Stream Call) (s : Stream) (task : ResolveTask Stream) :
    Service Stream Call :=
  match task with
  | .registering state entry url now _ =>
    r.setStream s (.registering state entry url now false)
  | .removing state _ => r.setStream s (.removing state .abandoned)
  | _ => r.setStream s .ended

def streamStep (r : Service Stream Call) (s : Stream) (a : StreamAction) :
    Option (Service Stream Call) :=
  match r.streams s, a with
  | none, .start locator => some (r.setStream s (.admitting locator))
  | some (.admitting _), .deferred retryAfter => some (r.answer s (.retry retryAfter))
  | some (.admitting locator), .admitted now requestId providers =>
    some (r.offer s locator now requestId providers)
  | some (.offering session providers), .written true =>
    some (r.setStream s (.selecting session providers))
  | some (.selecting session providers), .selected provider random url now =>
    some (r.select s session providers provider random url now)
  | some (.registering state entry url now attached), .registered =>
    some (r.register s state entry url now attached)
  | some (.announcing state), .written true => some (r.setStream s (.waiting state))
  | some (.announcing state), .written false =>
    some (r.setStream s (.removing state .writeFailed))
  | some (.waiting _), .completed now => (r.outcomes s).map fun x => r.resume s x now
  | some (.waiting _), .outcomeDropped => some (r.answer s .failed)
  | some (.waiting state), .slept => some (r.setStream s (.removing state .expired))
  | some (.waiting state), .peerClosed => some (r.setStream s (.removing state .closed))
  | some (.removing state removal), .removed => some (r.removeTransaction s state removal)
  | some (.resolving session), .resolved response => some (r.finishResolve s session response)
  | some .answering, .written _ => some (r.setStream s .ended)
  | some task, .abort => some (r.abortStream s task)
  | _, _ => none

/-! ### The callback handler -/

/-- The handler has the entry: a route of another provider fails it. -/
def route (r : Service Stream Call) (c : Call) (provider : EnterpriseProvider)
    (authorization : CallbackAuthorization) (state : OAuthState) (entry : CallbackEntry Stream) :
    Service Stream Call :=
  if entry.session.provider ≠ some provider then
    r.setCallback c (.finishing { entry with session := (entry.session.fail .invalidState).1 }
      .invalidState)
  else
    match authorization with
    | .code _ => r.setCallback c (.verifying provider state entry)
    | .denied =>
      r.setCallback c (.finishing { entry with session := (entry.session.fail .userRejected).1 }
        .rejected)
    | .providerFailed =>
      r.setCallback c (.finishing { entry with session := (entry.session.fail .platform).1 }
        .platform)

/-- The owner takes the transaction. Without a handler the entry is dropped. -/
def take (r : Service Stream Call) (c : Call) (provider : EnterpriseProvider)
    (authorization : CallbackAuthorization) (state : OAuthState) (now : Nat) (attached : Bool) :
    Service Stream Call :=
  let taken := r.registry.take state now
  let r := { r with registry := taken.1 }
  match taken.2 with
  | none => r.setCallback c .ended
  | some entry =>
    let r := r.record (.consumed c provider state)
    if attached then r.route c provider authorization state entry
    else r.setCallback c .ended

/-- The session after a verified member, and the result. -/
def admitIdentity (session : EnterpriseResolveSession) (state : OAuthState) (identity : MemberIdentity) :
    EnterpriseResolveSession × CallbackResult :=
  match session.callback state identity with
  | (session, .error _) => (session, .invalidState)
  | (session, .ok ()) =>
    match session.validateMember true with
    | (session, .ok .admitted) => (session, .admitted)
    | (session, _) => (session, .rejected)

/-- The result of `verify_member`. -/
def verify (r : Service Stream Call) (c : Call) (state : OAuthState) (entry : CallbackEntry Stream)
    (result : Except VerifyError MemberIdentity) : Service Stream Call :=
  match result with
  | .ok identity =>
    let (session, result) := admitIdentity entry.session state identity
    (r.record (.verified c identity)).setCallback c
      (.finishing { entry with session := session } result)
  | .error .invalidCode =>
    r.setCallback c (.finishing { entry with session := (entry.session.fail .invalidState).1 }
      .invalidState)
  | .error .rejected =>
    r.setCallback c (.finishing { entry with session := (entry.session.fail .userRejected).1 }
      .rejected)
  | .error _ =>
    r.setCallback c (.finishing { entry with session := (entry.session.fail .platform).1 }
      .platform)

/-- The owner completes the transaction. -/
def completeEntry (r : Service Stream Call) (c : Call) (entry : CallbackEntry Stream)
    (result : CallbackResult) (late : Bool) : Service Stream Call :=
  if r.cancellationRequested entry.stream then
    (r.complete { entry with session := entry.session.cancel.1 } .invalidState).setCallback c .ended
  else if late then
    (r.complete { entry with session := (entry.session.fail .platform).1 } .platform).setCallback c
      .ended
  else (r.complete entry result).setCallback c .ended

def callbackStep (base64 : Bytes → Option Bytes) (r : Service Stream Call) (c : Call)
    (a : CallbackAction) : Option (Service Stream Call) :=
  match r.callbacks c, a with
  | none, .arrive provider authorization state now =>
    match decodeState base64 state with
    | none => some (r.setCallback c .ended)
    | some state => some (r.setCallback c (.taking provider authorization state now true))
  | some (.taking provider authorization state now attached), .taken =>
    some (r.take c provider authorization state now attached)
  | some (.taking provider authorization state now _), .deadline =>
    some (r.setCallback c (.taking provider authorization state now false))
  | some (.verifying _ state entry), .verification result => some (r.verify c state entry result)
  | some (.verifying _ _ entry), .cancelled =>
    if r.cancellationRequested entry.stream then
      some (r.setCallback c (.finishing { entry with session := entry.session.cancel.1 }
        .invalidState))
    else none
  | some (.verifying _ _ entry), .deadline =>
    some (r.setCallback c (.finishing { entry with session := (entry.session.fail .platform).1 }
      .platform))
  | some (.finishing entry result), .permit => some (r.setCallback c (.completing entry result))
  | some (.finishing entry _), .deadline =>
    some ((r.complete { entry with session := (entry.session.fail .platform).1 }
      .platform).setCallback c .ended)
  | some (.completing entry result), .completed late => some (r.completeEntry c entry result late)
  | some (.taking provider authorization state now _), .abort =>
    some (r.setCallback c (.taking provider authorization state now false))
  | some (.completing ..), .abort => some r
  | some _, .abort => some (r.setCallback c .ended)
  | _, _ => none

/-- One step of the service. -/
def step (base64 : Bytes → Option Bytes) (r : Service Stream Call) :
    ServiceAction Stream Call → Option (Service Stream Call)
  | .stream s a => r.streamStep s a
  | .callback c a => r.callbackStep base64 c a

/-- A run over an interleaving. -/
def run (base64 : Bytes → Option Bytes) (r : Service Stream Call) :
    List (ServiceAction Stream Call) → Option (Service Stream Call)
  | [] => some r
  | a :: actions => (r.step base64 a).bind fun r => run base64 r actions

end Service

end Yonder.Relay
