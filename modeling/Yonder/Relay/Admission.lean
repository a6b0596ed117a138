import Yonder.Relay.Callback

/-!
# Admission by one callback

What ties a state to one session in every interleaving (`Service.Inv`): a state that is being
registered or is registered was issued to its stream and consumed by nobody, an entry in the hands of
a handler was consumed by that handler alone, and a completion that admits was verified.
`run_admission`: if the states drawn are distinct, a resolved peer is written to a stream only after
the state issued to it was consumed by one callback, on the route of the provider it selected, whose
member was verified, and the session resumed neither ended nor expired; and no state is consumed
twice.
-/

namespace Yonder.Relay

open Lib

variable {Stream Call : Type}

/-- The states that were issued. -/
def issuedStates (log : List (ServiceObservation Stream Call)) : List OAuthState :=
  log.filterMap fun
    | .issued _ _ state => some state
    | _ => none

/-- The callbacks that consumed a state, each with its route. -/
def consumers (state : OAuthState) (log : List (ServiceObservation Stream Call)) :
    List (Call × EnterpriseProvider) :=
  log.filterMap fun
    | .consumed call provider state' => if state' = state then some (call, provider) else none
    | _ => none

/-- The state of the stream was consumed by one callback, on the route of the provider selected for
it, whose member was verified. -/
def Authorized (log : List (ServiceObservation Stream Call)) (s : Stream) : Prop :=
  ∃ provider state call identity, .issued s provider state ∈ log ∧
    consumers state log = [(call, provider)] ∧ .verified call identity ∈ log

/-- The session of the stream resumed, authenticated and in time. -/
def ResumedInTime (log : List (ServiceObservation Stream Call)) (s : Stream) : Prop :=
  ∃ session now, .resumed s session now ∈ log ∧ session.phase = .authenticated ∧
    session.isExpired now = false

/-! ## Logs -/

/-- An observation that consumes nothing. -/
def ServiceObservation.Quiet : ServiceObservation Stream Call → Prop
  | .consumed .. => False
  | _ => True

variable {o : ServiceObservation Stream Call} {state : OAuthState} {provider : EnterpriseProvider}
  {entry : CallbackEntry Stream} {now : Nat} {base64 : Bytes → Option Bytes}

theorem consumers_cons (ho : o.Quiet) (state : OAuthState)
    (log : List (ServiceObservation Stream Call)) :
    consumers state (o :: log) = consumers state log := by
  cases o <;> first | rfl | cases ho

@[simp] theorem consumers_consumed (call : Call) (provider : EnterpriseProvider)
    (state state' : OAuthState) (log : List (ServiceObservation Stream Call)) :
    consumers state (.consumed call provider state' :: log) =
      if state' = state then (call, provider) :: consumers state log else consumers state log := by
  by_cases h : state' = state <;> simp [consumers, h]

theorem mem_issuedStates {log : List (ServiceObservation Stream Call)} :
    state ∈ issuedStates log ↔ ∃ s provider, .issued s provider state ∈ log := by
  unfold issuedStates
  rw [List.mem_filterMap]
  constructor
  · rintro ⟨o, hmem, ho⟩
    cases o <;> cases ho
    exact ⟨_, _, hmem⟩
  · rintro ⟨s, provider, hmem⟩
    exact ⟨_, hmem, rfl⟩

/-- A state that is drawn once is issued to one stream. -/
theorem issued_unique {log : List (ServiceObservation Stream Call)}
    (hnodup : (issuedStates log).Nodup) {s s' : Stream} {provider' : EnterpriseProvider}
    (h : .issued s provider state ∈ log) (h' : .issued s' provider' state ∈ log) : s = s' := by
  induction log with
  | nil => cases h
  | cons o log ih =>
    by_cases ho : ∃ t q, o = .issued t q state
    case pos =>
      obtain ⟨t, q, rfl⟩ := ho
      have hfresh : state ∉ issuedStates log := (List.nodup_cons.1 hnodup).1
      have hhead : ∀ {u q'}, .issued u q' state ∈ (.issued t q state :: log) → u = t := by
        intro u q' hu
        rcases List.mem_cons.1 hu with hu | hu
        · cases hu
          rfl
        · exact absurd (mem_issuedStates.2 ⟨_, _, hu⟩) hfresh
      exact (hhead h).trans (hhead h').symm
    case neg =>
      have htail : ∀ {u q'}, .issued u q' state ∈ o :: log → .issued u q' state ∈ log := by
        intro u q' hu
        rcases List.mem_cons.1 hu with hu | hu
        · exact absurd ⟨u, q', hu.symm⟩ ho
        · exact hu
      have hnodup' : (issuedStates log).Nodup :=
        hnodup.sublist ((List.sublist_cons_self o log).filterMap _)
      exact ih hnodup' (htail h) (htail h')

/-- A later log: nothing is lost, and what has been consumed is not consumed again. -/
structure Later (log log' : List (ServiceObservation Stream Call)) : Prop where
  mem : ∀ o ∈ log, o ∈ log'
  consumers_eq : ∀ state, consumers state log ≠ [] → consumers state log' = consumers state log

namespace Later

theorem of_quiet (ho : o.Quiet) (log : List (ServiceObservation Stream Call)) :
    Later log (o :: log) where
  mem := fun _ => List.mem_cons_of_mem _
  consumers_eq := fun state _ => consumers_cons ho state log

theorem of_consumed {log : List (ServiceObservation Stream Call)} (h : consumers state log = [])
    (call : Call) (provider : EnterpriseProvider) :
    Later log (.consumed call provider state :: log) where
  mem := fun _ => List.mem_cons_of_mem _
  consumers_eq := fun state' hne => by
    rw [consumers_consumed, if_neg]
    rintro rfl
    exact hne h

variable {log log' : List (ServiceObservation Stream Call)} {s : Stream}

theorem authorized (hlater : Later log log') (h : Authorized log s) : Authorized log' s := by
  obtain ⟨provider, state, call, identity, hissued, hconsumers, hverified⟩ := h
  refine ⟨provider, state, call, identity, hlater.mem _ hissued, ?_, hlater.mem _ hverified⟩
  rw [hlater.consumers_eq state (by rw [hconsumers]; exact List.cons_ne_nil _ _), hconsumers]

theorem resumedInTime (hlater : Later log log') (h : ResumedInTime log s) :
    ResumedInTime log' s := by
  obtain ⟨session, now, hmem, hphase, htime⟩ := h
  exact ⟨session, now, hlater.mem _ hmem, hphase, htime⟩

end Later

/-! ## The invariant -/

/-- The entry is the one of the stream that the state was issued to. -/
def Owned (log : List (ServiceObservation Stream Call)) (state : OAuthState)
    (entry : CallbackEntry Stream) : Prop :=
  ∃ provider, entry.session.provider = some provider ∧ .issued entry.stream provider state ∈ log

/-- What holds of a stream task. -/
def ResolveTask.Ok (log : List (ServiceObservation Stream Call))
    (registry : CallbackRegistry Stream) (s : Stream) : ResolveTask Stream → Prop
  | .registering state entry _ _ _ => entry.stream = s ∧ Owned log state entry ∧
      consumers state log = [] ∧ registry.lookup state = none
  | .resolving _ => Authorized log s ∧ ResumedInTime log s
  | _ => True

variable {task : ResolveTask Stream}

/-- What holds of a callback handler. -/
def CallbackTask.Ok (log : List (ServiceObservation Stream Call)) (c : Call) :
    CallbackTask Stream → Prop
  | .verifying provider state entry => entry.session.provider = some provider ∧
      .issued entry.stream provider state ∈ log ∧ consumers state log = [(c, provider)]
  | .finishing entry result => result = .admitted → Authorized log entry.stream
  | .completing entry result => result = .admitted → Authorized log entry.stream
  | _ => True

namespace Service

/-- What every interleaving keeps. -/
structure Inv (r : Service Stream Call) : Prop where
  streams : ∀ s task, r.streams s = some task → task.Ok r.log r.registry s
  callbacks : ∀ c task, r.callbacks c = some task → task.Ok r.log c
  outcomes : ∀ s x, r.outcomes s = some x → x.result = .admitted → Authorized r.log s
  entries : ∀ state entry, r.registry.lookup state = some entry →
    Owned r.log state entry ∧ consumers state r.log = []
  once : ∀ state, (consumers state r.log).length ≤ 1
  issued : ∀ state, consumers state r.log ≠ [] → state ∈ issuedStates r.log
  written : ∀ s peer, .wrote s (.resolved peer) ∈ r.log →
    Authorized r.log s ∧ ResumedInTime r.log s

end Service

theorem Owned.later {log log' : List (ServiceObservation Stream Call)} (h : Owned log state entry)
    (hlater : Later log log') : Owned log' state entry := by
  obtain ⟨provider, hprovider, hissued⟩ := h
  exact ⟨provider, hprovider, hlater.mem _ hissued⟩

theorem CallbackTask.Ok.later {log log' : List (ServiceObservation Stream Call)} {c : Call}
    {task : CallbackTask Stream} (h : task.Ok log c) (hlater : Later log log') :
    task.Ok log' c := by
  cases task with
  | verifying provider state entry =>
    obtain ⟨hprovider, hissued, hconsumers⟩ := h
    refine ⟨hprovider, hlater.mem _ hissued, ?_⟩
    rw [hlater.consumers_eq state (by rw [hconsumers]; exact List.cons_ne_nil _ _), hconsumers]
  | finishing entry result => exact fun hr => hlater.authorized (h hr)
  | completing entry result => exact fun hr => hlater.authorized (h hr)
  | taking => trivial
  | ended => trivial

/-- A stream task, in a later log in which its own state is still unconsumed and unregistered. -/
theorem ResolveTask.Ok.later {log log' : List (ServiceObservation Stream Call)}
    {registry registry' : CallbackRegistry Stream} {s : Stream} (h : task.Ok log registry s)
    (hlater : Later log log') (hfree : ∀ state entry url now attached, task = .registering state entry url now attached →
      consumers state log' = [] ∧ registry'.lookup state = none) :
    task.Ok log' registry' s := by
  cases task with
  | registering state entry url now attached =>
    obtain ⟨hstream, howned, _⟩ := h
    exact ⟨hstream, howned.later hlater, hfree _ _ _ _ _ rfl⟩
  | resolving session => exact ⟨hlater.authorized h.1, hlater.resumedInTime h.2⟩
  | _ => trivial

/-! ## The updates -/

namespace Service

section

variable {r : Service Stream Call}

/-- Recording something that consumes nothing. -/
theorem Inv.record (hinv : r.Inv) (ho : o.Quiet) (hresolved : ∀ s peer, o = .wrote s (.resolved peer) →
      Authorized r.log s ∧ ResumedInTime r.log s) :
    (r.record o).Inv := by
  have hlater : Later r.log (o :: r.log) := .of_quiet ho r.log
  have hconsumers := fun state => consumers_cons ho state r.log
  refine ⟨fun s task htask => ?_, fun c task htask => ?_, fun s x hx hr => ?_,
    fun state entry hentry => ?_, fun state => ?_, fun state hne => ?_, fun s peer hmem => ?_⟩
  · have hok := hinv.streams s task htask
    refine hok.later hlater fun state entry url now attached heq => ?_
    subst heq
    exact ⟨(hconsumers state).trans hok.2.2.1, hok.2.2.2⟩
  · exact (hinv.callbacks c task htask).later hlater
  · exact hlater.authorized (hinv.outcomes s x hx hr)
  · obtain ⟨howned, hfree⟩ := hinv.entries state entry hentry
    exact ⟨howned.later hlater, (hconsumers state).trans hfree⟩
  · exact (hconsumers state).symm ▸ hinv.once state
  · rw [show (r.record o).log = o :: r.log from rfl, hconsumers] at hne
    obtain ⟨s, provider, hmem⟩ := mem_issuedStates.1 (hinv.issued state hne)
    exact mem_issuedStates.2 ⟨s, provider, List.mem_cons_of_mem _ hmem⟩
  · rcases List.mem_cons.1 hmem with heq | hmem
    · obtain ⟨hauth, htime⟩ := hresolved s peer heq.symm
      exact ⟨hlater.authorized hauth, hlater.resumedInTime htime⟩
    · obtain ⟨hauth, htime⟩ := hinv.written s peer hmem
      exact ⟨hlater.authorized hauth, hlater.resumedInTime htime⟩

/-- Another registry, in which nothing is new. -/
theorem Inv.shrink (hinv : r.Inv) {registry : CallbackRegistry Stream}
    (hsub : ∀ state entry, registry.lookup state = some entry →
      r.registry.lookup state = some entry) : Inv { r with registry := registry } where
  streams := fun s task htask => by
    have hok := hinv.streams s task htask
    refine hok.later ⟨fun _ => id, fun _ _ => rfl⟩ fun state entry url now attached heq => ?_
    subst heq
    refine ⟨hok.2.2.1, Option.eq_none_iff_forall_ne_some.2 fun entry' hentry => ?_⟩
    exact Option.some_ne_none _ ((hsub state entry' hentry).symm.trans hok.2.2.2)
  callbacks := hinv.callbacks
  outcomes := hinv.outcomes
  entries := fun state entry hentry => hinv.entries state entry (hsub state entry hentry)
  once := hinv.once
  issued := hinv.issued
  written := hinv.written

theorem Inv.setStream [DecidableEq Stream] (hinv : r.Inv) {s : Stream}
    (htask : task.Ok r.log r.registry s) : (r.setStream s task).Inv where
  streams := fun s' task' h' => by
    by_cases heq : s' = s
    · subst heq
      cases (Function.update_self s' _ _).symm.trans h'
      exact htask
    · exact hinv.streams s' task' ((Function.update_of_ne heq _ _).symm.trans h')
  callbacks := hinv.callbacks
  outcomes := hinv.outcomes
  entries := hinv.entries
  once := hinv.once
  issued := hinv.issued
  written := hinv.written

theorem Inv.setCallback [DecidableEq Call] (hinv : r.Inv) {c : Call} {task : CallbackTask Stream}
    (htask : task.Ok r.log c) : (r.setCallback c task).Inv where
  streams := hinv.streams
  callbacks := fun c' task' h' => by
    by_cases heq : c' = c
    · subst heq
      cases (Function.update_self c' _ _).symm.trans h'
      exact htask
    · exact hinv.callbacks c' task' ((Function.update_of_ne heq _ _).symm.trans h')
  outcomes := hinv.outcomes
  entries := hinv.entries
  once := hinv.once
  issued := hinv.issued
  written := hinv.written

theorem Inv.complete [DecidableEq Stream] (hinv : r.Inv) {result : CallbackResult}
    (hresult : result = .admitted → Authorized r.log entry.stream) :
    (r.complete entry result).Inv where
  streams := hinv.streams
  callbacks := hinv.callbacks
  outcomes := fun s x hx hr => by
    by_cases heq : s = entry.stream
    · subst heq
      cases (Function.update_self entry.stream _ _).symm.trans hx
      exact hresult hr
    · exact hinv.outcomes s x ((Function.update_of_ne heq _ _).symm.trans hx) hr
  entries := hinv.entries
  once := hinv.once
  issued := hinv.issued
  written := hinv.written

theorem Inv.answer [DecidableEq Stream] (hinv : r.Inv) {s : Stream}
    {response : EnterpriseResolveResponse}
    (hresponse : ∀ peer, response = .resolved peer →
      Authorized r.log s ∧ ResumedInTime r.log s) : (r.answer s response).Inv := by
  refine (hinv.record (o := .wrote s response) trivial fun s' peer heq => ?_).setStream trivial
  cases heq
  exact hresponse peer rfl

/-- The transaction of a task that is done registering. -/
theorem Inv.insert [DecidableEq Stream] (hinv : r.Inv) (hnodup : (issuedStates r.log).Nodup)
    {s : Stream} {url : Bytes} {attached : Bool}
    (htask : r.streams s = some (.registering state entry url now attached)) :
    Inv ({ r with registry := (r.registry.insert state entry now).1 }.setStream s .ended) := by
  obtain ⟨hstream, howned, hfree, _⟩ := hinv.streams s _ htask
  refine ⟨fun s' task' h' => ?_, hinv.callbacks, hinv.outcomes, fun state' entry' hentry => ?_,
    hinv.once, hinv.issued, hinv.written⟩
  · by_cases heq : s' = s
    · subst heq
      cases (Function.update_self s' _ _).symm.trans h'
      trivial
    · have htask' := (Function.update_of_ne heq _ _).symm.trans h'
      have hok := hinv.streams s' task' htask'
      refine hok.later ⟨fun _ => id, fun _ _ => rfl⟩ fun state' entry' url' now' attached' he => ?_
      subst he
      obtain ⟨hstream', howned', hfree', hlookup'⟩ := hok
      refine ⟨hfree', Option.eq_none_iff_forall_ne_some.2 fun entry'' hentry => ?_⟩
      rcases CallbackRegistry.lookup_insert hentry with ⟨rfl, _⟩ | hold
      · -- Two tasks would register one state, which was issued to one of them only.
        obtain ⟨_, _, hissued⟩ := howned
        obtain ⟨_, _, hissued'⟩ := howned'
        exact heq (hstream'.symm.trans ((issued_unique hnodup hissued' hissued).trans hstream))
      · exact Option.some_ne_none _ (hold.symm.trans hlookup')
  · rcases CallbackRegistry.lookup_insert hentry with ⟨rfl, rfl⟩ | hold
    · exact ⟨howned, hfree⟩
    · exact hinv.entries state' entry' hold

/-- A transaction is taken by a callback. -/
theorem Inv.take (hinv : r.Inv) (htake : (r.registry.take state now).2 = some entry) (c : Call)
    (provider : EnterpriseProvider) :
    Inv ({ r with registry := (r.registry.take state now).1 }.record
      (.consumed c provider state)) := by
  have hlookup := CallbackRegistry.lookup_of_take htake
  obtain ⟨⟨_, _, hissued⟩, hfree⟩ := hinv.entries state entry hlookup
  have hlater : Later r.log (.consumed c provider state :: r.log) := .of_consumed hfree c provider
  have hother : ∀ state', state' ≠ state →
      consumers state' (.consumed c provider state :: r.log) = consumers state' r.log :=
    fun state' hne => by rw [consumers_consumed, if_neg hne.symm]
  refine ⟨fun s task htask => ?_, fun c' task htask => ?_, fun s x hx hr => ?_,
    fun state' entry' hentry => ?_, fun state' => ?_, fun state' hne => ?_, fun s peer hmem => ?_⟩
  · have hok := hinv.streams s task htask
    refine hok.later hlater fun state' entry' url now' attached heq => ?_
    subst heq
    obtain ⟨_, _, hfree', hlookup'⟩ := hok
    have hne : state' ≠ state := by
      rintro rfl
      exact Option.some_ne_none _ (hlookup.symm.trans hlookup')
    refine ⟨(hother state' hne).trans hfree', ?_⟩
    refine Option.eq_none_iff_forall_ne_some.2 fun entry'' hentry => ?_
    exact Option.some_ne_none _ ((CallbackRegistry.lookup_take hentry).2.symm.trans hlookup')
  · exact (hinv.callbacks c' task htask).later hlater
  · exact hlater.authorized (hinv.outcomes s x hx hr)
  · obtain ⟨hne, hold⟩ := CallbackRegistry.lookup_take hentry
    obtain ⟨howned, hfree'⟩ := hinv.entries state' entry' hold
    exact ⟨howned.later hlater, (hother state' hne).trans hfree'⟩
  · by_cases heq : state' = state
    · subst heq
      show (consumers state' (.consumed c provider state' :: r.log)).length ≤ 1
      rw [consumers_consumed, if_pos rfl, hfree]
      exact le_refl 1
    · exact (hother state' heq).symm ▸ hinv.once state'
  · by_cases heq : state' = state
    · subst heq
      exact mem_issuedStates.2 ⟨_, _, List.mem_cons_of_mem _ hissued⟩
    · obtain ⟨s, q, hmem⟩ := mem_issuedStates.1 (hinv.issued state' (hother state' heq ▸ hne))
      exact mem_issuedStates.2 ⟨s, q, List.mem_cons_of_mem _ hmem⟩
  · rcases List.mem_cons.1 hmem with heq | hmem
    · cases heq
    · obtain ⟨hauth, htime⟩ := hinv.written s peer hmem
      exact ⟨hlater.authorized hauth, hlater.resumedInTime htime⟩

end

/-! ## The log only grows -/

section

variable [DecidableEq Stream] [DecidableEq Call] (r : Service Stream Call)

omit [DecidableEq Call] in
theorem log_offer (s : Stream) (locator : Locator) (now : Nat) (requestId : Option UInt64)
    (providers : Option (List EnterpriseProvider)) :
    r.log <:+ (r.offer s locator now requestId providers).log := by
  unfold offer
  split
  · exact List.suffix_rfl
  · split
    · exact List.suffix_cons _ _
    · exact List.suffix_rfl

omit [DecidableEq Call] in
theorem log_select (s : Stream) (session : EnterpriseResolveSession)
    (providers : List EnterpriseProvider) (provider : EnterpriseProvider)
    (random : Option OAuthState) (url : Option Bytes) (now : Nat) :
    r.log <:+ (r.select s session providers provider random url now).log := by
  unfold select
  split
  · exact List.suffix_cons _ _
  · split
    · exact List.suffix_rfl
    · cases url <;> exact List.suffix_cons _ _

omit [DecidableEq Call] in
theorem log_register (s : Stream) (state : OAuthState) (entry : CallbackEntry Stream) (url : Bytes)
    (now : Nat) (attached : Bool) :
    r.log <:+ (r.register s state entry url now attached).log := by
  unfold register
  dsimp only
  split
  · exact List.suffix_rfl
  · exact List.suffix_cons _ _
  · exact List.suffix_cons _ _

omit [DecidableEq Call] in
theorem log_resume (s : Stream) (completion : CallbackCompletion) (now : Nat) :
    r.log <:+ (r.resume s completion now).log := by
  unfold resume
  split
  · dsimp only
    split
    · exact (List.suffix_cons _ _).trans (List.suffix_cons _ _)
    · split <;> exact List.suffix_cons _ _
  · exact List.suffix_cons _ _

omit [DecidableEq Call] in
theorem log_finishResolve (s : Stream) (session : EnterpriseResolveSession)
    (response : Except RegistryError ResolveResponse) :
    r.log <:+ (r.finishResolve s session response).log := by
  unfold finishResolve
  cases response with
  | error _ => exact List.suffix_rfl
  | ok response =>
    dsimp only
    split
    · exact List.suffix_cons _ _
    · exact List.suffix_rfl

variable {r} {r' : Service Stream Call}

omit [DecidableEq Call] in
theorem log_streamStep {s : Stream} {a : StreamAction} (hstep : r.streamStep s a = some r') :
    r.log <:+ r'.log := by
  unfold streamStep at hstep
  split at hstep
  case h_2 => cases hstep; exact List.suffix_cons _ _
  case h_3 => cases hstep; exact log_offer ..
  case h_5 => cases hstep; exact log_select ..
  case h_6 => cases hstep; exact log_register ..
  case h_9 =>
    obtain ⟨completion, _, rfl⟩ := Option.map_eq_some_iff.1 hstep
    exact log_resume ..
  case h_10 => cases hstep; exact List.suffix_cons _ _
  case h_13 removal _ =>
    cases hstep
    cases removal <;> first | exact List.suffix_cons _ _ | exact List.suffix_rfl
  case h_14 => cases hstep; exact log_finishResolve ..
  case h_16 task _ =>
    cases hstep
    cases task <;> exact List.suffix_rfl
  case h_17 => cases hstep
  all_goals cases hstep; exact List.suffix_rfl

omit [DecidableEq Stream] in
theorem log_take (r : Service Stream Call) (c : Call) (provider : EnterpriseProvider)
    (authorization : CallbackAuthorization) (state : OAuthState) (now : Nat) (attached : Bool) :
    r.log <:+ (r.take c provider authorization state now attached).log := by
  unfold take
  dsimp only
  split
  · exact List.suffix_rfl
  · split
    · unfold route
      split
      · exact List.suffix_cons _ _
      · split <;> exact List.suffix_cons _ _
    · exact List.suffix_cons _ _

omit [DecidableEq Stream] in
theorem log_verify (r : Service Stream Call) (c : Call) (state : OAuthState)
    (entry : CallbackEntry Stream) (result : Except VerifyError MemberIdentity) :
    r.log <:+ (r.verify c state entry result).log := by
  unfold verify
  split
  · exact List.suffix_cons _ _
  all_goals exact List.suffix_rfl

theorem log_callbackStep {c : Call} {a : CallbackAction}
    (hstep : r.callbackStep base64 c a = some r') : r.log <:+ r'.log := by
  unfold callbackStep at hstep
  split at hstep
  case h_1 =>
    split at hstep <;> cases hstep <;> exact List.suffix_rfl
  case h_2 => cases hstep; exact log_take ..
  case h_4 => cases hstep; exact log_verify ..
  case h_5 =>
    split at hstep
    · cases hstep; exact List.suffix_rfl
    · cases hstep
  case h_9 =>
    cases hstep
    unfold completeEntry
    split
    · exact List.suffix_rfl
    · split <;> exact List.suffix_rfl
  case h_13 => cases hstep
  all_goals cases hstep; exact List.suffix_rfl

theorem log_step {a : ServiceAction Stream Call} (hstep : r.step base64 a = some r') :
    r.log <:+ r'.log := by
  cases a with
  | stream s a => exact log_streamStep hstep
  | callback c a => exact log_callbackStep hstep

end

theorem nodup_of_suffix {log log' : List (ServiceObservation Stream Call)} (hsuffix : log <:+ log')
    (hnodup : (issuedStates log').Nodup) : (issuedStates log).Nodup :=
  hnodup.sublist (hsuffix.sublist.filterMap _)

/-! ## The stream task -/

section

variable [DecidableEq Stream] {r : Service Stream Call} {s : Stream}

theorem Inv.offer (hinv : r.Inv) (locator : Locator) (now : Nat) (requestId : Option UInt64)
    (providers : Option (List EnterpriseProvider)) :
    (r.offer s locator now requestId providers).Inv := by
  unfold Service.offer
  split
  case h_1 => exact hinv.setStream trivial
  case h_2 =>
    split
    case h_1 _ providers _ =>
      exact (hinv.record (o := .wrote s (.providers providers)) trivial nofun).setStream trivial
    case h_2 => exact hinv.setStream trivial

/-- A new state is not registered, and nobody has consumed it. -/
theorem Inv.select (hinv : r.Inv) (session : EnterpriseResolveSession)
    (providers : List EnterpriseProvider) (provider : EnterpriseProvider)
    (random : Option OAuthState) (url : Option Bytes) (now : Nat)
    (hnodup : (issuedStates (r.select s session providers provider random url now).log).Nodup) :
    (r.select s session providers provider random url now).Inv := by
  unfold Service.select at hnodup ⊢
  split
  case isTrue => exact hinv.answer nofun
  case isFalse hmem =>
    rw [if_neg hmem] at hnodup
    split
    case h_1 => exact hinv.setStream trivial
    case h_2 session' state hselect =>
      obtain ⟨_, hprovider⟩ := EnterpriseResolveSession.select_eq_ok hselect
      rw [hselect] at hnodup
      have hinv' := hinv.record (o := .issued s provider state) trivial nofun
      have hlog : (issuedStates (.issued s provider state :: r.log)).Nodup := by
        cases url <;> exact hnodup
      have hfresh : state ∉ issuedStates r.log := (List.nodup_cons.1 hlog).1
      dsimp only
      split
      case h_1 => exact hinv'.setStream trivial
      case h_2 url =>
        refine hinv'.setStream ⟨rfl, ⟨provider, hprovider, List.mem_cons_self⟩, ?_, ?_⟩
        · by_contra hne
          exact hfresh (hinv.issued state hne)
        · refine Option.eq_none_iff_forall_ne_some.2 fun entry hentry => ?_
          obtain ⟨⟨q, _, hissued⟩, _⟩ := hinv.entries state entry hentry
          exact hfresh (mem_issuedStates.2 ⟨entry.stream, q, hissued⟩)

theorem setStream_setStream (r : Service Stream Call) (s : Stream)
    (task task' : ResolveTask Stream) :
    (r.setStream s task).setStream s task' = r.setStream s task' := by
  simp only [Service.setStream, Function.update_idem]

theorem Inv.register (hinv : r.Inv) (hnodup : (issuedStates r.log).Nodup) {url : Bytes}
    {attached : Bool} (htask : r.streams s = some (.registering state entry url now attached)) :
    (r.register s state entry url now attached).Inv := by
  have hended := hinv.insert hnodup htask
  unfold Service.register
  dsimp only
  split
  case h_1 => exact hended
  case h_2 =>
    rw [Service.answer, ← setStream_setStream _ s .ended]
    exact (hended.record (o := .wrote s .failed) trivial nofun).setStream trivial
  case h_3 =>
    rw [← setStream_setStream _ s .ended]
    exact (hended.record (o := .wrote s (.authenticate url)) trivial nofun).setStream trivial

theorem Inv.resume (hinv : r.Inv) {completion : CallbackCompletion}
    (houtcome : r.outcomes s = some completion) (now : Nat) :
    (r.resume s completion now).Inv := by
  unfold Service.resume
  split
  case h_1 hresult =>
    have hauth := hinv.outcomes s completion houtcome hresult
    have hinv' := hinv.record (o := .resumed s completion.session now) trivial nofun
    have hlater : Later r.log (.resumed s completion.session now :: r.log) :=
      .of_quiet (o := .resumed s completion.session now) trivial r.log
    dsimp only
    split
    case isTrue => exact hinv'.answer nofun
    case isFalse htime =>
      split
      case h_1 session hbegin =>
        exact hinv'.setStream ⟨hlater.authorized hauth, completion.session, now,
          List.mem_cons_self, EnterpriseResolveSession.phase_of_beginResolve hbegin,
          Bool.not_eq_true _ ▸ htime⟩
      case h_2 => exact hinv'.setStream trivial
  case h_2 => exact hinv.answer nofun

theorem Inv.removeTransaction (hinv : r.Inv) (state : OAuthState) (removal : Removal) :
    (r.removeTransaction s state removal).Inv := by
  have hinv' : Inv { r with registry := (r.registry.remove state).1 } :=
    hinv.shrink fun _ _ hentry => (CallbackRegistry.lookup_remove hentry).2
  unfold Service.removeTransaction
  cases removal
  case expired => exact hinv'.answer nofun
  all_goals exact hinv'.setStream trivial

/-- Only here a peer is written. -/
theorem Inv.finishResolve (hinv : r.Inv) {session : EnterpriseResolveSession}
    (htask : r.streams s = some (.resolving session))
    (response : Except RegistryError ResolveResponse) :
    (r.finishResolve s session response).Inv := by
  have hok := hinv.streams s _ htask
  unfold Service.finishResolve
  cases response with
  | error _ => exact hinv.setStream trivial
  | ok response =>
    dsimp only
    split
    case h_1 => exact hinv.answer fun _ _ => hok
    case h_2 => exact hinv.setStream trivial

theorem Inv.abortStream (hinv : r.Inv) (htask : r.streams s = some task) :
    (r.abortStream s task).Inv := by
  have hok := hinv.streams s task htask
  unfold Service.abortStream
  split
  case h_1 => exact hinv.setStream hok
  case h_2 => exact hinv.setStream trivial
  case h_3 => exact hinv.setStream trivial

theorem Inv.streamStep (hinv : r.Inv) {a : StreamAction} {r' : Service Stream Call}
    (hstep : r.streamStep s a = some r') (hnodup : (issuedStates r'.log).Nodup) : r'.Inv := by
  unfold Service.streamStep at hstep
  split at hstep
  case h_1 locator htask =>
    cases hstep
    exact hinv.setStream trivial
  case h_2 =>
    cases hstep
    exact hinv.answer nofun
  case h_3 =>
    cases hstep
    exact hinv.offer _ _ _ _
  case h_4 =>
    cases hstep
    exact hinv.setStream trivial
  case h_5 =>
    cases hstep
    exact hinv.select _ _ _ _ _ _ hnodup
  case h_6 htask =>
    cases hstep
    exact hinv.register (nodup_of_suffix (log_register ..) hnodup) htask
  case h_7 =>
    cases hstep
    exact hinv.setStream trivial
  case h_8 =>
    cases hstep
    exact hinv.setStream trivial
  case h_9 now htask =>
    obtain ⟨completion, houtcome, rfl⟩ := Option.map_eq_some_iff.1 hstep
    exact hinv.resume houtcome now
  case h_10 =>
    cases hstep
    exact hinv.answer nofun
  case h_11 =>
    cases hstep
    exact hinv.setStream trivial
  case h_12 =>
    cases hstep
    exact hinv.setStream trivial
  case h_13 =>
    cases hstep
    exact hinv.removeTransaction _ _
  case h_14 response htask =>
    cases hstep
    exact hinv.finishResolve htask response
  case h_15 =>
    cases hstep
    exact hinv.setStream trivial
  case h_16 htask =>
    cases hstep
    exact hinv.abortStream htask
  case h_17 => cases hstep

end

/-! ## The callback handler -/

section

variable [DecidableEq Call] {r : Service Stream Call} {c : Call}

/-- A handler that has the entry goes on only on the route of the selected provider. -/
theorem Inv.route (hinv : r.Inv) (howned : Owned r.log state entry)
    (hconsumers : consumers state r.log = [(c, provider)]) (authorization : CallbackAuthorization) :
    (r.route c provider authorization state entry).Inv := by
  unfold Service.route
  split
  case isTrue => exact hinv.setCallback nofun
  case isFalse hroute =>
    obtain ⟨selected, hselected, hissued⟩ := howned
    have hprovider : entry.session.provider = some provider := not_not.1 hroute
    cases hprovider.symm.trans hselected
    cases authorization with
    | code _ => exact hinv.setCallback ⟨hprovider, hissued, hconsumers⟩
    | denied => exact hinv.setCallback nofun
    | providerFailed => exact hinv.setCallback nofun

theorem Inv.takeEntry (hinv : r.Inv) (provider : EnterpriseProvider)
    (authorization : CallbackAuthorization) (state : OAuthState) (now : Nat) (attached : Bool) :
    (r.take c provider authorization state now attached).Inv := by
  unfold Service.take
  dsimp only
  split
  case h_1 =>
    refine (hinv.shrink fun _ _ hentry => ?_).setCallback trivial
    exact (CallbackRegistry.lookup_take hentry).2
  case h_2 entry htake =>
    have hinv' := hinv.take htake c provider
    obtain ⟨⟨selected, hselected, hissued⟩, hfree⟩ :=
      hinv.entries state entry (CallbackRegistry.lookup_of_take htake)
    split
    case isTrue =>
      refine hinv'.route ⟨selected, hselected, List.mem_cons_of_mem _ hissued⟩ ?_ authorization
      show consumers state (.consumed c provider state :: r.log) = _
      rw [consumers_consumed, if_pos rfl, hfree]
    case isFalse => exact hinv'.setCallback trivial

theorem Inv.verify (hinv : r.Inv) (htask : r.callbacks c = some (.verifying provider state entry))
    (result : Except VerifyError MemberIdentity) : (r.verify c state entry result).Inv := by
  obtain ⟨hprovider, hissued, hconsumers⟩ := hinv.callbacks c _ htask
  unfold Service.verify
  split
  case h_1 identity =>
    have hlater : Later r.log (.verified c identity :: r.log) :=
      .of_quiet (o := .verified c identity) trivial r.log
    refine (hinv.record (o := .verified c identity) trivial nofun).setCallback fun _ => ?_
    refine ⟨provider, state, c, identity, hlater.mem _ hissued, ?_, List.mem_cons_self⟩
    exact (consumers_cons (o := .verified c identity) trivial state r.log).trans hconsumers
  all_goals exact hinv.setCallback nofun

theorem Inv.completeEntry [DecidableEq Stream] (hinv : r.Inv) {result : CallbackResult}
    (htask : r.callbacks c = some (.completing entry result)) (late : Bool) :
    (r.completeEntry c entry result late).Inv := by
  have hok := hinv.callbacks c _ htask
  unfold Service.completeEntry
  split
  case isTrue =>
    refine (hinv.complete ?_).setCallback ?_
    exacts [nofun, trivial]
  case isFalse =>
    split
    case isTrue =>
      refine (hinv.complete ?_).setCallback ?_
      exacts [nofun, trivial]
    case isFalse => exact (hinv.complete hok).setCallback trivial

theorem Inv.callbackStep [DecidableEq Stream] (hinv : r.Inv) {a : CallbackAction}
    {r' : Service Stream Call} (hstep : r.callbackStep base64 c a = some r') : r'.Inv := by
  unfold Service.callbackStep at hstep
  split at hstep
  case h_1 =>
    split at hstep <;> cases hstep <;> exact hinv.setCallback trivial
  case h_2 =>
    cases hstep
    exact hinv.takeEntry _ _ _ _ _
  case h_3 =>
    cases hstep
    exact hinv.setCallback trivial
  case h_4 result htask =>
    cases hstep
    exact hinv.verify htask result
  case h_5 =>
    split at hstep
    case isTrue =>
      cases hstep
      exact hinv.setCallback nofun
    case isFalse => cases hstep
  case h_6 =>
    cases hstep
    exact hinv.setCallback nofun
  case h_7 entry result htask =>
    cases hstep
    have hok := hinv.callbacks c _ htask
    exact hinv.setCallback hok
  case h_8 =>
    cases hstep
    refine (hinv.complete ?_).setCallback ?_
    exacts [nofun, trivial]
  case h_9 late htask =>
    cases hstep
    exact hinv.completeEntry htask late
  case h_10 =>
    cases hstep
    exact hinv.setCallback trivial
  case h_11 =>
    cases hstep
    exact hinv
  case h_12 =>
    cases hstep
    exact hinv.setCallback trivial
  case h_13 => cases hstep

end

/-! ## Runs -/

theorem inv_start (capacity : Nat) : Inv (start capacity : Service Stream Call) where
  streams := fun _ _ h => by cases h
  callbacks := fun _ _ h => by cases h
  outcomes := fun _ _ h => by cases h
  entries := fun state entry hentry =>
    absurd ((Table.lookup_empty state).symm.trans hentry) (Option.some_ne_none entry).symm
  once := fun _ => Nat.zero_le 1
  issued := fun _ hne => absurd rfl hne
  written := fun _ _ h => absurd h List.not_mem_nil

variable [DecidableEq Stream] [DecidableEq Call]

theorem Inv.step {r r' : Service Stream Call} (hinv : r.Inv) {a : ServiceAction Stream Call}
    (hstep : r.step base64 a = some r') (hnodup : (issuedStates r'.log).Nodup) : r'.Inv := by
  cases a with
  | stream s a => exact hinv.streamStep hstep hnodup
  | callback c a => exact hinv.callbackStep hstep

theorem log_run {actions : List (ServiceAction Stream Call)} :
    ∀ {r r' : Service Stream Call}, r.run base64 actions = some r' → r.log <:+ r'.log := by
  induction actions with
  | nil =>
    intro r r' hrun
    cases hrun
    exact List.suffix_rfl
  | cons a actions ih =>
    intro r r' hrun
    obtain ⟨next, hstep, hrest⟩ := Option.bind_eq_some_iff.1 hrun
    exact (log_step hstep).trans (ih hrest)

theorem Inv.run {actions : List (ServiceAction Stream Call)} :
    ∀ {r r' : Service Stream Call}, r.Inv → r.run base64 actions = some r' →
      (issuedStates r'.log).Nodup → r'.Inv := by
  induction actions with
  | nil =>
    intro r r' hinv hrun _
    cases hrun
    exact hinv
  | cons a actions ih =>
    intro r r' hinv hrun hnodup
    obtain ⟨next, hstep, hrest⟩ := Option.bind_eq_some_iff.1 hrun
    exact ih (hinv.step hstep (nodup_of_suffix (log_run hrest) hnodup)) hrest hnodup

/-- Admission by one callback, in every interleaving. -/
theorem run_admission (base64 : Bytes → Option Bytes) (capacity : Nat)
    (actions : List (ServiceAction Stream Call)) (r : Service Stream Call)
    (hrun : (start capacity).run base64 actions = some r)
    (hdistinct : (issuedStates r.log).Nodup) :
    (∀ s peer, .wrote s (.resolved peer) ∈ r.log → Authorized r.log s ∧ ResumedInTime r.log s) ∧
      ∀ state, (consumers state r.log).length ≤ 1 :=
  have hinv := (inv_start capacity).run hrun hdistinct
  ⟨hinv.written, hinv.once⟩

/-- A state and its text. -/
def zeroState : OAuthState := FixedBytes.replicate 32 0

def zeroText : Bytes := List.replicate 43 65

/-- One exchange in which the member is admitted. -/
def admittedExchange : List (ServiceAction Unit Unit) :=
  [.stream () (.start ⟨5, by decide⟩), .stream () (.admitted 0 (some 1) (some [.weCom])),
    .stream () (.written true), .stream () (.selected .weCom (some zeroState) (some [104]) 1),
    .stream () .registered, .stream () (.written true),
    .callback () (.arrive .weCom (.code [1]) zeroText 2), .callback () .taken,
    .callback () (.verification (.ok ⟨[7], by decide, by decide⟩)), .callback () .permit,
    .callback () (.completed false), .stream () (.completed 3),
    .stream () (.resolved (.ok (.resolved [9])))]

theorem run_admission_exchange :
    ∃ r : Service Unit Unit,
      (start 64).run (fun text => if text = zeroText then some zeroState.1 else none)
        admittedExchange = some r ∧
      .wrote () (.resolved [9]) ∈ r.log ∧ Authorized r.log () ∧ ResumedInTime r.log () := by
  have hexchange : ((start 64).run
      (fun text => if text = zeroText then some zeroState.1 else none) admittedExchange).map
      (fun r : Service Unit Unit => decide (.wrote () (.resolved [9]) ∈ r.log) &&
        decide (issuedStates r.log).Nodup) = some true := by
    decide +kernel
  obtain ⟨r, hrun, hlog⟩ := Option.map_eq_some_iff.1 hexchange
  rw [Bool.and_eq_true, decide_eq_true_eq, decide_eq_true_eq] at hlog
  exact ⟨r, hrun, hlog.1, (run_admission _ 64 admittedExchange r hrun hlog.2).1 () [9] hlog.1⟩

end Service

end Yonder.Relay
