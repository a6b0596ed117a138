import Yonder.Host.Run

/-!
# The attempts of a host session

What every run of a host session keeps, by phase (`HostRun.Inv`): the state of the target session, the
binding, and what the log says. From the bound connection to the flush of `TerminalReady` every step
keeps it and leaves the lease alone, and it goes on, commits the session, goes back to the advertised
session, or fails the run (`post_attemptStep`).
-/

namespace Yonder.Host

variable {Peer Conn Reg PakeState : Type} [DecidableEq Peer] [DecidableEq Conn]

/-! ## What a phase goes with -/

namespace Phase

omit [DecidableEq Peer] [DecidableEq Conn]

/-- The state of the target session in a phase. -/
def expects : Phase Peer Conn → Option TargetSessionState
  | .authenticating .. => some .authenticating
  | .acknowledging .. => some .awaitingTerminal
  | .starting .. => some .startingTerminal
  | .releasing _ => some .active
  | .bridging _ => some .active
  | .shuttingDown .. => some .active
  | .finalizing .. => some .active
  | .interrupting .. => some .active
  | .ended _ => none
  | _ => some .advertised

/-- How many phases a committed session still has before it. -/
def remaining : Phase Peer Conn → Nat
  | .releasing _ => 4
  | .bridging _ => 3
  | .shuttingDown .. => 2
  | .finalizing .. => 1
  | .interrupting .. => 1
  | _ => 0

end Phase

/-- The newest observation is a successful exchange with the lease, for the peer. -/
def Granted (setup : HostSetup Peer Reg PakeState) (peer : Peer) (lease : AdvertisedLease Reg)
    (log : List (Observation Peer Conn Reg)) : Prop :=
  ∃ hello x older, log = .authenticated peer lease hello x :: older ∧
    authenticate setup.pake lease peer setup.target hello x = .ok ()

/-- Every terminal was opened right after a successful exchange, on the one connection of its peer. -/
def Legit (setup : HostSetup Peer Reg PakeState) (log : List (Observation Peer Conn Reg)) : Prop :=
  ∀ newer b lease unique older, log = newer ++ .opened b lease unique :: older →
    unique = some b.connection ∧ Granted setup b.peer lease older

/-- `TerminalReady` was flushed, once and last. -/
def FlushedLast (log : List (Observation Peer Conn Reg)) : Prop :=
  ∃ older, log = .readyFlushed :: older ∧ .readyFlushed ∉ older

/-- What the log says in a phase. -/
def Phase.Logged (setup : HostSetup Peer Reg PakeState) (phase : Phase Peer Conn)
    (lease : AdvertisedLease Reg) (log : List (Observation Peer Conn Reg)) : Prop :=
  match phase with
  | .acknowledging b _ _ _ => Granted setup b.peer lease log ∧ .readyFlushed ∉ log
  | .starting b stage =>
    (stage ≠ .recording → stage ≠ .flushing → Granted setup b.peer lease log) ∧
      .readyFlushed ∉ log
  | .releasing _ | .bridging _ | .shuttingDown .. | .finalizing .. | .interrupting .. =>
    FlushedLast log
  | .ended _ => .readyFlushed ∉ log ∨ FlushedLast log
  | _ => .readyFlushed ∉ log

/-- Where an attempt can go: it goes on, it is committed, it is back at the advertised session, or the
run has failed. -/
def Phase.After (phase : Phase Peer Conn) (session : TargetSessionState) : Prop :=
  phase.bound.isSome = true ∨ (∃ b, phase = .releasing b) ∨
    ((phase = .top ∨ ∃ b, phase = .settling b) ∧ session = .advertised) ∨
    ∃ e, phase = .ended (.error e)

/-- The phases between the attempts. -/
structure Phase.Loose (phase : Phase Peer Conn) : Prop where
  expects : phase.expects = some .advertised
  bound : phase.bound = none
  settling : ∀ b, phase ≠ .settling b

namespace HostRun

section

omit [DecidableEq Peer] [DecidableEq Conn]

/-- What holds whatever became of the connections. -/
structure Core (setup : HostSetup Peer Reg PakeState) (h : HostRun Peer Conn Reg) : Prop where
  session : ∀ s, h.phase.expects = some s → h.session = s
  inactive : ∀ r, h.phase = .ended r → h.session ≠ .active
  legal : ∀ e, .illegal e ∉ h.log
  legit : Legit setup h.log
  logged : h.phase.Logged setup h.advertised h.log

/-- What every run keeps. -/
structure Inv (setup : HostSetup Peer Reg PakeState) (h : HostRun Peer Conn Reg) : Prop
    extends h.Core setup where
  bound : ∀ b, h.phase.bound = some b → h.book.Bound b

/-- What a step of an attempt leaves. -/
structure Post (setup : HostSetup Peer Reg PakeState) (lease : AdvertisedLease Reg)
    (h : HostRun Peer Conn Reg) : Prop where
  inv : h.Inv setup
  lease_eq : h.advertised = lease
  after : h.phase.After h.session

theorem legit_cons {setup : HostSetup Peer Reg PakeState} {o : Observation Peer Conn Reg}
    {log : List (Observation Peer Conn Reg)} (h : Legit setup log)
    (ho : ∀ b lease unique, o = .opened b lease unique →
      unique = some b.connection ∧ Granted setup b.peer lease log) : Legit setup (o :: log) := by
  intro newer b lease unique older hsplit
  cases newer with
  | nil =>
    cases hsplit
    exact ho b lease unique rfl
  | cons _ newer =>
    cases hsplit
    exact h newer b lease unique older rfl

/-- The log before the commit, whatever the phase. -/
structure Clean (setup : HostSetup Peer Reg PakeState) (log : List (Observation Peer Conn Reg)) :
    Prop where
  legal : ∀ e, .illegal e ∉ log
  legit : Legit setup log
  unflushed : .readyFlushed ∉ log

theorem Core.clean {setup : HostSetup Peer Reg PakeState} {h : HostRun Peer Conn Reg}
    (hcore : h.Core setup) {b : Binding Peer Conn} (hbound : h.phase.bound = some b) :
    Clean setup h.log := by
  refine ⟨hcore.legal, hcore.legit, ?_⟩
  have hlogged := hcore.logged
  cases hphase : h.phase <;> rw [hphase] at hbound hlogged <;> cases hbound <;>
    first | exact hlogged | exact hlogged.2

section

variable {setup : HostSetup Peer Reg PakeState} {h : HostRun Peer Conn Reg}
  {lease : AdvertisedLease Reg}

theorem post_top (hclean : Clean setup h.log) (hlease : h.advertised = lease)
    (hsession : h.session = .advertised) : Post setup lease (h.goto .top) where
  inv := ⟨⟨fun _ hs => by cases hs; exact hsession, nofun, hclean.legal, hclean.legit,
    hclean.unflushed⟩, nofun⟩
  lease_eq := hlease
  after := Or.inr (Or.inr (Or.inl ⟨Or.inl rfl, hsession⟩))

theorem post_settle (hclean : Clean setup h.log) (hlease : h.advertised = lease)
    (hsession : h.session = .advertised) (b : Binding Peer Conn) (error : EndpointError) :
    Post setup lease (h.settle b error) := by
  unfold settle
  split
  case isTrue =>
    exact ⟨⟨⟨fun _ hs => by cases hs; exact hsession, nofun, hclean.legal, hclean.legit,
      hclean.unflushed⟩, nofun⟩, hlease, Or.inr (Or.inr (Or.inl ⟨Or.inr ⟨b, rfl⟩, hsession⟩))⟩
  case isFalse => exact post_top hclean hlease hsession

theorem post_fail (hclean : Clean setup h.log) (hlease : h.advertised = lease)
    (hinactive : h.session ≠ .active) (error : HostError) : Post setup lease (h.fail error) where
  inv := ⟨⟨nofun, fun _ _ => hinactive, hclean.legal, hclean.legit, Or.inl hclean.unflushed⟩,
    nofun⟩
  lease_eq := hlease
  after := Or.inr (Or.inr (Or.inr ⟨error, rfl⟩))

end

/-- An event that is legal in the state. -/
theorem apply_eq {h : HostRun Peer Conn Reg} {event : SessionEvent} {s : TargetSessionState}
    (next : HostRun Peer Conn Reg → HostRun Peer Conn Reg)
    (happly : h.session.apply event = .ok s) :
    h.apply event next = next { h with session := s } := by
  rw [apply, happly]

theorem apply_bindingEvent {s : TargetSessionState}
    (hs : s = .authenticating ∨ s = .awaitingTerminal ∨ s = .startingTerminal)
    (error : EndpointError) : s.apply (bindingEvent error) = .ok .advertised := by
  rcases hs with rfl | rfl | rfl <;> cases error <;> rfl

theorem apply_hostErrorEvent (error : HostError) :
    TargetSessionState.startingTerminal.apply (hostErrorEvent error .terminalStartFailed) =
      .ok .advertised := by
  cases error with
  | endpoint error => exact apply_bindingEvent (Or.inr (Or.inr rfl)) error
  | _ => rfl

/-- A failure while an attempt is driven. -/
theorem post_driveFailed {setup : HostSetup Peer Reg PakeState} {h : HostRun Peer Conn Reg}
    (hcore : h.Core setup) {b' : Binding Peer Conn} (hbound : h.phase.bound = some b')
    (b : Binding Peer Conn) (error : HostError) :
    Post setup h.advertised (h.driveFailed b error) := by
  have hclean := hcore.clean hbound
  have hsession := hcore.session
  obtain ⟨book, lease, session, rejecting, phase, log⟩ := h
  simp only at hsession hbound hclean
  cases phase <;> cases hbound <;> cases hsession _ rfl
  case readingHello =>
    cases error
    case endpoint error => exact post_settle hclean (by rfl) (by rfl) b error
    all_goals exact post_fail hclean (by rfl) (by nofun) _
  case retrying =>
    cases error
    case endpoint error => exact post_settle hclean (by rfl) (by rfl) b error
    all_goals exact post_fail hclean (by rfl) (by nofun) _
  case authenticating =>
    cases error
    case endpoint error =>
      simp only [driveFailed]
      rw [apply_eq _ (apply_bindingEvent (Or.inl rfl) error)]
      exact post_settle hclean (by rfl) (by rfl) b error
    all_goals exact post_fail hclean (by rfl) (by nofun) _
  case acknowledging =>
    cases error
    case endpoint error =>
      simp only [driveFailed]
      rw [apply_eq _ (apply_bindingEvent (Or.inr (Or.inl rfl)) error)]
      exact post_settle hclean (by rfl) (by rfl) b error
    all_goals exact post_top hclean (by rfl) (by rfl)
  case starting =>
    cases error
    case endpoint error =>
      simp only [driveFailed]
      rw [apply_eq _ (apply_hostErrorEvent (.endpoint error))]
      exact post_settle hclean (by rfl) (by rfl) b error
    all_goals exact post_fail hclean (by rfl) (by nofun) _

end

omit [DecidableEq Peer] in
/-- A driven attempt goes on if the binding holds. -/
theorem post_enforce {setup : HostSetup Peer Reg PakeState} {h : HostRun Peer Conn Reg}
    (hcore : h.Core setup) {b : Binding Peer Conn} (hphase : h.phase.bound = some b)
    {next : HostRun Peer Conn Reg → HostRun Peer Conn Reg}
    (hnext : h.book.Bound b → Post setup h.advertised (next h)) :
    Post setup h.advertised (h.enforce b next) := by
  unfold enforce
  split
  case h_1 hok => exact hnext (ConnectionBook.validateBinding_eq_ok.1 hok)
  case h_2 error _ => exact post_driveFailed hcore hphase b (.endpoint error)

omit [DecidableEq Peer] [DecidableEq Conn] in
theorem Inv.post {setup : HostSetup Peer Reg PakeState} {h : HostRun Peer Conn Reg}
    (hinv : h.Inv setup) {b : Binding Peer Conn} (hphase : h.phase.bound = some b) :
    Post setup h.advertised h :=
  ⟨hinv, rfl, Or.inl (by rw [hphase]; rfl)⟩

/-- An event of the driver during an attempt. -/
theorem post_drive {setup : HostSetup Peer Reg PakeState} {h : HostRun Peer Conn Reg}
    (hinv : h.Inv setup) {b : Binding Peer Conn} (hphase : h.phase.bound = some b)
    (event : EndpointEvent Peer Conn) : Post setup h.advertised (h.drive b event) := by
  have hcore : Core setup { h with book := (h.book.next event).1 } :=
    ⟨hinv.session, hinv.inactive, hinv.legal, hinv.legit, hinv.logged⟩
  unfold drive
  dsimp only
  split
  case isTrue =>
    refine post_enforce hcore hphase fun hbound => ?_
    refine Inv.post ⟨hcore, fun b' hb' => ?_⟩ hphase
    cases hphase.symm.trans hb'
    exact hbound
  case isFalse hother =>
    refine Inv.post ⟨hcore, fun b' hb' => ?_⟩ hphase
    cases hphase.symm.trans hb'
    exact (ConnectionBook.roster_next h.book event hother).trans (hinv.bound b hphase)

omit [DecidableEq Peer] [DecidableEq Conn] in
theorem Inv.rejecting {setup : HostSetup Peer Reg PakeState} {h : HostRun Peer Conn Reg}
    (hinv : h.Inv setup) (rejecting : Bool) : Inv setup { h with rejecting := rejecting } :=
  ⟨⟨hinv.session, hinv.inactive, hinv.legal, hinv.legit, hinv.logged⟩, hinv.bound⟩

theorem post_rejectStep {setup : HostSetup Peer Reg PakeState} {h h' : HostRun Peer Conn Reg}
    (hinv : h.Inv setup) {b : Binding Peer Conn} (hphase : h.phase.bound = some b)
    {a : Action Peer Conn Reg} (hstep : h.rejectStep b a = some h') :
    Post setup h.advertised h' := by
  unfold rejectStep at hstep
  split at hstep
  case h_1 event =>
    cases hstep
    exact post_drive hinv hphase event
  case h_2 =>
    cases hstep
    exact post_enforce hinv.toCore hphase fun _ => (hinv.rejecting false).post hphase
  case h_3 =>
    cases hstep
    exact (hinv.rejecting false).post hphase
  case h_4 => cases hstep

/-- An input during an attempt. -/
theorem post_driveInput {setup : HostSetup Peer Reg PakeState} {h : HostRun Peer Conn Reg}
    (hinv : h.Inv setup) {b : Binding Peer Conn} (hphase : h.phase.bound = some b)
    (i : Input Peer Conn) : Post setup h.advertised (h.driveInput b i) := by
  cases i with
  | driver event => exact post_drive hinv hphase event
  | authStream peer =>
    simp only [driveInput]
    split
    · exact post_enforce hinv.toCore hphase fun _ => (hinv.rejecting true).post hphase
    · exact hinv.post hphase
  | terminalStream peer control =>
    simp only [driveInput]
    split
    case h_1 b' acknowledged data control' hack =>
      split
      case isTrue =>
        have hlogged := hinv.logged
        have hsession := hinv.session
        have hbound := hinv.bound
        rw [hack] at hlogged hsession hbound
        cases control <;> exact ⟨⟨⟨hsession, nofun, hinv.legal, hinv.legit, hlogged⟩, hbound⟩, rfl, Or.inl rfl⟩
      case isFalse => exact hinv.post hphase
    case h_2 => exact hinv.post hphase
  | fileStream => exact hinv.post hphase
  | registrationEnded => exact post_driveFailed hinv.toCore hphase b _
  | signal error => exact post_driveFailed hinv.toCore hphase b _

omit [DecidableEq Peer] [DecidableEq Conn] in
/-- On to another phase of the attempt. -/
theorem post_goto {setup : HostSetup Peer Reg PakeState} {h : HostRun Peer Conn Reg}
    {lease : AdvertisedLease Reg} {phase : Phase Peer Conn} {b : Binding Peer Conn}
    (hphase : phase.bound = some b) (hlease : h.advertised = lease) (hbound : h.book.Bound b)
    (hcore : Core setup (h.goto phase)) : Post setup lease (h.goto phase) :=
  ⟨⟨hcore, fun b' hb' => by cases hphase.symm.trans hb'; exact hbound⟩, hlease,
    Or.inl (by rw [show (h.goto phase).phase = phase from rfl, hphase]; rfl)⟩

omit [DecidableEq Peer] [DecidableEq Conn] in
theorem post_finishAuthentication {setup : HostSetup Peer Reg PakeState}
    {h : HostRun Peer Conn Reg} (hinv : h.Inv setup) {b : Binding Peer Conn}
    {hello : AuthClientHello} (hphase : h.phase = .authenticating b hello)
    (result : Except HostError AuthExchange) :
    Post setup h.advertised (h.finishAuthentication setup b hello result) := by
  have hb : h.phase.bound = some b := by rw [hphase]; rfl
  have hclean := hinv.clean hb
  have hsession : h.session = .authenticating := hinv.session _ (by rw [hphase]; rfl)
  have hfailed : Post setup h.advertised (h.apply .authenticationFailed fun h => h.goto .top) := by
    rw [apply_eq _ (by rw [hsession]; rfl)]
    exact post_top hclean rfl rfl
  unfold finishAuthentication
  cases result with
  | error _ => exact hfailed
  | ok x =>
    dsimp only
    split
    case h_1 => exact hfailed
    case h_2 hok =>
      rw [apply_eq (s := .awaitingTerminal) _ (by rw [record, hsession]; rfl)]
      refine post_goto (b := b) rfl rfl (hinv.bound b hb) ⟨?_, nofun, ?_, ?_, ?_⟩
      · intro s hs
        cases hs
        rfl
      · exact fun e => List.not_mem_cons_of_ne_of_not_mem nofun (hclean.legal e)
      · exact legit_cons hclean.legit nofun
      · exact ⟨⟨hello, x, h.log, rfl, hok⟩,
          List.not_mem_cons_of_ne_of_not_mem nofun hclean.unflushed⟩

omit [DecidableEq Peer] [DecidableEq Conn] in
theorem post_acknowledge {setup : HostSetup Peer Reg PakeState} {h : HostRun Peer Conn Reg}
    {lease : AdvertisedLease Reg} (hpost : Post setup lease h) :
    Post setup lease h.acknowledge := by
  unfold acknowledge
  split
  case h_1 b hphase =>
    have hinv := hpost.inv
    have hb : h.phase.bound = some b := by rw [hphase]; rfl
    have hsession : h.session = .awaitingTerminal := hinv.session _ (by rw [hphase]; rfl)
    have hlogged := hinv.logged
    rw [hphase] at hlogged
    rw [apply_eq (s := .startingTerminal) _ (by rw [hsession]; rfl)]
    refine post_goto (b := b) rfl hpost.lease_eq (hinv.bound b hb)
      ⟨?_, nofun, hinv.legal, hinv.legit, fun _ _ => hlogged.1, hlogged.2⟩
    intro s hs
    cases hs
    rfl
  case h_2 => exact hpost

omit [DecidableEq Peer] in
/-- The stages of `start_terminal`: the terminal is opened while the binding holds, right after the
exchange, and the flush of `TerminalReady` commits the session. -/
theorem post_startNext {setup : HostSetup Peer Reg PakeState} {h : HostRun Peer Conn Reg}
    (hinv : h.Inv setup) {b : Binding Peer Conn} {stage : StartStage}
    (hphase : h.phase = .starting b stage) :
    Post setup h.advertised (startNext setup h b stage) := by
  have hb : h.phase.bound = some b := by rw [hphase]; rfl
  have hclean := hinv.clean hb
  have hbound := hinv.bound b hb
  have hsession : h.session = .startingTerminal := hinv.session _ (by rw [hphase]; rfl)
  have hlogged := hinv.logged
  rw [hphase] at hlogged
  -- A stage that adds nothing to the log.
  have hnext : ∀ next, (next ≠ .recording → next ≠ .flushing →
      stage ≠ .recording ∧ stage ≠ .flushing) →
      Post setup h.advertised (h.goto (.starting b next)) := fun next hstage =>
    post_goto (b := b) rfl rfl hbound
      ⟨fun _ hs => by cases hs; exact hsession, nofun, hclean.legal, hclean.legit,
        fun hr hf => hlogged.1 (hstage hr hf).1 (hstage hr hf).2, hlogged.2⟩
  cases stage with
  | root => exact hnext .hello (by decide)
  | hello =>
    simp only [startNext]
    split
    · exact hnext .audit (by decide)
    · exact hnext .opening (by decide)
  | audit => exact hnext .opening (by decide)
  | recording => exact hnext .flushing (by decide)
  | opening =>
    have hopened : ∀ next, next = .recording ∨ next = .flushing →
        Post setup h.advertised
          ((h.record (.opened b h.advertised (h.book.unique b.peer))).goto (.starting b next)) := by
      intro next hstage
      refine post_goto (b := b) rfl rfl hbound
        ⟨fun _ hs => by cases hs; exact hsession, nofun, ?_, ?_, ?_, ?_⟩
      · exact fun e => List.not_mem_cons_of_ne_of_not_mem nofun (hclean.legal e)
      · refine legit_cons hclean.legit fun _ _ _ heq => ?_
        cases heq
        exact ⟨hbound.unique_eq, hlogged.1 nofun nofun⟩
      · intro hr hf
        rcases hstage with rfl | rfl
        · exact absurd rfl hr
        · exact absurd rfl hf
      · exact List.not_mem_cons_of_ne_of_not_mem nofun hclean.unflushed
    simp only [startNext]
    split
    · exact hopened .recording (Or.inl rfl)
    · exact hopened .flushing (Or.inr rfl)
  | flushing =>
    have hok : (h.record .readyFlushed).book.validateBinding b = .ok () :=
      ConnectionBook.validateBinding_eq_ok.2 hbound
    simp only [startNext]
    rw [enforce, hok]
    dsimp only
    rw [apply_eq (s := .active) _ (by rw [record, hsession]; rfl)]
    refine ⟨⟨⟨?_, nofun, ?_, ?_, ?_⟩, nofun⟩, rfl, Or.inr (Or.inl ⟨b, rfl⟩)⟩
    · intro s hs
      cases hs
      rfl
    · exact fun e => List.not_mem_cons_of_ne_of_not_mem nofun (hclean.legal e)
    · exact legit_cons hclean.legit nofun
    · exact ⟨h.log, rfl, hclean.unflushed⟩

omit [DecidableEq Peer] [DecidableEq Conn] in
theorem post_startFailed {setup : HostSetup Peer Reg PakeState} {h : HostRun Peer Conn Reg}
    (hinv : h.Inv setup) {b : Binding Peer Conn} {stage : StartStage}
    (hphase : h.phase = .starting b stage) (error : HostError) :
    Post setup h.advertised (h.startFailed b error) := by
  have hb : h.phase.bound = some b := by rw [hphase]; rfl
  have hclean := hinv.clean hb
  have hsession : h.session = .startingTerminal := hinv.session _ (by rw [hphase]; rfl)
  unfold startFailed
  rw [apply_eq _ (by rw [hsession]; exact apply_hostErrorEvent error)]
  split
  case h_1 error =>
    refine post_settle ?_ ?_ ?_ b error
    exacts [hclean, rfl, rfl]
  case h_2 => exact post_top hclean rfl rfl

omit [DecidableEq Peer] in
theorem post_hello {setup : HostSetup Peer Reg PakeState} {h : HostRun Peer Conn Reg}
    (hinv : h.Inv setup) {b : Binding Peer Conn} (hphase : h.phase = .readingHello b)
    (hello : AuthClientHello) (permitted : Bool) :
    Post setup h.advertised (h.enforce b fun h =>
      if permitted then h.apply .beginAuthentication fun h => h.goto (.authenticating b hello)
      else h.goto (.retrying b)) := by
  have hb : h.phase.bound = some b := by rw [hphase]; rfl
  have hclean := hinv.clean hb
  have hsession : h.session = .advertised := hinv.session _ (by rw [hphase]; rfl)
  refine post_enforce hinv.toCore hb fun hbound => ?_
  split
  · rw [apply_eq (s := .authenticating) _ (by rw [hsession]; rfl)]
    refine post_goto (b := b) rfl rfl hbound
      ⟨fun _ hs => ?_, nofun, hclean.legal, hclean.legit, hclean.unflushed⟩
    cases hs
    rfl
  · exact post_goto (b := b) rfl rfl hbound
      ⟨fun _ hs => by cases hs; exact hsession, nofun, hclean.legal, hclean.legit,
        hclean.unflushed⟩

/-- Every step of an attempt. -/
theorem post_attemptStep {setup : HostSetup Peer Reg PakeState} {h h' : HostRun Peer Conn Reg}
    (hinv : h.Inv setup) {b : Binding Peer Conn} (hb : h.phase.bound = some b)
    {a : Action Peer Conn Reg} (hstep : h.attemptStep setup a = some h') :
    Post setup h.advertised h' := by
  have hclean := hinv.clean hb
  -- Back to the head of the loop, from a phase before the exchange.
  have htop : ∀ b', h.phase.bound = some b' → h.session = .advertised →
      Post setup h.advertised (h.enforce b' fun h => h.goto .top) := fun b' hb' hsession =>
    post_enforce hinv.toCore hb' fun _ => post_top hclean rfl hsession
  obtain ⟨book, lease, session, rejecting, phase, log⟩ := h
  simp only at hclean
  unfold attemptStep at hstep
  split at hstep
  case h_1 b' i hphase =>
    cases hstep
    cases hphase
    exact post_driveInput hinv rfl i
  case h_2 b' hello permitted hphase =>
    cases hstep
    cases hphase
    exact post_hello hinv rfl hello permitted
  case h_3 b' _ _ hphase =>
    cases hstep
    cases hphase
    exact htop b' rfl (hinv.session _ rfl)
  case h_4 b' i hphase =>
    cases hstep
    cases hphase
    exact post_driveInput hinv rfl i
  case h_5 b' hphase =>
    cases hstep
    cases hphase
    exact htop b' rfl (hinv.session _ rfl)
  case h_6 b' _ i hphase =>
    cases hstep
    cases hphase
    exact post_driveInput hinv rfl i
  case h_7 b' hello result hphase =>
    cases hstep
    cases hphase
    exact post_enforce hinv.toCore rfl fun _ => post_finishAuthentication hinv rfl result
  case h_8 b' _ _ _ i hphase =>
    cases hstep
    cases hphase
    exact post_acknowledge (post_driveInput hinv rfl i)
  case h_9 b' data control hphase =>
    cases hstep
    cases hphase
    refine post_acknowledge ⟨⟨⟨?_, nofun, hclean.legal, hclean.legit, ?_⟩, ?_⟩, rfl, Or.inl rfl⟩
    exacts [hinv.session, hinv.logged, hinv.bound]
  case h_10 b' _ _ error hphase =>
    cases hstep
    cases hphase
    exact post_driveFailed hinv.toCore rfl b' error
  case h_11 b' _ _ _ hphase =>
    cases hstep
    cases hphase
    exact post_driveFailed hinv.toCore rfl b' .timeout
  case h_12 b' result hphase =>
    cases hphase
    split at hstep
    case h_1 =>
      cases hstep
      refine post_fail hclean rfl ?_ _
      rw [hinv.session _ rfl]
      nofun
    case h_2 =>
      cases hstep
      exact post_startNext hinv rfl
  case h_13 => cases hstep
  case h_14 i _ hphase =>
    cases hstep
    cases hphase
    exact post_driveInput hinv rfl i
  case h_15 hphase =>
    cases hstep
    cases hphase
    exact post_startNext hinv rfl
  case h_16 error _ hphase =>
    cases hstep
    cases hphase
    exact post_enforce hinv.toCore rfl fun _ => post_startFailed hinv rfl error
  case h_17 => cases hstep

end HostRun

end Yonder.Host
