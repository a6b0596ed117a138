import Yonder.Host.Attempt

/-!
# One terminal session per code

`run_oneTime`: no event is applied out of order; a terminal is opened only right after the exchange
succeeded with the lease that is advertised, for the peer whose one connection is bound; after
`TerminalReady` was flushed the run only moves towards its end; and before that a failure goes back to
the advertised session with the same lease, or ends the run.
-/

namespace Yonder.Host

namespace HostRun

variable {Peer Conn Reg PakeState : Type} [DecidableEq Peer] [DecidableEq Conn]

/-! ## Outside an attempt -/

/-- What one step does: an attempt goes on, is committed, goes back to the advertised session with the
lease it began with or fails the run, and so does the close of the connections after it; after the
flush every step that is not an event of the endpoint brings the end nearer. -/
structure Stepped (setup : HostSetup Peer Reg PakeState) (h h' : HostRun Peer Conn Reg) : Prop where
  inv : h'.Inv setup
  attempt : h.phase.bound.isSome = true → h'.advertised = h.advertised ∧ h'.phase.After h'.session
  settled : ∀ b, h.phase = .settling b → h'.advertised = h.advertised ∧
    (h'.phase = .settling b ∨ h'.phase = .top ∨ ∃ e, h'.phase = .ended (.error e))
  committed : .readyFlushed ∈ h.log →
    h'.log = h.log ∧ (h'.phase = h.phase ∨ h'.phase.remaining < h.phase.remaining)

section

omit [DecidableEq Peer] [DecidableEq Conn]

variable {setup : HostSetup Peer Reg PakeState} {h h' : HostRun Peer Conn Reg}

theorem Post.stepped (hpost : Post setup h.advertised h') (hinv : h.Inv setup)
    (hbound : h.phase.bound.isSome = true) : Stepped setup h h' := by
  obtain ⟨b, hb⟩ := Option.isSome_iff_exists.1 hbound
  refine ⟨hpost.inv, fun _ => ⟨hpost.lease_eq, hpost.after⟩, fun b' hphase => ?_,
    fun hmem => absurd hmem (hinv.clean hb).unflushed⟩
  rw [hphase] at hb
  cases hb

theorem Clean.waitAuth {log : List (Observation Peer Conn Reg)} (hclean : Clean setup log) :
    Clean setup (.waitAuth :: log) where
  legal := fun e => List.not_mem_cons_of_ne_of_not_mem nofun (hclean.legal e)
  legit := legit_cons hclean.legit nofun
  unflushed := List.not_mem_cons_of_ne_of_not_mem nofun hclean.unflushed

/-- The connections may change freely while nothing is bound. -/
theorem Inv.book (hinv : h.Inv setup) (hbound : h.phase.bound = none)
    (book : ConnectionBook Peer Conn) : Inv setup { h with book := book } :=
  ⟨⟨hinv.session, hinv.inactive, hinv.legal, hinv.legit, hinv.logged⟩,
    fun b hb => by cases hbound.symm.trans hb⟩

/-! ### The active session -/

theorem Inv.flushed (hinv : h.Inv setup) (hremaining : 0 < h.phase.remaining) :
    h.session = .active ∧ FlushedLast h.log ∧ h.phase.bound = none := by
  have hsession := hinv.session
  have hlogged := hinv.logged
  cases hphase : h.phase <;> rw [hphase] at hsession hlogged hremaining <;>
    first | cases hremaining; done | exact ⟨hsession _ rfl, hlogged, rfl⟩

theorem stepped_of_active (hinv : h.Inv setup) (hremaining : 0 < h.phase.remaining)
    (hinv' : h'.Inv setup) (hlog : h'.log = h.log)
    (hphase : h'.phase = h.phase ∨ h'.phase.remaining < h.phase.remaining) :
    Stepped setup h h' := by
  refine ⟨hinv', fun hb => ?_, fun b hsettling => ?_, fun _ => ⟨hlog, hphase⟩⟩
  · rw [(hinv.flushed hremaining).2.2] at hb
    cases hb
  · rw [hsettling] at hremaining
    cases hremaining

/-- An event of the endpoint during the active session. -/
theorem stepped_book (hinv : h.Inv setup) (hremaining : 0 < h.phase.remaining)
    (book : ConnectionBook Peer Conn) : Stepped setup h { h with book := book } :=
  stepped_of_active hinv hremaining (hinv.book (hinv.flushed hremaining).2.2 book) rfl (Or.inl rfl)

/-- On to a later phase of the active session. -/
theorem stepped_goto (hinv : h.Inv setup) (phase : Phase Peer Conn) (hpos : 0 < phase.remaining)
    (hlt : phase.remaining < h.phase.remaining) : Stepped setup h (h.goto phase) := by
  have hremaining : 0 < h.phase.remaining := Nat.lt_of_le_of_lt (Nat.zero_le _) hlt
  obtain ⟨hsession, hlog, _⟩ := hinv.flushed hremaining
  refine stepped_of_active hinv hremaining ?_ rfl (Or.inr hlt)
  cases phase <;> first
    | cases hpos; done
    | exact ⟨⟨fun _ hs => by cases hs; exact hsession, nofun, hinv.legal, hinv.legit, hlog⟩, nofun⟩

/-- The end of the active session. -/
theorem stepped_ended (hinv : h.Inv setup) (hremaining : 0 < h.phase.remaining)
    {event : SessionEvent} (happly : TargetSessionState.active.apply event = .ok .spent)
    (result : Except HostError UInt32) :
    Stepped setup h (h.apply event fun h => h.goto (.ended result)) := by
  obtain ⟨hsession, hlog, _⟩ := hinv.flushed hremaining
  rw [apply_eq _ (by rw [hsession]; exact happly)]
  refine stepped_of_active hinv hremaining ?_ rfl (Or.inr hremaining)
  exact ⟨⟨nofun, fun _ _ => nofun, hinv.legal, hinv.legit, Or.inr hlog⟩, nofun⟩

theorem apply_active (error : HostError) :
    TargetSessionState.active.apply (hostErrorEvent error .connectionLost) = .ok .spent := by
  cases error with
  | endpoint error => cases error <;> rfl
  | _ => rfl

theorem stepped_finishBridge (hinv : h.Inv setup) {b : Binding Peer Conn}
    {outcome : Except HostError UInt32} (hphase : h.phase = .shuttingDown b outcome)
    (shutdown : Except HostError Unit) :
    Stepped setup h (finishBridge setup h b outcome shutdown) := by
  have hremaining : h.phase.remaining = 2 := by rw [hphase]; rfl
  have hpos : 0 < h.phase.remaining := by omega
  unfold finishBridge
  cases outcome with
  | ok code =>
    dsimp only
    split
    · exact stepped_goto hinv _ Nat.one_pos (by rw [hremaining]; exact Nat.one_lt_two)
    · exact stepped_ended hinv hpos rfl _
  | error error =>
    dsimp only
    split
    · exact stepped_goto hinv _ Nat.one_pos (by rw [hremaining]; exact Nat.one_lt_two)
    · exact stepped_ended hinv hpos (apply_active error) _

end

theorem stepped_activeStep {setup : HostSetup Peer Reg PakeState} {h h' : HostRun Peer Conn Reg}
    (hinv : h.Inv setup) {a : Action Peer Conn Reg} (hstep : h.activeStep setup a = some h') :
    Stepped setup h h' := by
  have hpos : ∀ {phase : Phase Peer Conn}, h.phase = phase → 0 < phase.remaining →
      0 < h.phase.remaining := fun heq hr => by rw [heq]; exact hr
  unfold activeStep at hstep
  split at hstep
  case h_1 event hphase =>
    cases hstep
    exact stepped_book hinv (hpos hphase (Nat.succ_pos 3)) _
  case h_2 b hphase =>
    cases hstep
    exact stepped_goto hinv _ (Nat.succ_pos 2) (by rw [hphase]; exact Nat.lt_succ_self 3)
  case h_3 event hphase =>
    cases hstep
    exact stepped_book hinv (hpos hphase (Nat.succ_pos 2)) _
  case h_4 b outcome hphase =>
    cases hstep
    exact stepped_goto hinv _ (Nat.succ_pos 1) (by rw [hphase]; exact Nat.lt_succ_self 2)
  case h_5 b outcome result hphase =>
    cases hstep
    exact stepped_finishBridge hinv hphase result
  case h_6 event hphase =>
    cases hstep
    exact stepped_book hinv (hpos hphase Nat.one_pos) _
  case h_7 hphase =>
    cases hstep
    exact stepped_ended hinv (hpos hphase Nat.one_pos) rfl _
  case h_8 hphase =>
    cases hstep
    exact stepped_ended hinv (hpos hphase Nat.one_pos) rfl _
  case h_9 error hphase =>
    cases hstep
    exact stepped_ended hinv (hpos hphase Nat.one_pos) (apply_active error) _
  case h_10 => cases hstep

/-! ### Between the attempts -/

section

omit [DecidableEq Peer] [DecidableEq Conn]

variable {setup : HostSetup Peer Reg PakeState} {h h' : HostRun Peer Conn Reg}

theorem Inv.clean_of_advertised (hinv : h.Inv setup)
    (hexpects : h.phase.expects = some .advertised) :
    Clean setup h.log ∧ h.session = .advertised := by
  refine ⟨⟨hinv.legal, hinv.legit, ?_⟩, hinv.session _ hexpects⟩
  have hlogged := hinv.logged
  cases hphase : h.phase <;> rw [hphase] at hexpects hlogged <;> first
    | cases hexpects; done
    | exact hlogged

theorem stepped_of_loose (hinv : h.Inv setup) (hloose : h.phase.Loose) (hinv' : h'.Inv setup) :
    Stepped setup h h' where
  inv := hinv'
  attempt := fun hb => by rw [hloose.bound] at hb; cases hb
  settled := fun b hphase => absurd hphase (hloose.settling b)
  committed := fun hmem => absurd hmem (hinv.clean_of_advertised hloose.expects).1.unflushed

/-- On to a phase in which nothing is bound, at the advertised session. -/
theorem inv_goto {phase : Phase Peer Conn} (hclean : Clean setup h.log)
    (hsession : h.session = .advertised) (hphase : phase.Loose)
    (hlogged : phase.Logged setup h.advertised h.log) : Inv setup (h.goto phase) where
  session := fun s hs => by cases hphase.expects.symm.trans hs; exact hsession
  inactive := fun r hr => by
    cases (show phase = .ended r from hr)
    cases hphase.expects
  legal := hclean.legal
  legit := hclean.legit
  logged := hlogged
  bound := fun b hb => by cases hphase.bound.symm.trans hb

theorem stepped_loose_goto (hinv : h.Inv setup) (hloose : h.phase.Loose) {phase : Phase Peer Conn}
    (hphase : phase.Loose) (hlogged : .readyFlushed ∉ h.log → phase.Logged setup h.advertised h.log) :
    Stepped setup h (h.goto phase) := by
  obtain ⟨hclean, hsession⟩ := hinv.clean_of_advertised hloose.expects
  exact stepped_of_loose hinv hloose (inv_goto hclean hsession hphase (hlogged hclean.unflushed))

theorem stepped_loose_fail (hinv : h.Inv setup) (hloose : h.phase.Loose) (error : HostError) :
    Stepped setup h (h.fail error) := by
  obtain ⟨hclean, hsession⟩ := hinv.clean_of_advertised hloose.expects
  exact stepped_of_loose hinv hloose
    (post_fail hclean rfl (by rw [hsession]; nofun) error).inv

end

theorem stepped_looseInput {setup : HostSetup Peer Reg PakeState} {h h' : HostRun Peer Conn Reg}
    (hinv : h.Inv setup) (hloose : h.phase.Loose) {i : Input Peer Conn}
    (hstep : h.looseInput i = some h') : Stepped setup h h' := by
  cases i with
  | driver event =>
    cases hstep
    exact stepped_of_loose hinv hloose (hinv.book hloose.bound _)
  | terminalStream peer control =>
    cases hstep
    exact stepped_of_loose hinv hloose hinv
  | fileStream =>
    cases hstep
    exact stepped_of_loose hinv hloose hinv
  | authStream => cases hstep
  | registrationEnded => cases hstep
  | signal => cases hstep

omit [DecidableEq Peer] [DecidableEq Conn] in
/-- A controller with one connection is bound to it. -/
theorem stepped_bind {setup : HostSetup Peer Reg PakeState} {h : HostRun Peer Conn Reg}
    (hinv : h.Inv setup) (hloose : h.phase.Loose) {controller : Peer} {b : Binding Peer Conn}
    (hbind : h.book.bind controller = .ok b) : Stepped setup h (h.goto (.readingHello b)) := by
  obtain ⟨hclean, hsession⟩ := hinv.clean_of_advertised hloose.expects
  have hpost : Post setup h.advertised (h.goto (.readingHello b)) :=
    post_goto (b := b) rfl rfl (ConnectionBook.bound_of_bind hbind).2
      ⟨fun _ hs => by cases hs; exact hsession, nofun, hclean.legal, hclean.legit,
        hclean.unflushed⟩
  exact stepped_of_loose hinv hloose hpost.inv

omit [DecidableEq Peer] [DecidableEq Conn] in
/-- The close of the connections after an additional one. -/
theorem stepped_settling {setup : HostSetup Peer Reg PakeState} {h h' : HostRun Peer Conn Reg}
    (hinv : h.Inv setup) {b : Binding Peer Conn} (hphase : h.phase = .settling b)
    (hinv' : h'.Inv setup) (hlease : h'.advertised = h.advertised)
    (hnext : h'.phase = .settling b ∨ h'.phase = .top ∨ ∃ e, h'.phase = .ended (.error e)) :
    Stepped setup h h' where
  inv := hinv'
  attempt := fun hb => by rw [hphase] at hb; cases hb
  settled := fun b' hb' => by cases hphase.symm.trans hb'; exact ⟨hlease, hnext⟩
  committed := fun hmem =>
    absurd hmem (hinv.clean_of_advertised (by rw [hphase]; rfl)).1.unflushed

/-- The phases of the loop in which nothing is bound. -/
theorem stepped_looseStep {setup : HostSetup Peer Reg PakeState} {h h' : HostRun Peer Conn Reg}
    (hinv : h.Inv setup) {a : Action Peer Conn Reg} (hstep : h.looseStep setup a = some h') :
    Stepped setup h h' := by
  have hloose : ∀ {phase : Phase Peer Conn}, h.phase = phase → phase.Loose → h.phase.Loose :=
    fun heq hl => heq ▸ hl
  unfold looseStep at hstep
  split at hstep
  case h_1 hphase =>
    cases hstep
    have hl := hloose hphase ⟨rfl, rfl, nofun⟩
    obtain ⟨hclean, hsession⟩ := hinv.clean_of_advertised hl.expects
    exact stepped_of_loose hinv hl
      (inv_goto hclean.waitAuth hsession ⟨rfl, rfl, nofun⟩ hclean.waitAuth.unflushed)
  case h_2 hphase =>
    cases hstep
    exact stepped_loose_goto hinv (hloose hphase ⟨rfl, rfl, nofun⟩) ⟨rfl, rfl, nofun⟩ id
  case h_3 error hphase =>
    cases hstep
    exact stepped_loose_fail hinv (hloose hphase ⟨rfl, rfl, nofun⟩) error
  case h_4 replacement hphase =>
    cases hstep
    have hl := hloose hphase ⟨rfl, rfl, nofun⟩
    obtain ⟨hclean, hsession⟩ := hinv.clean_of_advertised hl.expects
    exact stepped_of_loose hinv hl
      (inv_goto hclean.waitAuth hsession ⟨rfl, rfl, nofun⟩ hclean.waitAuth.unflushed)
  case h_5 event hphase =>
    cases hstep
    have hl := hloose hphase ⟨rfl, rfl, nofun⟩
    exact stepped_of_loose hinv hl (hinv.book hl.bound _)
  case h_6 hphase =>
    cases hstep
    exact stepped_loose_goto hinv (hloose hphase ⟨rfl, rfl, nofun⟩) ⟨rfl, rfl, nofun⟩ id
  case h_7 peer hphase =>
    cases hstep
    exact stepped_loose_goto hinv (hloose hphase ⟨rfl, rfl, nofun⟩) ⟨rfl, rfl, nofun⟩ id
  case h_8 hphase =>
    cases hstep
    exact stepped_loose_fail hinv (hloose hphase ⟨rfl, rfl, nofun⟩) _
  case h_9 error hphase =>
    cases hstep
    exact stepped_loose_fail hinv (hloose hphase ⟨rfl, rfl, nofun⟩) error
  case h_10 hphase =>
    exact stepped_looseInput hinv (hloose hphase ⟨rfl, rfl, nofun⟩) hstep
  case h_11 controller hphase =>
    split at hstep
    case h_1 b hbind =>
      cases hstep
      exact stepped_bind hinv (hloose hphase ⟨rfl, rfl, nofun⟩) hbind
    case h_2 => cases hstep
  case h_12 controller hphase =>
    cases hstep
    exact stepped_loose_goto hinv (hloose hphase ⟨rfl, rfl, nofun⟩) ⟨rfl, rfl, nofun⟩ id
  case h_13 hphase =>
    cases hstep
    exact stepped_of_loose hinv (hloose hphase ⟨rfl, rfl, nofun⟩) hinv
  case h_14 hphase =>
    cases hstep
    exact stepped_loose_goto hinv (hloose hphase ⟨rfl, rfl, nofun⟩) ⟨rfl, rfl, nofun⟩ id
  case h_15 hphase =>
    cases hstep
    exact stepped_loose_goto hinv (hloose hphase ⟨rfl, rfl, nofun⟩) ⟨rfl, rfl, nofun⟩ id
  case h_16 hphase =>
    exact stepped_looseInput hinv (hloose hphase ⟨rfl, rfl, nofun⟩) hstep
  case h_17 event hphase =>
    cases hstep
    have hl := hloose hphase ⟨rfl, rfl, nofun⟩
    exact stepped_of_loose hinv hl (hinv.book hl.bound _)
  case h_18 hphase =>
    cases hstep
    exact stepped_loose_goto hinv (hloose hphase ⟨rfl, rfl, nofun⟩) ⟨rfl, rfl, nofun⟩ id
  case h_19 event hphase =>
    cases hstep
    exact stepped_settling hinv hphase (hinv.book (by rw [hphase]; rfl) _) rfl (Or.inl hphase)
  case h_20 hphase =>
    cases hstep
    obtain ⟨hclean, hsession⟩ := hinv.clean_of_advertised (by rw [hphase]; rfl)
    exact stepped_settling hinv hphase (post_top hclean rfl hsession).inv rfl (Or.inr (Or.inl rfl))
  case h_21 error hphase =>
    cases hstep
    obtain ⟨hclean, hsession⟩ := hinv.clean_of_advertised (by rw [hphase]; rfl)
    exact stepped_settling hinv hphase (post_fail hclean rfl (by rw [hsession]; nofun) _).inv rfl
      (Or.inr (Or.inr ⟨_, rfl⟩))
  case h_22 => exact stepped_activeStep hinv hstep

/-! ## Runs -/

/-- One step of the run, from any phase. -/
theorem Inv.step {setup : HostSetup Peer Reg PakeState} {h h' : HostRun Peer Conn Reg}
    (hinv : h.Inv setup) {a : Action Peer Conn Reg} (hstep : h.step setup a = some h') :
    Stepped setup h h' := by
  unfold HostRun.step at hstep
  split at hstep
  case h_1 b hb =>
    have hsome : h.phase.bound.isSome = true := by rw [hb]; rfl
    split at hstep
    case isTrue => exact (post_rejectStep hinv hb hstep).stepped hinv hsome
    case isFalse => exact (post_attemptStep hinv hb hstep).stepped hinv hsome
  case h_2 => exact stepped_looseStep hinv hstep

omit [DecidableEq Peer] [DecidableEq Conn] in
theorem inv_start (setup : HostSetup Peer Reg PakeState) (book : ConnectionBook Peer Conn)
    (lease : AdvertisedLease Reg) : Inv setup (start book lease) where
  session := fun _ hs => by cases hs; rfl
  inactive := nofun
  legal := fun _ => List.not_mem_nil
  legit := fun newer _ _ _ _ hsplit => by cases newer <;> cases hsplit
  logged := List.not_mem_nil
  bound := nofun

theorem Inv.run {setup : HostSetup Peer Reg PakeState} {actions : List (Action Peer Conn Reg)} :
    ∀ {h h' : HostRun Peer Conn Reg}, h.Inv setup → h.run setup actions = some h' →
      h'.Inv setup := by
  induction actions with
  | nil =>
    intro h h' hinv hrun
    cases hrun
    exact hinv
  | cons a actions ih =>
    intro h h' hinv hrun
    obtain ⟨next, hstep, hrest⟩ := Option.bind_eq_some_iff.1 hrun
    exact ih (hinv.step hstep).inv hrest

omit [DecidableEq Peer] [DecidableEq Conn] in
theorem Inv.flushed_of_active {setup : HostSetup Peer Reg PakeState} {h : HostRun Peer Conn Reg}
    (hinv : h.Inv setup) (hactive : h.session = .active) : FlushedLast h.log := by
  have hsession := hinv.session
  have hlogged := hinv.logged
  have hinactive := hinv.inactive
  rw [hactive] at hsession hinactive
  cases hphase : h.phase <;> rw [hphase] at hsession hlogged hinactive <;> first
    | exact hlogged
    | exact absurd rfl (hinactive _ rfl)
    | cases hsession _ rfl

omit [DecidableEq Peer] [DecidableEq Conn] in
theorem Inv.ending {setup : HostSetup Peer Reg PakeState} {h : HostRun Peer Conn Reg}
    (hinv : h.Inv setup) (hmem : .readyFlushed ∈ h.log) :
    FlushedLast h.log ∧ (0 < h.phase.remaining ∨ ∃ r, h.phase = .ended r) := by
  have hlogged := hinv.logged
  cases hphase : h.phase <;> rw [hphase] at hlogged
  case ended r => exact ⟨hlogged.resolve_left (not_not_intro hmem), Or.inr ⟨r, rfl⟩⟩
  case acknowledging => exact absurd hmem hlogged.2
  case starting => exact absurd hmem hlogged.2
  all_goals first
    | exact ⟨hlogged, Or.inl (Nat.succ_pos _)⟩
    | exact absurd hmem hlogged

omit [DecidableEq Peer] [DecidableEq Conn] in
theorem remaining_ended {h : HostRun Peer Conn Reg} (hsession : h.session = .active)
    {event : SessionEvent} (happly : TargetSessionState.active.apply event = .ok .spent)
    (result : Except HostError UInt32) :
    (h.apply event fun h => h.goto (.ended result)).phase.remaining = 0 := by
  rw [apply_eq _ (by rw [hsession]; exact happly)]
  rfl

omit [DecidableEq Peer] [DecidableEq Conn] in
theorem remaining_finishBridge (setup : HostSetup Peer Reg PakeState) {h : HostRun Peer Conn Reg}
    (hsession : h.session = .active) (b : Binding Peer Conn) (outcome : Except HostError UInt32)
    (shutdown : Except HostError Unit) :
    (finishBridge setup h b outcome shutdown).phase.remaining < 2 := by
  unfold finishBridge
  cases outcome with
  | ok code =>
    dsimp only
    split
    · exact Nat.one_lt_two
    · rw [remaining_ended hsession rfl]
      exact Nat.two_pos
  | error error =>
    dsimp only
    split
    · exact Nat.one_lt_two
    · exact (remaining_ended hsession (apply_active error) _).trans_lt Nat.two_pos

/-- A committed session is never stuck: what its phase waits for brings the end nearer. -/
theorem exists_step_of_committed (setup : HostSetup Peer Reg PakeState)
    {h : HostRun Peer Conn Reg} (hinv : h.Inv setup) (hremaining : 0 < h.phase.remaining) :
    ∃ a h', h.step setup a = some h' ∧ h'.phase.remaining < h.phase.remaining := by
  have hsession := (hinv.flushed hremaining).1
  obtain ⟨book, lease, session, rejecting, phase, log⟩ := h
  cases phase with
  | releasing b => exact ⟨.released, _, rfl, Nat.lt_succ_self 3⟩
  | bridging b => exact ⟨.bridged (.error .io), _, rfl, Nat.lt_succ_self 2⟩
  | shuttingDown b outcome =>
    exact ⟨.shutdown (.ok ()), _, rfl, remaining_finishBridge setup hsession b outcome _⟩
  | finalizing b code shutdown =>
    refine ⟨.finalized (.ok ()), _, rfl, ?_⟩
    rw [remaining_ended hsession rfl]
    exact Nat.one_pos
  | interrupting b error =>
    refine ⟨.closedInterrupted, _, rfl, ?_⟩
    exact (remaining_ended hsession (apply_active error) _).trans_lt Nat.one_pos
  | _ => cases hremaining

/-- One terminal session per code, in a state of a run. -/
structure OneTime (setup : HostSetup Peer Reg PakeState) (h : HostRun Peer Conn Reg) : Prop where
  /-- No event was applied out of order. -/
  legal : ∀ e, .illegal e ∉ h.log
  /-- Every terminal was opened for the bound peer, after the exchange with the lease on display. -/
  legit : Legit setup h.log
  /-- The session is active only after the one flush, and the run waits for nobody after it. -/
  active : h.session = .active → FlushedLast h.log
  flushed : .readyFlushed ∈ h.log →
    FlushedLast h.log ∧ (0 < h.phase.remaining ∨ ∃ r, h.phase = .ended r)
  /-- From the flush on, a step stays in its phase or brings the end nearer, and one can. -/
  ends : ∀ a h', .readyFlushed ∈ h.log → h.step setup a = some h' →
    h'.log = h.log ∧ (h'.phase = h.phase ∨ h'.phase.remaining < h.phase.remaining)
  progress : .readyFlushed ∈ h.log → (∃ r, h.phase = .ended r) ∨
    ∃ a h', h.step setup a = some h' ∧ h'.phase.remaining < h.phase.remaining
  /-- An attempt goes on, is committed, fails the run, or goes back to the advertised session with the
  same lease, where an additional connection is closed first. -/
  attempt : ∀ a h', h.phase.bound.isSome = true → h.step setup a = some h' →
    h'.advertised = h.advertised ∧ h'.phase.After h'.session
  settled : ∀ a h' b, h.phase = .settling b → h.step setup a = some h' →
    h'.advertised = h.advertised ∧
      (h'.phase = .settling b ∧ h'.session = .advertised ∨
        h'.phase = .top ∧ h'.session = .advertised ∨ ∃ e, h'.phase = .ended (.error e))

theorem Inv.oneTime {setup : HostSetup Peer Reg PakeState} {h : HostRun Peer Conn Reg}
    (hinv : h.Inv setup) : OneTime setup h where
  legal := hinv.legal
  legit := hinv.legit
  active := hinv.flushed_of_active
  flushed := hinv.ending
  ends := fun _ _ hmem hstep => (hinv.step hstep).committed hmem
  progress := fun hmem => (hinv.ending hmem).2.elim
    (fun hpos => Or.inr (exists_step_of_committed setup hinv hpos)) Or.inl
  attempt := fun _ _ hb hstep => (hinv.step hstep).attempt hb
  settled := fun _ _ b hphase hstep => by
    have hinv' := (hinv.step hstep).inv
    obtain ⟨hlease, hnext⟩ := (hinv.step hstep).settled b hphase
    refine ⟨hlease, hnext.imp (fun hp => ⟨hp, ?_⟩) (Or.imp_left fun hp => ⟨hp, ?_⟩)⟩
    · exact hinv'.session _ (by rw [hp]; rfl)
    · exact hinv'.session _ (by rw [hp]; rfl)

/-- A host in an enterprise that accepts the one password. -/
def enterpriseHost : HostSetup Bool Unit Lib.Bytes where
  pake :=
    { serverStart := fun _ ke1 _ _ => some (ke1, [])
      serverFinish := fun ke1 ke3 => ke1 == ke3 }
  target := true
  access := .enterprise

def leaseOnDisplay : AdvertisedLease Unit := ⟨⟨0, by decide⟩, ()⟩

/-- A controller connects, authenticates and opens its terminal streams. -/
def untilStarting : List (Action Bool Nat Unit) :=
  [.lease true, .input (.driver (.established false 7)), .input (.authStream false), .upgradeReady,
    .hello (.ok ⟨[1], [2]⟩) true, .exchanged (.ok ⟨[3], [4], [2]⟩), .acknowledged (.ok ()),
    .input (.terminalStream false false), .input (.terminalStream false true)]

/-- The terminal is started. -/
def untilActive : List (Action Bool Nat Unit) :=
  untilStarting ++ .auditRoot (.ok ()) :: List.replicate 5 (.progressed (.ok ()))

end HostRun

end Yonder.Host
