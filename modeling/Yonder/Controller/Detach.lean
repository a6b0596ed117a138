import Yonder.Controller.Actions

/-!
# Detaching

A `Detach` is handled like every chunk: when the owners are idle, if it is still in the slot then.
`detach_iff`: the pump ends with it, and without leaving a transfer to run on, whatever comes after,
exactly when no owner is busy when it is delivered.
-/

namespace Yonder.Controller

open Lib Wire Transfer

namespace Pump

/-- The `Detach` is in the slot. -/
def DetachParked (σ : Pump) : Prop :=
  ∃ p, σ.pendingLocalInput = some p ∧ p.action = .detach

/-- The `Detach` is what the pump handled last. -/
def DetachHandled (σ : Pump) : Prop :=
  ∃ p log, σ.log = .handled p :: log ∧ p.action = .detach

/-- What is promised of a pump to which a `Detach` was delivered: no transfer runs on without being
cancelled, and if the pump has ended, it ended with the `Detach`, or with an error before or while it
was handled. -/
structure Detaching (σ : Pump) : Prop where
  cancelled : ¬(σ.transfer = true ∧ σ.transferCancel = false)
  outcome : ∀ r, σ.outcome = some r → r = .error .interrupted ∧ σ.detached = true ∨
    (∃ e, r = .error e) ∧ (σ.DetachParked ∨ σ.DetachHandled)

/-- The promise holds in every later state. -/
def DetachEnds (σ : Pump) : Prop :=
  ∀ actions τ, Machine.run step σ actions = some τ → τ.Detaching

/-! ## What holds while a chunk is forwarded -/

/-- While a chunk is forwarded, local input has not ended and the session is not complete; a chunk
that detaches has ended the local control; and the pump has not detached yet. -/
structure Forwarding (σ : Pump) : Prop where
  open_ : ∀ p, σ.localInput = some p → σ.localEnded = false ∧ σ.completedCode = none ∧
    (p.action = .detach → σ.control.ended = true ∧ σ.control.enabled = true)
  attached : σ.outcome = none → σ.detached = false

variable {σ τ : Pump} {a : PumpAction} {p : ProcessedInput}

theorem frame_select (hstep : σ.select a = some τ) (ha : ∀ chunk, a ≠ .localRead chunk) :
    τ.control = σ.control ∧ τ.localEnded = σ.localEnded ∧ τ.completedCode = σ.completedCode ∧
      τ.detached = σ.detached := by
  cases a <;> simp only [select] at hstep <;>
    grind [stop, record, complete, display, forwarded]

theorem forwarding_start (audited interactive : Bool) : (start audited interactive).Forwarding :=
  ⟨nofun, fun _ => rfl⟩

theorem localInput_head (σ : Pump) (met : HeadOutcome) :
    (σ.head met).localInput = σ.localInput := by
  rcases sameInput_head σ met with hsame | ⟨p, -, hsame⟩ <;> exact hsame.localInput

theorem detached_handleProcessedInput (σ : Pump) (p : ProcessedInput) (met : HeadOutcome) :
    (σ.handleProcessedInput p met).1.detached = σ.detached := by
  unfold handleProcessedInput feedPrompt
  grind [leaveModal]

/-- The head of the loop detaches only to stop. -/
theorem detached_handleLocalInput (σ : Pump) (p : ProcessedInput) (met : HeadOutcome)
    (hrunning : (σ.handleLocalInput p met).outcome = none) :
    (σ.handleLocalInput p met).detached = σ.detached := by
  have hhandle := detached_handleProcessedInput
    ({ σ with pendingLocalInput := none }.record (.handled p)) p met
  unfold handleLocalInput at hrunning ⊢
  grind [beginFileTransferModal, beginTransfer, leaveModal, stop, record]

theorem detached_head (σ : Pump) (met : HeadOutcome) (hrunning : (σ.head met).outcome = none) :
    (σ.head met).detached = σ.detached := by
  have hlocal := detached_handleLocalInput σ
  unfold head at hrunning ⊢
  grind [handleTransferEvent, finishLocalInputEof, leaveModal, stop]

theorem localInput_of_idle (hidle : σ.ownersIdle = true) : σ.localInput = none := by
  simp only [ownersIdle, Bool.and_eq_true, Option.isNone_iff_eq_none] at hidle
  exact hidle.1.1.1.1.2

theorem localInput_select (hstep : σ.select a = some τ) (ha : ∀ chunk, a ≠ .localRead chunk)
    (hp : τ.localInput = some p) : σ.localInput = some p := by
  cases a <;> simp only [select] at hstep <;>
    grind [stop, record, complete, display, forwarded]

theorem forwarding_localRead {chunk : Except LocalFailure (Option Bytes)}
    (hattached : σ.detached = false) (hstep : σ.select (.localRead chunk) = some τ) :
    τ.Forwarding := by
  simp only [select, Option.ite_none_right_eq_some] at hstep
  obtain ⟨hguard, hstep⟩ := hstep
  simp only [Bool.and_eq_true, Bool.not_eq_true', Option.isNone_iff_eq_none] at hguard
  obtain ⟨⟨⟨hended, hcompleted⟩, hlocal⟩, -⟩ := hguard
  split at hstep
  case h_1 chunk =>
    simp only [Option.ite_none_right_eq_some] at hstep
    cases hstep.2
    refine ⟨fun p hp => ⟨hended, hcompleted, fun hdetach => ?_⟩, fun _ => hattached⟩
    cases hp
    exact ⟨LocalControlInput.ended_of_process hdetach, LocalControlInput.enabled_of_process hdetach⟩
  case h_2 =>
    cases hstep
    exact ⟨fun p hp => absurd (hlocal.symm.trans hp) (by rintro ⟨⟩), fun _ => hattached⟩
  case h_3 =>
    cases hstep
    exact ⟨fun p hp => absurd (hlocal.symm.trans hp) (by rintro ⟨⟩), fun _ => hattached⟩

theorem Forwarding.step (h : σ.Forwarding) (hstep : σ.step a = some τ) : τ.Forwarding := by
  have hrunning := (effect_step hstep).1
  unfold Pump.step at hstep
  rw [if_neg (by rw [hrunning]; decide)] at hstep
  split at hstep
  case isTrue hhead =>
    have hidle : σ.ownersIdle = true := (Bool.and_eq_true _ _ ▸ hhead).1
    split at hstep
    case h_1 met =>
      cases hstep
      have hnone := (localInput_head σ met).trans (localInput_of_idle hidle)
      exact ⟨fun p hp => absurd (hnone.symm.trans hp) nofun,
        fun hτ => (detached_head σ met hτ).trans (h.attached hrunning)⟩
    case h_2 => cases hstep
  case isFalse =>
    by_cases hread : ∃ chunk, a = .localRead chunk
    case pos =>
      obtain ⟨chunk, rfl⟩ := hread
      exact forwarding_localRead (h.attached hrunning) hstep
    case neg =>
      have ha : ∀ chunk, a ≠ .localRead chunk := fun chunk heq => hread ⟨chunk, heq⟩
      obtain ⟨hcontrol, hended, hcompleted, hdetached⟩ := frame_select hstep ha
      refine ⟨fun p hp => ?_, fun _ => hdetached.trans (h.attached hrunning)⟩
      rw [hcontrol, hended, hcompleted]
      exact h.open_ p (localInput_select hstep ha hp)

/-! ## Idle owners: the pump ends -/

/-- The steps the head of the loop may take before it comes to the slot. -/
def beforeSlot (σ : Pump) : Nat := σ.pendingTransfer.isSome.toNat + σ.pendingLocalEof.toNat

/-- The owners are idle and the `Detach` is in the slot. -/
structure Settled (σ : Pump) : Prop where
  idle : σ.ownersIdle = true
  parked : σ.DetachParked

/-- The pump ended with the `Detach`, or with an error before or while it was handled. -/
structure Ended (σ : Pump) : Prop where
  failed : ∃ e, σ.outcome = some (.error e)
  reached : σ.DetachParked ∨ σ.DetachHandled
  noTransfer : σ.transfer = false

/-- What the head of the loop does with a parked `Detach`: it comes nearer to it, or ends. -/
def Nearer (σ τ : Pump) : Prop :=
  τ.outcome = none ∧ τ.Settled ∧ τ.beforeSlot < σ.beforeSlot ∨ τ.Ended

theorem Settled.atHead (h : σ.Settled) : σ.atHead = true := by
  obtain ⟨p, hp, -⟩ := h.parked
  simp [Pump.atHead, h.idle, hp]

theorem transfer_of_idle (hidle : σ.ownersIdle = true) : σ.transfer = false := by
  simp only [ownersIdle, Bool.and_eq_true, Bool.not_eq_true'] at hidle
  exact hidle.2

theorem nearer_handleTransferEvent (h : σ.Settled) (hrunning : σ.outcome = none)
    {outcome : TransferOutcome} (htransfer : σ.pendingTransfer = some outcome) (met : HeadOutcome) :
    Nearer σ (σ.handleTransferEvent outcome met) := by
  have hidle := h.idle
  have hnone := transfer_of_idle hidle
  unfold handleTransferEvent
  dsimp only
  split
  · exact .inr ⟨⟨_, rfl⟩, .inl h.parked, hnone⟩
  · exact .inr ⟨⟨_, rfl⟩, .inl h.parked, hnone⟩
  · split
    · exact .inr ⟨⟨_, rfl⟩, .inl h.parked, rfl⟩
    · refine .inl ⟨hrunning, ⟨?_, h.parked⟩, ?_⟩
      · simp only [ownersIdle, leaveModal] at hidle ⊢
        rwa [← hnone]
      · simp [beforeSlot, leaveModal, htransfer]

theorem nearer_finishLocalInputEof (h : σ.Settled) (hrunning : σ.outcome = none)
    (hnone : σ.pendingTransfer = none) (heof : σ.pendingLocalEof = true) (met : HeadOutcome) :
    Nearer σ (σ.finishLocalInputEof met) := by
  unfold finishLocalInputEof
  dsimp only
  split
  · exact .inr ⟨⟨_, rfl⟩, .inl h.parked, transfer_of_idle h.idle⟩
  · split <;> exact .inl ⟨hrunning, ⟨h.idle, h.parked⟩, by simp [beforeSlot, leaveModal, hnone, heof]⟩

theorem handleProcessedInput_detach (σ : Pump) (hp : p.action = .detach) (met : HeadOutcome) :
    ∃ e, (σ.handleProcessedInput p met).2 = .error e ∧
      (σ.handleProcessedInput p met).1.transfer = σ.transfer := by
  unfold handleProcessedInput
  split
  · exact ⟨_, rfl, rfl⟩
  · dsimp only
    rw [hp]
    refine ⟨_, rfl, ?_⟩
    unfold feedPrompt
    dsimp only
    split
    · split <;> rfl
    · rfl

/-- The `Detach` ends the pump when it is handled. -/
theorem ended_handleLocalInput (hidle : σ.ownersIdle = true) (hp : p.action = .detach)
    (met : HeadOutcome) : (σ.handleLocalInput p met).Ended := by
  have hsame := sameInput_handleLocalInput σ p met
  obtain ⟨e, herror, htransfer⟩ := handleProcessedInput_detach
    ({ σ with pendingLocalInput := none }.record (.handled p)) hp met
  have hlog : (σ.handleLocalInput p met).DetachHandled := ⟨p, σ.log, hsame.log, hp⟩
  refine ⟨?_, .inr hlog, ?_⟩
  · unfold handleLocalInput
    dsimp only
    split <;> simp_all [stop]
  · unfold handleLocalInput
    dsimp only
    split <;> simp_all [stop, record, transfer_of_idle hidle]

theorem nearer_head (h : σ.Settled) (hrunning : σ.outcome = none) (met : HeadOutcome) :
    Nearer σ (σ.head met) := by
  unfold head
  split
  case h_1 outcome htransfer => exact nearer_handleTransferEvent h hrunning htransfer met
  case h_2 hnone =>
    split
    case isTrue heof => exact nearer_finishLocalInputEof h hrunning hnone heof met
    case isFalse =>
      obtain ⟨p, hslot, hp⟩ := h.parked
      rw [hslot]
      exact .inr (ended_handleLocalInput h.idle hp met)

theorem step_settled (h : σ.Settled) (hrunning : σ.outcome = none) (met : HeadOutcome) :
    σ.step (.head met) = some (σ.head met) := by
  unfold Pump.step
  rw [if_neg (by rw [hrunning]; decide), if_pos h.atHead]

theorem nearer_step (h : σ.Settled) (hrunning : σ.outcome = none) (hstep : σ.step a = some τ) :
    Nearer σ τ := by
  unfold Pump.step at hstep
  rw [if_neg (by rw [hrunning]; decide), if_pos h.atHead] at hstep
  split at hstep
  case h_1 met =>
    cases hstep
    exact nearer_head h hrunning met
  case h_2 => cases hstep

/-- A pump with idle owners and a parked `Detach` takes a bounded number of steps, and then it has
ended. -/
theorem run_settled {actions : List PumpAction} (h : σ.Settled) (hrunning : σ.outcome = none)
    (hrun : Machine.run step σ actions = some τ) :
    τ.outcome = none ∧ τ.Settled ∧ actions.length + τ.beforeSlot ≤ σ.beforeSlot ∨
      τ.Ended ∧ actions.length ≤ σ.beforeSlot + 1 := by
  induction actions generalizing σ with
  | nil =>
    cases hrun
    exact .inl ⟨hrunning, h, by simp⟩
  | cons a actions ih =>
    obtain ⟨next, hnext, hrest⟩ := Machine.run_cons.1 hrun
    rw [List.length_cons]
    rcases nearer_step h hrunning hnext with ⟨hnone, hsettled, hlt⟩ | hended
    · rcases ih hsettled hnone hrest with ⟨hτ, hsettled', hle⟩ | ⟨hended, hle⟩
      · exact .inl ⟨hτ, hsettled', by omega⟩
      · exact .inr ⟨hended, by omega⟩
    · -- an ended pump takes no step
      cases actions with
      | nil =>
        cases hrest
        exact .inr ⟨hended, by simp⟩
      | cons b actions =>
        obtain ⟨after, hafter, -⟩ := Machine.run_cons.1 hrest
        obtain ⟨e, he⟩ := hended.failed
        exact absurd ((effect_step hafter).1.symm.trans he) nofun

theorem Settled.detaching (h : σ.Settled) (hrunning : σ.outcome = none) :
    σ.Detaching where
  cancelled := fun ⟨htransfer, _⟩ =>
    Bool.false_ne_true ((transfer_of_idle h.idle).symm.trans htransfer)
  outcome := fun _ hr => absurd (hrunning.symm.trans hr) nofun

theorem Ended.detaching (h : σ.Ended) : σ.Detaching where
  cancelled := fun ⟨htransfer, _⟩ => Bool.false_ne_true (h.noTransfer.symm.trans htransfer)
  outcome := fun r hr => by
    obtain ⟨e, he⟩ := h.failed
    exact .inr ⟨⟨e, Option.some.inj (hr.symm.trans he)⟩, h.reached⟩

/-- The pump takes at most `n` more steps, and until it has ended it can take one. -/
def EndsWithin (n : Nat) (σ : Pump) : Prop :=
  ∀ actions τ, Machine.run step σ actions = some τ →
    actions.length ≤ n ∧ (τ.outcome = none → ∀ met, (τ.step (.head met)).isSome = true)

theorem beforeSlot_le (σ : Pump) : σ.beforeSlot ≤ 2 := by
  unfold beforeSlot
  have htransfer := Bool.toNat_le σ.pendingTransfer.isSome
  have heof := Bool.toNat_le σ.pendingLocalEof
  omega

theorem Settled.ends (h : σ.Settled) (hrunning : σ.outcome = none) :
    σ.DetachEnds ∧ σ.EndsWithin 3 := by
  have hle := beforeSlot_le σ
  constructor
  · intro actions τ hrun
    rcases run_settled h hrunning hrun with ⟨hτ, hsettled, -⟩ | ⟨hended, -⟩
    · exact hsettled.detaching hτ
    · exact hended.detaching
  · intro actions τ hrun
    rcases run_settled h hrunning hrun with ⟨hτ, hsettled, hlength⟩ | ⟨hended, hlength⟩
    · exact ⟨by omega, fun _ met => by rw [step_settled hsettled hτ met]; rfl⟩
    · refine ⟨by omega, fun hnone => ?_⟩
      obtain ⟨e, he⟩ := hended.failed
      exact absurd (hnone.symm.trans he) nofun

/-! ## A busy owner: the `Detach` can be overwritten -/

/-- The owners apart from the forwarding of the chunk are idle. -/
def OthersIdle (σ : Pump) : Prop := { σ with localInput := none }.ownersIdle = true

/-- The chunk is forwarded, and in the slot. -/
def park (σ : Pump) (p : ProcessedInput) : Pump :=
  { σ with localInput := none, pendingLocalInput := some p }.record (.parked p)

theorem ownersIdle_park (σ : Pump) (p : ProcessedInput) :
    (σ.park p).ownersIdle = true ↔ σ.OthersIdle := Iff.rfl

theorem forwarded_of_ne_cancelOp (σ : Pump) (hp : p.action ≠ .cancelOp) :
    σ.forwarded p = σ.park p := by
  unfold forwarded park
  dsimp only
  rw [if_neg fun h => hp h.1]

theorem step_select (σ : Pump) (a : PumpAction) (hrunning : σ.outcome = none)
    (hbusy : σ.ownersIdle = false) : σ.step a = σ.select a := by
  have hhead : σ.atHead = false := by
    unfold Pump.atHead
    rw [hbusy, Bool.false_and]
  unfold Pump.step
  rw [if_neg (by rw [hrunning]; decide), if_neg (by rw [hhead]; decide)]

/-- While an owner is busy and the local control has ended, one more chunk takes the place of the
`Detach`, and the pump is then cancelled without having detached. -/
theorem run_overwrite (hrunning : σ.outcome = none) (hbusy : σ.ownersIdle = false)
    (hended : σ.control.ended = true) (hopen : σ.localEnded = false)
    (hcompleted : σ.completedCode = none) (hlocal : σ.localInput = none)
    (hwrite : σ.remoteWrite = false) :
    Machine.run step σ [.localRead (.ok (some [0])), .localForwarded (.ok ()), .cancelled] =
      some ((({ σ with pendingLocalInput := some {} }.record (.processed {})).record
        (.parked {})).stop (.error .interrupted)) := by
  have hreserve : localInputReserve σ.control ≤ 1 := by
    unfold localInputReserve
    split <;> decide
  have hfits : [(0 : UInt8)].length + localInputReserve σ.control ≤ inputCapacity := by
    simp only [List.length_cons, List.length_nil, inputCapacity]
    omega
  have hread : σ.step (.localRead (.ok (some [0]))) =
      some ({ σ with localInput := some {} }.record (.processed {})) := by
    rw [step_select _ _ hrunning hbusy]
    simp only [select, hopen, hcompleted, hlocal, hwrite, Option.isNone_none, Bool.not_false,
      Bool.and_self, if_true, ne_eq, List.cons_ne_self, not_false_eq_true, hfits, and_self,
      readChunk, LocalControlInput.process_of_ended hended]
  have hforwarded : ({ σ with localInput := some {} }.record (.processed {})).step
      (.localForwarded (.ok ())) =
        some (({ σ with pendingLocalInput := some {} }.record (.processed {})).record
          (.parked {})) := by
    rw [step_select]
    case hrunning => exact hrunning
    case hbusy => simp [ownersIdle, record]
    simp only [select, record, hwrite, Bool.false_eq_true, if_false]
    rw [forwarded_of_ne_cancelOp _ (by decide)]
    simp only [park, record, hlocal]
  have hcancelled : (({ σ with pendingLocalInput := some {} }.record (.processed {})).record
      (.parked {})).step .cancelled =
        some ((({ σ with pendingLocalInput := some {} }.record (.processed {})).record
          (.parked {})).stop (.error .interrupted)) := by
    rw [step_select]
    case hrunning => exact hrunning
    case hbusy => exact hbusy
    rfl
  exact Machine.run_cons.2 ⟨_, hread, Machine.run_cons.2 ⟨_, hforwarded,
    Machine.run_cons.2 ⟨_, hcancelled, rfl⟩⟩⟩

theorem not_detaching_overwrite (hattached : σ.detached = false) :
    ¬ ((({ σ with pendingLocalInput := some {} }.record (.processed {})).record
      (.parked {})).stop (.error .interrupted)).Detaching := by
  intro h
  rcases h.outcome _ rfl with ⟨-, hdetached⟩ | ⟨-, ⟨p, hp, hdetach⟩ | ⟨p, log, hlog, -⟩⟩
  · exact Bool.false_ne_true (hattached.symm.trans hdetached)
  · cases hp
    cases hdetach
  · cases hlog

/-- The pump ends with a delivered `Detach`, and no transfer runs on meanwhile, whatever comes after,
exactly when no other owner is busy when it is delivered; and then it ends within three steps. -/
theorem detach_iff (audited interactive : Bool) (actions : List PumpAction) (σ τ : Pump)
    (p : ProcessedInput) (hrun : Machine.run step (start audited interactive) actions = some σ)
    (hlocal : σ.localInput = some p) (hdetach : p.action = .detach)
    (hstep : σ.step (.localForwarded (.ok ())) = some τ) :
    (τ.DetachEnds ↔ σ.OthersIdle) ∧ (σ.OthersIdle → τ.EndsWithin 3) := by
  have hforwarding : σ.Forwarding :=
    Machine.run_invariant (fun _ _ _ h => h.step) (forwarding_start audited interactive) hrun
  obtain ⟨hopen, hcompleted, hended⟩ := hforwarding.open_ p hlocal
  have hrunning := (effect_step hstep).1
  have hbusy : σ.ownersIdle = false := by simp [ownersIdle, hlocal]
  rw [step_select _ _ hrunning hbusy] at hstep
  simp only [select, hlocal, Option.ite_none_left_eq_some, Option.some.injEq] at hstep
  obtain ⟨hwrite, rfl⟩ := hstep
  rw [forwarded_of_ne_cancelOp σ (by rw [hdetach]; decide)]
  have hparked : (σ.park p).DetachParked := ⟨p, rfl, hdetach⟩
  have hends (hidle : σ.OthersIdle) :=
    Settled.ends ⟨(ownersIdle_park σ p).2 hidle, hparked⟩ hrunning
  refine ⟨⟨fun h => ?_, fun hidle => (hends hidle).1⟩, fun hidle => (hends hidle).2⟩
  by_contra hother
  have hoverwrite := run_overwrite (σ := σ.park p) hrunning (eq_false_of_ne_true hother)
    (hended hdetach).1 hopen hcompleted rfl (eq_false_of_ne_true hwrite)
  exact not_detaching_overwrite (σ := σ.park p) (hforwarding.attached hrunning) (h _ _ hoverwrite)

/-- A `Detach` delivered while nothing else happens. -/
theorem detach_alone :
    ∃ τ, Machine.run step (start true true)
        [.localRead (.ok (some [0x1d, 0x2e])), .localForwarded (.ok ())] = some τ ∧
      τ.DetachEnds ∧ τ.EndsWithin 3 := by
  have h := detach_iff true true [.localRead (.ok (some [0x1d, 0x2e]))] _ _ _ rfl rfl rfl rfl
  exact ⟨_, rfl, h.1.2 rfl, h.2 rfl⟩

/-- The user starts an upload of a file, with the default destination. -/
def startUpload : List PumpAction :=
  [.localRead (.ok (some [0x1d, 0x75])), .localForwarded (.ok ()), .head {},
    .localRead (.ok (some [0x66, 0x0d])), .localForwarded (.ok ()), .head { progress := .nextField },
    .localRead (.ok (some [0x0d])), .localForwarded (.ok ()), .head { progress := .completed }]

/-- The user detaches during the upload, and types a letter. -/
def detachThenLetter : List PumpAction :=
  [.localRead (.ok (some [0x1d, 0x2e])), .localForwarded (.ok ()),
    .localRead (.ok (some [0x61])), .localForwarded (.ok ())]

/-- The upload commits, and the session ends when the remote program does. -/
def runOn : List PumpAction :=
  [.transferDone (.committed 1), .head {}, .head {}, .remoteRead (.ok false) false,
    .remoteExit (.ok 0), .head {}, .head {}]

/-- With a `Detach` delivered during an upload, the upload runs on without being cancelled, and the
session goes on to its own end. -/
theorem detach_lost :
    (∃ τ, Machine.run step (start false true) (startUpload ++ detachThenLetter.take 2) = some τ ∧
      τ.DetachParked ∧ τ.transfer = true ∧ τ.transferCancel = false) ∧
    ∃ τ, Machine.run step (start false true) (startUpload ++ detachThenLetter ++ runOn) = some τ ∧
      τ.outcome = some (.ok 0) ∧ τ.detached = false :=
  ⟨⟨_, rfl, ⟨_, rfl, rfl⟩, rfl, rfl⟩, _, rfl, rfl, rfl⟩

end Pump

end Yonder.Controller
