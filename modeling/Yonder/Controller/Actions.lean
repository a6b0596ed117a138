import Yonder.Controller.Pump

/-!
# Local actions in the pump

A chunk that was forwarded waits in a slot for one chunk until the owners are idle, while the pump
goes on reading. `Kept` says that no chunk is lost: what was processed is what is being forwarded and
what was forwarded, in order; what was parked is what is in the slot and what was handled, in order;
and a cancellation of a running transfer is stored or being recorded. `kept_iff`: it holds throughout
a run exactly when no chunk is parked while the slot is taken.
-/

namespace Yonder.Controller

open Lib Wire Transfer

/-! ## What the log says of local input, newest first -/

def processedInputs (log : List PumpObservation) : List ProcessedInput :=
  log.filterMap fun
    | .processed p => some p
    | _ => none

def forwardedInputs (log : List PumpObservation) : List ProcessedInput :=
  log.filterMap fun
    | .parked p => some p
    | .cancels p => some p
    | _ => none

def parkedInputs (log : List PumpObservation) : List ProcessedInput :=
  log.filterMap fun
    | .parked p => some p
    | _ => none

def handledInputs (log : List PumpObservation) : List ProcessedInput :=
  log.filterMap fun
    | .handled p => some p
    | _ => none

/-- The newest cancellation is not stored yet. -/
def cancelOpen : List PumpObservation → Bool
  | [] => false
  | .cancels _ :: _ => true
  | .cancelStored :: _ => false
  | _ :: log => cancelOpen log

namespace Pump

/-- No chunk is lost. -/
structure Kept (σ : Pump) : Prop where
  read : σ.outcome = none →
    processedInputs σ.log = σ.localInput.toList ++ forwardedInputs σ.log
  handled : parkedInputs σ.log = σ.pendingLocalInput.toList ++ handledInputs σ.log
  cancelled : σ.outcome = none → cancelOpen σ.log = true → σ.cancelActionAudit = true

/-- No chunk is parked while the slot is taken. -/
def NotOverwriting (σ : Pump) (a : PumpAction) : Prop :=
  ∀ p, a = .localForwarded (.ok ()) → σ.localInput = some p →
    ¬(p.action = .cancelOp ∧ σ.transfer = true) → σ.pendingLocalInput = none

/-! ## What a step does to local input -/

/-- Local input is as it was. -/
structure SameInput (σ τ : Pump) : Prop where
  log : τ.log = σ.log
  localInput : τ.localInput = σ.localInput
  pendingLocalInput : τ.pendingLocalInput = σ.pendingLocalInput
  cancelActionAudit : τ.cancelActionAudit = σ.cancelActionAudit

theorem SameInput.refl (σ : Pump) : SameInput σ σ := ⟨rfl, rfl, rfl, rfl⟩

variable {σ τ : Pump} {a : PumpAction}

theorem SameInput.trans {ρ : Pump} (h : SameInput ρ σ) (h' : SameInput σ τ) : SameInput ρ τ :=
  ⟨h'.log.trans h.log, h'.localInput.trans h.localInput,
    h'.pendingLocalInput.trans h.pendingLocalInput,
    h'.cancelActionAudit.trans h.cancelActionAudit⟩

/-- What an action does to local input. -/
inductive InputEffect (σ : Pump) : PumpAction → Pump → Prop
  | same {a : PumpAction} {τ : Pump} (h : SameInput σ τ)
      (ha : a ≠ .localForwarded (.ok ())) : InputEffect σ a τ
  | handled {met : HeadOutcome} {τ : Pump} (p : ProcessedInput)
      (hpending : σ.pendingLocalInput = some p)
      (h : SameInput ({ σ with pendingLocalInput := none }.record (.handled p)) τ) :
      InputEffect σ (.head met) τ
  | processed {chunk : Bytes} (hidle : σ.localInput = none) :
      InputEffect σ (.localRead (.ok (some chunk))) (σ.readChunk chunk)
  | forwarded (p : ProcessedInput) (hlocal : σ.localInput = some p) :
      InputEffect σ (.localForwarded (.ok ())) (σ.forwarded p)
  | stored : InputEffect σ (.transferCancelAudited true)
      ({ σ with cancelActionAudit := false, transferCancel := true }.record .cancelStored)
  | failed {a : PumpAction} {τ : Pump} (hstop : τ.outcome ≠ none) (hlog : τ.log = σ.log)
      (hpending : τ.pendingLocalInput = σ.pendingLocalInput)
      (ha : a ≠ .localForwarded (.ok ())) : InputEffect σ a τ

theorem sameInput_handleTransferEvent (σ : Pump) (outcome : TransferOutcome) (met : HeadOutcome) :
    SameInput σ (σ.handleTransferEvent outcome met) := by
  unfold handleTransferEvent
  dsimp only
  split
  · exact ⟨rfl, rfl, rfl, rfl⟩
  · exact ⟨rfl, rfl, rfl, rfl⟩
  · split <;> exact ⟨rfl, rfl, rfl, rfl⟩

theorem sameInput_finishLocalInputEof (σ : Pump) (met : HeadOutcome) :
    SameInput σ (σ.finishLocalInputEof met) := by
  unfold finishLocalInputEof
  dsimp only
  split
  · exact ⟨rfl, rfl, rfl, rfl⟩
  · split <;> exact ⟨rfl, rfl, rfl, rfl⟩

theorem sameInput_feedPrompt (σ : Pump) (met : HeadOutcome) :
    SameInput σ (σ.feedPrompt met).1 := by
  unfold feedPrompt
  split
  · split <;> exact ⟨rfl, rfl, rfl, rfl⟩
  · exact .refl σ

theorem sameInput_handleProcessedInput (σ : Pump) (p : ProcessedInput) (met : HeadOutcome) :
    SameInput σ (σ.handleProcessedInput p met).1 := by
  have hfeed := sameInput_feedPrompt σ met
  unfold handleProcessedInput
  split
  · exact .refl σ
  · dsimp only
    split
    · exact hfeed
    · split <;> exact hfeed.trans ⟨rfl, rfl, rfl, rfl⟩
    · exact hfeed
    · exact hfeed
    · exact hfeed

theorem sameInput_beginFileTransferModal (σ : Pump) (direction : TransferDirection)
    (met : HeadOutcome) : SameInput σ (σ.beginFileTransferModal direction met) := by
  unfold beginFileTransferModal
  split <;> exact ⟨rfl, rfl, rfl, rfl⟩

theorem sameInput_beginTransfer (σ : Pump) (met : HeadOutcome) :
    SameInput σ (σ.beginTransfer met) := by
  unfold beginTransfer
  split
  case h_7 =>
    dsimp only
    split <;> exact ⟨rfl, rfl, rfl, rfl⟩
  all_goals exact ⟨rfl, rfl, rfl, rfl⟩

theorem sameInput_handleLocalInput (σ : Pump) (p : ProcessedInput) (met : HeadOutcome) :
    SameInput ({ σ with pendingLocalInput := none }.record (.handled p))
      (σ.handleLocalInput p met) := by
  have hhandle := sameInput_handleProcessedInput
    ({ σ with pendingLocalInput := none }.record (.handled p)) p met
  unfold handleLocalInput
  dsimp only
  split
  case h_1 heq => rwa [heq] at hhandle
  case h_2 heq =>
    rw [heq] at hhandle
    exact hhandle.trans (sameInput_beginFileTransferModal _ _ _)
  case h_3 heq =>
    rw [heq] at hhandle
    exact hhandle.trans (sameInput_beginTransfer _ _)
  case h_4 heq =>
    rw [heq] at hhandle
    exact hhandle.trans ⟨rfl, rfl, rfl, rfl⟩

/-- The head of the loop handles the chunk in the slot, or leaves local input as it was. -/
theorem sameInput_head (σ : Pump) (met : HeadOutcome) :
    SameInput σ (σ.head met) ∨ ∃ p, σ.pendingLocalInput = some p ∧
      SameInput ({ σ with pendingLocalInput := none }.record (.handled p)) (σ.head met) := by
  unfold head
  split
  case h_1 => exact .inl (sameInput_handleTransferEvent _ _ _)
  case h_2 =>
    split
    case isTrue => exact .inl (sameInput_finishLocalInputEof _ _)
    case isFalse =>
      split
      case h_1 p hpending => exact .inr ⟨p, hpending, sameInput_handleLocalInput σ p met⟩
      case h_2 =>
        split
        case isTrue =>
          dsimp only
          split <;> exact .inl ⟨rfl, rfl, rfl, rfl⟩
        case isFalse =>
          split
          case h_1 =>
            dsimp only
            split <;> exact .inl ⟨rfl, rfl, rfl, rfl⟩
          case h_2 => exact .inl ⟨rfl, rfl, rfl, rfl⟩
          case h_3 => exact .inl (.refl σ)

theorem effect_head (σ : Pump) (met : HeadOutcome) : InputEffect σ (.head met) (σ.head met) := by
  rcases sameInput_head σ met with hsame | ⟨p, hpending, hsame⟩
  · exact .same hsame nofun
  · exact .handled p hpending hsame

theorem sameInput_display (σ : Pump) (overflow : Bool) : SameInput σ (σ.display overflow) := by
  unfold display
  split <;> exact ⟨rfl, rfl, rfl, rfl⟩

theorem effect_select (hstep : σ.select a = some τ) : InputEffect σ a τ := by
  cases a with
  | head met => cases hstep
  | completionDeadline =>
    simp only [select, Option.ite_none_right_eq_some] at hstep
    cases hstep.2
    exact .same ⟨rfl, rfl, rfl, rfl⟩ nofun
  | cancelled =>
    cases hstep
    exact .same ⟨rfl, rfl, rfl, rfl⟩ nofun
  | driver event =>
    cases event <;> cases hstep <;> exact .same ⟨rfl, rfl, rfl, rfl⟩ nofun
  | auditFrame frame =>
    simp only [select, Option.ite_none_right_eq_some] at hstep
    obtain ⟨-, hstep⟩ := hstep
    split at hstep <;> cases hstep <;> exact .same ⟨rfl, rfl, rfl, rfl⟩ nofun
  | auditPoll =>
    simp only [select, Option.ite_none_right_eq_some] at hstep
    cases hstep.2
    exact .same ⟨rfl, rfl, rfl, rfl⟩ nofun
  | auditSent ok =>
    simp only [select, Option.ite_none_right_eq_some] at hstep
    cases hstep.2
    split <;> exact .same ⟨rfl, rfl, rfl, rfl⟩ nofun
  | auditProcessed event =>
    simp only [select, Option.ite_none_right_eq_some] at hstep
    cases hstep.2
    split <;> exact .same ⟨rfl, rfl, rfl, rfl⟩ nofun
  | remoteExitAudited ok =>
    simp only [select] at hstep
    split at hstep
    · cases hstep
      split <;> exact .same ⟨rfl, rfl, rfl, rfl⟩ nofun
    · cases hstep
  | transferCancelAudited ok =>
    simp only [select, Option.ite_none_right_eq_some] at hstep
    cases hstep.2
    cases ok with
    | true => exact .stored
    | false => exact .failed nofun rfl rfl nofun
  | localForwarded result =>
    simp only [select] at hstep
    split at hstep
    case h_1 p hlocal =>
      split at hstep
      · cases hstep
      · cases result with
        | ok _ =>
          cases hstep
          exact .forwarded p hlocal
        | error failure =>
          cases hstep
          exact .failed nofun rfl rfl nofun
    case h_2 => cases hstep
  | localRead chunk =>
    simp only [select, Option.ite_none_right_eq_some] at hstep
    obtain ⟨hguard, hstep⟩ := hstep
    split at hstep
    case h_1 chunk =>
      simp only [Option.ite_none_right_eq_some] at hstep
      cases hstep.2
      have hidle : σ.localInput = none := by
        simp only [Bool.and_eq_true, Option.isNone_iff_eq_none] at hguard
        exact hguard.1.2
      exact .processed hidle
    case h_2 =>
      cases hstep
      exact .same ⟨rfl, rfl, rfl, rfl⟩ nofun
    case h_3 =>
      cases hstep
      exact .same ⟨rfl, rfl, rfl, rfl⟩ nofun
  | remoteRecorded ok overflow =>
    simp only [select, Option.ite_none_right_eq_some] at hstep
    cases hstep.2
    split
    · refine .same (SameInput.trans ?_ (sameInput_display _ _)) nofun
      exact ⟨rfl, rfl, rfl, rfl⟩
    · exact .same ⟨rfl, rfl, rfl, rfl⟩ nofun
  | remoteWritten ok =>
    simp only [select, Option.ite_none_right_eq_some] at hstep
    cases hstep.2
    split <;> exact .same ⟨rfl, rfl, rfl, rfl⟩ nofun
  | resizeProcessed result =>
    simp only [select, Option.ite_none_right_eq_some] at hstep
    obtain ⟨-, hstep⟩ := hstep
    split at hstep <;> cases hstep <;> exact .same ⟨rfl, rfl, rfl, rfl⟩ nofun
  | remoteRead chunk overflow =>
    simp only [select, Option.ite_none_right_eq_some] at hstep
    obtain ⟨-, hstep⟩ := hstep
    split at hstep <;> cases hstep
    · split
      · exact .same ⟨rfl, rfl, rfl, rfl⟩ nofun
      · exact .same (sameInput_display _ _) nofun
    · exact .same ⟨rfl, rfl, rfl, rfl⟩ nofun
    · exact .same ⟨rfl, rfl, rfl, rfl⟩ nofun
  | remoteExit code =>
    simp only [select, Option.ite_none_right_eq_some] at hstep
    obtain ⟨-, hstep⟩ := hstep
    split at hstep <;> cases hstep
    · exact .same ⟨rfl, rfl, rfl, rfl⟩ nofun
    · split <;> exact .same ⟨rfl, rfl, rfl, rfl⟩ nofun
  | resizeDetected changed =>
    simp only [select, Option.ite_none_right_eq_some] at hstep
    cases hstep.2
    split <;> exact .same ⟨rfl, rfl, rfl, rfl⟩ nofun
  | transferDone outcome =>
    simp only [select, Option.ite_none_right_eq_some] at hstep
    cases hstep.2
    exact .same ⟨rfl, rfl, rfl, rfl⟩ nofun

theorem effect_step (hstep : σ.step a = some τ) : σ.outcome = none ∧ InputEffect σ a τ := by
  unfold step at hstep
  split at hstep
  case isTrue => cases hstep
  case isFalse hrunning =>
    refine ⟨Option.not_isSome_iff_eq_none.1 hrunning, ?_⟩
    split at hstep
    case isTrue =>
      split at hstep
      case h_1 met =>
        cases hstep
        exact effect_head σ met
      case h_2 => cases hstep
    case isFalse => exact effect_select hstep

/-! ## The law -/

theorem Kept.same (hkept : σ.Kept) (hrunning : σ.outcome = none) (hsame : SameInput σ τ) :
    τ.Kept where
  read := fun _ => by rw [hsame.log, hsame.localInput, hkept.read hrunning]
  handled := by rw [hsame.log, hsame.pendingLocalInput, hkept.handled]
  cancelled := fun _ hopen => by
    rw [hsame.log] at hopen
    rw [hsame.cancelActionAudit, hkept.cancelled hrunning hopen]

/-- A parked chunk: nothing is lost exactly if the slot was empty. -/
theorem kept_forwarded (hkept : σ.Kept) (hrunning : σ.outcome = none) {p : ProcessedInput}
    (hlocal : σ.localInput = some p) :
    (σ.forwarded p).Kept ↔ σ.NotOverwriting (.localForwarded (.ok ())) := by
  have hread := hkept.read hrunning
  rw [hlocal] at hread
  unfold forwarded
  dsimp only
  by_cases hcancel : p.action = .cancelOp ∧ σ.transfer = true
  case pos =>
    rw [if_pos hcancel]
    refine iff_of_true ?_ fun p' _ hp' hne => ?_
    · split
      · exact ⟨fun _ => hread, hkept.handled, fun _ _ => rfl⟩
      · exact ⟨fun _ => hread, hkept.handled, fun _ hopen => absurd hopen Bool.false_ne_true⟩
    · cases hlocal.symm.trans hp'
      exact absurd hcancel hne
  case neg =>
    rw [if_neg hcancel]
    constructor
    · intro h p' _ hp' _
      have hlength := congrArg List.length h.handled
      have hbefore := congrArg List.length hkept.handled
      simp only [record, parkedInputs, handledInputs, List.filterMap_cons, List.length_append,
        List.length_cons, Option.toList_some, List.length_nil] at hlength hbefore
      cases hslot : σ.pendingLocalInput with
      | none => rfl
      | some q =>
        rw [hslot] at hbefore
        simp only [Option.toList_some, List.length_cons, List.length_nil] at hbefore
        omega
    · intro hallowed
      have hempty := hallowed p rfl hlocal hcancel
      have hbefore := hkept.handled
      rw [hempty] at hbefore
      refine ⟨fun _ => hread, ?_, fun _ hopen => hkept.cancelled hrunning hopen⟩
      exact congrArg (p :: ·) hbefore

/-- A step of a pump that lost nothing loses nothing exactly if it does not overwrite the slot. -/
theorem kept_step (hkept : σ.Kept) (hstep : σ.step a = some τ) : τ.Kept ↔ σ.NotOverwriting a := by
  obtain ⟨hrunning, heffect⟩ := effect_step hstep
  have hother : a ≠ .localForwarded (.ok ()) → σ.NotOverwriting a :=
    fun hne _ heq => absurd heq hne
  cases heffect with
  | same hsame ha => exact iff_of_true (hkept.same hrunning hsame) (hother ha)
  | handled p hpending hsame =>
    have hbefore := hkept.handled
    rw [hpending] at hbefore
    have hkept' : Kept ({ σ with pendingLocalInput := none }.record (.handled p)) :=
      ⟨fun _ => hkept.read hrunning, hbefore, fun _ hopen => hkept.cancelled hrunning hopen⟩
    exact iff_of_true (hkept'.same hrunning hsame) (hother nofun)
  | processed hidle =>
    refine iff_of_true ⟨fun _ => ?_, hkept.handled, fun _ hopen => hkept.cancelled hrunning hopen⟩
      (hother nofun)
    have hread := hkept.read hrunning
    rw [hidle] at hread
    exact congrArg _ hread
  | forwarded p hlocal => exact kept_forwarded hkept hrunning hlocal
  | stored =>
    refine iff_of_true ⟨fun _ => hkept.read hrunning, hkept.handled, fun _ hopen => ?_⟩
      (hother nofun)
    exact absurd hopen Bool.false_ne_true
  | failed hstop hlog hpending ha =>
    refine iff_of_true ⟨fun hnone => absurd hnone hstop, ?_, fun hnone => absurd hnone hstop⟩
      (hother ha)
    rw [hlog, hpending, hkept.handled]

theorem kept_start (audited interactive : Bool) : (start audited interactive).Kept :=
  ⟨fun _ => rfl, rfl, fun _ hopen => absurd hopen Bool.false_ne_true⟩

/-- The user asks for help while a checkpoint is sent, and then types a letter. -/
def helpThenLetter : List PumpAction :=
  [.auditPoll, .localRead (.ok (some [0x1d, 0x3f])), .localForwarded (.ok ()),
    .localRead (.ok (some [0x61])), .localForwarded (.ok ()), .auditSent true, .head {}]

end Pump

end Yonder.Controller
