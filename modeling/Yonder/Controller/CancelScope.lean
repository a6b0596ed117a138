import Yonder.Controller.Detach

/-!
# The cancel flag and the operation it is for

`Ctrl+C` sets a flag that the running transfer looks at. The handler of the transfer's end clears it.
But the flag is also set when a `Ctrl+C` is handled and no prompt is open, and then nothing clears it: the
chunk that completes the prompt may hold the `Ctrl+C` too, or a chunk may be handled when the transfer it
was typed for is over. `scoped_iff`: in pass-through and in an open prompt the flag is clear throughout a
run exactly when no `Ctrl+C` is handled late.
-/

namespace Yonder.Controller

open Lib Wire Transfer

namespace LocalControlInput

def PassThrough (c : LocalControlInput) : Prop := c.ended = false ∧ c.modal = none

/-- The action opens a prompt. -/
def IsStart (action : LocalAction) : Prop := action = .startUpload ∨ action = .startDownload

theorem processModal_noStart {input : Bytes} :
    ∀ {c : LocalControlInput} {phase : ModalPhase} {result : ProcessedInput},
      ¬ IsStart result.action → c.modal ≠ none →
      ¬ IsStart (c.processModal phase result input).2.action ∧
        ¬ (c.processModal phase result input).1.PassThrough := by
  induction input with
  | nil => exact fun hresult hmodal => ⟨hresult, fun hpass => hmodal hpass.2⟩
  | cons byte rest ih =>
    intro c phase result hresult hmodal
    unfold processModal
    dsimp only
    split_ifs with hpre hdot hhelp hactive hescape hcancel
    · exact ⟨by simp [IsStart], fun hpass => Bool.false_ne_true hpass.1.symm⟩
    · exact ih (by simp [IsStart]) hmodal
    · exact ih (by simp [IsStart]) hmodal
    · exact ih (by simp [IsStart]) hmodal
    · exact ih hresult hmodal
    · exact ⟨by simp [IsStart], fun hpass => hmodal hpass.2⟩
    · cases phase <;> exact ih hresult hmodal
    · cases phase
      case uploadPrompt => exact ih hresult hmodal
      case downloadPrompt => exact ih hresult hmodal
      case transferring => exact ih (by simp [IsStart]) hmodal

/-- Outside of pass-through no chunk opens a prompt or leads back to pass-through. -/
theorem process_noStart {c : LocalControlInput} (h : ¬ c.PassThrough) (input : Bytes) :
    ¬ IsStart (c.process input).2.action ∧ ¬ (c.process input).1.PassThrough := by
  have hnone : ¬ IsStart .none := by rintro (h | h) <;> cases h
  unfold process
  split_ifs with hended henabled
  · exact ⟨hnone, h⟩
  · exact ⟨hnone, h⟩
  · cases hmodal : c.modal with
    | none => exact absurd ⟨by simpa using hended, hmodal⟩ h
    | some phase => exact processModal_noStart hnone (by rw [hmodal]; rintro ⟨⟩)

end LocalControlInput

namespace Pump

open LocalControlInput (PassThrough IsStart)

/-- Nothing is transferred, and the session goes on. -/
def NoTransfer (σ : Pump) : Prop :=
  σ.outcome = none ∧ σ.localEnded = false ∧ σ.transfer = false ∧ σ.pendingTransfer = none

/-- The flag is clear in pass-through and in an open prompt. -/
def Scoped (σ : Pump) : Prop :=
  σ.NoTransfer → σ.control.PassThrough ∨ σ.flow = true → σ.transferCancel = false

/-- A transfer that is begun does not end the session. -/
def StartGoesOn (σ : Pump) (met : HeadOutcome) : Prop :=
  met.startFailure = none ∧
    (met.start = .noBase ∨ (σ.control.modal ≠ none ∧ met.start ≠ .cancelled))

/-- A `Ctrl+C` that is handled when its operation is over: its chunk also completes the prompt, or also
cancels it, or there is no prompt to cancel and the control is back in pass-through. -/
def LateCancel (σ : Pump) (met : HeadOutcome) : Prop :=
  σ.pendingTransfer = none ∧ σ.pendingLocalEof = false ∧ σ.localEnded = false ∧
    σ.control.ended = false ∧ met.failure = none ∧
    (∃ p, σ.pendingLocalInput = some p ∧ p.action = .cancelOp) ∧
    ((σ.flow = true ∧ met.progress = .completed ∧ σ.StartGoesOn met) ∨
      (σ.flow = true ∧ met.progress = .cancelled) ∨ (σ.flow = false ∧ σ.control.modal = none))

def InTime (σ : Pump) (a : PumpAction) : Prop := ∀ met, a = .head met → ¬ σ.LateCancel met

/-- A flag that was set when no prompt was open, outside of pass-through. No prompt is going to open. -/
def Stuck (σ : Pump) : Prop :=
  ¬ σ.control.PassThrough ∧ σ.flow = false ∧
    (∀ p, σ.localInput = some p → ¬ IsStart p.action) ∧
    ∀ p, σ.pendingLocalInput = some p → ¬ IsStart p.action

/-- The flag is set for a transfer, or it is stuck. -/
structure Tended (σ : Pump) : Prop where
  flag : σ.NoTransfer → σ.transferCancel = true → σ.Stuck
  audit : σ.cancelActionAudit = true → σ.transfer = true ∨ σ.pendingTransfer ≠ none
  overflow : σ.NoTransfer → σ.delayedOverflow = true → σ.flow = true

variable {σ τ : Pump} {a : PumpAction} {met : HeadOutcome} {p : ProcessedInput}

theorem Tended.scoped (h : σ.Tended) : σ.Scoped := by
  intro hno hwhere
  by_contra hflag
  have hstuck := h.flag hno (by simpa using hflag)
  rcases hwhere with hpass | hflow
  · exact hstuck.1 hpass
  · rw [hstuck.2.1] at hflow
    cases hflow

theorem tended_start (audited interactive : Bool) : (start audited interactive).Tended :=
  ⟨nofun, nofun, nofun⟩

theorem Tended.display (h : σ.Tended) (overflow : Bool) : (σ.display overflow).Tended := by
  unfold Pump.display
  split
  case isTrue hflow => exact ⟨h.flag, h.audit, fun _ _ => hflow⟩
  case isFalse => exact ⟨h.flag, h.audit, h.overflow⟩

theorem not_noTransfer_of_outcome (h : σ.outcome ≠ none) : ¬ σ.NoTransfer := fun hno => h hno.1

theorem not_noTransfer_of_localEnded (h : σ.localEnded = true) : ¬ σ.NoTransfer :=
  fun hno => Bool.false_ne_true (hno.2.1.symm.trans h)

/-- While something is transferred, or the session has ended, there is only the audit to keep. -/
theorem tended_of_not_noTransfer (hno : ¬ σ.NoTransfer)
    (haudit : σ.cancelActionAudit = true → σ.transfer = true ∨ σ.pendingTransfer ≠ none) :
    σ.Tended :=
  ⟨fun h => absurd h hno, haudit, fun h => absurd h hno⟩

theorem Tended.stop (h : σ.Tended) (result : Except ControllerError UInt32) :
    (σ.stop result).Tended :=
  tended_of_not_noTransfer (not_noTransfer_of_outcome (Option.some_ne_none result)) h.audit

theorem Tended.complete (h : σ.Tended) (observed : RemoteCompletion × Option UInt32) :
    (σ.complete observed).Tended := ⟨h.flag, h.audit, h.overflow⟩

/-- A chunk that was forwarded is parked, or it cancels the transfer that is running. -/
theorem Tended.forwarded (h : σ.Tended) (hp : σ.localInput = some p) : (σ.forwarded p).Tended := by
  unfold Pump.forwarded
  dsimp only
  split
  case isTrue hcancel =>
    split
    · refine tended_of_not_noTransfer ?_ fun _ => .inl hcancel.2
      exact fun hno => Bool.false_ne_true (hno.2.2.1.symm.trans hcancel.2)
    · refine tended_of_not_noTransfer ?_ h.audit
      exact fun hno => Bool.false_ne_true (hno.2.2.1.symm.trans hcancel.2)
  case isFalse =>
    refine ⟨fun hno hset => ?_, h.audit, h.overflow⟩
    obtain ⟨hcontrol, hflow, hlocal, -⟩ := h.flag hno hset
    refine ⟨hcontrol, hflow, fun q hq => ?_, fun q hq => ?_⟩
    · cases hq
    · cases hq
      exact hlocal p hp

theorem tended_remoteRead {chunk : Except LocalFailure Bool} {overflow : Bool} (h : σ.Tended)
    (hstep : σ.select (.remoteRead chunk overflow) = some τ) : τ.Tended := by
  simp only [select, Option.ite_none_right_eq_some] at hstep
  obtain ⟨-, hstep⟩ := hstep
  split at hstep <;> cases hstep
  · split
    · exact ⟨h.flag, h.audit, h.overflow⟩
    · exact h.display overflow
  · exact h.complete _
  · exact h.stop _

/-- The answer of the audit to a cancellation: a transfer is running when it is awaited. -/
theorem tended_transferCancelAudited {ok : Bool} (h : σ.Tended)
    (hstep : σ.select (.transferCancelAudited ok) = some τ) : τ.Tended := by
  simp only [select, Option.ite_none_right_eq_some] at hstep
  obtain ⟨hawaited, hstep⟩ := hstep
  cases hstep
  have hbusy : ¬ σ.NoTransfer := by
    rintro ⟨-, -, htransfer, hpending⟩
    rcases h.audit hawaited with hmoving | hdone
    · exact absurd (htransfer.symm.trans hmoving) Bool.false_ne_true
    · exact hdone hpending
  have hrest : Tended { σ with cancelActionAudit := false } :=
    tended_of_not_noTransfer hbusy fun hset => absurd hset Bool.false_ne_true
  split
  · exact tended_of_not_noTransfer hbusy hrest.audit
  · exact hrest.stop _

theorem tended_select (h : σ.Tended) (ha : ∀ chunk, a ≠ .localRead chunk)
    (hstep : σ.select a = some τ) : τ.Tended := by
  cases a with
  | head => cases hstep
  | localRead chunk => exact absurd rfl (ha chunk)
  | remoteRead chunk overflow => exact tended_remoteRead h hstep
  | transferCancelAudited ok => exact tended_transferCancelAudited h hstep
  | cancelled =>
    cases hstep
    exact h.stop _
  | driver event =>
    cases event <;> cases hstep
    · exact h
    · exact h.stop _
    · exact ⟨h.flag, h.audit, h.overflow⟩
  | remoteExitAudited ok =>
    simp only [select] at hstep
    split at hstep <;> cases hstep
    have hrest : Tended { σ with terminalExitAudit := none } := ⟨h.flag, h.audit, h.overflow⟩
    split
    · exact hrest.complete _
    · exact hrest.stop _
  | localForwarded result =>
    simp only [select] at hstep
    split at hstep
    case h_2 => cases hstep
    case h_1 p hp =>
      split at hstep
      case isTrue => cases hstep
      case isFalse =>
        split at hstep <;> cases hstep
        · exact h.forwarded hp
        · exact tended_of_not_noTransfer (not_noTransfer_of_outcome (Option.some_ne_none _)) h.audit
  | transferDone outcome =>
    simp only [select, Option.ite_none_right_eq_some] at hstep
    cases hstep.2
    exact tended_of_not_noTransfer (fun hno => absurd hno.2.2.2 (Option.some_ne_none _))
      fun _ => .inr (Option.some_ne_none _)
  -- the branches left end the session, or change what the law does not speak of
  | completionDeadline =>
    simp only [select, Option.ite_none_right_eq_some] at hstep
    cases hstep.2
    exact h.stop _
  | auditFrame frame =>
    simp only [select, Option.ite_none_right_eq_some] at hstep
    obtain ⟨-, hstep⟩ := hstep
    split at hstep <;> cases hstep
    · exact ⟨h.flag, h.audit, h.overflow⟩
    · exact h.stop _
    · exact h.stop _
  | auditPoll =>
    simp only [select, Option.ite_none_right_eq_some] at hstep
    cases hstep.2
    exact ⟨h.flag, h.audit, h.overflow⟩
  | auditSent ok =>
    simp only [select, Option.ite_none_right_eq_some] at hstep
    cases hstep.2
    have hrest : Tended { σ with auditSend := false } := ⟨h.flag, h.audit, h.overflow⟩
    split
    · exact hrest
    · exact hrest.stop _
  | auditProcessed event =>
    simp only [select, Option.ite_none_right_eq_some] at hstep
    cases hstep.2
    have hrest : Tended { σ with auditProcess := false } := ⟨h.flag, h.audit, h.overflow⟩
    split
    · exact hrest
    · exact hrest.stop _
  | remoteRecorded ok overflow =>
    simp only [select, Option.ite_none_right_eq_some] at hstep
    cases hstep.2
    have hrest : Tended { σ with remoteOutput := false } := ⟨h.flag, h.audit, h.overflow⟩
    split
    · exact hrest.display overflow
    · exact hrest.stop _
  | remoteWritten ok =>
    simp only [select, Option.ite_none_right_eq_some] at hstep
    cases hstep.2
    have hrest : Tended { σ with remoteWrite := false } := ⟨h.flag, h.audit, h.overflow⟩
    split
    · exact hrest
    · exact hrest.stop _
  | resizeProcessed result =>
    simp only [select, Option.ite_none_right_eq_some] at hstep
    obtain ⟨-, hstep⟩ := hstep
    have hrest : Tended { σ with resize := false } := ⟨h.flag, h.audit, h.overflow⟩
    split at hstep <;> cases hstep
    · exact hrest
    · exact hrest.stop _
  | remoteExit code =>
    simp only [select, Option.ite_none_right_eq_some] at hstep
    obtain ⟨-, hstep⟩ := hstep
    split at hstep <;> cases hstep
    · exact h.stop _
    · split
      · exact ⟨h.flag, h.audit, h.overflow⟩
      · exact h.complete _
  | resizeDetected changed =>
    simp only [select, Option.ite_none_right_eq_some] at hstep
    cases hstep.2
    split
    · exact ⟨h.flag, h.audit, h.overflow⟩
    · exact h

theorem tended_localRead {chunk : Except LocalFailure (Option Bytes)} (h : σ.Tended)
    (hstep : σ.select (.localRead chunk) = some τ) : τ.Tended := by
  simp only [select, Option.ite_none_right_eq_some] at hstep
  obtain ⟨-, hstep⟩ := hstep
  split at hstep
  case h_1 chunk =>
    simp only [Option.ite_none_right_eq_some] at hstep
    cases hstep.2
    refine ⟨?_, h.audit, h.overflow⟩
    intro hno hset
    obtain ⟨hcontrol, hflow, -, hparked⟩ := h.flag hno hset
    obtain ⟨hstart, hstays⟩ := LocalControlInput.process_noStart hcontrol chunk
    refine ⟨hstays, hflow, ?_, hparked⟩
    rintro p ⟨⟩
    exact hstart
  case h_2 =>
    cases hstep
    exact tended_of_not_noTransfer (not_noTransfer_of_localEnded rfl) h.audit
  case h_3 =>
    cases hstep
    exact h.stop _

/-! ## The head of the loop -/

/-- With the flag set, a transfer that is begun is given up at once. -/
theorem beginTransfer_cancelled (hset : σ.transferCancel = true) (h : σ.StartGoesOn met) :
    ∃ control : LocalControlInput, control.ended = σ.control.ended ∧
      σ.beginTransfer met = { σ with control := control }.leaveModal := by
  obtain ⟨hfailure, hnoBase | ⟨hmodal, hcancelled⟩⟩ := h
  · exact ⟨σ.control, rfl, by rw [beginTransfer, hnoBase, hfailure]⟩
  · have henter : ∃ control, σ.control.enterTransfer = some control ∧
        control.ended = σ.control.ended := by
      unfold LocalControlInput.enterTransfer
      split
      · exact ⟨_, rfl, rfl⟩
      · exact ⟨_, rfl, rfl⟩
      · exact absurd (by assumption) hmodal
    obtain ⟨control, henter, hended⟩ := henter
    by_cases hnoBase : met.start = .noBase
    · exact ⟨σ.control, rfl, by rw [beginTransfer, hnoBase, hfailure]⟩
    · refine ⟨control, hended, ?_⟩
      unfold beginTransfer
      rw [henter, hfailure]
      cases hstart : met.start with
      | noBase => exact absurd hstart hnoBase
      | cancelled => exact absurd hstart hcancelled
      | armed => simp [hset]
      | openFailed => rfl
      | sourceFailed => simp

theorem beginTransfer_stops (h : ¬ σ.StartGoesOn met) : (σ.beginTransfer met).outcome ≠ none := by
  grind [StartGoesOn, beginTransfer, stop, LocalControlInput.enterTransfer]

/-- The law of the flag and of the overflow, for a state that the head of the loop leaves. -/
def Settles (τ : Pump) : Prop :=
  (τ.NoTransfer → τ.transferCancel = true → τ.Stuck) ∧
    (τ.NoTransfer → τ.delayedOverflow = true → τ.flow = true)

theorem settles_of_not_noTransfer (hno : ¬ τ.NoTransfer) : τ.Settles :=
  ⟨fun h => absurd h hno, fun h => absurd h hno⟩

theorem settles_stop (σ : Pump) (result : Except ControllerError UInt32) : (σ.stop result).Settles :=
  settles_of_not_noTransfer (not_noTransfer_of_outcome (Option.some_ne_none result))

theorem settles_clear (h : τ.transferCancel = false)
    (hoverflow : τ.delayedOverflow = true → τ.flow = true) : τ.Settles :=
  ⟨fun _ hset => absurd (h.symm.trans hset) Bool.false_ne_true, fun _ => hoverflow⟩

theorem settles_beginFileTransferModal (h : σ.transferCancel = false)
    (direction : TransferDirection) (met : HeadOutcome) :
    (σ.beginFileTransferModal direction met).Settles := by
  unfold beginFileTransferModal
  split
  · exact settles_stop _ _
  · exact settles_stop _ _
  · exact settles_clear h nofun
  · exact settles_clear h fun _ => rfl

theorem settles_beginTransfer (h : σ.transferCancel = false) (met : HeadOutcome) :
    (σ.beginTransfer met).Settles := by
  unfold beginTransfer
  split
  case h_7 =>
    dsimp only
    split
    · exact settles_clear h nofun
    · exact ⟨fun hno => absurd hno.2.2.1 nofun, fun hno => absurd hno.2.2.1 nofun⟩
  case h_1 => exact settles_clear h nofun
  case h_6 => exact settles_clear h nofun
  all_goals exact settles_stop _ _

/-- A flag that is set where no prompt is open. -/
theorem settles_cancel (hcontrol : ¬ τ.control.PassThrough) (hflow : τ.flow = false)
    (hoverflow : τ.delayedOverflow = false) (hlocal : τ.localInput = none)
    (hparked : τ.pendingLocalInput = none) : τ.Settles :=
  ⟨fun _ _ => ⟨hcontrol, hflow, fun _ hq => absurd (hlocal.symm.trans hq) nofun,
      fun _ hq => absurd (hparked.symm.trans hq) nofun⟩,
    fun _ h => absurd (hoverflow.symm.trans h) Bool.false_ne_true⟩

/-- The chunk is taken out of the slot. -/
def taken (σ : Pump) (p : ProcessedInput) : Pump :=
  { σ with pendingLocalInput := none }.record (.handled p)

/-- What is left to do with a chunk that the prompt was fed; `run` says that the prompt is complete. -/
def afterFeed (σ : Pump) (run : Bool) (action : LocalAction) (met : HeadOutcome) : Pump :=
  let finish (σ : Pump) : Pump := if run then σ.beginTransfer met else σ
  match action with
  | .detach => { σ with detached := true }.stop (.error .interrupted)
  | .cancelOp => finish (if σ.flow then σ.leaveModal else { σ with transferCancel := true })
  | .startUpload => σ.beginFileTransferModal .upload met
  | .startDownload => σ.beginFileTransferModal .download met
  | _ => finish σ

theorem handleLocalInput_eq {run : Bool} (h : met.failure = none)
    (hfeed : (σ.taken p).feedPrompt met = (τ, run)) :
    σ.handleLocalInput p met = τ.afterFeed run p.action met := by
  rw [taken] at hfeed
  unfold handleLocalInput handleProcessedInput afterFeed
  simp only [h, hfeed]
  cases run <;> cases haction : p.action <;> first | rfl | (cases hflow : τ.flow <;> rfl)

theorem feedPrompt_none (h : σ.flow = false) (met : HeadOutcome) :
    σ.feedPrompt met = (σ, false) := by
  rw [feedPrompt, if_neg (by rw [h]; decide)]

theorem feedPrompt_completed (h : σ.flow = true) (hprogress : met.progress = .completed) :
    σ.feedPrompt met = ({ σ with flow := false }, true) := by
  rw [feedPrompt, if_pos h, hprogress]

theorem feedPrompt_cancelled (h : σ.flow = true) (hprogress : met.progress = .cancelled) :
    σ.feedPrompt met = (σ.leaveModal, false) := by
  rw [feedPrompt, if_pos h, hprogress]

theorem afterFeed_cancelOp (hflow : σ.flow = false) (run : Bool) (met : HeadOutcome) :
    σ.afterFeed run .cancelOp met =
      if run then { σ with transferCancel := true }.beginTransfer met
      else { σ with transferCancel := true } := by
  simp [afterFeed, hflow]

theorem settles_afterFeed (hclear : σ.transferCancel = false) {run : Bool}
    (hoverflow : σ.delayedOverflow = true → σ.flow = true ∨ run = true) (action : LocalAction)
    (met : HeadOutcome) (hcancel : action = .cancelOp → σ.flow = true) :
    (σ.afterFeed run action met).Settles := by
  have hfinish : (if run then σ.beginTransfer met else σ).Settles := by
    split
    · exact settles_beginTransfer hclear met
    · exact settles_clear hclear fun h => (hoverflow h).resolve_right (by assumption)
  cases action with
  | detach => exact settles_stop _ _
  | cancelOp =>
    rw [afterFeed]
    dsimp only
    rw [if_pos (hcancel rfl)]
    split
    · exact settles_beginTransfer (show σ.leaveModal.transferCancel = false from hclear) met
    · exact settles_clear hclear nofun
  | startUpload => exact settles_beginFileTransferModal hclear _ met
  | startDownload => exact settles_beginFileTransferModal hclear _ met
  | none => exact hfinish
  | showHelp => exact hfinish
  | alreadyActive => exact hfinish
  | bell => exact hfinish

theorem localEnded_handleLocalInput (σ : Pump) (p : ProcessedInput) (met : HeadOutcome) :
    (σ.handleLocalInput p met).localEnded = σ.localEnded := by
  have hhandle : ∀ τ : Pump, (τ.handleProcessedInput p met).1.localEnded = τ.localEnded := by
    intro τ
    unfold handleProcessedInput feedPrompt
    grind [leaveModal]
  have hrecord := hhandle ({ σ with pendingLocalInput := none }.record (.handled p))
  unfold handleLocalInput
  grind [beginFileTransferModal, beginTransfer, leaveModal, stop, record]

theorem localEnded_head (h : σ.localEnded = true) (met : HeadOutcome) :
    (σ.head met).localEnded = true := by
  have hlocal := localEnded_handleLocalInput σ
  unfold head
  grind [handleTransferEvent, finishLocalInputEof, leaveModal, stop]

/-- A chunk that is handled without an open prompt. -/
theorem settles_without_prompt (h : σ.Tended) (hno : σ.NoTransfer) (hlocal : σ.localInput = none)
    (hflow : σ.flow = false) (hp : σ.pendingLocalInput = some p) (met : HeadOutcome)
    (hcancel : p.action = .cancelOp → ¬ σ.control.PassThrough) :
    ((σ.taken p).afterFeed false p.action met).Settles := by
  have hover : σ.delayedOverflow = false := by
    by_contra hover
    rw [h.overflow hno (by simpa using hover)] at hflow
    cases hflow
  by_cases haction : p.action = .cancelOp
  · rw [haction, afterFeed_cancelOp (show (σ.taken p).flow = false from hflow)]
    exact settles_cancel (hcancel haction) hflow hover hlocal rfl
  · by_cases hset : σ.transferCancel = true
    · -- the flag is stuck: no prompt opens, and the other actions do nothing here
      obtain ⟨hcontrol, -, -, hparked⟩ := h.flag hno hset
      have hidle : (σ.taken p).Settles := settles_cancel hcontrol hflow hover hlocal rfl
      cases hkind : p.action with
      | detach => exact settles_stop _ _
      | cancelOp => exact absurd hkind haction
      | startUpload => exact absurd (.inl hkind) (hparked p hp)
      | startDownload => exact absurd (.inr hkind) (hparked p hp)
      | none => exact hidle
      | showHelp => exact hidle
      | alreadyActive => exact hidle
      | bell => exact hidle
    · have hclear : (σ.taken p).transferCancel = false := by simpa [taken, record] using hset
      exact settles_afterFeed hclear
        (fun h => absurd (hover.symm.trans h) Bool.false_ne_true) _ met fun h => absurd h haction

/-- A chunk that an open prompt is fed. -/
theorem settles_with_prompt (h : σ.Tended) (hno : σ.NoTransfer) (hlocal : σ.localInput = none)
    (hflow : σ.flow = true) (heof : σ.pendingLocalEof = false) (hp : σ.pendingLocalInput = some p)
    (hfailure : met.failure = none) (hintime : ¬ σ.LateCancel met) :
    (σ.handleLocalInput p met).Settles := by
  have hclear : σ.transferCancel = false := by
    by_contra hset
    rw [(h.flag hno (by simpa using hset)).2.1] at hflow
    cases hflow
  -- a flag that is set behind the end of the prompt is late, unless the control has ended
  have hlate : p.action = .cancelOp →
      ((met.progress = .completed ∧ σ.StartGoesOn met) ∨ met.progress = .cancelled) →
      ∀ control : LocalControlInput, control.ended = σ.control.ended → ¬ control.PassThrough := by
    intro haction hend control hended hpass
    refine hintime ⟨hno.2.2.2, heof, hno.2.1, hended.symm.trans hpass.1, hfailure, ⟨p, hp, haction⟩, ?_⟩
    rcases hend with ⟨hcompleted, hgoes⟩ | hcancelled
    · exact .inl ⟨hflow, hcompleted, hgoes⟩
    · exact .inr (.inl ⟨hflow, hcancelled⟩)
  by_cases haction : p.action = .cancelOp ∧ (met.progress = .completed ∨ met.progress = .cancelled)
  · obtain ⟨haction, hprogress | hprogress⟩ := haction
    · have hfeed := feedPrompt_completed (show (σ.taken p).flow = true from hflow) hprogress
      rw [handleLocalInput_eq hfailure hfeed, haction, afterFeed_cancelOp rfl, if_pos rfl]
      by_cases hgoes : σ.StartGoesOn met
      · obtain ⟨control, hended, hbegin⟩ := beginTransfer_cancelled
          (σ := { σ.taken p with flow := false, transferCancel := true }) rfl hgoes
        rw [hbegin]
        exact settles_cancel (hlate haction (.inl ⟨hprogress, hgoes⟩) _ hended) rfl rfl hlocal rfl
      · exact ⟨fun hrun => absurd hrun.1 (beginTransfer_stops hgoes),
          fun hrun => absurd hrun.1 (beginTransfer_stops hgoes)⟩
    · have hfeed := feedPrompt_cancelled (show (σ.taken p).flow = true from hflow) hprogress
      rw [handleLocalInput_eq hfailure hfeed, haction, afterFeed_cancelOp rfl]
      exact settles_cancel (hlate haction (.inr hprogress) _ rfl) rfl rfl hlocal rfl
  · have hfeed : ∃ τ run, (σ.taken p).feedPrompt met = (τ, run) ∧ τ.transferCancel = false ∧
        (τ.delayedOverflow = true → τ.flow = true ∨ run = true) ∧
        (p.action = .cancelOp → τ.flow = true) := by
      rw [feedPrompt, if_pos (show (σ.taken p).flow = true from hflow)]
      split
      · exact ⟨_, _, rfl, hclear, fun _ => .inr rfl, fun h => absurd ⟨h, .inl (by assumption)⟩ haction⟩
      · exact ⟨_, _, rfl, hclear, nofun, fun h => absurd ⟨h, .inr (by assumption)⟩ haction⟩
      · exact ⟨_, _, rfl, hclear, fun _ => .inl hflow, fun _ => hflow⟩
    obtain ⟨τ, run, hfeed, hτ, hover, hcancel⟩ := hfeed
    rw [handleLocalInput_eq hfailure hfeed]
    exact settles_afterFeed hτ hover _ met hcancel

theorem settles_handleLocalInput (h : σ.Tended) (hno : σ.NoTransfer) (hlocal : σ.localInput = none)
    (heof : σ.pendingLocalEof = false) (hp : σ.pendingLocalInput = some p) (met : HeadOutcome)
    (hintime : ¬ σ.LateCancel met) : (σ.handleLocalInput p met).Settles := by
  cases hfailure : met.failure with
  | some failure =>
    unfold handleLocalInput handleProcessedInput
    rw [hfailure]
    exact settles_stop _ _
  | none =>
    cases hflow : σ.flow with
    | false =>
      have hfeed := feedPrompt_none (show (σ.taken p).flow = false from hflow) met
      rw [handleLocalInput_eq hfailure hfeed]
      refine settles_without_prompt h hno hlocal hflow hp met fun haction hpass => hintime ?_
      exact ⟨hno.2.2.2, heof, hno.2.1, hpass.1, hfailure, ⟨p, hp, haction⟩, .inr (.inr ⟨hflow, hpass.2⟩)⟩
    | true => exact settles_with_prompt h hno hlocal hflow heof hp hfailure hintime

theorem tended_head (h : σ.Tended) (hrunning : σ.outcome = none) (hidle : σ.ownersIdle = true)
    (met : HeadOutcome) (hintime : ¬ σ.LateCancel met) : (σ.head met).Tended := by
  have htransfer := transfer_of_idle hidle
  have hlocal := localInput_of_idle hidle
  have hcancel : σ.cancelActionAudit = false := by
    simp [ownersIdle] at hidle
    exact hidle.1.1.1.1.1.2
  have hsettles : (σ.head met).Settles := by
    by_cases hinput : σ.localEnded = true
    · have hended := localEnded_head hinput met
      exact settles_of_not_noTransfer (not_noTransfer_of_localEnded hended)
    unfold head
    split
    case h_1 outcome hpending =>
      unfold handleTransferEvent
      dsimp only
      split
      · exact settles_stop _ _
      · exact settles_stop _ _
      · split
        · exact settles_stop _ _
        · exact settles_clear rfl fun hset => absurd hset Bool.false_ne_true
    case h_2 hpending =>
      split
      case isTrue heof =>
        unfold finishLocalInputEof
        dsimp only
        split
        · exact settles_stop _ _
        · split <;> exact settles_of_not_noTransfer (not_noTransfer_of_localEnded rfl)
      case isFalse heof =>
        split
        case h_1 p hp =>
          have hno : σ.NoTransfer := ⟨hrunning, by simpa using hinput, htransfer, hpending⟩
          exact settles_handleLocalInput h hno hlocal (by simpa using heof) hp met hintime
        case h_2 =>
          split
          case isTrue hover =>
            dsimp only
            split
            · exact settles_stop _ _
            · refine ⟨fun hno hset => ?_, fun _ hset => absurd hset Bool.false_ne_true⟩
              have hflow := h.overflow hno hover
              rw [(h.flag hno hset).2.1] at hflow
              cases hflow
          case isFalse =>
            split
            · dsimp only
              split
              · exact settles_stop _ _
              · exact ⟨h.flag, h.overflow⟩
            · exact settles_stop _ _
            · exact ⟨h.flag, h.overflow⟩
  refine ⟨hsettles.1, ?_, hsettles.2⟩
  have haudit : (σ.head met).cancelActionAudit = false := by
    rcases sameInput_head σ met with hsame | ⟨p, -, hsame⟩ <;> exact hsame.cancelActionAudit.trans hcancel
  exact fun hset => absurd (haudit.symm.trans hset) Bool.false_ne_true

/-- A late `Ctrl+C` leaves the flag set in pass-through. -/
theorem not_scoped_of_late (hrunning : σ.outcome = none) (hidle : σ.ownersIdle = true)
    (hlate : σ.LateCancel met) : ¬ (σ.head met).Scoped := by
  obtain ⟨hpending, heof, hinput, hended, hfailure, ⟨p, hp, haction⟩, hend⟩ := hlate
  have htransfer := transfer_of_idle hidle
  have hhead : σ.head met = σ.handleLocalInput p met := by
    rw [head, hpending]
    dsimp only
    rw [if_neg (by rw [heof]; decide), hp]
  have hset : ∀ {τ : Pump}, τ.outcome = none → τ.localEnded = false → τ.transfer = false →
      τ.pendingTransfer = none → τ.control.PassThrough → τ.transferCancel = true → ¬ τ.Scoped :=
    fun h₁ h₂ h₃ h₄ hpass hset hscoped =>
      Bool.false_ne_true ((hscoped ⟨h₁, h₂, h₃, h₄⟩ (.inl hpass)).symm.trans hset)
  rw [hhead]
  rcases hend with ⟨hflow, hprogress, hgoes⟩ | ⟨hflow, hprogress⟩ | ⟨hflow, hmodal⟩
  · have hfeed := feedPrompt_completed (show (σ.taken p).flow = true from hflow) hprogress
    obtain ⟨control, hcontrol, hbegin⟩ := beginTransfer_cancelled
      (σ := { σ.taken p with flow := false, transferCancel := true }) rfl hgoes
    rw [handleLocalInput_eq hfailure hfeed, haction, afterFeed_cancelOp rfl, if_pos rfl, hbegin]
    exact hset hrunning hinput htransfer hpending ⟨hcontrol.trans hended, rfl⟩ rfl
  · have hfeed := feedPrompt_cancelled (show (σ.taken p).flow = true from hflow) hprogress
    rw [handleLocalInput_eq hfailure hfeed, haction, afterFeed_cancelOp rfl]
    exact hset hrunning hinput htransfer hpending ⟨hended, rfl⟩ rfl
  · have hfeed := feedPrompt_none (show (σ.taken p).flow = false from hflow) met
    rw [handleLocalInput_eq hfailure hfeed, haction,
      afterFeed_cancelOp (show (σ.taken p).flow = false from hflow)]
    exact hset hrunning hinput htransfer hpending ⟨hended, hmodal⟩ rfl

/-- Either the head of the loop runs, with idle owners, or an event is selected. -/
theorem step_cases (hstep : σ.step a = some τ) :
    σ.outcome = none ∧ ((∃ met, a = .head met ∧ σ.ownersIdle = true ∧ τ = σ.head met) ∨
      σ.select a = some τ) := by
  have hrunning := (effect_step hstep).1
  unfold step at hstep
  rw [if_neg (by rw [hrunning]; decide)] at hstep
  refine ⟨hrunning, ?_⟩
  split at hstep
  case isTrue hhead =>
    split at hstep
    case h_1 met =>
      cases hstep
      exact .inl ⟨met, rfl, (Bool.and_eq_true _ _ ▸ hhead).1, rfl⟩
    case h_2 => cases hstep
  case isFalse => exact .inr hstep

theorem Tended.step (h : σ.Tended) (hstep : σ.step a = some τ) (hintime : σ.InTime a) :
    τ.Tended := by
  obtain ⟨hrunning, ⟨met, rfl, hidle, rfl⟩ | hselect⟩ := step_cases hstep
  · exact tended_head h hrunning hidle met (hintime met rfl)
  · by_cases hread : ∃ chunk, a = .localRead chunk
    · obtain ⟨chunk, rfl⟩ := hread
      exact tended_localRead h hselect
    · exact tended_select h (fun chunk ha => hread ⟨chunk, ha⟩) hselect

theorem not_scoped_step (hstep : σ.step a = some τ) (hlate : ¬ σ.InTime a) : ¬ τ.Scoped := by
  simp only [InTime, not_forall, not_not] at hlate
  obtain ⟨met, rfl, hlate⟩ := hlate
  obtain ⟨hrunning, ⟨met', heq, hidle, rfl⟩ | hselect⟩ := step_cases hstep
  · cases heq
    exact not_scoped_of_late hrunning hidle hlate
  · cases hselect

/-- In a run the flag is clear in every state in which nothing is transferred and the control is in
pass-through or a prompt is open exactly when no `Ctrl+C` is handled late. -/
theorem scoped_iff (audited interactive : Bool) (actions : List PumpAction) (τ : Pump)
    (hrun : Machine.run step (start audited interactive) actions = some τ) :
    Machine.Throughout step Scoped (start audited interactive) actions ↔
      Machine.Allowed step InTime (start audited interactive) actions :=
  Machine.throughout_iff_allowed Tended (fun _ => Tended.scoped)
    (fun _ _ _ h hstep hintime => h.step hstep hintime)
    (fun _ _ _ _ hstep hlate => not_scoped_step hstep hlate) (tended_start audited interactive) hrun

/-- The user opens a prompt. -/
theorem scoped_iff_prompt :
    Machine.Throughout step Scoped (start false true)
      [.localRead (.ok (some [0x1d, 0x75])), .localForwarded (.ok ()), .head {}] := by
  refine (scoped_iff false true _ _ rfl).2 ⟨nofun, fun τ hτ => ?_⟩
  cases hτ
  refine ⟨nofun, fun τ hτ => ?_⟩
  cases hτ
  refine ⟨?_, fun _ _ => trivial⟩
  rintro met - ⟨-, -, -, -, -, ⟨p, hp, haction⟩, -⟩
  cases hp
  cases haction

/-- The user opens a prompt and types the first path; the chunk with the second path also holds a
`Ctrl+C` behind the line end. -/
def completeAndCancel : List PumpAction :=
  [.localRead (.ok (some [0x1d, 0x75])), .localForwarded (.ok ()), .head {},
    .localRead (.ok (some [0x61, 0x0d])), .localForwarded (.ok ()), .head { progress := .nextField },
    .localRead (.ok (some [0x62, 0x0d, 0x03])), .localForwarded (.ok ()),
    .head { progress := .completed }]

/-- The transfer is given up, and the flag stays set for the next one. -/
theorem cancel_outlives_operation :
    ∃ τ, Machine.run step (start false true) completeAndCancel = some τ ∧ τ.NoTransfer ∧
      τ.control.PassThrough ∧ τ.transferCancel = true ∧ ¬ τ.Scoped := by
  refine ⟨_, rfl, ⟨rfl, rfl, rfl, rfl⟩, ⟨rfl, rfl⟩, rfl, ?_⟩
  intro hscoped
  cases hscoped ⟨rfl, rfl, rfl, rfl⟩ (.inl ⟨rfl, rfl⟩)

end Pump

end Yonder.Controller
