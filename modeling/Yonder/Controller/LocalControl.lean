import Yonder.Lib.Bytes

/-!
# Local control input

`LocalControlInput` reads the local control prefix `Ctrl+]` out of the terminal input of the
controller: in pass-through bytes go to the remote terminal, in a path prompt they go to the path
editor, and during a transfer they are dropped. A `Detach` ends the machine, and a machine that has
ended makes nothing of what it reads.
-/

namespace Yonder.Controller

open Lib

/-- `INPUT_CAPACITY`. -/
def inputCapacity : Nat := 4096

/-- `LOCAL_ESCAPE`: `Ctrl+]`. -/
def localEscape : UInt8 := 0x1d

/-- `CANCEL_BYTE`: `Ctrl+C`. -/
def cancelByte : UInt8 := 0x03

inductive LocalAction where
  | none
  | detach
  | startUpload
  | startDownload
  | showHelp
  | alreadyActive
  | cancelOp
  | bell
deriving DecidableEq, Repr

inductive ModalPhase where
  | uploadPrompt
  | downloadPrompt
  | transferring
deriving DecidableEq, Repr

/-- `ProcessedInput`. -/
structure ProcessedInput where
  remoteBytes : Bytes := []
  pathBytes : Bytes := []
  remainder : Bytes := []
  action : LocalAction := .none
  dropRemainder : Bool := false
deriving DecidableEq

structure LocalControlInput where
  enabled : Bool
  ended : Bool
  pendingPrefix : Bool
  modal : Option ModalPhase
  transferBellEmitted : Bool
deriving DecidableEq

namespace LocalControlInput

def new (enabled modal : Bool) : LocalControlInput where
  enabled := enabled
  ended := false
  pendingPrefix := false
  modal := if enabled && modal then some .uploadPrompt else Option.none
  transferBellEmitted := false

def enterPrompt (c : LocalControlInput) (phase : ModalPhase) : LocalControlInput :=
  { c with modal := some phase, transferBellEmitted := false }

def endSession (c : LocalControlInput) : LocalControlInput :=
  { c with ended := true, modal := Option.none, pendingPrefix := false }

/-- `process_pass_through`. -/
def processPassThrough (c : LocalControlInput) (result : ProcessedInput) :
    Bytes → LocalControlInput × ProcessedInput
  | [] => (c, result)
  | byte :: rest =>
    if c.pendingPrefix then
      let c := { c with pendingPrefix := false }
      -- '.'
      if byte = 0x2e then (c.endSession, { result with action := .detach })
      else if byte = localEscape then
        processPassThrough c
          { result with remoteBytes := result.remoteBytes ++ [localEscape] } rest
      -- 'u'
      else if byte = 0x75 then
        (c.enterPrompt .uploadPrompt,
          { result with
            action := .startUpload
            remainder := result.remainder ++ rest
            dropRemainder := !(result.remainder ++ rest).isEmpty })
      -- 'd'
      else if byte = 0x64 then
        (c.enterPrompt .downloadPrompt,
          { result with
            action := .startDownload
            remainder := result.remainder ++ rest
            dropRemainder := !(result.remainder ++ rest).isEmpty })
      -- '?'
      else if byte = 0x3f then processPassThrough c { result with action := .showHelp } rest
      else
        processPassThrough c
          { result with remoteBytes := result.remoteBytes ++ [localEscape, byte] } rest
    else if byte = localEscape then processPassThrough { c with pendingPrefix := true } result rest
    else processPassThrough c { result with remoteBytes := result.remoteBytes ++ [byte] } rest

/-- `process_modal`. -/
def processModal (c : LocalControlInput) (phase : ModalPhase) (result : ProcessedInput) :
    Bytes → LocalControlInput × ProcessedInput
  | [] => (c, result)
  | byte :: rest =>
    if c.pendingPrefix then
      let c := { c with pendingPrefix := false }
      -- '.'
      if byte = 0x2e then (c.endSession, { result with action := .detach })
      -- '?'
      else if byte = 0x3f then processModal c phase { result with action := .showHelp } rest
      -- 'u' and 'd'
      else if byte = 0x75 ∨ byte = 0x64 then
        processModal c phase { result with action := .alreadyActive } rest
      else processModal c phase { result with action := .bell } rest
    else if byte = localEscape then processModal { c with pendingPrefix := true } phase result rest
    else if byte = cancelByte then (c, { result with action := .cancelOp })
    else
      match phase with
      | .uploadPrompt | .downloadPrompt =>
        processModal c phase { result with pathBytes := result.pathBytes ++ [byte] } rest
      | .transferring =>
        if c.transferBellEmitted then processModal c phase result rest
        else processModal { c with transferBellEmitted := true } phase
          { result with action := .bell } rest

/-- `process`. -/
def process (c : LocalControlInput) (input : Bytes) : LocalControlInput × ProcessedInput :=
  if c.ended then (c, {})
  else if !c.enabled then (c, { remoteBytes := input })
  else
    match c.modal with
    | some phase => c.processModal phase {} input
    | Option.none => c.processPassThrough {} input

/-- `finish`. -/
def finish (c : LocalControlInput) : LocalControlInput × ProcessedInput :=
  if c.ended || !c.enabled then (c, {})
  else if c.pendingPrefix then
    let c := { c with pendingPrefix := false }
    match c.modal with
    | some _ => (c, { action := .bell })
    | Option.none => (c, { remoteBytes := [localEscape] })
  else (c, {})

/-- `enter_transfer`. -/
def enterTransfer (c : LocalControlInput) : Option LocalControlInput :=
  match c.modal with
  | some .transferring => some c
  | some _ => some { c with modal := some .transferring, transferBellEmitted := false }
  | Option.none => Option.none

/-- `leave_modal`. -/
def leaveModal (c : LocalControlInput) : LocalControlInput × LocalAction :=
  let bell := c.pendingPrefix
  ({ c with modal := Option.none, transferBellEmitted := false, pendingPrefix := false },
    if bell then .bell else .none)

/-! ### Detaching ends the machine -/

variable {input : Bytes} {c : LocalControlInput}

theorem ended_of_processPassThrough :
    ∀ {c : LocalControlInput} {result : ProcessedInput}, result.action ≠ .detach →
      (c.processPassThrough result input).2.action = .detach →
      (c.processPassThrough result input).1.ended = true := by
  induction input with
  | nil => exact fun hne h => absurd h hne
  | cons byte rest ih =>
    intro c result hne h
    unfold processPassThrough at h ⊢
    dsimp only at h ⊢
    split_ifs at h ⊢ with hpre hdot hescape hu hd hhelp
    · rfl
    · exact ih hne h
    · exact ih nofun h
    · exact ih hne h
    · exact ih hne h
    · exact ih hne h

theorem ended_of_processModal :
    ∀ {c : LocalControlInput} {phase : ModalPhase} {result : ProcessedInput},
      result.action ≠ .detach → (c.processModal phase result input).2.action = .detach →
      (c.processModal phase result input).1.ended = true := by
  induction input with
  | nil => exact fun hne h => absurd h hne
  | cons byte rest ih =>
    intro c phase result hne h
    unfold processModal at h ⊢
    dsimp only at h ⊢
    split_ifs at h ⊢ with hpre hdot hhelp hactive hescape hcancel
    · rfl
    · exact ih nofun h
    · exact ih nofun h
    · exact ih nofun h
    · exact ih hne h
    · cases phase <;> exact ih hne h
    · cases phase
      case uploadPrompt => exact ih hne h
      case downloadPrompt => exact ih hne h
      case transferring => exact ih nofun h

/-- A chunk that detaches ends the machine. -/
theorem ended_of_process (h : (c.process input).2.action = .detach) :
    (c.process input).1.ended = true := by
  unfold process at h ⊢
  split_ifs at h ⊢ with hended henabled
  cases hmodal : c.modal with
  | some phase =>
    rw [hmodal] at h
    exact ended_of_processModal nofun h
  | none =>
    rw [hmodal] at h
    exact ended_of_processPassThrough nofun h

theorem enabled_processPassThrough (input : Bytes) :
    ∀ (c : LocalControlInput) (result : ProcessedInput),
      (c.processPassThrough result input).1.enabled = c.enabled := by
  induction input with
  | nil => exact fun _ _ => rfl
  | cons byte rest ih =>
    intro c result
    unfold processPassThrough
    dsimp only
    split_ifs <;> first | rfl | exact ih _ _

theorem enabled_processModal (input : Bytes) :
    ∀ (c : LocalControlInput) (phase : ModalPhase) (result : ProcessedInput),
      (c.processModal phase result input).1.enabled = c.enabled := by
  induction input with
  | nil => exact fun _ _ _ => rfl
  | cons byte rest ih =>
    intro c phase result
    unfold processModal
    dsimp only
    split_ifs <;> first | rfl | exact ih _ _ _ | (cases phase <;> exact ih _ _ _)

/-- Only an interactive session detaches. -/
theorem enabled_of_process (h : (c.process input).2.action = .detach) :
    (c.process input).1.enabled = true := by
  unfold process at h ⊢
  split_ifs at h ⊢ with hended henabled
  have henabled : c.enabled = true := by simpa using henabled
  cases hmodal : c.modal with
  | some phase => exact (enabled_processModal _ _ _ _).trans henabled
  | none => exact (enabled_processPassThrough _ _ _).trans henabled

theorem process_of_ended (h : c.ended = true) (input : Bytes) : c.process input = (c, {}) := by
  rw [process, if_pos h]

end LocalControlInput

end Yonder.Controller
