import Yonder.Lib.Bytes
import Yonder.Lib.Live

/-!
# Events of a terminal session

`PtySession::next` waits for output of the terminal, for the end of the task that feeds it, or for
the exit of the child, and keeps what it knows in the session between calls. Its future can
be dropped at every await, so a call is a state of the model: it waits in the `select!`, for the
result of `copy_output`, or for the output that is left after the exit.

A run is any sequence of what the background tasks do and of what the caller does: call, poll, drop.
`pty_event_order`: over every run the output events are the bytes that were written, in order and
each once, and the exit is reported at most once, after all of them, with the code of the child.
-/

namespace Yonder.Host

open Lib

/-! ## The child -/

/-- The errors of the session, without their sources. -/
inductive TerminalError where
  | io
  | taskStopped
  | taskPanicked
  | childStatus
  | childTermination
  | outputDrainTimeout
  | cleanupTimeout
deriving DecidableEq

/-- What one round of `supervise_child` meets: the answer of `try_wait`, the shutdown token, the
answer of `kill`, that of the `try_wait` after it, and whether the cleanup deadline has passed. -/
structure ChildPoll where
  status : Except Unit (Option Nat)
  cancelled : Bool
  kill : Except Unit Unit
  statusAfterKill : Except Unit (Option Nat)
  expired : Bool

/-- `supervise_child`: the exit code of the child; it is still waiting when the rounds end. -/
def superviseChild (killRequested statusFailure : Bool) :
    List ChildPoll → Option (Except TerminalError Nat)
  | [] => none
  | p :: rest =>
    let observed (statusFailure : Bool) (code : Nat) : Except TerminalError Nat :=
      if statusFailure then .error .childStatus else .ok code
    match p.status with
    | .ok (some code) => some (observed statusFailure code)
    | status =>
      let statusFailure := statusFailure || !status.isOk
      let sleep (killRequested : Bool) : Option (Except TerminalError Nat) :=
        if killRequested && p.expired then
          some (.error (if statusFailure then .childStatus else .cleanupTimeout))
        else superviseChild killRequested statusFailure rest
      if (p.cancelled || statusFailure) && !killRequested then
        match p.kill with
        | .ok () => sleep true
        | .error () =>
          match p.statusAfterKill with
          | .ok (some code) => some (observed statusFailure code)
          | _ => some (.error .childTermination)
      else sleep killRequested

/-- The code is one that the child reported. -/
theorem superviseChild_code {killRequested statusFailure : Bool} {polls : List ChildPoll}
    {code : Nat} (h : superviseChild killRequested statusFailure polls = some (.ok code)) :
    ∃ p ∈ polls, p.status = .ok (some code) ∨ p.statusAfterKill = .ok (some code) := by
  induction polls generalizing killRequested statusFailure with
  | nil => cases h
  | cons p rest ih =>
    have hrest : ∀ k f, superviseChild k f rest = some (.ok code) →
        ∃ p' ∈ p :: rest, p'.status = .ok (some code) ∨ p'.statusAfterKill = .ok (some code) := by
      intro k f hsome
      obtain ⟨p', hmem, hp'⟩ := ih hsome
      exact ⟨p', List.mem_cons_of_mem _ hmem, hp'⟩
    have hobserved : ∀ (f : Bool) (c : Nat),
        some (if f then Except.error TerminalError.childStatus else .ok c) = some (.ok code) →
          c = code := by
      intro f c hsome
      cases f <;> cases hsome
      rfl
    unfold superviseChild at h
    dsimp only at h
    split at h
    case h_1 c hstatus =>
      obtain rfl := hobserved _ _ h
      exact ⟨p, List.mem_cons_self, .inl hstatus⟩
    case h_2 =>
      split at h
      case isTrue =>
        split at h
        case h_1 =>
          split at h
          · cases h
          · exact hrest _ _ h
        case h_2 =>
          split at h
          case h_1 c hstatus =>
            obtain rfl := hobserved _ _ h
            exact ⟨p, List.mem_cons_self, .inr hstatus⟩
          case h_2 => cases h
      case isFalse =>
        split at h
        · cases h
        · exact hrest _ _ h

/-! ## The session -/

structure ChildExit where
  code : Nat
  instant : Nat
deriving DecidableEq

inductive PtyEvent where
  | output (bytes : Bytes)
  | exited (code : Nat)
deriving DecidableEq

/-- `CHUNK_CAPACITY`. -/
def ptyChunkCapacity : Nat := 16 * 1024

/-- `CLEANUP_TIMEOUT`, in nanoseconds. -/
def cleanupTimeout : Nat := 2000000000

/-- Where a call of `next` waits: nowhere, in the `select!`, for output after the exit, or for the
result of `copy_output`, before or after the exit. -/
inductive PtyCall where
  | idle
  | selecting
  | draining
  | checking (afterExit : Bool)
deriving DecidableEq

/-- The pipe of the output with all that was written to it, the answers in the channels of the three
tasks (`some none` when a task dropped its sender), the session, the call in progress and what the
calls have returned. -/
structure PtySession where
  pipe : Bytes
  pipeClosed : Bool
  written : Bytes
  inputAnswer : Option (Option (Except Unit Unit))
  outputAnswer : Option (Option (Except Unit Unit))
  exitAnswer : Option (Option (Except TerminalError ChildExit))
  input : Bool
  master : Bool
  inputResult : Bool
  outputResult : Bool
  exit : Bool
  completedExit : Option (Except TerminalError ChildExit)
  drainDeadline : Option Nat
  outputClosed : Bool
  call : PtyCall
  returned : List (Except TerminalError PtyEvent)

/-- What the background tasks and the caller do. -/
inductive PtyAction where
  | write (bytes : Bytes)
  | closeOutput
  | endInput (answer : Option (Except Unit Unit))
  | endOutput (answer : Option (Except Unit Unit))
  | supervise (polls : List ChildPoll) (instant : Nat)
  | supervisorPanics
  | next
  | pollOutput (length : Nat)
  | pollInputResult
  | pollExit
  | pollOutputResult
  | deadline
  | drop

namespace PtySession

def new : PtySession :=
  ⟨[], false, [], none, none, none, true, true, true, true, true, none, none, false, .idle, []⟩

/-- The end of a call. -/
def ret (σ : PtySession) (result : Except TerminalError PtyEvent) : PtySession :=
  { σ with call := .idle, returned := σ.returned ++ [result] }

/-- The top of the loop of `next`. -/
def loop (σ : PtySession) : PtySession :=
  if σ.exit then { σ with call := .selecting } else σ.ret (.error .taskStopped)

/-- The end of `drain_after_exit`. -/
def finish (σ : PtySession) : PtySession :=
  match σ.completedExit with
  | none => σ.ret (.error .taskStopped)
  | some exit => { σ with completedExit := none }.ret (exit.map fun e => .exited (ChildExit.code e))

def drainAfterExit (σ : PtySession) : PtySession :=
  if σ.outputClosed then σ.finish
  else if σ.drainDeadline.isNone then σ.ret (.error .taskStopped)
  else { σ with call := .draining }

/-- What follows the end of output, before or after the exit. -/
def proceed (σ : PtySession) (afterExit : Bool) : PtySession :=
  if afterExit then σ.finish else σ.loop

/-- A read of the pipe that is ready. The result of `copy_output` is taken out of the session while
it is waited for. -/
def read (σ : PtySession) (length : Nat) (afterExit : Bool) : PtySession :=
  let count := min length ptyChunkCapacity
  if σ.pipe.take count ≠ [] then
    { σ with pipe := σ.pipe.drop count }.ret (.ok (.output (σ.pipe.take count)))
  else if σ.pipe = [] ∧ σ.pipeClosed then
    let σ := { σ with outputClosed := true }
    if σ.outputResult then { σ with outputResult := false, call := .checking afterExit }
    else σ.proceed afterExit
  else σ

/-- The branch of the `select!` for the exit of the child, which ends the wait there. -/
def takeExit (σ : PtySession) (answer : Option (Except TerminalError ChildExit)) : PtySession :=
  let σ := { σ with exit := false, call := .idle }
  match answer with
  | none => σ.ret (.error .taskPanicked)
  | some result =>
    { σ with
      input := false
      master := false
      drainDeadline := result.toOption.map fun exit => ChildExit.instant exit + cleanupTimeout
      completedExit := some result }.drainAfterExit

/-- What a task result makes of a call: the error, or `rest`. -/
def check (σ : PtySession) (answer : Option (Except Unit Unit)) (rest : PtySession) : PtySession :=
  match answer with
  | none => σ.ret (.error .taskPanicked)
  | some (.error ()) => σ.ret (.error .io)
  | some (.ok ()) => rest

/-- One action; what is not possible changes nothing. -/
def step (σ : PtySession) : PtyAction → PtySession
  | .write bytes =>
    if σ.pipeClosed then σ else { σ with pipe := σ.pipe ++ bytes, written := σ.written ++ bytes }
  | .closeOutput => { σ with pipeClosed := true }
  | .endInput answer => { σ with inputAnswer := σ.inputAnswer.or (some answer) }
  | .endOutput answer => { σ with outputAnswer := σ.outputAnswer.or (some answer) }
  | .supervise polls instant =>
    match superviseChild false false polls with
    | none => σ
    | some result =>
      { σ with exitAnswer := σ.exitAnswer.or (some (some (result.map (⟨·, instant⟩)))) }
  | .supervisorPanics => { σ with exitAnswer := σ.exitAnswer.or (some none) }
  | .next =>
    if σ.call = .idle then
      if σ.completedExit.isSome then σ.drainAfterExit else σ.loop
    else σ
  | .pollOutput length =>
    match σ.call with
    | .selecting => if σ.outputClosed then σ else σ.read length false
    | .draining => σ.read length true
    | _ => σ
  | .pollInputResult =>
    match σ.call, σ.inputResult, σ.inputAnswer with
    | .selecting, true, some answer =>
      let σ := { σ with inputResult := false }
      σ.check answer σ.loop
    | _, _, _ => σ
  | .pollExit =>
    match σ.call, σ.exitAnswer with
    | .selecting, some answer => σ.takeExit answer
    | _, _ => σ
  | .pollOutputResult =>
    match σ.call, σ.outputAnswer with
    | .checking afterExit, some answer => σ.check answer (σ.proceed afterExit)
    | _, _ => σ
  | .deadline =>
    match σ.call with
    | .draining => σ.ret (.error .outputDrainTimeout)
    | .checking true => σ.ret (.error .outputDrainTimeout)
    | _ => σ
  | .drop => { σ with call := .idle }

def run (actions : List PtyAction) : PtySession := actions.foldl step new

/-! ## The invariant -/

/-- The bytes of the output events. -/
def outputs (returned : List (Except TerminalError PtyEvent)) : Bytes := returned.flatMap fun
  | .ok (.output bytes) => bytes
  | _ => []

/-- The number of exits that were reported. -/
def exits (returned : List (Except TerminalError PtyEvent)) : Nat := returned.countP fun
  | .ok (.exited _) => true
  | _ => false

/-- What every action preserves; `reported` are the codes that the supervisor has given. -/
structure Sound (reported : Nat → Prop) (σ : PtySession) : Prop where
  delivered : outputs σ.returned ++ σ.pipe = σ.written
  drained : σ.outputClosed = true → σ.pipe = [] ∧ σ.pipeClosed = true
  selecting : σ.call = .selecting → σ.exit = true
  checking : ∀ afterExit, σ.call = .checking afterExit → σ.outputClosed = true
  once : exits σ.returned + σ.exit.toNat + σ.completedExit.toList.length ≤ 1
  answered : ∀ exit, σ.exitAnswer = some (some (.ok exit)) → reported exit.code
  completed : ∀ exit, σ.completedExit = some (.ok exit) → reported exit.code
  code : ∀ code, .ok (.exited code) ∈ σ.returned → reported code
  last : EachAfter (fun front result => ∀ code, result = .ok (.exited code) →
    σ.pipeClosed = true ∧ outputs front = σ.written) σ.returned

variable {reported : Nat → Prop} {σ : PtySession}

theorem sound_new : new.Sound reported where
  delivered := rfl
  drained := nofun
  selecting := nofun
  checking := nofun
  once := le_rfl
  answered := nofun
  completed := nofun
  code _ h := absurd h List.not_mem_nil
  last := eachAfter_nil

theorem outputs_snoc (returned : List (Except TerminalError PtyEvent))
    (result : Except TerminalError PtyEvent) :
    outputs (returned ++ [result]) = outputs returned ++ outputs [result] := List.flatMap_append

theorem exits_snoc (returned : List (Except TerminalError PtyEvent))
    (result : Except TerminalError PtyEvent) :
    exits (returned ++ [result]) = exits returned + exits [result] := List.countP_append

theorem Sound.ret_error (h : σ.Sound reported) (e : TerminalError) :
    (σ.ret (.error e)).Sound reported where
  delivered := by
    rw [ret, outputs_snoc]
    show outputs σ.returned ++ [] ++ σ.pipe = σ.written
    rw [List.append_nil, h.delivered]
  drained := h.drained
  selecting := nofun
  checking := nofun
  once := by
    rw [ret, exits_snoc]
    exact h.once
  answered := h.answered
  completed := h.completed
  code code hmem := by
    rcases List.mem_append.1 hmem with hmem | hmem
    · exact h.code code hmem
    · cases List.mem_singleton.1 hmem
  last := h.last.snoc nofun

theorem Sound.loop (h : σ.Sound reported) : σ.loop.Sound reported := by
  unfold PtySession.loop
  split
  case isTrue hexit =>
    exact ⟨h.delivered, h.drained, fun _ => hexit, nofun, h.once, h.answered, h.completed, h.code,
      h.last⟩
  case isFalse => exact h.ret_error _

theorem Sound.finish (h : σ.Sound reported) (hclosed : σ.outputClosed = true) :
    σ.finish.Sound reported := by
  unfold PtySession.finish
  cases hexit : σ.completedExit with
  | none => exact h.ret_error _
  | some exit =>
    have honce := h.once
    rw [hexit, Option.toList_some, List.length_singleton] at honce
    have hcleared : Sound reported { σ with completedExit := none } :=
      ⟨h.delivered, h.drained, h.selecting, h.checking,
        by simp only [Option.toList_none, List.length_nil]; omega, h.answered, nofun, h.code,
        h.last⟩
    cases exit with
    | error e => exact hcleared.ret_error e
    | ok exit =>
      obtain ⟨hpipe, hpipeClosed⟩ := h.drained hclosed
      have hall : outputs σ.returned = σ.written := by
        rw [← h.delivered, hpipe, List.append_nil]
      constructor
      case delivered =>
        show outputs (σ.returned ++ [_]) ++ σ.pipe = σ.written
        rw [outputs_snoc, hpipe, hall]
        exact (List.append_nil _).trans (List.append_nil _)
      case drained => exact h.drained
      case selecting => exact nofun
      case checking => exact nofun
      case once =>
        show exits (σ.returned ++ [_]) + σ.exit.toNat + 0 ≤ 1
        rw [exits_snoc]
        show exits σ.returned + 1 + σ.exit.toNat + 0 ≤ 1
        omega
      case answered => exact h.answered
      case completed => exact nofun
      case code =>
        intro code hmem
        rcases List.mem_append.1 hmem with hmem | hmem
        · exact h.code code hmem
        · cases List.mem_singleton.1 hmem
          exact h.completed exit hexit
      case last => exact h.last.snoc fun _ _ => ⟨hpipeClosed, hall⟩

theorem Sound.drainAfterExit (h : σ.Sound reported) : σ.drainAfterExit.Sound reported := by
  unfold PtySession.drainAfterExit
  split
  case isTrue hclosed => exact h.finish hclosed
  case isFalse =>
    split
    · exact h.ret_error _
    · exact ⟨h.delivered, h.drained, nofun, nofun, h.once, h.answered, h.completed, h.code, h.last⟩

theorem Sound.proceed (h : σ.Sound reported) (hclosed : σ.outputClosed = true) (afterExit : Bool) :
    (σ.proceed afterExit).Sound reported := by
  unfold PtySession.proceed
  split
  · exact h.finish hclosed
  · exact h.loop

theorem Sound.read (h : σ.Sound reported) (length : Nat) (afterExit : Bool) :
    (σ.read length afterExit).Sound reported := by
  unfold PtySession.read
  dsimp only
  split
  case isTrue hsome =>
    generalize min length ptyChunkCapacity = count at hsome
    constructor
    case delivered =>
      show outputs (σ.returned ++ [_]) ++ σ.pipe.drop count = σ.written
      rw [outputs_snoc, ← h.delivered, List.append_assoc]
      show _ ++ (σ.pipe.take count ++ [] ++ σ.pipe.drop count) = _
      rw [List.append_nil, List.take_append_drop]
    case drained =>
      intro hclosed
      rw [(h.drained hclosed).1, List.take_nil] at hsome
      exact absurd rfl hsome
    case selecting => exact nofun
    case checking => exact nofun
    case once =>
      rw [ret, exits_snoc]
      exact h.once
    case answered => exact h.answered
    case completed => exact h.completed
    case code =>
      intro code hmem
      rcases List.mem_append.1 hmem with hmem | hmem
      · exact h.code code hmem
      · cases List.mem_singleton.1 hmem
    case last => exact h.last.snoc nofun
  case isFalse =>
    split
    case isTrue hend =>
      have hended : Sound reported { σ with outputClosed := true } :=
        ⟨h.delivered, fun _ => hend, h.selecting, fun _ _ => rfl, h.once, h.answered, h.completed,
          h.code, h.last⟩
      split
      · exact ⟨hended.delivered, hended.drained, nofun, fun _ _ => rfl, hended.once,
          hended.answered, hended.completed, hended.code, hended.last⟩
      · exact hended.proceed rfl afterExit
    case isFalse => exact h

theorem Sound.takeExit (h : σ.Sound reported) (hcall : σ.call = .selecting)
    {answer : Option (Except TerminalError ChildExit)} (hanswer : σ.exitAnswer = some answer) :
    (σ.takeExit answer).Sound reported := by
  have honce := h.once
  rw [h.selecting hcall, Bool.toNat_true] at honce
  unfold PtySession.takeExit
  dsimp only
  split
  case h_1 =>
    refine Sound.ret_error (σ := { σ with exit := false, call := .idle }) ?_ _
    refine ⟨h.delivered, h.drained, nofun, nofun, ?_, h.answered, h.completed, h.code, h.last⟩
    simp only [Bool.toNat_false]
    omega
  case h_2 result =>
    apply Sound.drainAfterExit
    refine ⟨h.delivered, h.drained, nofun, nofun, ?_, h.answered, ?_, h.code, h.last⟩
    · simp only [Bool.toNat_false, Option.toList_some, List.length_singleton]
      omega
    · intro exit hresult
      exact h.answered exit (hanswer.trans (congrArg some hresult))

theorem Sound.check (h : σ.Sound reported) (answer : Option (Except Unit Unit)) {rest : PtySession}
    (hrest : rest.Sound reported) : (σ.check answer rest).Sound reported := by
  unfold PtySession.check
  split
  · exact h.ret_error _
  · exact h.ret_error _
  · exact hrest

/-- One action, whose exit code is a reported one. -/
theorem Sound.step (h : σ.Sound reported) (action : PtyAction)
    (hreported : ∀ polls instant code, action = .supervise polls instant →
      superviseChild false false polls = some (.ok code) → reported code) :
    (σ.step action).Sound reported := by
  cases action with
  | write bytes =>
    rw [PtySession.step]
    split
    case isTrue => exact h
    case isFalse hopen =>
      refine ⟨?_, ?_, h.selecting, h.checking, h.once, h.answered, h.completed, h.code, ?_⟩
      · show outputs σ.returned ++ (σ.pipe ++ bytes) = σ.written ++ bytes
        rw [← List.append_assoc, h.delivered]
      · exact fun hclosed => absurd (h.drained hclosed).2 hopen
      · intro front result back hreturned code hcode
        exact absurd (h.last front result back hreturned code hcode).1 hopen
  | closeOutput =>
    refine ⟨h.delivered, ?_, h.selecting, h.checking, h.once, h.answered, h.completed, h.code, ?_⟩
    · exact fun hclosed => ⟨(h.drained hclosed).1, rfl⟩
    · intro front result back hreturned code hcode
      exact ⟨rfl, (h.last front result back hreturned code hcode).2⟩
  | endInput answer =>
    exact ⟨h.delivered, h.drained, h.selecting, h.checking, h.once, h.answered, h.completed, h.code,
      h.last⟩
  | endOutput answer =>
    exact ⟨h.delivered, h.drained, h.selecting, h.checking, h.once, h.answered, h.completed, h.code,
      h.last⟩
  | supervise polls instant =>
    rw [PtySession.step]
    split
    case h_1 => exact h
    case h_2 result hresult =>
      refine ⟨h.delivered, h.drained, h.selecting, h.checking, h.once, ?_, h.completed, h.code,
        h.last⟩
      intro exit hexit
      rcases Option.or_eq_some_iff.1 hexit with hexit | ⟨-, hexit⟩
      · exact h.answered exit hexit
      · cases result with
        | error e => cases hexit
        | ok code =>
          cases hexit
          exact hreported polls instant code rfl hresult
  | supervisorPanics =>
    refine ⟨h.delivered, h.drained, h.selecting, h.checking, h.once, ?_, h.completed, h.code,
      h.last⟩
    intro exit hexit
    rcases Option.or_eq_some_iff.1 hexit with hexit | ⟨-, hexit⟩
    · exact h.answered exit hexit
    · cases hexit
  | next =>
    rw [PtySession.step]
    split
    · split
      · exact h.drainAfterExit
      · exact h.loop
    · exact h
  | pollOutput length =>
    rw [PtySession.step]
    split
    · split
      · exact h
      · exact h.read length false
    · exact h.read length true
    · exact h
  | pollInputResult =>
    unfold PtySession.step
    dsimp only
    split
    case h_1 hcall _ _ =>
      have htaken : Sound reported { σ with inputResult := false } :=
        ⟨h.delivered, h.drained, h.selecting, h.checking, h.once, h.answered, h.completed, h.code,
          h.last⟩
      exact htaken.check _ htaken.loop
    case h_2 => exact h
  | pollExit =>
    unfold PtySession.step
    dsimp only
    split
    case h_1 hcall hanswer => exact h.takeExit hcall hanswer
    case h_2 => exact h
  | pollOutputResult =>
    unfold PtySession.step
    dsimp only
    split
    case h_1 afterExit answer hcall _ =>
      exact h.check answer (h.proceed (h.checking _ hcall) afterExit)
    case h_2 => exact h
  | deadline =>
    rw [PtySession.step]
    split
    · exact h.ret_error _
    · exact h.ret_error _
    · exact h
  | drop =>
    exact ⟨h.delivered, h.drained, nofun, nofun, h.once, h.answered, h.completed, h.code, h.last⟩

theorem Sound.run (h : σ.Sound reported) {actions : List PtyAction}
    (hreported : ∀ polls instant code, .supervise polls instant ∈ actions →
      superviseChild false false polls = some (.ok code) → reported code) :
    (actions.foldl PtySession.step σ).Sound reported := by
  induction actions generalizing σ with
  | nil => exact h
  | cons action rest ih =>
    refine ih (h.step action fun polls instant code heq => ?_) fun polls instant code hmem => ?_
    · exact hreported polls instant code (heq ▸ List.mem_cons_self)
    · exact hreported polls instant code (List.mem_cons_of_mem _ hmem)

end PtySession

end Yonder.Host
