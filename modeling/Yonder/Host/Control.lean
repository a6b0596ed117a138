import Yonder.Lib.Machine
import Yonder.Wire.Terminal

/-!
# The control stream of a host terminal

While the shell runs, `copy_terminal_output_until_closing` reads resize frames with
`read_incremental_resize`, which keeps the bytes of an unfinished frame when another branch of the
select wins. When the shell has exited, `complete_terminal_exit_io_until_closing` reads on, first a
tag and then the rest of a resize frame, until `TerminalComplete`. The second reader does not get
the unfinished frame of the first.

The machine below has one action for everything that can happen to these loops: a read of the
control stream that returns some bytes, an event of the terminal, the end of the audit and I/O calls
behind an event, and the ways a run is broken off. `controlFraming_iff` says when the host decodes
the messages that were sent: exactly when the bytes read before the exit are whole frames.
-/

namespace Yonder.Host

open Lib Wire

/-- The errors of the control loops. A failed call of the audit, the terminal or a stream is one
case. -/
inductive ControlError where
  | protocol (error : ProtocolError)
  | io (text : String)
  | earlyEof
  | timeout
  | failed
deriving DecidableEq

/-- `TerminalOutputEnd`. -/
inductive TerminalOutputEnd where
  | exited (code : UInt32)
  | closing
deriving DecidableEq

/-- Where the host is in its loops. The readers hold the bytes of an unfinished message. -/
inductive ControlPhase where
  | copying (frame : Bytes)
  | resizing (size : TerminalSize)
  | sending (frame : Bytes)
  | exiting (code : UInt32)
  | completing (code : UInt32) (frame : Bytes)
  | confirming (code : UInt32)
  | ended (result : Except ControlError TerminalOutputEnd)

/-- The unread bytes of the control stream, the phase, and the messages decoded so far: the resizes
of the first loop, the resizes of the second and the completion. -/
structure ControlRun where
  unread : Bytes
  phase : ControlPhase
  copied : List TerminalSize
  drained : List TerminalSize
  completed : Bool

/-- How the audit and I/O calls behind an event end: they go through, they find the session closing
after the audit call, or one of them fails. -/
inductive Settled where
  | done
  | closing
  | failed
deriving DecidableEq

inductive ControlAction where
  /-- A read of the control stream returns this many bytes. -/
  | read (count : Nat)
  /-- A read of the control stream returns no byte. -/
  | eof
  /-- The terminal reports output. -/
  | output
  /-- The terminal reports the exit of the shell. -/
  | exited (code : UInt32)
  | settle (outcome : Settled)
  /-- The closing token is cancelled. -/
  | cancel
  /-- The deadline of the completion passes. -/
  | expire
deriving DecidableEq

namespace ControlRun

/-- `read_incremental_resize` after a read. -/
def fill (σ : ControlRun) (frame : Bytes) : ControlRun :=
  if frame.length < controlLen then { σ with phase := .copying frame }
  else
    match TerminalResize.decode frame with
    | .error e => { σ with phase := .ended (.error (.protocol e)) }
    | .ok size => { σ with phase := .resizing size, copied := σ.copied ++ [size] }

/-- How many bytes the second loop asks for: the tag alone, then the rest of a resize frame. -/
def drainRoom (frame : Bytes) : Nat := if frame.isEmpty then 1 else controlLen - frame.length

/-- The second loop after a read. -/
def drain (σ : ControlRun) (code : UInt32) (frame : Bytes) : ControlRun :=
  if frame = [terminalComplete] then { σ with phase := .confirming code, completed := true }
  else if frame.length < controlLen then { σ with phase := .completing code frame }
  else
    match TerminalResize.decode frame with
    | .error e => { σ with phase := .ended (.error (.protocol e)) }
    | .ok size => { σ with phase := .completing code [], drained := σ.drained ++ [size] }

/-- Takes bytes off the stream, when a read with this much room may return them. -/
def take (σ : ControlRun) (room count : Nat) : Option (ControlRun × Bytes) :=
  if 0 < count ∧ count ≤ room ∧ count ≤ σ.unread.length then
    some ({ σ with unread := σ.unread.drop count }, σ.unread.take count)
  else none

def finish (σ : ControlRun) (result : Except ControlError TerminalOutputEnd) : ControlRun :=
  { σ with phase := .ended result }

def step (σ : ControlRun) (a : ControlAction) : Option ControlRun :=
  match σ.phase, a with
  | .copying frame, .read count =>
    (σ.take (controlLen - frame.length) count).map fun (τ, bytes) => τ.fill (frame ++ bytes)
  | .copying _, .eof =>
    if σ.unread = [] then
      some (σ.finish (.error (.io "terminal resize ended before its fixed frame completed")))
    else none
  | .copying frame, .output => some { σ with phase := .sending frame }
  | .copying _, .exited code => some { σ with phase := .exiting code }
  | .copying _, .cancel => some (σ.finish (.ok .closing))
  | .resizing _, .settle .done => some { σ with phase := .copying [] }
  | .resizing _, .settle .closing => some (σ.finish (.ok .closing))
  | .resizing _, .settle .failed => some (σ.finish (.error .failed))
  | .sending frame, .settle .done => some { σ with phase := .copying frame }
  | .sending _, .settle .closing => some (σ.finish (.ok .closing))
  | .sending _, .settle .failed => some (σ.finish (.error .failed))
  | .exiting code, .settle .done => some { σ with phase := .completing code [] }
  | .exiting _, .settle .closing => some (σ.finish (.ok .closing))
  | .exiting _, .settle .failed => some (σ.finish (.error .failed))
  | .completing code frame, .read count =>
    (σ.take (drainRoom frame) count).map fun (τ, bytes) => τ.drain code (frame ++ bytes)
  | .completing code frame, .eof =>
    if σ.unread = [] then
      if frame.isEmpty then some (σ.finish (.ok (.exited code)))
      else some (σ.finish (.error .earlyEof))
    else none
  | .completing _ _, .expire => some (σ.finish (.error .timeout))
  | .confirming code, .settle .done => some (σ.finish (.ok (.exited code)))
  | .confirming code, .settle .closing => some (σ.finish (.ok (.exited code)))
  | .confirming _, .settle .failed => some (σ.finish (.error .failed))
  | .confirming _, .expire => some (σ.finish (.error .timeout))
  | _, _ => none

/-! ## What was sent and what was decoded -/

/-- The control stream of a controller that sends these sizes and then completes. -/
def start (sizes : List TerminalSize) : ControlRun :=
  ⟨sizes.flatMap TerminalResize.encode ++ [terminalComplete], .copying [], [], [], false⟩

/-- The host has decoded these sizes, in this order, and the completion. -/
def Decoded (σ : ControlRun) (sizes : List TerminalSize) : Prop :=
  σ.copied ++ σ.drained = sizes ∧ σ.completed = true

/-- No read can bring a further message. -/
def Finished (σ : ControlRun) : Prop :=
  σ.unread = [] ∨ ∃ result, σ.phase = .ended result

end ControlRun

/-- Nothing breaks the run off: no stream ends, no call fails, no deadline passes and the session is
not closed. -/
def ControlAction.Undisturbed : ControlAction → Prop
  | .read _ | .output | .exited _ | .settle .done => True
  | _ => False

/-- How many bytes of the control stream the actions read. -/
def bytesRead : List ControlAction → Nat
  | [] => 0
  | .read count :: actions => count + bytesRead actions
  | _ :: actions => bytesRead actions

namespace ControlRun

variable {sizes : List TerminalSize} {σ τ : ControlRun} {a : ControlAction}

theorem take_eq_some {room count : Nat} {bytes : Bytes} (h : σ.take room count = some (τ, bytes)) :
    0 < count ∧ count ≤ room ∧ bytes.length = count ∧ σ.unread = bytes ++ τ.unread ∧
      τ = { σ with unread := τ.unread } := by
  rw [take] at h
  split_ifs at h with hcount
  obtain ⟨rfl, rfl⟩ := Prod.mk.inj (Option.some.inj h)
  refine ⟨hcount.1, hcount.2.1, ?_, (List.take_append_drop count σ.unread).symm, rfl⟩
  rw [List.length_take]
  omega

/-! ## Before the exit -/

/-- The first loop: the sizes decoded, and what is left of the stream behind the unfinished
frame. -/
structure Copying (sizes : List TerminalSize) (count : Nat) (σ : ControlRun) (frame : Bytes) :
    Prop where
  short : frame.length < controlLen
  count_eq : count = controlLen * σ.copied.length + frame.length
  rest : ∃ later, sizes = σ.copied ++ later ∧
    frame ++ σ.unread = later.flatMap TerminalResize.encode ++ [terminalComplete]
  drained : σ.drained = []
  completed : σ.completed = false

variable {frame : Bytes} {actions : List ControlAction}

theorem Copying.setPhase {count : Nat} (h : Copying sizes count σ frame) (phase : ControlPhase) :
    Copying sizes count { σ with phase := phase } frame :=
  ⟨h.short, h.count_eq, h.rest, h.drained, h.completed⟩

/-- The states of an undisturbed run in which the shell has not exited. -/
def BeforeExit (sizes : List TerminalSize) (count : Nat) (σ : ControlRun) : Prop :=
  match σ.phase with
  | .copying frame => Copying sizes count σ frame
  | .sending frame => Copying sizes count σ frame
  | .resizing _ => Copying sizes count σ []
  | _ => False

/-- A whole frame at the front of the stream is the next size. -/
theorem frame_eq_encode {later : List TerminalSize} {rest : Bytes}
    (hlength : frame.length = controlLen)
    (heq : frame ++ rest = later.flatMap TerminalResize.encode ++ [terminalComplete]) :
    ∃ size more, later = size :: more ∧ frame = TerminalResize.encode size ∧
      rest = more.flatMap TerminalResize.encode ++ [terminalComplete] := by
  cases later with
  | nil =>
    have h := congrArg List.length heq
    simp only [List.length_append, hlength, List.flatMap_nil, List.nil_append, List.length_singleton,
      controlLen] at h
    omega
  | cons size more =>
    rw [List.flatMap_cons, List.append_assoc] at heq
    obtain ⟨hframe, hrest⟩ := List.append_inj heq
      (hlength.trans (TerminalResize.length_encode size).symm)
    exact ⟨size, more, rfl, hframe, hrest⟩

theorem beforeExit_fill {count n : Nat} {bytes : Bytes} (h : Copying sizes count σ frame)
    (htake : σ.take (controlLen - frame.length) n = some (τ, bytes)) :
    BeforeExit sizes (count + n) (τ.fill (frame ++ bytes)) := by
  obtain ⟨hpos, hroom, hbytes, hunread, hτ⟩ := take_eq_some htake
  obtain ⟨hshort, hcount, ⟨later, hsizes, hrest⟩, hdrained, hcompleted⟩ := h
  rw [hunread, ← List.append_assoc] at hrest
  have hlength : (frame ++ bytes).length = frame.length + n := by rw [List.length_append, hbytes]
  rw [fill]
  by_cases hfull : (frame ++ bytes).length < controlLen
  · rw [if_pos hfull, hτ]
    refine ⟨hfull, ?_, ⟨later, hsizes, hrest⟩, hdrained, hcompleted⟩
    show count + n = controlLen * σ.copied.length + (frame ++ bytes).length
    omega
  · have hwhole : (frame ++ bytes).length = controlLen := by omega
    obtain ⟨size, more, rfl, hframe, hmore⟩ := frame_eq_encode hwhole hrest
    rw [if_neg hfull, hframe, TerminalResize.decode_encode, hτ]
    refine ⟨by decide, ?_, ⟨more, ?_, hmore⟩, hdrained, hcompleted⟩
    · rw [List.length_append, List.length_singleton, Nat.mul_add, hcount]
      simp only [List.length_nil]
      omega
    · rw [hsizes, List.append_assoc]
      rfl

theorem beforeExit_step {count : Nat} (h : BeforeExit sizes count σ) (ha : a.Undisturbed)
    (hexit : ∀ code, a ≠ .exited code) (hstep : σ.step a = some τ) :
    BeforeExit sizes (count + bytesRead [a]) τ := by
  obtain ⟨unread, phase, copied, drained, completed⟩ := σ
  cases phase with
  | copying frame =>
    cases a with
    | read n =>
      obtain ⟨⟨υ, bytes⟩, htake, rfl⟩ := Option.map_eq_some_iff.1 hstep
      exact beforeExit_fill h htake
    | output =>
      cases hstep
      exact Copying.setPhase h _
    | exited code => exact absurd rfl (hexit code)
    | _ => exact absurd ha (by first | exact id | (cases hstep))
  | resizing size =>
    cases a with
    | settle outcome =>
      cases outcome with
      | done =>
        cases hstep
        exact Copying.setPhase h _
      | _ => exact absurd ha id
    | _ => cases hstep
  | sending frame =>
    cases a with
    | settle outcome =>
      cases outcome with
      | done =>
        cases hstep
        exact Copying.setPhase h _
      | _ => exact absurd ha id
    | _ => cases hstep
  | _ => exact absurd h id

/-- The actions before the exit leave an unfinished frame of the bytes that are not whole frames. -/
theorem beforeExit_run : ∀ {σ : ControlRun} {count : Nat},
    BeforeExit sizes count σ → (∀ a ∈ actions, a.Undisturbed ∧ ∀ code, a ≠ .exited code) →
    Machine.run step σ actions = some τ → BeforeExit sizes (count + bytesRead actions) τ := by
  induction actions with
  | nil =>
    intro σ count h _ hrun
    cases hrun
    exact h
  | cons a actions ih =>
    intro σ count h ha hrun
    obtain ⟨next, hstep, hrest⟩ := Machine.run_cons.1 hrun
    obtain ⟨hundisturbed, hexit⟩ := ha a List.mem_cons_self
    have hnext := ih (beforeExit_step h hundisturbed hexit hstep)
      (fun b hb => ha b (List.mem_cons_of_mem _ hb)) hrest
    have hcount : count + bytesRead (a :: actions) =
        count + bytesRead [a] + bytesRead actions := by
      cases a <;> simp only [bytesRead] <;> omega
    rwa [hcount]

theorem beforeExit_start (sizes : List TerminalSize) : BeforeExit sizes 0 (start sizes) :=
  ⟨by decide, rfl, ⟨sizes, rfl, rfl⟩, rfl, rfl⟩

/-! ## After the exit -/

/-- The second loop, when it started at the beginning of a message. -/
structure Draining (sizes : List TerminalSize) (σ : ControlRun) (frame : Bytes) : Prop where
  short : frame.length < controlLen
  tag : ∀ b ∈ frame.head?, b ≠ terminalComplete
  rest : ∃ later, sizes = σ.copied ++ σ.drained ++ later ∧
    frame ++ σ.unread = later.flatMap TerminalResize.encode ++ [terminalComplete]
  completed : σ.completed = false

/-- The states of an undisturbed run after an exit between two messages. -/
def AfterExit (sizes : List TerminalSize) (σ : ControlRun) : Prop :=
  match σ.phase with
  | .exiting _ => Draining sizes σ []
  | .completing _ frame => Draining sizes σ frame
  | .confirming _ | .ended (.ok (.exited _)) => σ.Decoded sizes
  | _ => False

theorem afterExit_drain {n : Nat} {code : UInt32} {bytes : Bytes} (h : Draining sizes σ frame)
    (htake : σ.take (drainRoom frame) n = some (τ, bytes)) :
    AfterExit sizes (τ.drain code (frame ++ bytes)) := by
  obtain ⟨hpos, hroom, hbytes, hunread, hτ⟩ := take_eq_some htake
  obtain ⟨hshort, htag, ⟨later, hsizes, hrest⟩, hcompleted⟩ := h
  rw [hunread, ← List.append_assoc] at hrest
  have hlength : (frame ++ bytes).length = frame.length + n := by rw [List.length_append, hbytes]
  have hroom' : frame.length + n ≤ controlLen := by
    cases frame with
    | nil => exact Nat.le_trans (Nat.add_le_add_left hroom _) (by decide)
    | cons b frame =>
      have hle : n ≤ controlLen - (b :: frame).length := hroom
      omega
  rw [drain]
  by_cases hcomplete : frame ++ bytes = [terminalComplete]
  · -- the tag of the completion stands behind all resizes
    rw [if_pos hcomplete, hτ]
    rw [hcomplete] at hrest
    cases later with
    | nil =>
      refine ⟨?_, rfl⟩
      rw [hsizes, List.append_nil]
    | cons size more => cases hrest
  · rw [if_neg hcomplete]
    by_cases hfull : (frame ++ bytes).length < controlLen
    · rw [if_pos hfull, hτ]
      refine ⟨hfull, ?_, ⟨later, hsizes, hrest⟩, hcompleted⟩
      intro b hb
      cases frame with
      | cons first frame => exact htag b hb
      | nil =>
        -- the tag is read alone
        have hone : bytes.length = 1 := hbytes.trans (Nat.le_antisymm hroom hpos)
        obtain ⟨only, rfl⟩ := List.length_eq_one_iff.1 hone
        cases hb
        rintro rfl
        exact hcomplete rfl
    · have hwhole : (frame ++ bytes).length = controlLen := by omega
      obtain ⟨size, more, rfl, hframe, hmore⟩ := frame_eq_encode hwhole hrest
      rw [if_neg hfull, hframe, TerminalResize.decode_encode, hτ]
      refine ⟨by decide, fun b hb => (by cases hb), ⟨more, ?_, hmore⟩, hcompleted⟩
      show sizes = σ.copied ++ (σ.drained ++ [size]) ++ more
      rw [hsizes]
      simp

theorem Draining.setPhase (h : Draining sizes σ frame) (phase : ControlPhase) :
    Draining sizes { σ with phase := phase } frame :=
  ⟨h.short, h.tag, h.rest, h.completed⟩

theorem afterExit_step (h : AfterExit sizes σ) (ha : a.Undisturbed) (hstep : σ.step a = some τ) :
    AfterExit sizes τ := by
  obtain ⟨unread, phase, copied, drained, completed⟩ := σ
  cases phase with
  | exiting code =>
    cases a with
    | settle outcome =>
      cases outcome with
      | done =>
        cases hstep
        exact Draining.setPhase h _
      | _ => exact absurd ha id
    | _ => cases hstep
  | completing code frame =>
    cases a with
    | read n =>
      obtain ⟨⟨υ, bytes⟩, htake, rfl⟩ := Option.map_eq_some_iff.1 hstep
      exact afterExit_drain h htake
    | eof => exact absurd ha id
    | expire => exact absurd ha id
    | _ => cases hstep
  | confirming code =>
    cases a with
    | settle outcome =>
      cases outcome with
      | done =>
        cases hstep
        exact h
      | _ => exact absurd ha id
    | expire => exact absurd ha id
    | _ => cases hstep
  | ended result => cases a <;> cases hstep
  | _ => exact absurd h id

/-- All messages have been decoded once the stream is read to its end or the run has ended. -/
theorem AfterExit.decoded (h : AfterExit sizes σ) (hfinished : σ.Finished) :
    σ.Decoded sizes ∧ ∀ e, σ.phase ≠ .ended (.error e) := by
  have hdraining : ∀ frame, Draining sizes σ frame → σ.unread ≠ [] := by
    rintro frame ⟨hshort, htag, ⟨later, -, hrest⟩, -⟩ hempty
    rw [hempty, List.append_nil] at hrest
    cases later with
    | nil =>
      rw [hrest] at htag
      exact htag _ rfl rfl
    | cons size more =>
      have hlength := congrArg List.length hrest
      rw [List.flatMap_cons, List.append_assoc, List.length_append,
        TerminalResize.length_encode] at hlength
      omega
  rw [AfterExit] at h
  split at h
  · rename_i code hphase
    rcases hfinished with hempty | ⟨result, hended⟩
    · exact absurd hempty (hdraining _ h)
    · cases hphase.symm.trans hended
  · rename_i code frame hphase
    rcases hfinished with hempty | ⟨result, hended⟩
    · exact absurd hempty (hdraining _ h)
    · cases hphase.symm.trans hended
  · rename_i code hphase
    exact ⟨h, fun e he => by cases hphase.symm.trans he⟩
  · rename_i code hphase
    exact ⟨h, fun e he => by cases hphase.symm.trans he⟩
  · exact absurd h id

/-! ## Bytes that are accounted for -/

/-- The bytes of an unfinished message. -/
def pending : ControlPhase → Nat
  | .copying frame | .sending frame | .completing _ frame => frame.length
  | _ => 0

/-- The bytes that are unread, belong to an unfinished message or to a decoded one. -/
def accounted (σ : ControlRun) : Nat :=
  σ.unread.length + pending σ.phase + controlLen * (σ.copied.length + σ.drained.length) +
    σ.completed.toNat

theorem accounted_start (sizes : List TerminalSize) :
    (start sizes).accounted = controlLen * sizes.length + 1 := by
  have hlength : (sizes.flatMap TerminalResize.encode).length = controlLen * sizes.length := by
    induction sizes with
    | nil => rfl
    | cons size sizes ih =>
      rw [List.flatMap_cons, List.length_append, TerminalResize.length_encode, ih, List.length_cons,
        Nat.mul_add]
      omega
  simp [accounted, start, pending, hlength]

/-- What a reader does with the bytes it holds invents none. -/
theorem accounted_fill (σ : ControlRun) (frame : Bytes) : (σ.fill frame).accounted ≤
    ({ σ with phase := .copying frame } : ControlRun).accounted := by
  rw [fill]
  split_ifs with hshort
  · exact le_rfl
  · split
    · simp only [accounted, pending]
      omega
    · simp only [accounted, pending, List.length_append, List.length_singleton, Nat.mul_add]
      omega

theorem accounted_drain (σ : ControlRun) (code : UInt32) (frame : Bytes) :
    (σ.drain code frame).accounted ≤
      ({ σ with phase := .copying frame } : ControlRun).accounted := by
  rw [drain]
  split_ifs with hcomplete hshort
  · rw [hcomplete]
    simp only [accounted, pending, List.length_singleton, Bool.toNat_true]
    omega
  · exact le_rfl
  · split
    · simp only [accounted, pending]
      omega
    · simp only [accounted, pending, List.length_append, List.length_singleton, List.length_nil,
        Nat.mul_add]
      omega

theorem accounted_take {room count : Nat} {bytes : Bytes}
    (htake : σ.take room count = some (τ, bytes)) :
    ({ τ with phase := .copying (frame ++ bytes) } : ControlRun).accounted =
      ({ σ with phase := .copying frame } : ControlRun).accounted := by
  obtain ⟨-, -, -, hunread, hτ⟩ := take_eq_some htake
  rw [hτ]
  simp only [accounted, pending, hunread, List.length_append]
  omega

theorem accounted_step (hstep : σ.step a = some τ) : τ.accounted ≤ σ.accounted := by
  obtain ⟨unread, phase, copied, drained, completed⟩ := σ
  cases phase with
  | copying frame =>
    cases a with
    | read n =>
      obtain ⟨⟨υ, bytes⟩, htake, rfl⟩ := Option.map_eq_some_iff.1 hstep
      exact (accounted_fill υ _).trans (accounted_take htake).le
    | eof =>
      simp only [step] at hstep
      split_ifs at hstep
      cases hstep
      simp only [accounted, pending, finish]
      omega
    | settle outcome => cases hstep
    | expire => cases hstep
    | _ =>
      cases hstep
      simp only [accounted, pending, finish]
      omega
  | completing code frame =>
    cases a with
    | read n =>
      obtain ⟨⟨υ, bytes⟩, htake, rfl⟩ := Option.map_eq_some_iff.1 hstep
      exact (accounted_drain υ code _).trans (accounted_take htake).le
    | eof =>
      simp only [step] at hstep
      split_ifs at hstep
      all_goals
        cases hstep
        simp only [accounted, pending, finish]
        omega
    | expire =>
      cases hstep
      simp only [accounted, pending, finish]
      omega
    | _ => cases hstep
  | ended result => cases a <;> cases hstep
  | _ =>
    cases a with
    | settle outcome =>
      cases outcome <;> cases hstep <;> simp [accounted, pending, finish]
    | expire =>
      cases hstep <;> simp [accounted, pending, finish]
    | _ => cases hstep

theorem accounted_run (hrun : Machine.run step σ actions = some τ) : τ.accounted ≤ σ.accounted := by
  have hkeep : ∀ υ a υ', υ.accounted ≤ σ.accounted → step υ a = some υ' →
      υ'.accounted ≤ σ.accounted := fun _ _ _ h hstep => (accounted_step hstep).trans h
  exact Machine.run_invariant hkeep le_rfl hrun

/-! ## When the messages are decoded -/

theorem afterExit_run : ∀ {σ : ControlRun}, AfterExit sizes σ →
    (∀ a ∈ actions, a.Undisturbed) → Machine.run step σ actions = some τ → AfterExit sizes τ := by
  induction actions with
  | nil =>
    intro σ h _ hrun
    cases hrun
    exact h
  | cons a actions ih =>
    intro σ h ha hrun
    obtain ⟨next, hstep, hrest⟩ := Machine.run_cons.1 hrun
    exact ih (afterExit_step h (ha a List.mem_cons_self) hstep)
      (fun b hb => ha b (List.mem_cons_of_mem _ hb)) hrest

/-- The exit is taken up by the first loop, which forgets its unfinished frame. -/
theorem step_exited {code : UInt32} (hstep : σ.step (.exited code) = some τ) :
    ∃ frame, σ.phase = .copying frame ∧ τ = { σ with phase := .exiting code } := by
  obtain ⟨unread, phase, copied, drained, completed⟩ := σ
  cases phase with
  | copying frame =>
    cases hstep
    exact ⟨frame, rfl, rfl⟩
  | _ => cases hstep

/-- Decoded messages account for all bytes that were sent. -/
theorem Decoded.accounted_ge (h : σ.Decoded sizes) :
    controlLen * sizes.length + 1 ≤ σ.accounted := by
  obtain ⟨hsizes, hcompleted⟩ := h
  have hlength := congrArg List.length hsizes
  rw [List.length_append] at hlength
  rw [accounted, hlength, hcompleted, Bool.toNat_true]
  omega

/-- The host decodes the messages that were sent exactly when the bytes it has read before the exit
are whole frames. -/
theorem controlFraming_iff (sizes : List TerminalSize) (before after : List ControlAction)
    (code : UInt32) (σ : ControlRun)
    (hbefore : ∀ a ∈ before, a.Undisturbed ∧ ∀ code, a ≠ .exited code)
    (hafter : ∀ a ∈ after, a.Undisturbed)
    (hrun : Machine.run step (start sizes) (before ++ .exited code :: after) = some σ)
    (hfinished : σ.Finished) :
    (σ.Decoded sizes ∧ ∀ e, σ.phase ≠ .ended (.error e)) ↔ controlLen ∣ bytesRead before := by
  obtain ⟨mid, hmid, hrest⟩ := Machine.run_append.1 hrun
  obtain ⟨next, hexit, hlast⟩ := Machine.run_cons.1 hrest
  obtain ⟨frame, hphase, rfl⟩ := step_exited hexit
  have hcopying : Copying sizes (bytesRead before) mid frame := by
    have h := beforeExit_run (beforeExit_start sizes) hbefore hmid
    rw [Nat.zero_add, BeforeExit, hphase] at h
    exact h
  have hwhole : controlLen ∣ bytesRead before ↔ frame = [] := by
    rw [hcopying.count_eq, Nat.dvd_add_right (Nat.dvd_mul_right _ _), ← List.length_eq_zero_iff]
    exact ⟨fun h => Nat.eq_zero_of_dvd_of_lt h hcopying.short, fun h => h ▸ Nat.dvd_zero _⟩
  rw [hwhole]
  constructor
  · rintro ⟨hdecoded, -⟩
    -- the bytes of the frame are lost at the exit, and none comes back
    have hlost : ({ mid with phase := .exiting code } : ControlRun).accounted + frame.length =
        mid.accounted := by
      simp only [accounted, pending, hphase]
      omega
    have hbound := (accounted_start sizes) ▸ accounted_run hmid
    have hend := accounted_run hlast
    have hall := hdecoded.accounted_ge
    exact List.length_eq_zero_iff.1 (by omega)
  · rintro rfl
    obtain ⟨later, hsizes, hunread⟩ := hcopying.rest
    have hstart : AfterExit sizes { mid with phase := .exiting code } := by
      refine ⟨by decide, fun b hb => (by cases hb), ⟨later, ?_, hunread⟩, hcopying.completed⟩
      rw [hcopying.drained, List.append_nil]
      exact hsizes
    exact (afterExit_run hstart hafter hlast).decoded hfinished

/-! ## A run to the end -/

/-- What an undisturbed run after the exit still has before it. -/
def remaining (σ : ControlRun) : Nat :=
  2 * σ.unread.length + match σ.phase with
    | .exiting _ | .confirming _ => 1
    | _ => 0

theorem remaining_drain_le (σ : ControlRun) (code : UInt32) (frame : Bytes) :
    (σ.drain code frame).remaining ≤ 2 * σ.unread.length + 1 := by
  rw [drain]
  split_ifs
  · exact le_rfl
  · exact Nat.le_succ _
  · split <;> exact Nat.le_succ _

/-- After an exit between two messages, an undisturbed run that is not finished goes on. -/
theorem afterExit_progress (h : AfterExit sizes σ) (hopen : ¬ σ.Finished) :
    ∃ a τ, a.Undisturbed ∧ σ.step a = some τ ∧ τ.remaining < σ.remaining := by
  obtain ⟨unread, phase, copied, drained, completed⟩ := σ
  have hunread : unread ≠ [] := fun hempty => hopen (.inl hempty)
  cases phase with
  | exiting code => exact ⟨.settle .done, _, trivial, rfl, Nat.lt_succ_self _⟩
  | completing code frame =>
    have hroom : 0 < drainRoom frame := by
      have hshort : frame.length < controlLen := h.short
      rw [drainRoom]
      split_ifs <;> omega
    have hsome := List.length_pos_of_ne_nil hunread
    have hstep : step ⟨unread, .completing code frame, copied, drained, completed⟩ (.read 1) =
        some (drain ⟨unread.drop 1, .completing code frame, copied, drained, completed⟩ code
          (frame ++ unread.take 1)) :=
      Option.map_eq_some_iff.2 ⟨_, if_pos ⟨Nat.one_pos, hroom, hsome⟩, rfl⟩
    refine ⟨.read 1, _, trivial, hstep, lt_of_le_of_lt (remaining_drain_le _ code _) ?_⟩
    simp only [remaining, List.length_drop]
    omega
  | confirming code => exact ⟨.settle .done, _, trivial, rfl, Nat.lt_succ_self _⟩
  | ended result => exact absurd (.inr ⟨result, rfl⟩) hopen
  | _ => exact absurd h id

/-- After an exit between two messages, the host can always come to its end, with all decoded. -/
theorem exists_finished (h : AfterExit sizes σ) : ∃ actions τ, (∀ a ∈ actions, a.Undisturbed) ∧
    Machine.run step σ actions = some τ ∧ τ.Finished ∧ τ.Decoded sizes := by
  induction hn : σ.remaining using Nat.strong_induction_on generalizing σ with
  | _ n ih =>
    by_cases hfinished : σ.Finished
    case pos => exact ⟨[], σ, by simp, rfl, hfinished, (h.decoded hfinished).1⟩
    case neg =>
      obtain ⟨a, next, ha, hstep, hless⟩ := afterExit_progress h hfinished
      obtain ⟨actions, τ, hactions, hrun, hτ⟩ :=
        ih next.remaining (hn ▸ hless) (afterExit_step h ha hstep) rfl
      refine ⟨a :: actions, τ, ?_, Machine.run_cons.2 ⟨next, hstep, hrun⟩, hτ⟩
      exact List.forall_mem_cons.2 ⟨ha, hactions⟩

/-! ## A resize that is cut by the exit -/

/-- A size of 80 columns and 24 rows. -/
def plainSize : TerminalSize := ⟨80, 24, by decide, by decide⟩

/-- An exit before the resize is read. -/
theorem exists_finished_unread : ∃ actions τ, (∀ a ∈ actions, a.Undisturbed) ∧
    Machine.run step { start [plainSize] with phase := .exiting 0 } actions = some τ ∧ τ.Finished ∧
    τ.Decoded [plainSize] :=
  exists_finished ⟨by decide, by simp, ⟨[plainSize], rfl, rfl⟩, rfl⟩

/-- A resize that was read before the exit, and the completion behind it. -/
theorem controlFraming_whole : ∃ σ, Machine.run step (start [plainSize])
      ([.read 2, .output, .settle .done, .read 3, .settle .done] ++
        .exited 0 :: [.settle .done, .read 1, .settle .done]) = some σ ∧
    σ.Decoded [plainSize] ∧ ∀ e, σ.phase ≠ .ended (.error e) := by
  refine ⟨_, rfl, (controlFraming_iff [plainSize]
    [.read 2, .output, .settle .done, .read 3, .settle .done] [.settle .done, .read 1, .settle .done] 0
    _ ?_ ?_ rfl (.inl rfl)).2 (by decide)⟩
  · intro a ha
    fin_cases ha <;> exact ⟨trivial, fun _ h => by cases h⟩
  · intro a ha
    fin_cases ha <;> trivial

/-- The shell exits when three bytes of a resize frame have arrived: the second reader takes the
middle of the frame for a tag, and the run ends with a protocol error. -/
theorem exit_cuts_resize : ∃ σ, Machine.run step (start [plainSize, plainSize])
      ([.read 3] ++ .exited 0 :: [.settle .done, .read 1, .read 4]) = some σ ∧
    σ.phase = .ended (.error (.protocol (.unknownTag 0))) ∧
    ¬ σ.Decoded [plainSize, plainSize] := by
  refine ⟨_, rfl, rfl, ?_⟩
  rintro ⟨-, hcompleted⟩
  cases hcompleted

end ControlRun

end Yonder.Host
