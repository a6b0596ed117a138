import Yonder.Controller.PromptFlow

/-!
# The chunk of the selector

A path prompt opens behind `Ctrl+] u` or `Ctrl+] d`. The bytes that follow the selector in its chunk are
handed on as the remainder of the chunk, and the first feed of the prompt takes the remainder it is given.
But the prompt is created when the selector's chunk is handled, after the feed of that chunk; the first
chunk it is fed is the next one, which has no remainder. So the line is what the editor makes of the chunks
behind the selector's (`prompt_behind_selector`).
-/

namespace Yonder.Controller

open Lib

/-- The bytes of a path that leave the field open as long as they fit: no `Ctrl+]`, no `Ctrl+C` and no
line end. -/
def PathByte (byte : UInt8) : Prop :=
  byte ≠ localEscape ∧ byteKind byte ≠ .cancel ∧ byteKind byte ≠ .submit

/-! ## Feeding such bytes -/

namespace PathPrompt

theorem step_pathByte {p q : PathPrompt} {byte : UInt8} {result : PromptResult} (h : PathByte byte)
    (hstep : p.step byte = (q, .terminal result)) : result = .reprompt := by
  unfold step at hstep
  cases hkind : byteKind byte with
  | cancel => exact absurd hkind h.2.1
  | submit => exact absurd hkind h.2.2
  | backspace => simp [hkind] at hstep
  | printable =>
    simp only [hkind, appendAscii, reprompt] at hstep
    split_ifs at hstep
    · cases hstep
      rfl
    · cases hstep
  | continuation =>
    simp only [hkind, continueSequence, reprompt] at hstep
    split_ifs at hstep
    · cases hstep
    · cases hstep
    · split at hstep <;> cases hstep
      rfl
    · split at hstep <;> cases hstep
  | lead =>
    simp only [hkind, startSequence] at hstep
    split_ifs at hstep <;> cases hstep
  | other => simp [hkind] at hstep

/-- Path bytes go on with the field, or empty it to be typed again. -/
theorem feedImpl_pathBytes {bytes : Bytes} (h : ∀ byte ∈ bytes, PathByte byte) (bell : Bool)
    (p : PathPrompt) : (feedImpl bell p bytes).2 = .reprompt ∨
      (feedImpl bell p bytes).2.isTerminal = false := by
  induction bytes generalizing bell p with
  | nil => cases bell <;> exact .inr rfl
  | cons byte bytes ih =>
    have hrest := fun b hb => h b (List.mem_cons_of_mem byte hb)
    rw [feedImpl]
    rcases hstep : p.step byte with ⟨q, outcome⟩
    cases outcome with
    | terminal result => exact .inl (step_pathByte (h byte List.mem_cons_self) hstep)
    | bell => exact ih hrest true q
    | «continue» => exact ih hrest bell q

/-- Pieces that leave the field open add up. -/
theorem feedOn_of_feedAll {p q : PathPrompt} {chunks : List Bytes} (h : p.feedAll chunks = some q) :
    p.feedOn chunks = q ∧ (p.feed chunks.flatten).1 = q := by
  constructor
  · induction chunks generalizing p with
    | nil => exact Option.some.inj h
    | cons chunk chunks ih =>
      rw [feedAll] at h
      split_ifs at h
      exact ih h
  · rw [feedAll_eq_run, ← feedImpl_run false] at h
    split_ifs at h
    exact Option.some.inj h

end PathPrompt

namespace PathPromptFlow

/-- A chunk of path bytes in the first field. -/
theorem feed_pathBytes {f : PathPromptFlow} (hfield : f.field = 0) {chunk : Bytes}
    (h : ∀ byte ∈ chunk, PathByte byte) :
    ∃ f' progress, f.feed { pathBytes := chunk } = some (f', progress) ∧ progress.isFinal = false ∧
      f'.field = 0 ∧ f'.prompt = (f.prompt.feed chunk).1 := by
  have hinitial : ∃ g, f.feedInitial [] = (g, .continue) ∧ g.field = 0 ∧ g.prompt = f.prompt := by
    rw [feedInitial]
    split_ifs
    · exact ⟨_, rfl, hfield, rfl⟩
    · exact ⟨f, rfl, hfield, rfl⟩
  obtain ⟨g, hg, hgfield, hgprompt⟩ := hinitial
  rw [feed, hg]
  dsimp only
  rw [hgprompt]
  split_ifs with hne
  · rcases PathPrompt.feedImpl_pathBytes h false f.prompt with hreprompt | hopen
    · rw [PathPrompt.feed, hreprompt]
      exact ⟨_, _, rfl, rfl, hgfield, rfl⟩
    · rw [← PathPrompt.feed] at hopen
      generalize hfeed : f.prompt.feed chunk = after at hopen
      obtain ⟨p, result⟩ := after
      cases result with
      | bell => exact ⟨_, _, rfl, rfl, hgfield, rfl⟩
      | «continue» => exact ⟨_, _, rfl, rfl, hgfield, rfl⟩
      | submitted path => cases hopen
      | empty => cases hopen
      | cancelled => cases hopen
      | reprompt => cases hopen
  · have hempty : chunk = [] := by simpa [PromptResult.isTerminal] using hne
    rw [hempty]
    exact ⟨g, _, rfl, rfl, hgfield, hgprompt⟩

end PathPromptFlow

variable {w : Bytes}

/-! ## Chunks in the pump -/

/-- The local control and the open prompt of the pump. -/
structure PromptInput where
  control : LocalControlInput
  flow : Option PathPromptFlow
  deriving DecidableEq

namespace PromptInput

def start : PromptInput := ⟨.new true false, none⟩

/-- The open prompt is fed; its end leads to the transfer or back to pass-through. -/
def feedFlow (s : PromptInput) (processed : ProcessedInput) : Option PromptInput :=
  match s.flow with
  | none => some s
  | some f =>
    (f.feed processed).bind fun
      | (_, .completed _ _) => s.control.enterTransfer.map fun control => ⟨control, none⟩
      | (_, .cancelled) => some ⟨s.control.leaveModal.1, none⟩
      | (f, _) => some { s with flow := some f }

/-- One chunk is read, processed and handled: first the open prompt is fed, then the action is applied.
The modal opens when it is asked for; a detach ends the session. -/
def handleChunk (s : PromptInput) (chunk : Bytes) : Option PromptInput := do
  let (control, processed) := s.control.process chunk
  let s ← feedFlow { s with control := control } processed
  match processed.action with
  | .detach => none
  | .cancelOp => some (if s.flow.isSome then ⟨s.control.leaveModal.1, none⟩ else s)
  | .startUpload | .startDownload => some { s with flow := some .new }
  | _ => some s

/-- In the first field of a prompt. -/
structure Prompting (s : PromptInput) (p : PathPrompt) : Prop where
  enabled : s.control.enabled = true
  running : s.control.ended = false
  whole : s.control.pendingPrefix = false
  modal : s.control.modal = some .uploadPrompt ∨ s.control.modal = some .downloadPrompt
  flow : ∃ f, s.flow = some f ∧ f.field = 0 ∧ f.prompt = p

theorem processModal_pathBytes {c : LocalControlInput} {phase : ModalPhase}
    (hphase : phase = .uploadPrompt ∨ phase = .downloadPrompt) (hwhole : c.pendingPrefix = false)
    {chunk : Bytes} (h : ∀ byte ∈ chunk, PathByte byte) (result : ProcessedInput) :
    c.processModal phase result chunk =
      (c, { result with pathBytes := result.pathBytes ++ chunk }) := by
  induction chunk generalizing result with
  | nil => rw [LocalControlInput.processModal, List.append_nil]
  | cons byte rest ih =>
    obtain ⟨hescape, hcancel, -⟩ := h byte List.mem_cons_self
    have hnot : byte ≠ cancelByte := by
      rintro rfl
      exact hcancel rfl
    have hrest := ih fun b hb => h b (List.mem_cons_of_mem byte hb)
    rcases hphase with rfl | rfl <;>
    · rw [LocalControlInput.processModal, if_neg (by rw [hwhole]; exact Bool.false_ne_true),
        if_neg hescape, if_neg hnot, hrest, List.append_assoc]
      rfl

variable {s : PromptInput} {chunks : List Bytes} {byte : UInt8}

theorem Prompting.handleChunk {p : PathPrompt} (hs : Prompting s p) {chunk : Bytes}
    (h : ∀ byte ∈ chunk, PathByte byte) :
    ∃ s', handleChunk s chunk = some s' ∧ Prompting s' (p.feed chunk).1 := by
  obtain ⟨f, hflow, hfield, rfl⟩ := hs.flow
  have hprocess : s.control.process chunk = (s.control, { pathBytes := chunk }) := by
    rcases hs.modal with hmodal | hmodal
    · rw [LocalControlInput.process, if_neg (by simp [hs.running]), if_neg (by simp [hs.enabled]), hmodal]
      exact processModal_pathBytes (.inl rfl) hs.whole h {}
    · rw [LocalControlInput.process, if_neg (by simp [hs.running]), if_neg (by simp [hs.enabled]), hmodal]
      exact processModal_pathBytes (.inr rfl) hs.whole h {}
  obtain ⟨f', progress, hfeed, hfinal, hfield', hprompt⟩ := PathPromptFlow.feed_pathBytes hfield h
  have hfeedFlow : feedFlow s { pathBytes := chunk } = some { s with flow := some f' } := by
    rw [feedFlow, hflow]
    dsimp only
    rw [hfeed]
    cases progress with
    | completed first second => cases hfinal
    | cancelled => cases hfinal
    | active bell => rfl
    | reprompt => rfl
    | nextField => rfl
  refine ⟨{ s with flow := some f' }, ?_, hs.enabled, hs.running, hs.whole, hs.modal, f', rfl, hfield',
    hprompt⟩
  rw [PromptInput.handleChunk, hprocess]
  change (feedFlow s { pathBytes := chunk }).bind _ = _
  rw [hfeedFlow]
  rfl

/-- The chunks behind the selector's. -/
theorem Prompting.run {p : PathPrompt} (hs : Prompting s p)
    (h : ∀ byte ∈ chunks.flatten, PathByte byte) :
    ∃ s', Machine.run PromptInput.handleChunk s chunks = some s' ∧ Prompting s' (p.feedOn chunks) := by
  induction chunks generalizing s p with
  | nil => exact ⟨s, rfl, hs⟩
  | cons chunk chunks ih =>
    rw [List.flatten_cons] at h
    obtain ⟨next, hnext, hprompting⟩ :=
      hs.handleChunk fun byte hb => h byte (List.mem_append_left _ hb)
    obtain ⟨s', hrun, hs'⟩ := ih hprompting fun byte hb => h byte (List.mem_append_right _ hb)
    exact ⟨s', Machine.run_cons.2 ⟨next, hnext, hrun⟩, hs'⟩

/-! ## The selector -/

/-- The selectors of the two prompts. -/
def IsSelector (byte : UInt8) : Prop := byte = 0x75 ∨ byte = 0x64

/-- Pass-through, with what has come of a selector. -/
structure Passing (s : PromptInput) (afterEscape : Bool) : Prop where
  enabled : s.control.enabled = true
  running : s.control.ended = false
  escape : s.control.pendingPrefix = afterEscape
  modal : s.control.modal = none
  flow : s.flow = none

theorem Passing.handleChunk_eq {afterEscape : Bool} (hs : Passing s afterEscape) (chunk : Bytes) :
    handleChunk s chunk =
      match (s.control.processPassThrough {} chunk).2.action with
      | .detach => none
      | .startUpload | .startDownload =>
        some ⟨(s.control.processPassThrough {} chunk).1, some .new⟩
      | _ => some ⟨(s.control.processPassThrough {} chunk).1, none⟩ := by
  have hprocess : s.control.process chunk = s.control.processPassThrough {} chunk := by
    rw [LocalControlInput.process, if_neg (by simp [hs.running]), if_neg (by simp [hs.enabled]), hs.modal]
  rw [PromptInput.handleChunk, hprocess]
  generalize s.control.processPassThrough {} chunk = after
  obtain ⟨control, processed⟩ := after
  dsimp only [feedFlow]
  rw [hs.flow]
  cases haction : processed.action <;> rfl

theorem Passing.nil {afterEscape : Bool} (hs : Passing s afterEscape) :
    handleChunk s [] = some s := by
  rw [hs.handleChunk_eq]
  change some _ = some s
  rw [show (s.control.processPassThrough {} []).1 = s.control from rfl, ← hs.flow]

/-- The selector opens a prompt, and the rest of its chunk is gone. -/
theorem Passing.selector (hs : Passing s true) (hselector : IsSelector byte) (rest : Bytes) :
    ∃ s', handleChunk s (byte :: rest) = some s' ∧ Prompting s' (.required promptPathLimit) := by
  rw [hs.handleChunk_eq]
  rcases hselector with rfl | rfl
  · rw [LocalControlInput.processPassThrough, if_pos hs.escape]
    exact ⟨_, rfl, hs.enabled, hs.running, rfl, .inl rfl, .new, rfl, rfl, rfl⟩
  · rw [LocalControlInput.processPassThrough, if_pos hs.escape]
    exact ⟨_, rfl, hs.enabled, hs.running, rfl, .inr rfl, .new, rfl, rfl, rfl⟩

theorem Passing.escape_selector (hs : Passing s false) (hselector : IsSelector byte) (rest : Bytes)
    :
    ∃ s', handleChunk s (localEscape :: byte :: rest) = some s' ∧
      Prompting s' (.required promptPathLimit) := by
  have hafter : Passing { s with control := { s.control with pendingPrefix := true } } true :=
    ⟨hs.enabled, hs.running, rfl, hs.modal, hs.flow⟩
  obtain ⟨s', hs', hprompting⟩ := hafter.selector hselector rest
  refine ⟨s', ?_, hprompting⟩
  rw [← hs', hs.handleChunk_eq, hafter.handleChunk_eq, LocalControlInput.processPassThrough,
    if_neg (by rw [hs.escape]; exact Bool.false_ne_true), if_pos rfl]

/-- How a split divides the bytes behind the selector: the rest of the selector's chunk, and the chunks
behind it. -/
def Splits (chunks : List Bytes) (selector w remainder : Bytes) (later : List Bytes) : Prop :=
  ∃ front chunk, chunks = front ++ chunk :: later ∧ front.flatten.length < selector.length ∧
    front.flatten ++ chunk = selector ++ remainder ∧ w = remainder ++ later.flatten

theorem Splits.nil_cons {selector remainder : Bytes} {later : List Bytes}
    (h : Splits chunks selector w remainder later) :
    Splits ([] :: chunks) selector w remainder later := by
  obtain ⟨front, chunk, rfl, hlength, hchunk, hw⟩ := h
  exact ⟨[] :: front, chunk, rfl, hlength, hchunk, hw⟩

theorem Passing.run_selector (hs : Passing s true) (hselector : IsSelector byte)
    (hw : ∀ b ∈ w, PathByte b) (hsplit : chunks.flatten = byte :: w) :
    ∃ remainder later s', Splits chunks [byte] w remainder later ∧
      Machine.run handleChunk s chunks = some s' ∧
      Prompting s' ((PathPrompt.required promptPathLimit).feedOn later) := by
  induction chunks with
  | nil => cases hsplit
  | cons chunk chunks ih =>
    cases chunk with
    | nil =>
      obtain ⟨remainder, later, s', hsplits, hrun, hprompting⟩ := ih hsplit
      exact ⟨remainder, later, s', hsplits.nil_cons, Machine.run_cons.2 ⟨s, hs.nil, hrun⟩, hprompting⟩
    | cons b rest =>
      rw [List.flatten_cons, List.cons_append, List.cons.injEq] at hsplit
      obtain ⟨rfl, rfl⟩ := hsplit
      obtain ⟨next, hnext, hprompting⟩ := hs.selector hselector rest
      obtain ⟨s', hrun, hs'⟩ := hprompting.run fun x hx => hw x (List.mem_append_right _ hx)
      exact ⟨rest, chunks, s', ⟨[], b :: rest, rfl, Nat.zero_lt_one, rfl, rfl⟩,
        Machine.run_cons.2 ⟨next, hnext, hrun⟩, hs'⟩

theorem Passing.run_escape (hs : Passing s false) (hselector : IsSelector byte)
    (hw : ∀ b ∈ w, PathByte b) (hsplit : chunks.flatten = localEscape :: byte :: w) :
    ∃ remainder later s', Splits chunks [localEscape, byte] w remainder later ∧
      Machine.run handleChunk s chunks = some s' ∧
      Prompting s' ((PathPrompt.required promptPathLimit).feedOn later) := by
  induction chunks with
  | nil => cases hsplit
  | cons chunk chunks ih =>
    match chunk with
    | [] =>
      obtain ⟨remainder, later, s', hsplits, hrun, hprompting⟩ := ih hsplit
      exact ⟨remainder, later, s', hsplits.nil_cons, Machine.run_cons.2 ⟨s, hs.nil, hrun⟩, hprompting⟩
    | [b] =>
      -- the chunk ends behind `Ctrl+]`
      rw [List.flatten_cons, List.cons_append, List.cons.injEq, List.nil_append] at hsplit
      obtain ⟨rfl, hsplit⟩ := hsplit
      have hafter : Passing { s with control := { s.control with pendingPrefix := true } } true :=
        ⟨hs.enabled, hs.running, rfl, hs.modal, hs.flow⟩
      have hstep : handleChunk s [localEscape] =
          some { s with control := { s.control with pendingPrefix := true } } := by
        rw [hs.handleChunk_eq, LocalControlInput.processPassThrough,
          if_neg (by rw [hs.escape]; exact Bool.false_ne_true), if_pos rfl,
          LocalControlInput.processPassThrough, hs.flow]
      obtain ⟨remainder, later, s', ⟨front, chunk, hchunks, hlength, hchunk, hw'⟩, hrun, hprompting⟩ :=
        hafter.run_selector hselector hw hsplit
      refine ⟨remainder, later, s', ⟨[localEscape] :: front, chunk, ?_, ?_, ?_, hw'⟩,
        Machine.run_cons.2 ⟨_, hstep, hrun⟩, hprompting⟩
      · rw [hchunks, List.cons_append]
      · exact Nat.succ_lt_succ hlength
      · exact congrArg (localEscape :: ·) hchunk
    | b :: b' :: rest =>
      rw [List.flatten_cons, List.cons_append, List.cons_append, List.cons.injEq,
        List.cons.injEq] at hsplit
      obtain ⟨rfl, rfl, rfl⟩ := hsplit
      obtain ⟨next, hnext, hprompting⟩ := hs.escape_selector hselector rest
      obtain ⟨s', hrun, hs'⟩ := hprompting.run fun x hx => hw x (List.mem_append_right _ hx)
      exact ⟨rest, chunks, s', ⟨[], _, rfl, Nat.zero_lt_two, rfl, rfl⟩,
        Machine.run_cons.2 ⟨next, hnext, hrun⟩, hs'⟩

instance (byte : UInt8) : Decidable (PathByte byte) := inferInstanceAs (Decidable (_ ∧ _ ∧ _))

instance (byte : UInt8) : Decidable (IsSelector byte) := inferInstanceAs (Decidable (_ ∨ _))

end PromptInput

end Yonder.Controller
