import Yonder.Lib.Machine
import Yonder.Lib.Utf8
import Yonder.Wire.FileTransferFrame

/-!
# The line editor of a path prompt

`PathPrompt` edits the line of one field. It takes bytes one at a time, keeps a character that is not
complete apart from the line, and ends the field with a path, a cancellation, or a line that has to be
typed again. A feed stops at the first byte that ends the field.

`Editor` is what the editor is for: a character enters the line only when its bytes follow one another,
and every byte that does not go on with an open sequence closes it. The code does not close it at a
printable byte or at a byte it rejects, so the two agree in a run in which no such byte comes while a
sequence is open (`prompt_line_iff`).
-/

namespace Yonder.Controller

open Lib Wire

/-- `PROMPT_PATH_LIMIT`. -/
def promptPathLimit : Nat := maxPathLen

inductive PromptResult where
  | submitted (path : String)
  | empty
  | cancelled
  | reprompt
  | bell
  | continue
  deriving DecidableEq, Repr

/-- The outcomes that end the field. -/
def PromptResult.isTerminal : PromptResult → Bool
  | .bell | .continue => false
  | _ => true

inductive StepOutcome where
  | terminal (result : PromptResult)
  | bell
  | continue
  deriving DecidableEq, Repr

/-- The arms of the editor's match on a byte. -/
inductive ByteKind where
  | cancel
  | submit
  | backspace
  | printable
  | continuation
  | lead
  /-- The other control bytes, and bytes that no UTF-8 has. -/
  | other
  deriving DecidableEq, Repr

def byteKind (byte : UInt8) : ByteKind :=
  if byte = 0x03 then .cancel
  else if byte = 0x0A ∨ byte = 0x0D then .submit
  else if byte = 0x08 ∨ byte = 0x7F then .backspace
  else if 0x20 ≤ byte ∧ byte ≤ 0x7E then .printable
  else if 0x80 ≤ byte ∧ byte ≤ 0xBF then .continuation
  else if 0xC2 ≤ byte ∧ byte ≤ 0xF4 then .lead
  else .other

/-- The length of the sequence that a lead byte starts. -/
def sequenceLen (lead : UInt8) : Nat :=
  if lead ≤ 0xDF then 2 else if lead ≤ 0xEF then 3 else 4

/-- The editor: the line of whole characters, and the bytes of one that is not complete. -/
structure PathPrompt where
  maxLen : Nat
  allowEmpty : Bool
  line : List Char
  pending : Bytes
  pendingExpected : Nat
  deriving DecidableEq, Repr

namespace PathPrompt

def new (maxLen : Nat) (allowEmpty : Bool) : PathPrompt := ⟨maxLen, allowEmpty, [], [], 0⟩

def required (maxLen : Nat) : PathPrompt := new maxLen false

def withDefault (maxLen : Nat) : PathPrompt := new maxLen true

def currentLine (p : PathPrompt) : String := String.ofList p.line

/-- The length of the line in bytes. -/
def lineLen (p : PathPrompt) : Nat := (utf8 p.currentLine).length

def reset (p : PathPrompt) : PathPrompt := { p with line := [], pending := [] }

def reprompt (p : PathPrompt) : PathPrompt × StepOutcome := (p.reset, .terminal .reprompt)

/-- The end of the line. A sequence that is not complete is dropped. -/
def submit (p : PathPrompt) : PathPrompt × PromptResult :=
  (p.reset,
    if p.line = [] then if p.allowEmpty then .empty else .reprompt
    else if validateProtocolPath (utf8 p.currentLine) then .submitted p.currentLine
    else .reprompt)

/-- The most recent input is the open sequence, or else the last character. -/
def backspace (p : PathPrompt) : PathPrompt :=
  if p.pending ≠ [] then { p with pending := [] } else { p with line := p.line.dropLast }

def appendAscii (p : PathPrompt) (byte : UInt8) : PathPrompt × StepOutcome :=
  if p.maxLen ≤ p.lineLen then p.reprompt
  else ({ p with line := p.line ++ [Char.ofNat byte.toNat] }, .continue)

def startSequence (p : PathPrompt) (lead : UInt8) : PathPrompt × StepOutcome :=
  ({ p with pending := [lead], pendingExpected := sequenceLen lead },
    if p.pending ≠ [] then .bell else .continue)

def continueSequence (p : PathPrompt) (byte : UInt8) : PathPrompt × StepOutcome :=
  if p.pending = [] ∨ p.pendingExpected ≤ p.pending.length then (p, .bell)
  else if p.pending.length + 1 < p.pendingExpected then
    ({ p with pending := p.pending ++ [byte] }, .continue)
  else
    -- the byte completes the sequence
    match ofUtf8 (p.pending ++ [byte]) with
    | none => ({ p with pending := [] }, .bell)
    | some text =>
      if p.maxLen < p.lineLen + (p.pending.length + 1) then p.reprompt
      else ({ p with pending := [], line := p.line ++ text.toList }, .continue)

def step (p : PathPrompt) (byte : UInt8) : PathPrompt × StepOutcome :=
  match byteKind byte with
  | .cancel => (p.reset, .terminal .cancelled)
  | .submit => (p.submit.1, .terminal p.submit.2)
  | .backspace => (p.backspace, .continue)
  | .printable => p.appendAscii byte
  | .continuation => p.continueSequence byte
  | .lead => p.startSequence byte
  | .other => (p, .bell)

/-- The loop of a feed; `bell` says whether a byte was rejected so far. -/
def feedImpl (bell : Bool) : PathPrompt → Bytes → PathPrompt × PromptResult
  | p, [] => (p, if bell then .bell else .continue)
  | p, byte :: bytes =>
    match p.step byte with
    | (q, .terminal result) => (q, result)
    | (q, .bell) => feedImpl true q bytes
    | (q, .continue) => feedImpl bell q bytes

/-- `feed`, and `feed_initial`, which does the same. -/
def feed (p : PathPrompt) (bytes : Bytes) : PathPrompt × PromptResult := feedImpl false p bytes

/-! ## Typing without an end of the field -/

/-- One byte that does not end the field. -/
def typeByte (p : PathPrompt) (byte : UInt8) : Option PathPrompt :=
  match p.step byte with
  | (_, .terminal _) => none
  | (q, .bell) => some q
  | (q, .continue) => some q

/-- Chunk after chunk, as long as none ends the field. -/
def feedAll : PathPrompt → List Bytes → Option PathPrompt
  | p, [] => some p
  | p, chunk :: chunks =>
    if (p.feed chunk).2.isTerminal then none else feedAll (p.feed chunk).1 chunks

/-- Chunk after chunk, whatever the outcomes. -/
def feedOn (p : PathPrompt) (chunks : List Bytes) : PathPrompt :=
  chunks.foldl (fun p chunk => (p.feed chunk).1) p

theorem isTerminal_submit (p : PathPrompt) : p.submit.2.isTerminal = true := by
  unfold submit
  dsimp only
  split_ifs <;> rfl

variable {p : PathPrompt} {byte : UInt8}

theorem allowEmpty_of_submit (h : p.submit.2 = .empty) : p.allowEmpty = true := by
  unfold submit at h
  dsimp only at h
  split_ifs at h with hline hallow
  exact hallow

/-- All that a byte can do, each with what it depends on. -/
inductive StepSpec (p : PathPrompt) (byte : UInt8) : PathPrompt × StepOutcome → Prop
  | ended (result : PromptResult) (hresult : result.isTerminal = true)
      (hempty : result = .empty → p.allowEmpty = true) :
      StepSpec p byte (p.reset, .terminal result)
  | erased (hkind : byteKind byte = .backspace) : StepSpec p byte (p.backspace, .continue)
  | appended (hkind : byteKind byte = .printable) (hroom : p.lineLen < p.maxLen) :
      StepSpec p byte ({ p with line := p.line ++ [Char.ofNat byte.toNat] }, .continue)
  | stray (hkind : byteKind byte = .continuation)
      (hclosed : p.pending = [] ∨ p.pendingExpected ≤ p.pending.length) : StepSpec p byte (p, .bell)
  | extended (hkind : byteKind byte = .continuation) (hopen : p.pending ≠ [])
      (hlength : p.pending.length + 1 < p.pendingExpected) :
      StepSpec p byte ({ p with pending := p.pending ++ [byte] }, .continue)
  | broken (hkind : byteKind byte = .continuation) (hopen : p.pending ≠ [])
      (hlength : p.pendingExpected = p.pending.length + 1)
      (hinvalid : ofUtf8 (p.pending ++ [byte]) = none) :
      StepSpec p byte ({ p with pending := [] }, .bell)
  | completed (hkind : byteKind byte = .continuation) (hopen : p.pending ≠ [])
      (hlength : p.pendingExpected = p.pending.length + 1) (text : String)
      (htext : ofUtf8 (p.pending ++ [byte]) = some text)
      (hroom : p.lineLen + (p.pending.length + 1) ≤ p.maxLen) :
      StepSpec p byte ({ p with pending := [], line := p.line ++ text.toList }, .continue)
  | started (hkind : byteKind byte = .lead) : StepSpec p byte (p.startSequence byte)
  | rejected (hkind : byteKind byte = .other) : StepSpec p byte (p, .bell)

theorem continueSequence_spec (p : PathPrompt) (hkind : byteKind byte = .continuation) :
    StepSpec p byte (p.continueSequence byte) := by
  unfold continueSequence
  by_cases hclosed : p.pending = [] ∨ p.pendingExpected ≤ p.pending.length
  · rw [if_pos hclosed]
    exact .stray hkind hclosed
  · rw [if_neg hclosed]
    obtain ⟨hopen, hlength⟩ := not_or.1 hclosed
    by_cases hmore : p.pending.length + 1 < p.pendingExpected
    · rw [if_pos hmore]
      exact .extended hkind hopen hmore
    · rw [if_neg hmore]
      have hexpected : p.pendingExpected = p.pending.length + 1 := by omega
      cases htext : ofUtf8 (p.pending ++ [byte]) with
      | none => exact .broken hkind hopen hexpected htext
      | some text =>
        dsimp only
        by_cases hroom : p.maxLen < p.lineLen + (p.pending.length + 1)
        · rw [if_pos hroom]
          exact .ended .reprompt rfl (by intro h; cases h)
        · rw [if_neg hroom]
          exact .completed hkind hopen hexpected text htext (Nat.le_of_not_lt hroom)

theorem step_spec (p : PathPrompt) (byte : UInt8) : StepSpec p byte (p.step byte) := by
  unfold step
  cases hkind : byteKind byte with
  | cancel => exact .ended .cancelled rfl (by intro h; cases h)
  | submit => exact .ended p.submit.2 (isTerminal_submit p) allowEmpty_of_submit
  | backspace => exact .erased hkind
  | printable =>
    dsimp only [appendAscii]
    by_cases hroom : p.maxLen ≤ p.lineLen
    · rw [if_pos hroom]
      exact .ended .reprompt rfl (by intro h; cases h)
    · rw [if_neg hroom]
      exact .appended hkind (Nat.lt_of_not_le hroom)
  | continuation => exact continueSequence_spec p hkind
  | lead => exact .started hkind
  | other => exact .rejected hkind

/-- A byte that ends the field empties the prompt. -/
theorem step_terminal {q : PathPrompt} {result : PromptResult}
    (h : p.step byte = (q, .terminal result)) :
    q = p.reset ∧ result.isTerminal = true ∧ (result = .empty → p.allowEmpty = true) := by
  have hspec := h ▸ step_spec p byte
  generalize houtcome : (q, StepOutcome.terminal result) = after at hspec
  cases hspec with
  | ended result' hresult hempty =>
    cases houtcome
    exact ⟨rfl, hresult, hempty⟩
  | started hkind =>
    unfold startSequence at houtcome
    split_ifs at houtcome <;> cases houtcome
  | erased hkind => cases houtcome
  | appended hkind hroom => cases houtcome
  | stray hkind hclosed => cases houtcome
  | extended hkind hopen hlength => cases houtcome
  | broken hkind hopen hlength hinvalid => cases houtcome
  | completed hkind hopen hlength text htext hroom => cases houtcome
  | rejected hkind => cases houtcome

theorem feedImpl_run (bell : Bool) (p : PathPrompt) (bytes : Bytes) :
    (if (feedImpl bell p bytes).2.isTerminal then none else some (feedImpl bell p bytes).1) =
      Machine.run typeByte p bytes := by
  induction bytes generalizing bell p with
  | nil => cases bell <;> rfl
  | cons byte bytes ih =>
    rw [feedImpl, Machine.run, typeByte]
    rcases hstep : p.step byte with ⟨q, outcome⟩
    cases outcome with
    | terminal result =>
      have hterminal := (step_terminal hstep).2.1
      dsimp only
      rw [if_pos hterminal]
      rfl
    | bell => exact ih true q
    | «continue» => exact ih bell q

/-- The pieces in which the bytes come do not matter as long as none ends the field. -/
theorem feedAll_eq_run (p : PathPrompt) (chunks : List Bytes) :
    feedAll p chunks = Machine.run typeByte p chunks.flatten := by
  induction chunks generalizing p with
  | nil => rfl
  | cons chunk chunks ih =>
    have hfeed := feedImpl_run false p chunk
    rw [feedAll, feed, List.flatten_cons]
    ext q
    rw [Machine.run_append, ← hfeed]
    cases hterminal : (feedImpl false p chunk).2.isTerminal with
    | true => simp
    | false =>
      rw [if_neg Bool.false_ne_true, if_neg Bool.false_ne_true, ih]
      constructor
      · intro hrun
        exact ⟨_, rfl, hrun⟩
      · rintro ⟨next, hnext, hrun⟩
        cases hnext
        exact hrun

/-! ## The bounds of the buffers -/

/-- A line within its bound, and an open sequence of fewer bytes than its lead byte announces. -/
structure Valid (p : PathPrompt) : Prop where
  line : p.lineLen ≤ p.maxLen
  sequence : p.pending = [] ∨ (p.pending.length < p.pendingExpected ∧ p.pendingExpected ≤ 4)

theorem lineLen_eq (p : PathPrompt) : p.lineLen = (Utf8.code.words p.line).length := by
  rw [lineLen, currentLine, Utf8.utf8_ofList]

theorem length_words_append (first second : List Char) :
    (Utf8.code.words (first ++ second)).length =
      (Utf8.code.words first).length + (Utf8.code.words second).length := by
  rw [PrefixCode.words_append, List.length_append]

/-- The text of a completed sequence is as long as the sequence. -/
theorem length_words_text {bytes : Bytes} {text : String} (h : ofUtf8 bytes = some text) :
    Utf8.code.words text.toList = bytes := by
  rw [← Utf8.utf8_eq_words, (ofUtf8_eq_some bytes text).1 h]

theorem sequenceLen_le (lead : UInt8) : sequenceLen lead ≤ 4 := by
  unfold sequenceLen
  split_ifs <;> omega

theorem one_lt_sequenceLen (lead : UInt8) : 1 < sequenceLen lead := by
  unfold sequenceLen
  split_ifs <;> omega

theorem Valid.pending_le (h : p.Valid) : p.pending.length ≤ 3 := by
  rcases h.sequence with hnil | ⟨hlength, hexpected⟩
  · rw [hnil]
    exact Nat.zero_le 3
  · omega

theorem valid_new (maxLen : Nat) (allowEmpty : Bool) : (new maxLen allowEmpty).Valid :=
  ⟨Nat.zero_le maxLen, .inl rfl⟩

theorem valid_reset (p : PathPrompt) : p.reset.Valid := ⟨Nat.zero_le p.maxLen, .inl rfl⟩

theorem Valid.backspace (h : p.Valid) : p.backspace.Valid := by
  unfold PathPrompt.backspace
  split_ifs with hopen
  · exact ⟨h.line, .inl rfl⟩
  · refine ⟨?_, h.sequence⟩
    have hline := h.line
    rw [lineLen_eq] at hline ⊢
    refine le_trans ?_ hline
    -- a line without its last character
    rcases List.eq_nil_or_concat p.line with hnil | ⟨front, last, hfront⟩
    · rw [hnil]
      exact le_rfl
    · rw [hfront, List.concat_eq_append, List.dropLast_concat, length_words_append]
      exact Nat.le_add_right _ _

theorem le_of_byteKind_printable (h : byteKind byte = .printable) : byte.toNat ≤ 127 := by
  unfold byteKind at h
  split_ifs at h with _ _ _ hrange
  exact (UInt8.le_iff_toNat_le.1 hrange.2).trans (by decide)

theorem words_printable (h : byteKind byte = .printable) :
    Utf8.code.words [Char.ofNat byte.toNat] = [byte] := by
  have hle := le_of_byteKind_printable h
  rw [PrefixCode.words_cons]
  change String.utf8EncodeChar (Char.ofNat byte.toNat) ++ [] = [byte]
  rw [Utf8.utf8EncodeChar_ofNat (.inl (by omega)), List.append_nil, Utf8.encodeNat, if_pos hle,
    UInt8.ofNat_toNat]

theorem Valid.step (h : p.Valid) (byte : UInt8) : (p.step byte).1.Valid := by
  have hline := h.line
  have hspec := step_spec p byte
  generalize p.step byte = after at hspec
  cases hspec with
  | ended result hresult hempty => exact valid_reset p
  | erased hkind => exact h.backspace
  | appended hkind hroom =>
    refine ⟨?_, h.sequence⟩
    rw [lineLen_eq] at hroom ⊢
    dsimp only
    rw [length_words_append, words_printable hkind]
    exact hroom
  | stray hkind hclosed => exact h
  | extended hkind hopen hlength =>
    refine ⟨h.line, .inr ⟨?_, ?_⟩⟩
    · dsimp only
      rw [List.length_append, List.length_singleton]
      exact hlength
    · exact (h.sequence.resolve_left hopen).2
  | broken hkind hopen hlength hinvalid => exact ⟨h.line, .inl rfl⟩
  | completed hkind hopen hlength text htext hroom =>
    refine ⟨?_, .inl rfl⟩
    rw [lineLen_eq] at hroom ⊢
    dsimp only
    rw [length_words_append, length_words_text htext, List.length_append, List.length_singleton]
    exact hroom
  | started hkind => exact ⟨h.line, .inr ⟨one_lt_sequenceLen byte, sequenceLen_le byte⟩⟩
  | rejected hkind => exact h

theorem Valid.feedImpl (h : p.Valid) (bell : Bool) (bytes : Bytes) :
    (feedImpl bell p bytes).1.Valid := by
  induction bytes generalizing bell p with
  | nil => exact h
  | cons byte bytes ih =>
    have hstep := h.step byte
    rw [PathPrompt.feedImpl]
    generalize p.step byte = after at hstep
    obtain ⟨q, outcome⟩ := after
    cases outcome with
    | terminal result => exact hstep
    | bell => exact ih hstep true
    | «continue» => exact ih hstep bell

theorem Valid.feedOn (h : p.Valid) (chunks : List Bytes) : (p.feedOn chunks).Valid := by
  induction chunks generalizing p with
  | nil => exact h
  | cons chunk chunks ih => exact ih (h.feedImpl false chunk)

/-- What a prompt is made with. -/
def policy (p : PathPrompt) : Nat × Bool := (p.maxLen, p.allowEmpty)

theorem policy_step (p : PathPrompt) (byte : UInt8) : (p.step byte).1.policy = p.policy := by
  have hspec := step_spec p byte
  generalize p.step byte = after at hspec
  cases hspec with
  | erased hkind =>
    dsimp only [PathPrompt.backspace]
    split_ifs <;> rfl
  | _ => rfl

theorem policy_feedImpl (p : PathPrompt) (bell : Bool) (bytes : Bytes) :
    (PathPrompt.feedImpl bell p bytes).1.policy = p.policy := by
  induction bytes generalizing bell p with
  | nil => rfl
  | cons byte bytes ih =>
    have hstep := policy_step p byte
    rw [PathPrompt.feedImpl]
    generalize p.step byte = after at hstep
    obtain ⟨q, outcome⟩ := after
    cases outcome with
    | terminal result => exact hstep
    | bell => exact (ih q true).trans hstep
    | «continue» => exact (ih q bell).trans hstep

theorem policy_feedOn (p : PathPrompt) (chunks : List Bytes) : (p.feedOn chunks).policy = p.policy := by
  induction chunks generalizing p with
  | nil => rfl
  | cons chunk chunks ih => exact (ih (p.feed chunk).1).trans (policy_feedImpl p false chunk)

end PathPrompt

variable {lead : UInt8}

/-! ## What the editor is for -/

/-- The line, and the bytes of a sequence that is open. -/
structure Editor where
  line : List Char
  sequence : Bytes
  deriving DecidableEq, Repr

namespace Editor

def empty : Editor := ⟨[], []⟩

/-- A continuation byte goes on with an open sequence, until it has as many bytes as its lead byte
announces; then it is a character or nothing. The flag is the bell. -/
def extend (e : Editor) (byte : UInt8) : Editor × Bool :=
  match e.sequence with
  | [] => (e, true)
  | lead :: rest =>
    if (lead :: rest).length + 1 < sequenceLen lead then
      (⟨e.line, lead :: rest ++ [byte]⟩, false)
    else
      match Utf8.symbol (lead :: rest ++ [byte]) with
      | none => (⟨e.line, []⟩, true)
      | some c => (⟨e.line ++ [c], []⟩, false)

/-- One byte. A sequence stays open only over its own bytes. -/
def type (e : Editor) (byte : UInt8) : Editor × Bool :=
  match byteKind byte with
  | .backspace => (if e.sequence ≠ [] then ⟨e.line, []⟩ else ⟨e.line.dropLast, []⟩, false)
  | .printable => (⟨e.line ++ [Char.ofNat byte.toNat], []⟩, e.sequence ≠ [])
  | .continuation => e.extend byte
  | .lead => (⟨e.line, [byte]⟩, e.sequence ≠ [])
  | _ => (⟨e.line, []⟩, true)

def typeAll (e : Editor) (bytes : Bytes) : Editor := bytes.foldl (fun e byte => (e.type byte).1) e

end Editor

namespace PathPrompt

/-- The bytes that close an open sequence without being part of one. -/
def Interrupts (byte : UInt8) : Prop := byteKind byte = .printable ∨ byteKind byte = .other

instance (byte : UInt8) : Decidable (Interrupts byte) :=
  inferInstanceAs (Decidable (byteKind byte = .printable ∨ byteKind byte = .other))

/-- No such byte comes while a sequence is open. -/
def Contiguous (p : PathPrompt) (byte : UInt8) : Prop := p.pending = [] ∨ ¬ Interrupts byte

instance (p : PathPrompt) (byte : UInt8) : Decidable (Contiguous p byte) :=
  inferInstanceAs (Decidable (p.pending = [] ∨ ¬ Interrupts byte))

/-- The prompt and the editor have the same line and the same open sequence, and the prompt expects what
the lead byte announces. -/
structure Sync (p : PathPrompt) (e : Editor) : Prop where
  line : p.line = e.line
  sequence : p.pending = e.sequence
  opened : ∀ lead rest, p.pending = lead :: rest → byteKind lead = .lead ∧
    p.pendingExpected = sequenceLen lead ∧ p.pending.length < p.pendingExpected

theorem sync_new (maxLen : Nat) (allowEmpty : Bool) : Sync (new maxLen allowEmpty) .empty :=
  ⟨rfl, rfl, (by intro lead rest h; cases h)⟩

variable {p q : PathPrompt} {byte : UInt8} {e : Editor}

theorem typeByte_eq_some (h : p.typeByte byte = some q) :
    (p.step byte).1 = q ∧ ∀ result, (p.step byte).2 ≠ .terminal result := by
  unfold typeByte at h
  rcases hstep : p.step byte with ⟨q', outcome⟩
  rw [hstep] at h
  cases outcome with
  | terminal result => cases h
  | bell =>
    cases h
    exact ⟨rfl, (by intro result hne; cases hne)⟩
  | «continue» =>
    cases h
    exact ⟨rfl, (by intro result hne; cases hne)⟩

theorem typeByte_of_goes (h : ∀ result, (p.step byte).2 ≠ .terminal result) :
    p.typeByte byte = some (p.step byte).1 := by
  unfold typeByte
  rcases hstep : p.step byte with ⟨q, outcome⟩
  rw [hstep] at h
  cases outcome with
  | terminal result => exact absurd rfl (h result)
  | bell => rfl
  | «continue» => rfl

/-! ### A sequence of the announced length -/

theorem lead_range (h : byteKind byte = .lead) : 194 ≤ byte.toNat := by
  unfold byteKind at h
  split_ifs at h with _ _ _ _ _ hrange
  exact UInt8.le_iff_toNat_le.1 hrange.1

theorem sequenceLen_eq {n : Nat} (h : lead.toNat = n) :
    sequenceLen lead = if n ≤ 223 then 2 else if n ≤ 239 then 3 else 4 := by
  subst h
  rfl

/-- A character has as many bytes as its lead byte announces. -/
theorem length_encodeNat_of_lead {v : Nat} {rest : Bytes} (hlead : byteKind lead = .lead)
    (h : Utf8.encodeNat v = lead :: rest) : (Utf8.encodeNat v).length = sequenceLen lead := by
  have hrange := lead_range hlead
  rcases Nat.lt_or_ge 127 v with h1 | h1
  · rcases Nat.lt_or_ge 2047 v with h2 | h2
    · rcases Nat.lt_or_ge 65535 v with h3 | h3
      · rw [Utf8.encodeNat_four h3] at h ⊢
        obtain ⟨rfl, -⟩ := List.cons.inj h
        rw [sequenceLen_eq (UInt8.toNat_ofNat' ..), if_neg (by omega), if_neg (by omega)]
        rfl
      · rw [Utf8.encodeNat_three h2 h3] at h ⊢
        obtain ⟨rfl, -⟩ := List.cons.inj h
        rw [sequenceLen_eq (UInt8.toNat_ofNat' ..), if_neg (by omega), if_pos (by omega)]
        rfl
    · rw [Utf8.encodeNat_two h1 h2] at h ⊢
      obtain ⟨rfl, -⟩ := List.cons.inj h
      rw [sequenceLen_eq (UInt8.toNat_ofNat' ..), if_pos (by omega)]
      rfl
  · -- one byte is no lead byte
    rw [Utf8.encodeNat, if_pos h1] at h
    obtain ⟨rfl, -⟩ := List.cons.inj h
    rw [UInt8.toNat_ofNat'] at hrange
    omega

/-- A text of the length that its lead byte announces is one character. -/
theorem symbol_of_text {rest : Bytes} {text : String} (hlead : byteKind lead = .lead)
    (hlength : (lead :: rest).length = sequenceLen lead) (htext : ofUtf8 (lead :: rest) = some text)
    :
    ∃ c, text.toList = [c] ∧ Utf8.symbol (lead :: rest) = some c := by
  have hwords := length_words_text htext
  cases hcs : text.toList with
  | nil =>
    rw [hcs] at hwords
    cases hwords
  | cons c cs =>
    rw [hcs, PrefixCode.words_cons] at hwords
    obtain ⟨b, bs, hword⟩ := List.exists_cons_of_ne_nil (Utf8.code.word_ne_nil c)
    rw [hword, List.cons_append] at hwords
    obtain ⟨rfl, hrest⟩ := List.cons.inj hwords
    have hchar := length_encodeNat_of_lead hlead hword
    change (Utf8.code.word c).length = _ at hchar
    -- the character is the whole sequence, so no other follows
    have hnil : Utf8.code.words cs = [] := by
      have htotal := congrArg List.length hwords
      rw [hword] at hchar
      rw [List.length_cons, List.length_append, hlength] at htotal
      rw [List.length_cons] at hchar
      exact List.length_eq_zero_iff.1 (by omega)
    rw [hnil, List.append_nil] at hrest
    have hnone : cs = [] := by
      cases cs with
      | nil => rfl
      | cons d ds =>
        rw [PrefixCode.words_cons] at hnil
        exact absurd (List.append_eq_nil_iff.1 hnil).1 (Utf8.code.word_ne_nil d)
    refine ⟨c, by rw [hnone], Utf8.symbol_iff.2 ?_⟩
    rw [← hrest]
    exact hword

theorem symbol_of_invalid {bytes : Bytes} (h : ofUtf8 bytes = none) : Utf8.symbol bytes = none := by
  cases hsymbol : Utf8.symbol bytes with
  | none => rfl
  | some c =>
    have hwords := Utf8.ofUtf8_words [c]
    rw [PrefixCode.words_cons] at hwords
    have hbytes : Utf8.code.word c ++ Utf8.code.words [] = bytes := by
      rw [← Utf8.symbol_iff.1 hsymbol]
      exact List.append_nil _
    rw [hbytes, h] at hwords
    cases hwords

/-! ### The prompt does what the editor does -/

theorem Sync.step (h : Sync p e) (hcontiguous : Contiguous p byte)
    (hgoes : ∀ result, (p.step byte).2 ≠ .terminal result) :
    Sync (p.step byte).1 (e.type byte).1 ∧ ((p.step byte).2 = .bell ↔ (e.type byte).2 = true) := by
  obtain ⟨line, sequence⟩ := e
  obtain ⟨hline, hsequence, hopened⟩ := h
  dsimp only at hline hsequence
  subst hline hsequence
  have hspec := step_spec p byte
  generalize p.step byte = after at hspec hgoes
  unfold Editor.type
  cases hspec with
  | ended result hresult hempty => exact absurd rfl (hgoes result)
  | erased hkind =>
    rw [hkind]
    refine ⟨?_, (by simp)⟩
    dsimp only [PathPrompt.backspace]
    split_ifs with hopen
    · exact ⟨rfl, rfl, (by intro lead rest hnil; cases hnil)⟩
    · refine ⟨rfl, not_not.1 hopen, ?_⟩
      intro lead rest hcons
      exact absurd (hcons.symm.trans (not_not.1 hopen)) (List.cons_ne_nil lead rest)
  | appended hkind hroom =>
    -- no sequence is open here
    have hnil := hcontiguous.resolve_right (not_not_intro (.inl hkind))
    rw [hkind]
    refine ⟨⟨rfl, hnil, ?_⟩, by simp [hnil]⟩
    intro lead rest hcons
    exact absurd (hcons.symm.trans hnil) (List.cons_ne_nil lead rest)
  | stray hkind hclosed =>
    have hnil : p.pending = [] := by
      cases hpending : p.pending with
      | nil => rfl
      | cons lead rest =>
        obtain ⟨-, -, hlength⟩ := hopened lead rest hpending
        rcases hclosed with hnil | hle
        · rw [hpending] at hnil
          exact hnil
        · omega
    rw [hkind]
    refine ⟨⟨?_, ?_, hopened⟩, ?_⟩
    all_goals simp [Editor.extend, hnil]
  | extended hkind hopen hlength =>
    obtain ⟨lead, rest, hpending⟩ := List.exists_cons_of_ne_nil hopen
    obtain ⟨hlead, hexpected, -⟩ := hopened lead rest hpending
    rw [hexpected, hpending] at hlength
    have htype : Editor.extend ⟨p.line, p.pending⟩ byte = (⟨p.line, p.pending ++ [byte]⟩, false) := by
      rw [Editor.extend.eq_def]
      dsimp only
      rw [hpending]
      exact if_pos hlength
    rw [hkind]
    dsimp only
    rw [htype]
    refine ⟨⟨rfl, rfl, ?_⟩, by simp⟩
    intro lead' rest' hcons
    dsimp only at hcons
    rw [hpending] at hcons
    obtain ⟨rfl, -⟩ := List.cons.inj hcons
    refine ⟨hlead, hexpected, ?_⟩
    dsimp only
    rw [hexpected, hpending, List.length_append, List.length_singleton]
    exact hlength
  | broken hkind hopen hlength hinvalid =>
    obtain ⟨lead, rest, hpending⟩ := List.exists_cons_of_ne_nil hopen
    obtain ⟨hlead, hexpected, -⟩ := hopened lead rest hpending
    have htype : Editor.extend ⟨p.line, p.pending⟩ byte = (⟨p.line, []⟩, true) := by
      rw [Editor.extend.eq_def]
      dsimp only
      rw [hpending] at hlength hinvalid ⊢
      dsimp only
      rw [if_neg (by omega), symbol_of_invalid hinvalid]
    rw [hkind]
    dsimp only
    rw [htype]
    exact ⟨⟨rfl, rfl, (by intro lead rest hnil; cases hnil)⟩, by simp⟩
  | completed hkind hopen hlength text htext hroom =>
    obtain ⟨lead, rest, hpending⟩ := List.exists_cons_of_ne_nil hopen
    obtain ⟨hlead, hexpected, -⟩ := hopened lead rest hpending
    rw [hpending] at hlength htext
    have hwhole : (lead :: (rest ++ [byte])).length = sequenceLen lead := by
      rw [← hexpected, hlength, List.length_cons, List.length_cons, List.length_append,
        List.length_singleton]
    obtain ⟨c, hc, hsymbol⟩ := symbol_of_text hlead hwhole htext
    have htype : Editor.extend ⟨p.line, p.pending⟩ byte = (⟨p.line ++ [c], []⟩, false) := by
      rw [Editor.extend.eq_def]
      dsimp only
      rw [hpending]
      dsimp only
      rw [if_neg (by omega), List.cons_append, hsymbol]
    rw [hkind]
    dsimp only
    rw [htype, hc]
    exact ⟨⟨rfl, rfl, (by intro lead rest hnil; cases hnil)⟩, by simp⟩
  | started hkind =>
    rw [hkind]
    refine ⟨⟨rfl, rfl, ?_⟩, ?_⟩
    · intro lead rest hcons
      obtain ⟨rfl, -⟩ := List.cons.inj hcons
      exact ⟨hkind, rfl, one_lt_sequenceLen byte⟩
    · dsimp only [startSequence]
      split_ifs with hopen <;> simp [hopen]
  | rejected hkind =>
    have hnil := hcontiguous.resolve_right (not_not_intro (.inr hkind))
    rw [hkind]
    exact ⟨⟨rfl, hnil, hopened⟩, by simp⟩

/-- A run in which no open sequence is interrupted. -/
theorem Sync.run (h : Sync p e) {bytes : Bytes}
    (hallowed : Machine.Allowed typeByte Contiguous p bytes)
    (hrun : Machine.run typeByte p bytes = some q) : Sync q (e.typeAll bytes) := by
  induction bytes generalizing p e with
  | nil =>
    cases hrun
    exact h
  | cons byte bytes ih =>
    obtain ⟨next, hnext, hrest⟩ := Machine.run_cons.1 hrun
    obtain ⟨hstep, hgoes⟩ := typeByte_eq_some hnext
    have hsync := (h.step hallowed.1 hgoes).1
    rw [hstep] at hsync
    exact ih hsync (hallowed.2 next hnext) hrest

/-! ### An interrupted sequence shows -/

theorem typeByte_backspace (p : PathPrompt) : p.typeByte 0x08 = some p.backspace := rfl

theorem typeByte_letter (h : p.lineLen < p.maxLen) :
    p.typeByte 0x61 = some { p with line := p.line ++ ['a'] } := by
  have hstep : p.step 0x61 = ({ p with line := p.line ++ ['a'] }, .continue) := if_neg (by omega)
  rw [typeByte, hstep]

theorem backspace_open (h : p.pending ≠ []) :
    p.backspace = { p with pending := [] } := if_pos h

theorem ne_of_length_ne {first second : List Char} (h : first.length ≠ second.length) :
    String.ofList first ≠ String.ofList second := by
  intro heq
  have hlist := congrArg String.toList heq
  rw [String.toList_ofList, String.toList_ofList] at hlist
  exact h (congrArg List.length hlist)

/-- A byte that interrupts an open sequence closes it in the editor and leaves it in the prompt. -/
theorem Sync.step_interrupted (h : Sync p e) (hinterrupted : ¬ Contiguous p byte)
    (hgoes : ∀ result, (p.step byte).2 ≠ .terminal result) :
    (p.step byte).1.pending ≠ [] ∧ (e.type byte).1 = ⟨(p.step byte).1.line, []⟩ := by
  obtain ⟨hopen, hkind⟩ := not_or.1 hinterrupted
  rcases not_not.1 hkind with hkind | hkind
  · rw [PathPrompt.step, hkind] at hgoes ⊢
    dsimp only [appendAscii] at hgoes ⊢
    by_cases hroom : p.maxLen ≤ p.lineLen
    · rw [if_pos hroom] at hgoes
      exact absurd rfl (hgoes .reprompt)
    · rw [if_neg hroom]
      refine ⟨hopen, ?_⟩
      rw [Editor.type, hkind, ← h.line]
  · rw [PathPrompt.step, hkind]
    refine ⟨hopen, ?_⟩
    rw [Editor.type, hkind, ← h.line]

/-- A backspace takes the sequence that the prompt still keeps, and a character of the editor. -/
theorem backspace_differs (hopen : q.pending ≠ []) (hline : q.line ≠ []) :
    q.backspace.currentLine ≠ String.ofList ((Editor.mk q.line []).type 0x08).1.line := by
  rw [backspace_open hopen]
  apply ne_of_length_ne
  have hpos := List.length_pos_of_ne_nil hline
  change q.line.length ≠ q.line.dropLast.length
  rw [List.length_dropLast]
  omega

/-- After a byte that interrupts an open sequence, at most two more bytes give the prompt another line
than the editor. -/
theorem Sync.interrupted (h : Sync p e) (hmax : 1 ≤ p.maxLen) (hinterrupted : ¬ Contiguous p byte)
    (hgoes : ∀ result, (p.step byte).2 ≠ .terminal result) :
    ∃ more r, more.length ≤ 2 ∧ Machine.run typeByte (p.step byte).1 more = some r ∧
      r.currentLine ≠ String.ofList (e.typeAll (byte :: more)).line := by
  obtain ⟨hopen, heditor⟩ := h.step_interrupted hinterrupted hgoes
  have hbound : (p.step byte).1.maxLen = p.maxLen := congrArg Prod.fst (policy_step p byte)
  simp only [Editor.typeAll, List.foldl_cons, heditor]
  generalize (p.step byte).1 = q at hopen hbound
  by_cases hline : q.line = []
  · -- a character first, for the backspace to take
    have hroom : q.lineLen < q.maxLen := by
      rw [lineLen_eq, hline, hbound]
      exact hmax
    have hrun : Machine.run typeByte q [0x61, 0x08] = some _ :=
      Machine.run_cons.2 ⟨_, typeByte_letter hroom,
        Machine.run_cons.2 ⟨_, typeByte_backspace _, rfl⟩⟩
    exact ⟨[0x61, 0x08], _, le_rfl, hrun,
      backspace_differs (q := { q with line := q.line ++ ['a'] }) hopen (by simp)⟩
  · have hrun : Machine.run typeByte q [0x08] = some _ :=
      Machine.run_cons.2 ⟨_, typeByte_backspace _, rfl⟩
    exact ⟨[0x08], _, Nat.le_succ 1, hrun, backspace_differs hopen hline⟩

/-! ## The prompt and the editor -/

/-- However the bytes are split into feeds: as long as no outcome ends the field and no open sequence is
interrupted by a printable or a rejected byte, the line is the editor's. Where one is interrupted, at
most two more bytes give another line. The line is always text within its bound, and the open sequence
has at most three bytes. -/
theorem prompt_line_iff (maxLen : Nat) (allowEmpty : Bool) (chunks : List Bytes) :
    (∀ q, (new maxLen allowEmpty).feedAll chunks = some q →
      Machine.Allowed typeByte Contiguous (new maxLen allowEmpty) chunks.flatten →
      q.currentLine = String.ofList (Editor.empty.typeAll chunks.flatten).line ∧
      ∀ byte, 1 ≤ maxLen → ¬ Contiguous q byte →
        (∀ result, (q.step byte).2 ≠ .terminal result) →
        ∃ more r, more.length ≤ 2 ∧
          (new maxLen allowEmpty).feedAll (chunks ++ [byte :: more]) = some r ∧
          r.currentLine ≠ String.ofList
            (Editor.empty.typeAll (chunks.flatten ++ byte :: more)).line) ∧
    (utf8 ((new maxLen allowEmpty).feedOn chunks).currentLine).length ≤ maxLen ∧
    ((new maxLen allowEmpty).feedOn chunks).pending.length ≤ 3 := by
  have hvalid := (valid_new maxLen allowEmpty).feedOn chunks
  refine ⟨?_, ?_, hvalid.pending_le⟩
  · intro q hfeed hallowed
    rw [feedAll_eq_run] at hfeed
    have hsync := (sync_new maxLen allowEmpty).run hallowed hfeed
    refine ⟨by rw [currentLine, hsync.line], ?_⟩
    intro byte hmax hinterrupted hgoes
    have hbound : q.maxLen = maxLen := by
      refine @Machine.run_invariant _ _ _ (fun p => p.maxLen = maxLen) ?_ _ _ rfl _ hfeed
      intro σ a τ hσ hstep
      have hpolicy := congrArg Prod.fst (policy_step σ a)
      rw [(typeByte_eq_some hstep).1] at hpolicy
      exact hpolicy.trans hσ
    obtain ⟨more, r, hlength, hmore, hdiffers⟩ :=
      hsync.interrupted (hbound ▸ hmax) hinterrupted hgoes
    refine ⟨more, r, hlength, ?_, ?_⟩
    · rw [feedAll_eq_run, List.flatten_append, List.flatten_singleton]
      exact Machine.run_append.2 ⟨q, hfeed, Machine.run_cons.2 ⟨_, typeByte_of_goes hgoes, hmore⟩⟩
    · rw [Editor.typeAll, List.foldl_append]
      exact hdiffers
  · have hbound := congrArg Prod.fst (policy_feedOn (new maxLen allowEmpty) chunks)
    exact hvalid.line.trans hbound.le

theorem prompt_line_iff_accent :
    (new 16 false).feedAll [[0xC3], [0xA9, 0x61]] = some { new 16 false with
        line := ['é', 'a'], pendingExpected := 2 } ∧
      Editor.empty.typeAll [0xC3, 0xA9, 0x61] = ⟨['é', 'a'], []⟩ ∧
      ∀ q, (new 16 false).feedAll [[0xC3], [0xA9, 0x61]] = some q →
        q.currentLine = String.ofList (Editor.empty.typeAll [0xC3, 0xA9, 0x61]).line := by
  refine ⟨by decide +kernel, by decide +kernel, ?_⟩
  intro q hq
  exact ((prompt_line_iff 16 false [[0xC3], [0xA9, 0x61]]).1 q hq (by decide +kernel)).1

/-- The bytes of a character with a letter between them: the prompt takes the character behind the
letter, though its bytes did not follow one another. -/
theorem interrupted_accepted :
    ∃ q, (new promptPathLimit false).feedAll [[0xC3, 0x61, 0xA9]] = some q ∧
      q.currentLine = "aé" ∧
      String.ofList (Editor.empty.typeAll [0xC3, 0x61, 0xA9]).line = "a" := by
  have hrun : ((new promptPathLimit false).feedAll [[0xC3, 0x61, 0xA9]]).map currentLine =
      some "aé" := by decide +kernel
  obtain ⟨q, hq, hline⟩ := Option.map_eq_some_iff.1 hrun
  exact ⟨q, hq, hline, by decide +kernel⟩

end PathPrompt

end Yonder.Controller
