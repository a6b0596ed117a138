import Yonder.Controller.LocalControl
import Yonder.Lib.Machine

/-!
# What local control forwards

The bytes that `LocalControlInput` forwards are a translation of the bytes it reads in pass-through: two
prefixes are one, a prefix and a selector are nothing, and a prefix before another byte stays. `translate`
is that translation. It carries the prefix from byte to byte, so the chunks do not matter. It also takes
the two calls that clear a prefix without a byte: at the end of the input the prefix is forwarded, and
when a modal state is left it is given up.

`forwarded_eq` joins the two, for every sequence of calls.
-/

namespace Yonder.Controller

open Lib

/-! ## The translation -/

inductive PassEvent where
  | byte (b : UInt8)
  /-- The end of the input. -/
  | flush
  /-- The prefix is given up. -/
  | abandon
  deriving DecidableEq, Repr

/-- What a prefix and the byte behind it give. -/
def selected (b : UInt8) : Bytes :=
  if b = localEscape then [localEscape]
  -- '.', 'u', 'd', '?'
  else if b = 0x2E ∨ b = 0x75 ∨ b = 0x64 ∨ b = 0x3F then []
  else [localEscape, b]

/-- One event, with or without a prefix before it. -/
def translateOne (carried : Bool) : PassEvent → Bool × Bytes
  | .byte b =>
    if carried then (false, selected b)
    else if b = localEscape then (true, [])
    else (false, [b])
  | .flush => (false, if carried then [localEscape] else [])
  | .abandon => (false, [])

/-- Event after event: whether a prefix is carried at the end, and the bytes. -/
def translate : Bool → List PassEvent → Bool × Bytes
  | carried, [] => (carried, [])
  | carried, e :: events =>
    ((translate (translateOne carried e).1 events).1,
      (translateOne carried e).2 ++ (translate (translateOne carried e).1 events).2)

theorem translate_append (carried : Bool) (first second : List PassEvent) :
    translate carried (first ++ second) =
      ((translate (translate carried first).1 second).1,
        (translate carried first).2 ++ (translate (translate carried first).1 second).2) := by
  induction first generalizing carried with
  | nil => rfl
  | cons e first ih => rw [List.cons_append, translate, translate, ih, List.append_assoc]

theorem length_selected_le (b : UInt8) : (selected b).length ≤ 2 := by
  unfold selected
  split_ifs <;> simp

/-- The translation gives at most one byte for each event, and one for the prefix before them. -/
theorem length_translate_le (carried : Bool) (events : List PassEvent) :
    (translate carried events).2.length + (translate carried events).1.toNat ≤
      events.length + carried.toNat := by
  induction events generalizing carried with
  | nil => exact le_rfl
  | cons e events ih =>
    have hone : (translateOne carried e).2.length + (translateOne carried e).1.toNat ≤
        1 + carried.toNat := by
      cases e with
      | byte b =>
        cases carried with
        | true => exact length_selected_le b
        | false =>
          rw [translateOne, if_neg Bool.false_ne_true]
          split_ifs <;> exact le_rfl
      | flush => cases carried <;> simp [translateOne]
      | abandon => simp [translateOne]
    have hrest := ih (translateOne carried e).1
    rw [translate]
    dsimp only
    rw [List.length_append, List.length_cons]
    omega

/-! ## The calls -/

/-- A chunk of local input. -/
abbrev LocalInputChunk := { bytes : Bytes // bytes.length ≤ inputCapacity }

/-- `REMOTE_CAPACITY`. -/
def remoteCapacity : Nat := inputCapacity + 1

inductive ControlCall where
  | process (chunk : LocalInputChunk)
  | finish
  | enterTransfer
  | leaveModal
  deriving DecidableEq

/-- The bytes of a call. -/
def ControlCall.bytes : ControlCall → Bytes
  | .process chunk => chunk.1
  | _ => []

namespace LocalControlInput

/-- One call: the machine afterwards, and what it gives. -/
def call (c : LocalControlInput) : ControlCall → LocalControlInput × ProcessedInput
  | .process chunk => c.process chunk.1
  | .finish => c.finish
  -- an error leaves the machine as it is
  | .enterTransfer => (c.enterTransfer.getD c, {})
  | .leaveModal => (c.leaveModal.1, { action := c.leaveModal.2 })

/-- The part of a chunk that is read in pass-through: up to a selector that ends it. -/
def passed : Bool → Bytes → Bytes
  | _, [] => []
  | true, b :: rest =>
    if b = 0x2E ∨ b = 0x75 ∨ b = 0x64 then [b] else b :: passed false rest
  | false, b :: rest => b :: passed (b = localEscape) rest

/-- What a call of an enabled machine reads in pass-through. -/
def passEvents (c : LocalControlInput) : ControlCall → List PassEvent
  | .process chunk =>
    if c.ended = false ∧ c.modal = none then (passed c.pendingPrefix chunk.1).map .byte else []
  | .finish => if c.ended = false ∧ c.modal = none then [.flush] else []
  | .enterTransfer => []
  | .leaveModal => if c.modal = none then [.abandon] else []

/-- The prefix that is carried in pass-through. -/
def carried (c : LocalControlInput) : Bool := c.modal.isNone && c.pendingPrefix

def callAll (c : LocalControlInput) (calls : List ControlCall) : LocalControlInput :=
  calls.foldl (fun c x => (c.call x).1) c

/-- All that is forwarded. -/
def forwarded : LocalControlInput → List ControlCall → Bytes
  | _, [] => []
  | c, x :: calls => (c.call x).2.remoteBytes ++ forwarded (c.call x).1 calls

/-- All that is read in pass-through. -/
def passedAll : LocalControlInput → List ControlCall → List PassEvent
  | _, [] => []
  | c, x :: calls => c.passEvents x ++ passedAll (c.call x).1 calls

/-! ## A chunk in pass-through -/

/-- What a chunk gives in pass-through, behind what the result has already. -/
structure PassSpec (c : LocalControlInput) (result : ProcessedInput) (input : Bytes)
    (after : LocalControlInput × ProcessedInput) : Prop where
  enabled : after.1.enabled = c.enabled
  settled : after.1.ended = c.ended ∨ after.1.carried = false
  remote : after.2.remoteBytes =
    result.remoteBytes ++ (translate c.pendingPrefix ((passed c.pendingPrefix input).map .byte)).2
  carried : after.1.carried =
    (translate c.pendingPrefix ((passed c.pendingPrefix input).map .byte)).1
  path : after.2.pathBytes = result.pathBytes
  remainder : ∃ dropped, input = passed c.pendingPrefix input ++ dropped ∧
    (after.2.remainder = result.remainder ++ dropped ∨
      (after.2.remainder = result.remainder ∧ (dropped = [] ∨ after.1.ended = true)))

variable {c : LocalControlInput} {result' : ProcessedInput} {byte : UInt8} {rest : Bytes}

theorem PassSpec.behind {c' : LocalControlInput} {result : ProcessedInput} {out : Bytes}
    {after : LocalControlInput × ProcessedInput} (h : PassSpec c' result' rest after)
    (henabled : c'.enabled = c.enabled) (hended : c'.ended = c.ended)
    (hone : translateOne c.pendingPrefix (.byte byte) = (c'.pendingPrefix, out))
    (hpassed : passed c.pendingPrefix (byte :: rest) = byte :: passed c'.pendingPrefix rest)
    (hremote : result'.remoteBytes = result.remoteBytes ++ out)
    (hpath : result'.pathBytes = result.pathBytes)
    (hremainder : result'.remainder = result.remainder) :
    PassSpec c result (byte :: rest) after := by
  have htranslate : translate c.pendingPrefix ((passed c.pendingPrefix (byte :: rest)).map .byte) =
      ((translate c'.pendingPrefix ((passed c'.pendingPrefix rest).map .byte)).1,
        out ++ (translate c'.pendingPrefix ((passed c'.pendingPrefix rest).map .byte)).2) := by
    rw [hpassed, List.map_cons, translate, hone]
  obtain ⟨dropped, hinput, hrest⟩ := h.remainder
  refine ⟨h.enabled.trans henabled, hended ▸ h.settled, ?_, ?_, h.path.trans hpath, dropped, ?_, ?_⟩
  · rw [h.remote, hremote, htranslate, List.append_assoc]
  · rw [h.carried, htranslate]
  · rw [hpassed, List.cons_append, ← hinput]
  · rw [← hremainder]
    exact hrest

/-- A selector that ends pass-through. -/
theorem PassSpec.selector {result : ProcessedInput} {after : LocalControlInput × ProcessedInput}
    (hpending : c.pendingPrefix = true) (hbyte : byte = 0x2E ∨ byte = 0x75 ∨ byte = 0x64)
    (henabled : after.1.enabled = c.enabled) (hcarried : after.1.carried = false)
    (hremote : after.2.remoteBytes = result.remoteBytes)
    (hpath : after.2.pathBytes = result.pathBytes) (hremainder : after.2.remainder = result.remainder ++ rest ∨
      (after.2.remainder = result.remainder ∧ after.1.ended = true))
    :
    PassSpec c result (byte :: rest) after := by
  have hpassed : passed c.pendingPrefix (byte :: rest) = [byte] := by
    rw [hpending]
    exact if_pos hbyte
  have hone : translateOne c.pendingPrefix (.byte byte) = (false, []) := by
    rw [hpending]
    rcases hbyte with rfl | rfl | rfl <;> rfl
  refine ⟨henabled, .inr hcarried, ?_, ?_, hpath, rest, ?_, ?_⟩
  · rw [hpassed, List.map_cons, List.map_nil, translate, hone, hremote]
    exact (List.append_nil _).symm
  · rw [hpassed, List.map_cons, List.map_nil, translate, hone, hcarried]
    rfl
  · rw [hpassed]
    rfl
  · rcases hremainder with hkept | ⟨hnone, hended⟩
    · exact .inl hkept
    · exact .inr ⟨hnone, .inr hended⟩

/-- A byte behind a prefix that does not end pass-through. -/
theorem PassSpec.chosen {result : ProcessedInput} {after : LocalControlInput × ProcessedInput}
    (hpending : c.pendingPrefix = true) (hdot : byte ≠ 0x2E) (hu : byte ≠ 0x75) (hd : byte ≠ 0x64)
    (h : PassSpec { c with pendingPrefix := false } result' rest after)
    (hremote : result'.remoteBytes = result.remoteBytes ++ selected byte)
    (hpath : result'.pathBytes = result.pathBytes)
    (hremainder : result'.remainder = result.remainder) :
    PassSpec c result (byte :: rest) after := by
  refine h.behind rfl rfl ?_ ?_ hremote hpath hremainder
  · rw [hpending]
    rfl
  · rw [hpending]
    exact if_neg (not_or.2 ⟨hdot, not_or.2 ⟨hu, hd⟩⟩)

theorem processPassThrough_spec (input : Bytes) (result : ProcessedInput) (hmodal : c.modal = none) :
    PassSpec c result input (c.processPassThrough result input) := by
  -- by induction on the chunk; the cases are the branches of the source
  induction input generalizing c result with
  | nil =>
    refine ⟨rfl, .inl rfl, (List.append_nil _).symm, ?_, rfl, [], rfl, .inr ⟨rfl, .inl rfl⟩⟩
    rw [processPassThrough, LocalControlInput.carried, hmodal]
    cases c.pendingPrefix <;> rfl
  | cons byte rest ih =>
    rw [processPassThrough]
    split_ifs with hpending hdot hescape hu hd hhelp hescape
    · exact .selector hpending (.inl hdot) rfl rfl rfl rfl (.inr ⟨rfl, rfl⟩)
    · subst hescape
      exact .chosen hpending (by decide) (by decide) (by decide) (ih _ hmodal) rfl rfl rfl
    · exact .selector hpending (.inr (.inl hu)) rfl rfl rfl rfl (.inl rfl)
    · exact .selector hpending (.inr (.inr hd)) rfl rfl rfl rfl (.inl rfl)
    · subst hhelp
      exact .chosen hpending (by decide) (by decide) (by decide) (ih _ hmodal)
        (List.append_nil _).symm rfl rfl
    · have hselected : selected byte = [localEscape, byte] := by
        rw [selected, if_neg hescape, if_neg (by simp [hdot, hu, hd, hhelp])]
      exact .chosen hpending hdot hu hd (ih _ hmodal) (by rw [hselected]) rfl rfl
    · subst hescape
      have hnone : c.pendingPrefix = false := Bool.eq_false_iff.2 hpending
      refine .behind (ih _ hmodal) rfl rfl ?_ ?_ (List.append_nil _).symm rfl rfl
      · rw [hnone]
        rfl
      · rw [hnone]
        rfl
    · have hnone : c.pendingPrefix = false := Bool.eq_false_iff.2 hpending
      refine .behind (ih _ hmodal) rfl rfl ?_ ?_ rfl rfl rfl
      · rw [hnone]
        exact if_neg hescape
      · rw [hnone, passed, decide_eq_false hescape]

/-! ## A chunk while modal -/

structure ModalSpec (c : LocalControlInput) (result : ProcessedInput) (input : Bytes)
    (after : LocalControlInput × ProcessedInput) : Prop where
  enabled : after.1.enabled = c.enabled
  remote : after.2.remoteBytes = result.remoteBytes
  carried : after.1.carried = false
  path : after.2.pathBytes.length ≤ result.pathBytes.length + input.length
  remainder : after.2.remainder = result.remainder

/-- A byte that gives nothing to forward. -/
theorem ModalSpec.behind {c' : LocalControlInput} {result : ProcessedInput}
    {after : LocalControlInput × ProcessedInput} (h : ModalSpec c' result' rest after)
    (henabled : c'.enabled = c.enabled) (hremote : result'.remoteBytes = result.remoteBytes)
    (hpath : result'.pathBytes.length ≤ result.pathBytes.length + 1)
    (hremainder : result'.remainder = result.remainder) :
    ModalSpec c result (byte :: rest) after := by
  refine ⟨h.enabled.trans henabled, h.remote.trans hremote, h.carried, ?_,
    h.remainder.trans hremainder⟩
  have hlength := h.path
  rw [List.length_cons]
  omega

theorem processModal_spec (input : Bytes) (phase : ModalPhase) (result : ProcessedInput)
    (hmodal : c.modal = some phase) :
    ModalSpec c result input (c.processModal phase result input) := by
  induction input generalizing c result with
  | nil =>
    refine ⟨rfl, rfl, ?_, le_rfl, rfl⟩
    rw [processModal, LocalControlInput.carried, hmodal]
    rfl
  | cons byte rest ih =>
    rw [processModal.eq_def]
    dsimp only
    split_ifs with hpending hdot hhelp hactive hescape hcancel
    · exact ⟨rfl, rfl, rfl, Nat.le_add_right _ _, rfl⟩
    · exact .behind (ih _ hmodal) rfl rfl (Nat.le_succ _) rfl
    · exact .behind (ih _ hmodal) rfl rfl (Nat.le_succ _) rfl
    · exact .behind (ih _ hmodal) rfl rfl (Nat.le_succ _) rfl
    · exact .behind (ih _ hmodal) rfl rfl (Nat.le_succ _) rfl
    · refine ⟨rfl, rfl, ?_, Nat.le_add_right _ _, rfl⟩
      rw [LocalControlInput.carried, hmodal]
      rfl
    all_goals
      cases phase with
      | uploadPrompt => exact .behind (ih _ hmodal) rfl rfl (by simp) rfl
      | downloadPrompt => exact .behind (ih _ hmodal) rfl rfl (by simp) rfl
      | transferring => exact .behind (ih _ hmodal) rfl rfl (Nat.le_succ _) rfl

/-! ## The calls and the translation -/

theorem process_disabled (henabled : c.enabled = false) (hended : c.ended = false) (input : Bytes) :
    c.process input = (c, { remoteBytes := input }) := by
  rw [process, hended, henabled]
  rfl

theorem process_ended (hended : c.ended = true) (input : Bytes) : c.process input = (c, {}) := by
  rw [process, hended]
  rfl

theorem process_pass (henabled : c.enabled = true) (hended : c.ended = false)
    (hmodal : c.modal = none) (input : Bytes) : PassSpec c {} input (c.process input) := by
  rw [process, hended, henabled, hmodal]
  exact processPassThrough_spec input {} hmodal

theorem process_modal {phase : ModalPhase} (henabled : c.enabled = true) (hended : c.ended = false)
    (hmodal : c.modal = some phase) (input : Bytes) : ModalSpec c {} input (c.process input) := by
  rw [process, hended, henabled, hmodal]
  exact processModal_spec input phase {} hmodal

/-- A machine that has ended carries no prefix. -/
def Settled (c : LocalControlInput) : Prop := c.ended = true → c.carried = false

/-- What a call that reads some events in pass-through gives. -/
structure CallSpec (c : LocalControlInput) (events : List PassEvent)
    (after : LocalControlInput × ProcessedInput) : Prop where
  enabled : after.1.enabled = true
  settled : after.1.Settled
  forwards : translate c.carried events = (after.1.carried, after.2.remoteBytes)

theorem carried_of_pass (h : c.modal = none) : c.carried = c.pendingPrefix := by
  rw [carried, h]
  rfl

theorem carried_of_modal {phase : ModalPhase} (h : c.modal = some phase) : c.carried = false := by
  rw [carried, h]
  rfl

theorem process_call (henabled : c.enabled = true) (hsettled : c.Settled) (chunk : LocalInputChunk) :
    CallSpec c (c.passEvents (.process chunk)) (c.process chunk.1) := by
  cases hended : c.ended with
  | true =>
    rw [process_ended hended, passEvents, if_neg (by simp [hended])]
    exact ⟨henabled, hsettled, rfl⟩
  | false =>
    cases hmodal : c.modal with
    | none =>
      have hspec := process_pass henabled hended hmodal chunk.1
      rw [passEvents, if_pos ⟨hended, hmodal⟩]
      refine ⟨hspec.enabled.trans henabled, ?_, ?_⟩
      · intro hafter
        rcases hspec.settled with hsame | hnone
        · rw [hsame, hended] at hafter
          cases hafter
        · exact hnone
      · rw [carried_of_pass hmodal, hspec.carried, hspec.remote]
        rfl
    | some phase =>
      have hspec := process_modal henabled hended hmodal chunk.1
      rw [passEvents, if_neg (by simp [hmodal])]
      refine ⟨hspec.enabled.trans henabled, fun _ => hspec.carried, ?_⟩
      rw [carried_of_modal hmodal, hspec.carried, hspec.remote]
      rfl

theorem finish_call (henabled : c.enabled = true) (hsettled : c.Settled) :
    CallSpec c (c.passEvents .finish) c.finish := by
  cases hended : c.ended with
  | true =>
    have hfinish : c.finish = (c, {}) := by
      rw [finish, hended]
      rfl
    rw [hfinish, passEvents, if_neg (by simp [hended])]
    exact ⟨henabled, hsettled, rfl⟩
  | false =>
    cases hpending : c.pendingPrefix with
    | false =>
      have hfinish : c.finish = (c, {}) := by
        rw [finish, hended, henabled, hpending]
        rfl
      have hcarried : c.carried = false := by
        rw [carried, hpending, Bool.and_false]
      rw [hfinish, passEvents]
      refine ⟨henabled, hsettled, ?_⟩
      rw [hcarried]
      split_ifs <;> rfl
    | true =>
      cases hmodal : c.modal with
      | none =>
        have hfinish : c.finish = ({ c with pendingPrefix := false },
            { remoteBytes := [localEscape] }) := by
          rw [finish, hended, henabled, hpending]
          dsimp only
          rw [hmodal]
          rfl
        rw [hfinish, passEvents, if_pos ⟨hended, hmodal⟩]
        refine ⟨henabled, fun _ => ?_, ?_⟩
        · rw [carried, Bool.and_false]
        · rw [carried_of_pass hmodal, hpending, carried, Bool.and_false]
          rfl
      | some phase =>
        have hfinish : c.finish = ({ c with pendingPrefix := false }, { action := .bell }) := by
          rw [finish, hended, henabled, hpending]
          dsimp only
          rw [hmodal]
          rfl
        rw [hfinish, passEvents, if_neg (by simp [hmodal])]
        refine ⟨henabled, fun _ => ?_, ?_⟩
        · rw [carried, Bool.and_false]
        · rw [carried_of_modal hmodal, carried, Bool.and_false]
          rfl

theorem enterTransfer_call (henabled : c.enabled = true) (hsettled : c.Settled) :
    CallSpec c (c.passEvents .enterTransfer) (c.call .enterTransfer) := by
  cases hmodal : c.modal with
  | none =>
    have hcall : c.call .enterTransfer = (c, {}) := by
      rw [call, enterTransfer, hmodal]
      rfl
    rw [hcall]
    exact ⟨henabled, hsettled, rfl⟩
  | some phase =>
    have hafter : ∃ c', c.call .enterTransfer = (c', {}) ∧ c'.enabled = true ∧
        c'.modal = some .transferring := by
      rw [call, enterTransfer, hmodal]
      cases phase with
      | transferring => exact ⟨c, rfl, henabled, hmodal⟩
      | uploadPrompt => exact ⟨_, rfl, henabled, rfl⟩
      | downloadPrompt => exact ⟨_, rfl, henabled, rfl⟩
    obtain ⟨c', hcall, henabled', hmodal'⟩ := hafter
    rw [hcall]
    refine ⟨henabled', fun _ => carried_of_modal hmodal', ?_⟩
    rw [carried_of_modal hmodal, carried_of_modal hmodal']
    rfl

theorem leaveModal_call (henabled : c.enabled = true) :
    CallSpec c (c.passEvents .leaveModal) (c.call .leaveModal) := by
  refine ⟨henabled, fun _ => rfl, ?_⟩
  rw [passEvents]
  cases hmodal : c.modal with
  | none => rfl
  | some phase =>
    rw [carried_of_modal hmodal]
    rfl

/-- One call of an enabled machine forwards the translation of what it reads in pass-through. -/
theorem call_spec (henabled : c.enabled = true) (hsettled : c.Settled) (x : ControlCall) :
    CallSpec c (c.passEvents x) (c.call x) := by
  cases x with
  | process chunk => exact process_call henabled hsettled chunk
  | finish => exact finish_call henabled hsettled
  | enterTransfer => exact enterTransfer_call henabled hsettled
  | leaveModal => exact leaveModal_call henabled

theorem forwarded_eq_translate (henabled : c.enabled = true) (hsettled : c.Settled)
    (calls : List ControlCall) :
    c.forwarded calls = (translate c.carried (c.passedAll calls)).2 := by
  induction calls generalizing c with
  | nil => rfl
  | cons x calls ih =>
    have hspec := call_spec henabled hsettled x
    rw [forwarded, passedAll, translate_append, hspec.forwards, ih hspec.enabled hspec.settled]

theorem settled_callAll (henabled : c.enabled = true) (hsettled : c.Settled)
    (calls : List ControlCall) : (c.callAll calls).enabled = true ∧ (c.callAll calls).Settled := by
  induction calls generalizing c with
  | nil => exact ⟨henabled, hsettled⟩
  | cons x calls ih =>
    have hspec := call_spec henabled hsettled x
    exact ih hspec.enabled hspec.settled

/-! ## The pieces of the input -/

theorem processPassThrough_append {a : Bytes} (b : Bytes) (result : ProcessedInput)
    (henabled : c.enabled = true) (hended : c.ended = false) (hmodal : c.modal = none) :
    (c.processPassThrough result (a ++ b)).2.remoteBytes =
      (c.processPassThrough result a).2.remoteBytes ++
        ((c.processPassThrough result a).1.process b).2.remoteBytes := by
  induction a generalizing c result with
  | nil =>
    have hwhole := (processPassThrough_spec b result hmodal).remote
    have hpart := (process_pass henabled hended hmodal b).remote
    rw [List.nil_append, hwhole, processPassThrough, hpart]
    rfl
  | cons byte a ih =>
    rw [List.cons_append, processPassThrough, processPassThrough]
    split_ifs with hpending hdot hescape hu hd hhelp hescape
    · dsimp only
      rw [process_ended rfl]
      exact (List.append_nil _).symm
    · exact ih _ henabled hended hmodal
    · have hspec : ModalSpec _ _ _ (process _ b) :=
        process_modal (c := { c with pendingPrefix := false }.enterPrompt .uploadPrompt) henabled hended rfl b
      dsimp only
      rw [hspec.remote]
      exact (List.append_nil _).symm
    · have hspec : ModalSpec _ _ _ (process _ b) :=
        process_modal (c := { c with pendingPrefix := false }.enterPrompt .downloadPrompt) henabled hended rfl b
      dsimp only
      rw [hspec.remote]
      exact (List.append_nil _).symm
    · exact ih _ henabled hended hmodal
    · exact ih _ henabled hended hmodal
    · exact ih _ henabled hended hmodal
    · exact ih _ henabled hended hmodal

/-- After a chunk that is read while modal, the next chunk is read while modal or not at all. -/
theorem processModal_stays {a : Bytes} (b : Bytes) {phase : ModalPhase} (result : ProcessedInput)
    (henabled : c.enabled = true) (hended : c.ended = false) (hmodal : c.modal = some phase) :
    ((c.processModal phase result a).1.process b).2.remoteBytes = [] := by
  induction a generalizing c result with
  | nil => exact (process_modal henabled hended hmodal b).remote
  | cons byte a ih =>
    rw [processModal.eq_def]
    dsimp only
    split_ifs with hpending hdot hhelp hactive hescape hcancel
    · dsimp only
      rw [process_ended rfl]
    · exact ih _ henabled hended hmodal
    · exact ih _ henabled hended hmodal
    · exact ih _ henabled hended hmodal
    · exact ih _ henabled hended hmodal
    · exact (process_modal henabled hended hmodal b).remote
    all_goals cases phase <;> exact ih _ henabled hended hmodal

/-- A chunk that is split in two is forwarded as it is in one piece. -/
theorem process_append (c : LocalControlInput) (a b : Bytes) :
    (c.process (a ++ b)).2.remoteBytes =
      (c.process a).2.remoteBytes ++ ((c.process a).1.process b).2.remoteBytes := by
  cases hended : c.ended with
  | true =>
    rw [process_ended hended, process_ended hended, process_ended hended]
    rfl
  | false =>
    cases henabled : c.enabled with
    | false =>
      rw [process_disabled henabled hended, process_disabled henabled hended,
        process_disabled henabled hended]
    | true =>
      cases hmodal : c.modal with
      | none =>
        have happend := processPassThrough_append (a := a) b {} henabled hended hmodal
        have hprocess : ∀ input, c.process input = c.processPassThrough {} input := by
          intro input
          rw [process, hended, henabled, hmodal]
          rfl
        rw [hprocess, hprocess a]
        exact happend
      | some phase =>
        have hprocess : ∀ input, c.process input = c.processModal phase {} input := by
          intro input
          rw [process, hended, henabled, hmodal]
          rfl
        have hstays := processModal_stays (a := a) b {} henabled hended hmodal
        rw [(process_modal henabled hended hmodal (a ++ b)).remote,
          (process_modal henabled hended hmodal a).remote, hprocess a, hstays]
        rfl

theorem forwarded_chunks (c : LocalControlInput) (chunks : List LocalInputChunk) :
    c.forwarded (chunks.map .process) = (c.process (chunks.map Subtype.val).flatten).2.remoteBytes := by
  induction chunks generalizing c with
  | nil =>
    change [] = (c.process []).2.remoteBytes
    rw [process]
    split_ifs
    · rfl
    · rfl
    · cases c.modal <;> rfl
  | cons chunk chunks ih =>
    rw [List.map_cons, List.map_cons, List.flatten_cons, process_append, forwarded, ih]
    rfl

/-! ## The buffers -/

theorem process_fits (c : LocalControlInput) (chunk : LocalInputChunk) :
    (c.process chunk.1).2.remoteBytes.length ≤ remoteCapacity ∧
      (c.process chunk.1).2.pathBytes.length ≤ inputCapacity ∧
      (c.process chunk.1).2.remainder.length ≤ inputCapacity := by
  have hchunk := chunk.2
  cases hended : c.ended with
  | true =>
    rw [process_ended hended]
    exact ⟨Nat.zero_le _, Nat.zero_le _, Nat.zero_le _⟩
  | false =>
    cases henabled : c.enabled with
    | false =>
      rw [process_disabled henabled hended]
      exact ⟨Nat.le_succ_of_le hchunk, Nat.zero_le _, Nat.zero_le _⟩
    | true =>
      cases hmodal : c.modal with
      | none =>
        have hspec := process_pass henabled hended hmodal chunk.1
        obtain ⟨dropped, hinput, hremainder⟩ := hspec.remainder
        have hlength := congrArg List.length hinput
        rw [List.length_append] at hlength
        refine ⟨?_, ?_, ?_⟩
        · have hle := length_translate_le c.pendingPrefix
            ((passed c.pendingPrefix chunk.1).map .byte)
          have hcarried := Bool.toNat_le c.pendingPrefix
          rw [List.length_map] at hle
          rw [hspec.remote]
          change List.length (translate _ _).2 ≤ inputCapacity + 1
          omega
        · rw [hspec.path]
          exact Nat.zero_le _
        · rcases hremainder with hkept | ⟨hnone, -⟩
          · rw [hkept]
            change List.length dropped ≤ _
            omega
          · rw [hnone]
            exact Nat.zero_le _
      | some phase =>
        have hspec := process_modal henabled hended hmodal chunk.1
        refine ⟨?_, ?_, ?_⟩
        · rw [hspec.remote]
          exact Nat.zero_le _
        · have hpath := hspec.path
          change _ ≤ 0 + chunk.1.length at hpath
          omega
        · rw [hspec.remainder]
          exact Nat.zero_le _

theorem call_fits (c : LocalControlInput) (x : ControlCall) :
    (c.call x).2.remoteBytes.length ≤ remoteCapacity ∧
      (c.call x).2.pathBytes.length ≤ inputCapacity ∧
      (c.call x).2.remainder.length ≤ inputCapacity := by
  cases x with
  | process chunk => exact c.process_fits chunk
  | finish =>
    rw [call, finish]
    split_ifs
    · exact ⟨Nat.zero_le _, Nat.zero_le _, Nat.zero_le _⟩
    · dsimp only
      split
      · exact ⟨Nat.zero_le _, Nat.zero_le _, Nat.zero_le _⟩
      · exact ⟨Nat.le_add_left 1 inputCapacity, Nat.zero_le _, Nat.zero_le _⟩
    · exact ⟨Nat.zero_le _, Nat.zero_le _, Nat.zero_le _⟩
  | enterTransfer => exact ⟨Nat.zero_le _, Nat.zero_le _, Nat.zero_le _⟩
  | leaveModal => exact ⟨Nat.zero_le _, Nat.zero_le _, Nat.zero_le _⟩

/-! ## A machine that is not enabled -/

theorem call_disabled (henabled : c.enabled = false) (hended : c.ended = false) (x : ControlCall) :
    (c.call x).1.enabled = false ∧ (c.call x).1.ended = false ∧ (c.call x).2.remoteBytes = x.bytes := by
  cases x with
  | process chunk =>
    rw [call, process_disabled henabled hended]
    exact ⟨henabled, hended, rfl⟩
  | finish =>
    rw [call, finish, hended, henabled]
    exact ⟨henabled, hended, rfl⟩
  | enterTransfer =>
    refine ⟨?_, ?_, rfl⟩
    all_goals
      rw [call, enterTransfer]
      split <;> assumption
  | leaveModal => exact ⟨henabled, hended, rfl⟩

theorem forwarded_disabled (henabled : c.enabled = false) (hended : c.ended = false)
    (calls : List ControlCall) : c.forwarded calls = calls.flatMap ControlCall.bytes := by
  induction calls generalizing c with
  | nil => rfl
  | cons x calls ih =>
    obtain ⟨henabled', hended', hbytes⟩ := call_disabled henabled hended x
    rw [forwarded, List.flatMap_cons, hbytes, ih henabled' hended']

/-! ## Local control as a whole -/

theorem settled_new (enabled modal : Bool) : (new enabled modal).Settled := by
  intro h
  cases h

/-- For every sequence of calls: an enabled machine forwards the translation of what it reads in
pass-through, where leaving a modal state gives a prefix up; a machine that is not enabled forwards all
it reads. From the state that is reached, chunks are forwarded as their bytes are in one piece, nothing is
forwarded while modal, nothing behind a selector that ends pass-through, and every buffer holds. -/
theorem forwarded_eq (enabled modal : Bool) (calls : List ControlCall) :
    (enabled = true → (new enabled modal).forwarded calls =
      (translate false ((new enabled modal).passedAll calls)).2) ∧
    (enabled = false → (new enabled modal).forwarded calls = calls.flatMap ControlCall.bytes) ∧
    (∀ chunks : List LocalInputChunk,
      ((new enabled modal).callAll calls).forwarded (chunks.map .process) =
        (((new enabled modal).callAll calls).process
          (chunks.map Subtype.val).flatten).2.remoteBytes) ∧
    (∀ chunk : LocalInputChunk, enabled = true →
      ((new enabled modal).callAll calls).modal ≠ none →
      (((new enabled modal).callAll calls).process chunk.1).2.remoteBytes = []) ∧
    (∀ chunk : LocalInputChunk, enabled = true →
      ((new enabled modal).callAll calls).modal = none →
      ((new enabled modal).callAll calls).ended = false →
      ∃ dropped, chunk.1 = passed ((new enabled modal).callAll calls).pendingPrefix chunk.1 ++ dropped ∧
        (((new enabled modal).callAll calls).process chunk.1).2.remoteBytes =
          (translate ((new enabled modal).callAll calls).pendingPrefix
            ((passed ((new enabled modal).callAll calls).pendingPrefix chunk.1).map .byte)).2) ∧
    (∀ x : ControlCall,
      (((new enabled modal).callAll calls).call x).2.remoteBytes.length ≤ remoteCapacity ∧
        (((new enabled modal).callAll calls).call x).2.pathBytes.length ≤ inputCapacity ∧
        (((new enabled modal).callAll calls).call x).2.remainder.length ≤ inputCapacity) := by
  refine ⟨?_, ?_, ?_, ?_, ?_, ?_⟩
  · rintro rfl
    have hforwarded := forwarded_eq_translate rfl (settled_new true modal) calls
    rw [hforwarded, carried, show (new true modal).pendingPrefix = false from rfl, Bool.and_false]
  · rintro rfl
    exact forwarded_disabled rfl rfl calls
  · exact forwarded_chunks _
  · intro chunk henabled hmodal
    subst henabled
    obtain ⟨henabled, -⟩ := settled_callAll rfl (settled_new true modal) calls
    obtain ⟨phase, hphase⟩ := Option.ne_none_iff_exists'.1 hmodal
    cases hended : ((new true modal).callAll calls).ended with
    | true => rw [process_ended hended]
    | false => exact (process_modal henabled hended hphase chunk.1).remote
  · intro chunk henabled hmodal hended
    subst henabled
    obtain ⟨henabled, -⟩ := settled_callAll rfl (settled_new true modal) calls
    have hspec := process_pass henabled hended hmodal chunk.1
    obtain ⟨dropped, hinput, -⟩ := hspec.remainder
    exact ⟨dropped, hinput, hspec.remote⟩
  · exact call_fits _

theorem forwarded_eq_selector :
    (new true false).forwarded [.process ⟨[0x61, 0x1D], by decide⟩, .process ⟨[0x75, 0x62], by decide⟩] =
      (translate false [.byte 0x61, .byte 0x1D, .byte 0x75]).2 :=
  (forwarded_eq true false [.process ⟨[0x61, 0x1D], by decide⟩,
    .process ⟨[0x75, 0x62], by decide⟩]).1 rfl

/-- A modal state that is left in pass-through: the prefix is given up, and the byte behind it is
forwarded alone. -/
theorem abandoned_not_forwarded :
    (new true false).forwarded [.process ⟨[0x1D], by decide⟩, .leaveModal, .process ⟨[0x61], by decide⟩] =
        [0x61] ∧
      (translate false [.byte 0x1D, .byte 0x61]).2 = [0x1D, 0x61] := by
  decide

end LocalControlInput

end Yonder.Controller
