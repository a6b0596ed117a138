import Yonder.Transfer.Flow

/-!
# What the messages of a transfer say

The blocks in a list of messages, `Finish` as the last of them, and the messages that a side may have
written when it settles. `Finished.content_eq`: who has read `Finish` has read all that was written.
`writeFrameBounded_spec` is what a bounded write does.
-/

namespace Yonder.Transfer

open Lib Wire

/-! ## Messages -/

def isFinish : FileTransferMessage → Bool
  | .finish .. => true
  | _ => false

def isError : FileTransferMessage → Bool
  | .error _ => true
  | _ => false

/-- The bytes of the blocks. -/
def payload (messages : List FileTransferMessage) : Bytes :=
  messages.flatMap fun
    | .data bytes => bytes
    | _ => []

def NoFinish (messages : List FileTransferMessage) : Prop := ∀ m ∈ messages, isFinish m = false

/-- `Finish` is the last message, after blocks with the given content. -/
def Finished (messages : List FileTransferMessage) (content : Bytes) : Prop :=
  ∃ before size digest, messages = before ++ [.finish size digest] ∧ NoFinish before ∧
    payload before = content

/-- A commit or an error. -/
def isVerdict : FileTransferMessage → Bool
  | .committed => true
  | .error _ => true
  | _ => false

/-- Neither a commit nor an error was told. -/
def Silent (messages : List FileTransferMessage) : Prop := ∀ m ∈ messages, isVerdict m = false

theorem payload_append (first second : List FileTransferMessage) :
    payload (first ++ second) = payload first ++ payload second := List.flatMap_append

theorem noFinish_append {first second : List FileTransferMessage} (h : NoFinish first)
    (h' : NoFinish second) : NoFinish (first ++ second) := by
  intro m hm
  rcases List.mem_append.1 hm with hm | hm
  · exact h m hm
  · exact h' m hm

variable {m : FileTransferMessage} {messages : List FileTransferMessage} {content : Bytes}

theorem noFinish_singleton (h : isFinish m = false) : NoFinish [m] := by
  intro m' hm'
  rwa [List.mem_singleton.1 hm']

theorem Finished.mem (h : Finished messages content) : ∃ m ∈ messages, isFinish m = true := by
  obtain ⟨before, size, digest, rfl, -, -⟩ := h
  exact ⟨_, List.mem_append_right before (List.mem_singleton.2 rfl), rfl⟩

theorem NoFinish.not_finished {sent taken : List FileTransferMessage} (h : NoFinish sent)
    (hpre : taken <+: sent) : ¬ Finished taken content := by
  intro hfinished
  obtain ⟨m, hm, hfinish⟩ := hfinished.mem
  exact Bool.false_ne_true ((h m (hpre.subset hm)).symm.trans hfinish)

/-- Nothing follows `Finish`, so who has read it has read everything. -/
theorem Finished.content_eq {sent taken : List FileTransferMessage} {content' : Bytes}
    (h : Finished taken content) (h' : Finished sent content') (hpre : taken <+: sent) :
    content = content' := by
  obtain ⟨before, size, digest, rfl, -, rfl⟩ := h
  obtain ⟨before', size', digest', rfl, hno, rfl⟩ := h'
  obtain ⟨rest, hrest⟩ := hpre
  rcases List.eq_nil_or_concat rest with rfl | ⟨rest, last, rfl⟩
  · rw [List.append_nil] at hrest
    rw [(List.append_inj' hrest rfl).1]
  · -- otherwise the `Finish` that was read is among the messages before the last
    rw [List.concat_eq_append, ← List.append_assoc] at hrest
    have hbefore := (List.append_inj' hrest rfl).1
    have hmem : FileTransferMessage.finish size digest ∈ before' := by
      rw [← hbefore]
      simp
    cases hno _ hmem

theorem silent_append (h : Silent messages) (hm : isVerdict m = false) :
    Silent (messages ++ [m]) := by
  intro m' hm'
  rcases List.mem_append.1 hm' with hm' | hm'
  · exact h m' hm'
  · rwa [List.mem_singleton.1 hm']

theorem Silent.not_committed (h : Silent messages) :
    .committed ∉ messages := fun hm => absurd (h _ hm) nofun

theorem Silent.noError (h : Silent messages) : ∀ m ∈ messages, isError m = false := by
  intro m hm
  have hverdict := h m hm
  cases m with
  | error code => cases hverdict
  | _ => rfl

/-! ## Outputs -/

/-- Nothing was written, or some of the frame of one message. -/
def OutputOf (m : FileTransferMessage) (output : Output) : Prop :=
  ∀ w, output = some w → w.message = m ∧ framing.ok m

theorem OutputOf.frames {output : Output} (h : OutputOf m output) :
    framesOf output = [] ∨ framesOf output = [m] := by
  cases output with
  | none => exact .inl rfl
  | some w =>
    simp only [framesOf, (h w rfl).1]
    split
    · exact .inr rfl
    · exact .inl rfl

/-- A side that settles may have written some of a frame. -/
theorem OutputOf.settles {output : Output} (h : OutputOf m output) :
    ProperOutput output true false where
  ok w hw := (h w hw).1 ▸ (h w hw).2
  whileRunning _ _ := rfl
  stops _ _ _ := rfl
  falling := nofun

theorem ok_of_isControl (h : (encodeFrame m).isSome = true) (hdata : ∀ bytes, m ≠ .data bytes) :
    framing.ok m :=
  ⟨h, fun bytes heq => absurd heq (hdata bytes)⟩

theorem ok_error (code : FileTransferErrorCode) : framing.ok (.error code) :=
  ok_of_isControl rfl nofun

theorem ok_cancel : framing.ok .cancel := ok_of_isControl rfl nofun

theorem outputOf_bestEffortSend (session : WireSession) (hm : framing.ok m) (accepted : Nat) :
    OutputOf m (bestEffortSend session m accepted) := by
  intro w hw
  unfold bestEffortSend at hw
  split at hw
  · cases hw
  · cases hw
    exact ⟨rfl, hm⟩

theorem outputOf_failLocal (error : FileSemanticsError) (fallback : FileTransferErrorCode)
    (accepted : Nat) : ∃ code, OutputOf (.error code) (failLocal error fallback accepted).1 ∧
      (failLocal error fallback accepted).2 = .failed code := by
  unfold failLocal
  split
  case h_1 code _ =>
    refine ⟨code, fun w hw => ?_, rfl⟩
    cases hw
    exact ⟨rfl, ok_error code⟩
  case h_2 => exact ⟨fallback, nofun, rfl⟩

/-- What a bounded write of a message does. -/
structure WriteSpec (session : WireSession) (m : FileTransferMessage) (session' : WireSession)
    (output : Output) (result : Except WriteFrameError Unit) : Prop where
  wrote : OutputOf m output
  same : session'.direction = session.direction ∧ session'.side = session.side
  /-- A write that succeeds was recorded and is whole. -/
  done : result = .ok () →
    session.send m = .ok session' ∧ ∃ w, output = some w ∧ w.message = m ∧ w.Whole
  /-- A write that fails without having started leaves nothing. -/
  unstarted : ∀ e, result = .error e → e ∈ [.protocol, .cancelled false, .timeout false, .io false] →
    framesOf output = []

theorem send_same {session session' : WireSession} (h : session.send m = .ok session') :
    session'.direction = session.direction ∧ session'.side = session.side := by
  unfold WireSession.send at h
  cases hstate : sendState session.direction session.side session.state m with
  | error e => rw [hstate] at h; cases h
  | ok state =>
    rw [hstate] at h
    cases h
    exact ⟨rfl, rfl⟩

theorem receive_same {session session' : WireSession} (h : session.receive m = .ok session') :
    session'.direction = session.direction ∧ session'.side = session.side := by
  unfold WireSession.receive at h
  cases hstate : receiveState session.direction session.side session.state m with
  | error e => rw [hstate] at h; cases h
  | ok state =>
    rw [hstate] at h
    cases h
    exact ⟨rfl, rfl⟩

theorem not_whole_zero (h : (encodeFrame m).isSome = true) : ¬ Written.Whole ⟨m, 0⟩ := by
  have hpos := length_frameOf_pos h
  simp only [Written.Whole]
  omega

theorem writeFrameBounded_spec (session : WireSession) (hm : Framed m) (w : WriteOutcome) :
    WriteSpec session m (writeFrameBounded session m w).1
      (writeFrameBounded session m w).2.1 (writeFrameBounded session m w).2.2 := by
  unfold writeFrameBounded
  split_ifs with hrefused
  · exact ⟨(by rintro _ ⟨⟩), ⟨rfl, rfl⟩, (by rintro ⟨⟩), fun _ _ _ => rfl⟩
  cases hsend : session.send m with
  | error e => exact ⟨(by rintro _ ⟨⟩), ⟨rfl, rfl⟩, (by rintro ⟨⟩), fun _ _ _ => rfl⟩
  | ok session' =>
    have hsame := send_same hsend
    dsimp only
    cases hframe : encodeFrame m with
    | none => exact ⟨(by rintro _ ⟨⟩), hsame, (by rintro ⟨⟩), fun _ _ _ => rfl⟩
    | some frame =>
      have hsome : (encodeFrame m).isSome = true := by rw [hframe]; rfl
      have hframeOf : frameOf m = frame := by rw [frameOf, hframe]; rfl
      have hok : framing.ok m := ⟨hsome, hm⟩
      have hpart (n : Nat) : OutputOf m (some ⟨m, n⟩) := by
        intro w' hw'
        cases hw'
        exact ⟨rfl, hok⟩
      -- a failed write that did not start has accepted no byte
      have hzero (n : Nat) (hn : ¬ 0 < n) : framesOf (some ⟨m, n⟩) = [] := by
        rw [Nat.eq_zero_of_not_pos hn]
        exact if_neg (not_whole_zero hsome)
      cases w with
      | done =>
        refine ⟨hpart _, hsame, fun _ => ⟨hsend, _, rfl, rfl, ?_⟩, (by rintro _ ⟨⟩)⟩
        exact le_of_eq (congrArg List.length hframeOf)
      | refused => exact absurd rfl hrefused
      | cancelled n =>
        refine ⟨hpart n, hsame, (by rintro ⟨⟩), fun e he hmem => hzero n fun hn => ?_⟩
        cases he
        simp [hn] at hmem
      | timeout n =>
        refine ⟨hpart n, hsame, (by rintro ⟨⟩), fun e he hmem => hzero n fun hn => ?_⟩
        cases he
        simp [hn] at hmem
      | io n =>
        refine ⟨hpart n, hsame, (by rintro ⟨⟩), fun e he hmem => hzero n fun hn => ?_⟩
        cases he
        simp [hn] at hmem

end Yonder.Transfer
