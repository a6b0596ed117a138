import Yonder.Transfer.Exchange

/-!
# The messages between the two sides

The frames of a transfer as a `Framing`, and what a step does to the messages of each direction: what
was written whole, and what was read. `carries_write` and `carries_read` are the rules of the framed
stream for the two links of an exchange.
-/

namespace Yonder.Transfer

open Lib Wire

/-- The bytes of a frame. -/
def frameOf (m : FileTransferMessage) : Bytes := (encodeFrame m).getD []

theorem encodeFrame_of_isSome {m : FileTransferMessage} (h : (encodeFrame m).isSome = true) :
    encodeFrame m = some (frameOf m) := by
  obtain ⟨frame, hframe⟩ := Option.isSome_iff_exists.1 h
  rw [frameOf, hframe]
  rfl

/-- The frames of a file transfer. -/
def framing : Framing FileTransferMessage where
  enc := frameOf
  ok m := (encodeFrame m).isSome = true ∧ Framed m
  parse bytes := match readFrame true bytes with
    | .message m rest => some (m, rest)
    | _ => none
  parse_nil := rfl
  parse_enc m rest h := by
    rw [readFrame_encodeFrame h.2 (fun _ => rfl) (encodeFrame_of_isSome h.1)]
  parse_short m short h hpre hne := by
    rw [readFrame_short h.2 (fun _ => rfl) (encodeFrame_of_isSome h.1) hpre hne]

theorem readFrame_sink {bytes rest : Bytes} {m : FileTransferMessage} {sink : Bool}
    (h : readFrame sink bytes = .message m rest) : framing.parse bytes = some (m, rest) := by
  have htrue : readFrame true bytes = .message m rest := by
    cases sink with
    | true => exact h
    | false =>
      unfold readFrame at h ⊢
      split at h
      case h_2 => cases h
      case h_1 =>
        dsimp only at h ⊢
        split at h
        case h_1 => cases h
        case h_2 tag htag =>
          split at h
          case isTrue => cases h
          case isFalse hallowed =>
            rw [if_neg]
            · exact h
            · simp only [Bool.not_false, Bool.and_true, Bool.or_eq_true, Bool.not_eq_true',
                not_or] at hallowed
              simp [hallowed.1]
  exact congrArg (fun r : FrameRead => match r with
    | .message m rest => some (m, rest)
    | _ => none) htrue

theorem length_frameOf_pos {m : FileTransferMessage} (h : (encodeFrame m).isSome = true) :
    0 < (frameOf m).length := by
  obtain ⟨payload, -, hframe⟩ := encodeFrame_eq_some (encodeFrame_of_isSome h)
  rw [hframe, List.length_cons]
  exact Nat.succ_pos _

/-! ## What was written -/

/-- The frame was accepted whole. -/
def Written.Whole (w : Written) : Prop := (frameOf w.message).length ≤ w.accepted

instance (w : Written) : Decidable w.Whole := inferInstanceAs (Decidable (_ ≤ _))

/-- The messages written whole in a step. -/
def framesOf (output : Output) : List FileTransferMessage :=
  match output with
  | some w => if w.Whole then [w.message] else []
  | none => []

/-- What a side may write: a frame of the format, while it runs; after a part of a frame it has
ended. -/
structure ProperOutput (output : Output) (running after : Bool) : Prop where
  ok : ∀ w, output = some w → framing.ok w.message
  whileRunning : ∀ w, output = some w → running = true
  stops : ∀ w, output = some w → ¬ w.Whole → after = false
  falling : after = true → running = true

theorem ProperOutput.silent {running after : Bool} (h : after = true → running = true) :
    ProperOutput none running after :=
  ⟨nofun, nofun, nofun, h⟩

theorem carries_weaken {sent taken : List FileTransferMessage} {bytes : Bytes} {w w' : Bool}
    (h : framing.Carries sent taken bytes w) (hw : w' = true → w = true) :
    framing.Carries sent taken bytes w' := by
  cases w' with
  | false => exact h.stop
  | true =>
    cases hw rfl
    exact h

/-- A step of the writer. -/
theorem carries_write {l : Link} {sent taken : List FileTransferMessage} {output : Output}
    {running after : Bool} (h : framing.Carries sent taken l.bytes (!l.closed && running))
    (hout : ProperOutput output running after) (ended : Bool) :
    framing.Carries (sent ++ framesOf output) taken ((l.write output).endIf ended).bytes
      (!((l.write output).endIf ended).closed && after) := by
  cases output with
  | none =>
    rw [framesOf, List.append_nil]
    refine carries_weaken h fun hafter => ?_
    simp only [Link.write, Link.endIf, Bool.and_eq_true, Bool.not_eq_true',
      Bool.or_eq_false_iff] at hafter ⊢
    exact ⟨hafter.1.1, hout.falling hafter.2⟩
  | some w =>
    have hok := hout.ok w rfl
    cases hclosed : l.closed with
    | true =>
      have hwrite : l.write (some w) = l := by simp [Link.write, hclosed]
      have hfalse : (!(l.endIf ended).closed && after) = false := by simp [Link.endIf, hclosed]
      rw [hwrite, hfalse]
      exact h.lose _
    | false =>
      have hbytes : ((l.write (some w)).endIf ended).bytes =
          l.bytes ++ (frameOf w.message).take w.accepted := by
        simp [Link.write, Link.endIf, hclosed, Written.bytes, frameOf]
      rw [hbytes]
      rw [hclosed, hout.whileRunning w rfl] at h
      by_cases hwhole : w.Whole
      case pos =>
        rw [framesOf, if_pos hwhole, List.take_of_length_le hwhole]
        exact carries_weaken (h.write hok) fun _ => rfl
      case neg =>
        rw [framesOf, if_neg hwhole, List.append_nil, hout.stops w rfl hwhole,
          Bool.and_false]
        exact h.writePart hok (Nat.lt_of_not_le hwhole)

/-! ## What was read -/

/-- What a step took from its inbox. -/
def Took (inbox : Link) (taken : List FileTransferMessage) (left : Link) : Prop :=
  taken = [] ∧ left = inbox ∨
    ∃ m, taken = [m] ∧ framing.parse inbox.bytes = some (m, left.bytes) ∧ left.closed = inbox.closed

theorem Took.nothing (inbox : Link) : Took inbox [] inbox := .inl ⟨rfl, rfl⟩

theorem took_of_readLink {sink : Bool} {fault : Option ReadFault} {inbox left : Link}
    {m : FileTransferMessage} (h : readLink sink fault inbox = some (.ok (m, left))) :
    Took inbox [m] left := by
  unfold readLink at h
  split at h
  case h_1 | h_2 => cases h
  case h_3 =>
    split at h
    case h_1 m' rest hread =>
      cases h
      exact .inr ⟨m, rfl, readFrame_sink hread, rfl⟩
    case h_2 => cases h
    case h_3 => split at h <;> cases h

theorem carries_read {inbox left : Link} {sent taken new : List FileTransferMessage}
    {running : Bool} (h : framing.Carries sent taken inbox.bytes (!inbox.closed && running))
    (htook : Took inbox new left) :
    framing.Carries sent (taken ++ new) left.bytes (!left.closed && running) := by
  rcases htook with ⟨rfl, rfl⟩ | ⟨m, rfl, hparse, hclosed⟩
  · rwa [List.append_nil]
  · rw [hclosed]
    exact h.read hparse

end Yonder.Transfer
