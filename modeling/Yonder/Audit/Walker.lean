import Yonder.Wire.Container

/-!
# The frame walker

`nextFrame` reads one record frame off the unread bytes of a container, as `FrameWalker::next_frame`
does: it stops at fewer than five bytes, at the footer magic, or at a frame that is cut off, and
reports an unknown type or a bad length as tampering. `frames` is the loop around it: the frames
delivered, and how the walk ended. The main results are `frames_encodeRecords`, that written frames
are delivered in order whatever follows them, and the equations for the ends of a walk.
-/

namespace Yonder.Audit

open Lib Wire

/-- Errors of a walk over a container; the reason texts are the source's. -/
inductive StreamError where
  | notAnAuditContainer
  | unsupportedAuditFormat
  | tampered (reason : String)
deriving DecidableEq, Repr

/-- What one call of `next_frame` does to the unread bytes. -/
inductive WalkStep where
  | frame (record : Record) (rest : Bytes)
  | stop (truncatedTail : Bool) (rest : Bytes)
deriving DecidableEq

/-- `next_frame`. -/
def nextFrame : Bytes → Except StreamError WalkStep
  | b₀ :: b₁ :: b₂ :: b₃ :: t :: body =>
    if [b₀, b₁, b₂, b₃] = footerMagic then .ok (.stop false (t :: body))
    else
      match RecordType.fromByte t with
      | none => .error (.tampered "the audit container has an unknown record type")
      | some type =>
        let frameLen := beNat [b₀, b₁, b₂, b₃]
        if validateFrameLen type frameLen = false then
          .error (.tampered "the audit container has an invalid record frame")
        else if body.length < frameLen - 1 then .ok (.stop true body)
        else .ok (.frame ⟨type, body.take (frameLen - 1)⟩ (body.drop (frameLen - 1)))
  | short => .ok (.stop (!short.isEmpty) short)

/-- The frames of a walk and its end: whether the tail is truncated, with the unread bytes. The fuel
bounds the number of frames. -/
def walkFrames : Nat → Bytes → List Record × Except StreamError (Bool × Bytes)
  | 0, rest => ([], .ok (false, rest))
  | fuel + 1, rest =>
    match nextFrame rest with
    | .error e => ([], .error e)
    | .ok (.stop truncatedTail rest') => ([], .ok (truncatedTail, rest'))
    | .ok (.frame r rest') =>
      let (rs, tail) := walkFrames fuel rest'
      (r :: rs, tail)

/-- The walk over the bytes after the header. Every frame takes at least five bytes, so the fuel
does not run out (`frames_eq`). -/
def frames (body : Bytes) : List Record × Except StreamError (Bool × Bytes) :=
  walkFrames (body.length + 1) body

/-! ## One step -/

variable {rest rest' : Bytes} {r : Record}

theorem nextFrame_short (h : rest.length < 5) :
    nextFrame rest = .ok (.stop (!rest.isEmpty) rest) := by
  match rest, h with
  | [], _ => rfl
  | [_], _ => rfl
  | [_, _], _ => rfl
  | [_, _, _], _ => rfl
  | [_, _, _, _], _ => rfl

theorem nextFrame_footer (h : rest ≠ []) :
    nextFrame (footerMagic ++ rest) = .ok (.stop false rest) := by
  cases rest with
  | nil => exact absurd rfl h
  | cons t body => rfl

/-- The bytes of a frame header followed by `body`: the frame is delivered when `body` holds the
payload and is a truncated tail otherwise. -/
theorem nextFrame_header (t : RecordType) (n : Nat) (body : Bytes)
    (hv : validateFrameLen t (n + 1) = true) :
    nextFrame (beBytes 4 (n + 1) ++ t.code :: body) =
      if body.length < n then .ok (.stop true body)
      else .ok (.frame ⟨t, body.take n⟩ (body.drop n)) := by
  have hle : n + 1 ≤ 1048576 := by
    simp only [validateFrameLen, Bool.and_eq_true, decide_eq_true_eq] at hv
    exact hv.1.2
  obtain ⟨b₀, b₁, b₂, b₃, hb⟩ := exists_four (length_beBytes 4 (n + 1))
  have hne : [b₀, b₁, b₂, b₃] ≠ footerMagic := by
    rw [← hb]
    exact beBytes_ne_footerMagic hle
  have hnat : beNat [b₀, b₁, b₂, b₃] = n + 1 := by
    rw [← hb, beNat_beBytes]
    exact Nat.mod_eq_of_lt (by omega)
  rw [hb]
  show nextFrame (b₀ :: b₁ :: b₂ :: b₃ :: t.code :: body) = _
  rw [nextFrame]
  simp [hne, hnat, hv]

/-- A written frame is delivered whole. -/
theorem nextFrame_encode (h : r.Valid) (rest : Bytes) :
    nextFrame (r.encode ++ rest) = .ok (.frame r rest) := by
  obtain ⟨t, payload⟩ := r
  have hnot : ¬ (payload ++ rest).length < payload.length := by
    rw [List.length_append]; omega
  have hform : Record.encode ⟨t, payload⟩ ++ rest =
      beBytes 4 (payload.length + 1) ++ t.code :: (payload ++ rest) := by
    simp only [Record.encode, List.append_assoc, List.cons_append]
  rw [hform, nextFrame_header t payload.length (payload ++ rest) h, if_neg hnot, List.take_left,
    List.drop_left]

/-- A delivered frame, read off its four length bytes. The value of the length field is kept as a
variable so that nothing unfolds the arithmetic of `beNat`. -/
theorem nextFrame_cons {b₀ b₁ b₂ b₃ t : UInt8} {body : Bytes} {n : Nat}
    (hn : beNat [b₀, b₁, b₂, b₃] = n)
    (h : nextFrame (b₀ :: b₁ :: b₂ :: b₃ :: t :: body) = .ok (.frame r rest')) :
    ∃ type m, n = m + 1 ∧ RecordType.fromByte t = some type ∧
      validateFrameLen type (m + 1) = true ∧ m ≤ body.length ∧
      r = ⟨type, body.take m⟩ ∧ rest' = body.drop m := by
  rw [nextFrame] at h
  simp only [hn] at h
  split at h
  · cases h
  split at h
  · cases h
  rename_i type htype
  split at h
  · cases h
  rename_i hval
  split at h
  · cases h
  rename_i hlen
  simp only [Except.ok.injEq, WalkStep.frame.injEq] at h
  have hval' : validateFrameLen type n = true := by simpa using hval
  have hpos : 1 ≤ n := by
    simp only [validateFrameLen, Bool.and_eq_true, decide_eq_true_eq] at hval'
    exact hval'.1.1
  obtain ⟨m, rfl⟩ : ∃ m, n = m + 1 := ⟨n - 1, by omega⟩
  rw [Nat.add_sub_cancel] at hlen h
  exact ⟨type, m, rfl, htype, hval', by omega, h.1.symm, h.2.symm⟩

/-- A delivered frame is the encoding of what was read. -/
theorem nextFrame_frame (h : nextFrame rest = .ok (.frame r rest')) :
    r.Valid ∧ rest = r.encode ++ rest' := by
  match rest, h with
  | b₀ :: b₁ :: b₂ :: b₃ :: t :: body, h =>
    obtain ⟨n, hn⟩ : ∃ n, beNat [b₀, b₁, b₂, b₃] = n := ⟨_, rfl⟩
    have hbytes : beBytes 4 n = [b₀, b₁, b₂, b₃] := by
      rw [← hn]
      exact beBytes_beNat [b₀, b₁, b₂, b₃]
    obtain ⟨type, m, rfl, htype, hval, hlen, rfl, rfl⟩ := nextFrame_cons hn h
    have htake : (body.take m).length = m := by
      rw [List.length_take]; omega
    have hcode : type.code = t := by
      have hf := List.find?_some htype
      simpa using hf
    refine ⟨?_, ?_⟩
    · rw [Record.Valid, htake]
      exact hval
    · rw [Record.encode, htake, hbytes, hcode]
      simp only [List.cons_append, List.nil_append, List.take_append_drop]
  | [], h => cases h
  | [_], h => cases h
  | [_, _], h => cases h
  | [_, _, _], h => cases h
  | [_, _, _, _], h => cases h

/-! ## The whole walk -/

theorem nextFrame_frame_length (h : nextFrame rest = .ok (.frame r rest')) :
    rest'.length < rest.length := by
  rw [(nextFrame_frame h).2, List.length_append, r.length_encode]
  omega

/-- Enough fuel is as good as any other. -/
theorem walkFrames_fuel : ∀ (n m : Nat) (rest : Bytes), rest.length < n → rest.length < m →
    walkFrames n rest = walkFrames m rest
  | 0, _, _, h, _ => absurd h (Nat.not_lt_zero _)
  | _ + 1, 0, _, _, h => absurd h (Nat.not_lt_zero _)
  | n + 1, m + 1, rest, hn, hm => by
      rw [walkFrames, walkFrames]
      cases hstep : nextFrame rest with
      | error e => rfl
      | ok step =>
        cases step with
        | stop truncatedTail rest' => rfl
        | frame r rest' =>
          have hlt := nextFrame_frame_length hstep
          have ih := walkFrames_fuel n m rest' (by omega) (by omega)
          simp only [ih]

/-- The walk is its first step and the walk over what that leaves. -/
theorem frames_eq (body : Bytes) :
    frames body = match nextFrame body with
      | .error e => ([], .error e)
      | .ok (.stop truncatedTail rest) => ([], .ok (truncatedTail, rest))
      | .ok (.frame r rest) => (r :: (frames rest).1, (frames rest).2) := by
  rw [frames, walkFrames]
  cases hstep : nextFrame body with
  | error e => rfl
  | ok step =>
    cases step with
    | stop truncatedTail rest => rfl
    | frame r rest =>
      have hlt := nextFrame_frame_length hstep
      simp only [frames]
      rw [walkFrames_fuel body.length (rest.length + 1) rest hlt (Nat.lt_succ_self _)]

theorem frames_of_stop {body : Bytes} {t : Bool} (h : nextFrame body = .ok (.stop t rest)) :
    frames body = ([], .ok (t, rest)) := by
  rw [frames_eq, h]

/-- Written frames are delivered in order, and the walk goes on after them. -/
theorem frames_encodeRecords (rs : List Record) (hv : ∀ r ∈ rs, r.Valid) (rest : Bytes) :
    frames (encodeRecords rs ++ rest) = (rs ++ (frames rest).1, (frames rest).2) := by
  induction rs with
  | nil => rfl
  | cons r rs ih =>
    have hr : r.Valid := hv r List.mem_cons_self
    have hrs := ih fun x hx => hv x (List.mem_cons_of_mem _ hx)
    rw [encodeRecords_cons, List.append_assoc, frames_eq, nextFrame_encode hr]
    simp only [hrs, List.cons_append]

end Yonder.Audit
