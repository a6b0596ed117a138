import Mathlib.Data.List.Basic

/-!
# An append-only store that can fail

A `Sink` accepts what is written to it, piece by piece. Each call has an outcome: it succeeds, or it
fails after some of its elements were accepted. What was written by calls that succeeded is `confirmed`.
`writeAll_true` says what a sequence of successful writes leaves, and `writeAll_le` that a sequence
which breaks off leaves a part of that.
-/

namespace Yonder.Lib

/-- What a call of the store does. -/
inductive Outcome where
  | ok
  | fail (accepted : Nat)
deriving DecidableEq, Repr

/-- The accepted elements, those of successful calls, and the outcomes of the calls to come. A call for
which there is no outcome succeeds. -/
structure Sink (α : Type) where
  accepted : List α
  confirmed : List α
  outcomes : List Outcome
deriving DecidableEq

namespace Sink

variable {α : Type}

/-- One write, and whether it succeeded. -/
def write (s : Sink α) (piece : List α) : Bool × Sink α :=
  match s.outcomes with
  | [] => (true, ⟨s.accepted ++ piece, s.confirmed ++ piece, []⟩)
  | .ok :: rest => (true, ⟨s.accepted ++ piece, s.confirmed ++ piece, rest⟩)
  | .fail n :: rest => (false, ⟨s.accepted ++ piece.take n, s.confirmed, rest⟩)

/-- The pieces one after the other, up to the first failure. -/
def writeAll (s : Sink α) : List (List α) → Bool × Sink α
  | [] => (true, s)
  | piece :: pieces =>
    match s.write piece with
    | (true, s') => s'.writeAll pieces
    | (false, s') => (false, s')

/-- A flush, and whether it succeeded; it accepts nothing. -/
def flush (s : Sink α) : Bool × Sink α :=
  match s.outcomes with
  | [] => (true, s)
  | .ok :: rest => (true, { s with outcomes := rest })
  | .fail _ :: rest => (false, { s with outcomes := rest })

variable {s s' : Sink α}

theorem write_true {piece : List α} (h : s.write piece = (true, s')) :
    s'.accepted = s.accepted ++ piece ∧ s'.confirmed = s.confirmed ++ piece := by
  unfold write at h
  split at h <;> cases h <;> exact ⟨rfl, rfl⟩

theorem write_le {ok : Bool} {piece : List α} (h : s.write piece = (ok, s')) :
    s'.accepted <+: s.accepted ++ piece := by
  unfold write at h
  split at h <;> cases h
  · exact List.prefix_rfl
  · exact List.prefix_rfl
  · exact (List.prefix_append_right_inj _).2 (List.take_prefix _ _)

theorem writeAll_true {pieces : List (List α)} (h : s.writeAll pieces = (true, s')) :
    s'.accepted = s.accepted ++ pieces.flatten ∧ s'.confirmed = s.confirmed ++ pieces.flatten := by
  induction pieces generalizing s with
  | nil =>
    cases h
    exact ⟨(List.append_nil _).symm, (List.append_nil _).symm⟩
  | cons piece pieces ih =>
    rw [writeAll] at h
    split at h
    · rename_i next hwrite
      obtain ⟨haccepted, hconfirmed⟩ := write_true hwrite
      obtain ⟨haccepted', hconfirmed'⟩ := ih h
      constructor
      · rw [haccepted', haccepted, List.flatten_cons, List.append_assoc]
      · rw [hconfirmed', hconfirmed, List.flatten_cons, List.append_assoc]
    · cases h

theorem writeAll_le {ok : Bool} {pieces : List (List α)} (h : s.writeAll pieces = (ok, s')) :
    s'.accepted <+: s.accepted ++ pieces.flatten := by
  induction pieces generalizing s with
  | nil =>
    cases h
    exact List.prefix_append _ _
  | cons piece pieces ih =>
    rw [writeAll] at h
    split at h
    · rename_i next hwrite
      obtain ⟨haccepted, -⟩ := write_true hwrite
      rw [List.flatten_cons, ← List.append_assoc, ← haccepted]
      exact ih h
    · rename_i next hwrite
      cases h
      refine (write_le hwrite).trans ?_
      rw [List.flatten_cons, ← List.append_assoc]
      exact List.prefix_append _ _

theorem flush_eq {ok : Bool} (h : s.flush = (ok, s')) :
    s'.accepted = s.accepted ∧ s'.confirmed = s.confirmed := by
  unfold flush at h
  split at h <;> cases h <;> exact ⟨rfl, rfl⟩

/-- A store that does not fail accepts everything. -/
theorem writeAll_reliable (pieces : List (List α)) :
    ∀ s : Sink α, s.outcomes = [] →
      s.writeAll pieces = (true, ⟨s.accepted ++ pieces.flatten, s.confirmed ++ pieces.flatten, []⟩) := by
  induction pieces with
  | nil =>
    rintro ⟨accepted, confirmed, outcomes⟩ rfl
    simp [writeAll]
  | cons piece pieces ih =>
    rintro ⟨accepted, confirmed, outcomes⟩ rfl
    rw [writeAll, write]
    simp [ih]

end Sink

end Yonder.Lib
