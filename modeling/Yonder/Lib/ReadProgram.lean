import Yonder.Lib.Fill

/-!
# Programs of exact reads

A reader of a message asks for a number of elements, looks at them, and asks for more or ends with a
value or an error. `Program.eval` gives a program its meaning on a stream that is there as a whole, and
`Program.run` runs it on a stream that is delivered in pieces, until a timeout. `run_of_eval` and
`run_agrees` are the two directions between them: the pieces make no difference.
-/

namespace Yonder.Lib

/-- A reader of elements of `α`. -/
inductive Program (α ε Value : Type) where
  | value (v : Value)
  | fail (e : ε)
  | read (len : Nat) (next : List α → Program α ε Value)

/-- How a run ends: with a value and what is left of the schedule and of the stream, with an error, or
not yet. -/
inductive Run (α ε Value : Type) where
  | done (v : Value) (polls : List Poll) (stream : List α)
  | failed (e : ε)
  | waiting

/-- A run ends as the program does on the whole stream, unless by the end of the stream or a timeout. -/
def Run.Agrees {α ε Value : Type} (eof timeout : ε) (result : Option (Except ε Value × List α)) :
    Run α ε Value → Prop
  | .done v _ rest => result = some (.ok v, rest)
  | .failed e => e = eof ∨ e = timeout ∨ ∃ rest, result = some (.error e, rest)
  | .waiting => True

namespace Program

variable {α ε Value Next : Type}

def bind : Program α ε Value → (Value → Program α ε Next) → Program α ε Next
  | value v, f => f v
  | fail e, _ => fail e
  | read len next, f => read len fun elements => (next elements).bind f

/-- The result and the rest of the stream; none where the stream is too short. -/
def eval : Program α ε Value → List α → Option (Except ε Value × List α)
  | value v, stream => some (.ok v, stream)
  | fail e, stream => some (.error e, stream)
  | read len next, stream =>
    if len ≤ stream.length then (next (stream.take len)).eval (stream.drop len) else none

/-- A run on a schedule, with the errors for the end of the stream and for a timeout. -/
def run (eof timeout : ε) : Program α ε Value → List Poll → List α → Run α ε Value
  | value v, polls, stream => .done v polls stream
  | fail e, _, _ => .failed e
  | read len next, polls, stream =>
    match fill polls stream (Buffer.empty α len) with
    | (.full, polls, stream, buffer) => (next buffer.1).run eof timeout polls stream
    | (.eof, _) => .failed eof
    | (.cancelled, _) => .failed timeout
    | (.waiting, _) => .waiting

variable {p : Program α ε Value} {f : Value → Program α ε Next} {stream rest : List α} {v : Value}

theorem eval_read_append {len : Nat} {next : List α → Program α ε Value} (elements : List α)
    (h : elements.length = len) :
    (read len next).eval (elements ++ rest) = (next elements).eval rest := by
  rw [eval, if_pos (by rw [List.length_append]; omega), List.take_left' h, List.drop_left' h]

/-- A read takes the next elements. -/
theorem eval_read_eq_some {len : Nat} {next : List α → Program α ε Value}
    {result : Except ε Value × List α} (h : (read len next).eval stream = some result) :
    ∃ elements tail, stream = elements ++ tail ∧ elements.length = len ∧
      (next elements).eval tail = some result := by
  rw [eval] at h
  split_ifs at h with hlen
  exact ⟨_, _, (List.take_append_drop len stream).symm, List.length_take_of_le hlen, h⟩

/-- The continuation of a read matters only for lists of the length that was asked for. -/
theorem eval_read_congr {len : Nat} {next next' : List α → Program α ε Value}
    (h : ∀ elements tail, elements.length = len → (next elements).eval tail = (next' elements).eval tail) :
    (read len next).eval stream = (read len next').eval stream := by
  rw [eval, eval]
  split_ifs with hlen
  · exact h _ _ (List.length_take_of_le hlen)
  · rfl

/-- A program and the next one return a value when both do. -/
theorem eval_bind_eq_ok {w : Next} : (p.bind f).eval stream = some (.ok w, rest) ↔
    ∃ v tail, p.eval stream = some (.ok v, tail) ∧ (f v).eval tail = some (.ok w, rest) := by
  induction p generalizing stream with
  | value v => simp [bind, eval]
  | fail e => simp [bind, eval]
  | read len next ih =>
    rw [bind, eval, eval]
    split_ifs
    · exact ih _
    · simp

/-- A program does not give back what it has read. -/
theorem eval_length_le {result : Except ε Value} (h : p.eval stream = some (result, rest)) :
    rest.length ≤ stream.length := by
  induction p generalizing stream with
  | value v =>
    cases h
    exact Nat.le_refl _
  | fail e =>
    cases h
    exact Nat.le_refl _
  | read len next ih =>
    obtain ⟨elements, tail, rfl, -, htail⟩ := eval_read_eq_some h
    rw [List.length_append]
    exact Nat.le_trans (ih elements htail) (Nat.le_add_left _ _)

section Runs

variable {eof timeout : ε} {polls : List Poll}

/-- A value is returned from every schedule without a timeout that has a read for each element taken, and
the rest of the stream stays. -/
theorem run_of_eval (h : p.eval stream = some (.ok v, rest)) (hsteady : Poll.cancel ∉ polls)
    (hreads : stream.length ≤ Poll.reads polls + rest.length) :
    ∃ polls', p.run eof timeout polls stream = .done v polls' rest := by
  induction p generalizing polls stream with
  | value v =>
    cases h
    exact ⟨polls, rfl⟩
  | fail e => cases h
  | read len next ih =>
    obtain ⟨elements, tail, rfl, rfl, htail⟩ := eval_read_eq_some h
    -- what the continuation takes is part of the tail, so the schedule has a read for each element
    have hle := eval_length_le htail
    have hlen := Nat.le_add_right elements.length tail.length
    rw [← List.length_append] at hlen
    rw [List.length_append] at hreads
    obtain ⟨polls', buffer, hfill, hdata, hsteady', hreads'⟩ :=
      fill_of_le elements.length hsteady (hlen : _ ≤ (elements ++ tail).length) (by omega)
    rw [List.drop_left] at hfill
    rw [List.take_left] at hdata
    obtain ⟨polls'', hrun⟩ := ih elements htail hsteady' (by omega)
    refine ⟨polls'', ?_⟩
    rw [run, hfill]
    dsimp only
    rw [hdata, hrun]

/-- What a run comes to, for every schedule. -/
theorem run_agrees (p : Program α ε Value) (polls : List Poll) (stream : List α) :
    (p.run eof timeout polls stream).Agrees eof timeout (p.eval stream) := by
  induction p generalizing polls stream with
  | value v => exact rfl
  | fail e => exact .inr (.inr ⟨stream, rfl⟩)
  | read len next ih =>
    obtain ⟨⟨how, polls', stream', buffer⟩, hfill⟩ :
        ∃ result, fill polls stream (Buffer.empty α len) = result := ⟨_, rfl⟩
    rw [run, hfill]
    cases how with
    | full =>
      -- a full buffer holds the next elements of the stream, whatever the pieces were
      have spec := fill_spec hfill
      have hbytes : stream = buffer.1 ++ stream' := spec.bytes.symm
      rw [hbytes, eval_read_append _ (spec.full rfl)]
      exact ih buffer.1 polls' stream'
    | eof => exact .inl rfl
    | cancelled => exact .inr (.inl rfl)
    | waiting => exact trivial

end Runs

end Program

end Yonder.Lib
