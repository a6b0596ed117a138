import Mathlib.Data.List.Basic

/-!
# Filling a buffer from a stream

A buffer is filled from a stream by reads that deliver as much as they like, at least one element while
there is one. Between two reads the caller can go away, and come back to the buffer as it is. `fill` runs
one such loop on a schedule of reads and cancellations, and `fill_spec` says all that the users need:
nothing is lost between the stream and the buffer, how the loop ended, and how many reads it took.
-/

namespace Yonder.Lib

/-- What happens at a point where the loop waits: a read delivers up to `more + 1` elements, or the
caller goes away. -/
inductive Poll where
  | ready (more : Nat)
  | cancel
deriving DecidableEq, Repr

namespace Poll

/-- The number of reads of a schedule. -/
def reads : List Poll → Nat
  | [] => 0
  | ready _ :: polls => reads polls + 1
  | cancel :: polls => reads polls

theorem reads_map_ready (sizes : List Nat) : reads (sizes.map ready) = sizes.length := by
  induction sizes with
  | nil => rfl
  | cons size sizes ih => rw [List.map_cons, reads, ih, List.length_cons]

end Poll

/-- The filled part of a buffer of some capacity. -/
abbrev Buffer (α : Type) (capacity : Nat) : Type := { data : List α // data.length ≤ capacity }

/-- How a loop ended: the buffer is full, the stream is over, the caller went away, or the schedule does
not go on. -/
inductive FillEnd where
  | full
  | eof
  | cancelled
  | waiting
deriving DecidableEq, Repr

variable {α : Type} {capacity : Nat}

namespace Buffer

def empty (α : Type) (capacity : Nat) : Buffer α capacity := ⟨[], Nat.zero_le _⟩

/-- One read of at most `more + 1` elements into the rest of the buffer. -/
def read (b : Buffer α capacity) (stream : List α) (more : Nat) : Buffer α capacity × List α :=
  (⟨b.1 ++ stream.take (min (more + 1) (capacity - b.1.length)), by
      have := b.2
      rw [List.length_append, List.length_take]
      omega⟩,
    stream.drop (min (more + 1) (capacity - b.1.length)))

end Buffer

/-- The loop. -/
def fill : List Poll → List α → Buffer α capacity → FillEnd × List Poll × List α × Buffer α capacity
  | [], stream, b => (if b.1.length < capacity then .waiting else .full, [], stream, b)
  | .cancel :: polls, stream, b =>
    if b.1.length < capacity then (.cancelled, polls, stream, b)
    else (.full, .cancel :: polls, stream, b)
  | .ready more :: polls, stream, b =>
    if b.1.length < capacity then
      if stream = [] then (.eof, polls, stream, b)
      else fill polls (b.read stream more).2 (b.read stream more).1
    else (.full, .ready more :: polls, stream, b)

/-- What a loop leaves. -/
structure FillSpec (polls : List Poll) (stream : List α) (b : Buffer α capacity) (how : FillEnd)
    (polls' : List Poll) (stream' : List α) (b' : Buffer α capacity) : Prop where
  bytes : b'.1 ++ stream' = b.1 ++ stream
  grows : b.1 <+: b'.1
  full : how = .full → b'.1.length = capacity
  short : how ≠ .full → b'.1.length < capacity
  eof : how = .eof → stream' = []
  waiting : how = .waiting → polls' = []
  consumed : polls'.length ≤ polls.length
  cancelled : how = .cancelled → polls'.length < polls.length
  reads : Poll.reads polls + b.1.length ≤
    Poll.reads polls' + b'.1.length + (if how = .eof then 1 else 0)
  steady : Poll.cancel ∉ polls → how ≠ .cancelled ∧ Poll.cancel ∉ polls'

variable {polls polls' : List Poll} {b b' : Buffer α capacity} {stream' : List α}

theorem fillSpec_full {stream : List α} (h : ¬ b.1.length < capacity) :
    FillSpec polls stream b .full polls stream b where
  bytes := rfl
  grows := List.prefix_rfl
  full := fun _ => Nat.le_antisymm b.2 (Nat.not_lt.1 h)
  short := fun hne => absurd rfl hne
  eof := by simp
  waiting := by simp
  consumed := Nat.le_refl _
  cancelled := by simp
  reads := by simp
  steady := fun hpolls => ⟨by simp, hpolls⟩

/-- A read takes at least one element from a stream that has one. -/
theorem Buffer.read_spec (b : Buffer α capacity) {stream : List α} (more : Nat)
    (hroom : b.1.length < capacity) (hstream : stream ≠ []) :
    (b.read stream more).1.1 ++ (b.read stream more).2 = b.1 ++ stream ∧
      b.1 <+: (b.read stream more).1.1 ∧ b.1.length + 1 ≤ (b.read stream more).1.1.length := by
  refine ⟨?_, List.prefix_append _ _, ?_⟩
  · rw [read, List.append_assoc, List.take_append_drop]
  · have hpos := List.length_pos_of_ne_nil hstream
    rw [read, List.length_append, List.length_take]
    omega

theorem fill_specAux (polls : List Poll) :
    ∀ (stream : List α) (b : Buffer α capacity),
      FillSpec polls stream b (fill polls stream b).1 (fill polls stream b).2.1
        (fill polls stream b).2.2.1 (fill polls stream b).2.2.2 := by
  induction polls with
  | nil =>
    intro stream b
    by_cases h : b.1.length < capacity
    · rw [fill, if_pos h]
      exact ⟨rfl, List.prefix_rfl, by simp, fun _ => h, by simp, fun _ => rfl, Nat.le_refl _, by simp,
        by simp, fun hpolls => ⟨by simp, hpolls⟩⟩
    · rw [fill, if_neg h]
      exact fillSpec_full h
  | cons poll polls ih =>
    intro stream b
    cases poll with
    | cancel =>
      by_cases h : b.1.length < capacity
      · rw [fill, if_pos h]
        exact ⟨rfl, List.prefix_rfl, by simp, fun _ => h, by simp, by simp, Nat.le_succ _,
          fun _ => Nat.lt_succ_self _, by simp [Poll.reads], fun hpolls => by simp at hpolls⟩
      · rw [fill, if_neg h]
        exact fillSpec_full h
    | ready more =>
      by_cases h : b.1.length < capacity
      · rw [fill, if_pos h]
        by_cases hstream : stream = []
        · rw [if_pos hstream]
          exact ⟨rfl, List.prefix_rfl, by simp, fun _ => h, fun _ => hstream, by simp, Nat.le_succ _,
            by simp, by simp [Poll.reads]; omega, fun hpolls => ⟨by simp, by simpa using hpolls⟩⟩
        · rw [if_neg hstream]
          obtain ⟨hbytes, hgrows, hlength⟩ := b.read_spec more h hstream
          have spec := ih (b.read stream more).2 (b.read stream more).1
          have hreads := spec.reads
          exact ⟨spec.bytes.trans hbytes, hgrows.trans spec.grows, spec.full, spec.short, spec.eof,
            spec.waiting, Nat.le_succ_of_le spec.consumed,
            fun hcancelled => Nat.lt_succ_of_lt (spec.cancelled hcancelled),
            by rw [Poll.reads]; omega, fun hpolls => spec.steady (by simpa using hpolls)⟩
      · rw [fill, if_neg h]
        exact fillSpec_full h

theorem fill_spec {how : FillEnd} {stream : List α}
    (h : fill polls stream b = (how, polls', stream', b')) :
    FillSpec polls stream b how polls' stream' b' := by
  have spec := fill_specAux polls stream b
  rw [h] at spec
  exact spec

/-- A full buffer stays as it is. -/
theorem fill_full {stream : List α} (h : ¬ b.1.length < capacity) :
    fill polls stream b = (.full, polls, stream, b) := by
  cases polls with
  | nil => rw [fill, if_neg h]
  | cons poll polls =>
    cases poll with
    | ready more => rw [fill, if_neg h]
    | cancel => rw [fill, if_neg h]

/-- A loop that does not come to the end of the stream takes an element for every read. -/
theorem FillSpec.reads_stream {how : FillEnd} {stream : List α}
    (spec : FillSpec polls stream b how polls' stream' b') (h : how ≠ .eof) :
    Poll.reads polls + stream'.length ≤ Poll.reads polls' + stream.length := by
  have hreads := spec.reads
  have hlength := congrArg List.length spec.bytes
  rw [if_neg h] at hreads
  rw [List.length_append, List.length_append] at hlength
  omega

/-- A loop that ends with a full buffer has filled it with the next elements. -/
theorem FillSpec.data_eq {stream : List α} (spec : FillSpec polls stream b .full polls' stream' b')
    :
    b'.1 = (b.1 ++ stream).take capacity ∧ stream' = (b.1 ++ stream).drop capacity := by
  have hlength := spec.full rfl
  rw [← spec.bytes]
  exact ⟨(List.take_left' hlength).symm, (List.drop_left' hlength).symm⟩

/-- A loop with a read for every element of its buffer, on a stream that is long enough, ends with the
next elements in the buffer. -/
theorem fill_of_le (len : Nat) {stream : List α} (hsteady : Poll.cancel ∉ polls)
    (hstream : len ≤ stream.length) (hreads : len ≤ Poll.reads polls) :
    ∃ polls' buffer, fill polls stream (Buffer.empty α len) =
        (.full, polls', stream.drop len, buffer) ∧ buffer.1 = stream.take len ∧
      Poll.cancel ∉ polls' ∧ Poll.reads polls ≤ Poll.reads polls' + len := by
  obtain ⟨⟨how, polls', stream', buffer⟩, hfill⟩ :
      ∃ result, fill polls stream (Buffer.empty α len) = result := ⟨_, rfl⟩
  have spec := fill_spec hfill
  have htotal := congrArg List.length spec.bytes
  have hread := spec.reads
  simp only [Buffer.empty, List.nil_append, List.length_append, List.length_nil] at htotal hread
  cases how with
  | full =>
    obtain ⟨hdata, hrest⟩ := spec.data_eq
    have hfull := spec.full rfl
    rw [if_neg (by rintro ⟨⟩)] at hread
    exact ⟨polls', buffer, hfill.trans (by rw [hrest]; rfl), hdata, (spec.steady hsteady).2, by omega⟩
  | eof =>
    -- the buffer would hold the whole stream
    have hshort := spec.short (by rintro ⟨⟩)
    rw [spec.eof rfl, List.length_nil] at htotal
    omega
  | cancelled => exact absurd rfl (spec.steady hsteady).1
  | waiting =>
    -- every read took an element, and there was a read for each
    have hshort := spec.short (by rintro ⟨⟩)
    rw [spec.waiting rfl, if_neg (by rintro ⟨⟩), Poll.reads] at hread
    omega

end Yonder.Lib
