import Yonder.Lib.MinBy
import Mathlib.Algebra.Group.Nat.Even
import Mathlib.Data.List.Sort

/-!
# Ranking path candidates

`compare` ranks two established connections: by the median of the ping samples, by their range when
both have more than one sample, then by path, transport and order of establishment. Since the range
counts only between two candidates that both have it, `compare` is no order in general: `Cyclic`
describes the triples on which it goes round in a circle, and `strictTotalOn_iff` says that there is
no other obstacle.
-/

namespace Yonder.Net

open Lib

inductive CandidatePath where
  | direct
  | relayed
deriving DecidableEq

inductive TransportKind where
  | quic
  | tcp
  | webSocket
  | secureWebSocket
deriving DecidableEq

/-- The derived order of the variants. -/
def CandidatePath.index : CandidatePath → Nat
  | .direct => 0
  | .relayed => 1

@[inherit_doc CandidatePath.index]
def TransportKind.index : TransportKind → Nat
  | .quic => 0
  | .tcp => 1
  | .webSocket => 2
  | .secureWebSocket => 3

/-- Up to three ping samples, durations in nanoseconds. -/
structure PingSamples where
  values : List Nat
  length_le : values.length ≤ 3
deriving DecidableEq

namespace PingSamples

def new : PingSamples := ⟨[], by decide⟩

/-- Records a sample, and ignores those after the third. -/
def push (s : PingSamples) (sample : Nat) : Bool × PingSamples :=
  if h : s.values.length = 3 then (false, s)
  else (true, ⟨s.values ++ [sample], by have := s.length_le; simp; omega⟩)

def isUsable (s : PingSamples) : Bool := 1 ≤ s.values.length

/-- The number of samples, their median and their range; a sample over 64 bits of nanoseconds has no
statistics. -/
def statistics (s : PingSamples) : Option (Nat × Nat × Nat) :=
  if s.isUsable = false then none
  else if s.values.all (· < 2 ^ 64) = false then none
  else
    match s.values.insertionSort (· ≤ ·) with
    | [] => none
    | [a] => some (1, a, 0)
    | [a, b] => some (2, a + (b - a) / 2, b - a)
    | a :: b :: c :: _ => some (3, b, c - a)

end PingSamples

structure PathCandidate where
  id : Nat
  samples : PingSamples
  path : CandidatePath
  transport : TransportKind
  established : Nat
deriving DecidableEq

/-- The part of the comparison that looks at the samples. -/
def quality (left right : PathCandidate) : Ordering :=
  match left.samples.statistics, right.samples.statistics with
  | some (leftLen, leftMedian, leftRange), some (rightLen, rightMedian, rightRange) =>
    (Ord.compare leftMedian rightMedian).then
      (if 1 < leftLen ∧ 1 < rightLen then Ord.compare leftRange rightRange else .eq)
  | some _, none => .lt
  | none, some _ => .gt
  | none, none => .eq

def compare (left right : PathCandidate) : Ordering :=
  (((quality left right).then (Ord.compare left.path.index right.path.index)).then
    (Ord.compare left.transport.index right.transport.index)).then
    (Ord.compare left.established right.established)

/-- `QualityPathPolicy::select`. -/
def select (candidates : List PathCandidate) : Option PathCandidate := minBy compare candidates

/-! ## The comparison as a relation -/

theorem quality_swap (a b : PathCandidate) : quality b a = (quality a b).swap := by
  unfold quality
  cases a.samples.statistics <;> cases b.samples.statistics <;> try rfl
  case some.some s t =>
    simp only [Ordering.swap_then, Nat.compare_swap]
    by_cases hmore : 1 < s.1 ∧ 1 < t.1
    · simp [hmore, Nat.compare_swap]
    · simp [hmore, mt And.symm hmore]

theorem compare_swap (a b : PathCandidate) : compare b a = (compare a b).swap := by
  simp only [compare, Ordering.swap_then, Nat.compare_swap, quality_swap a b]

/-- The order by path, transport and establishment. -/
def Before (a b : PathCandidate) : Prop :=
  a.path.index < b.path.index ∨ a.path.index = b.path.index ∧
    (a.transport.index < b.transport.index ∨ a.transport.index = b.transport.index ∧
      a.established < b.established)

variable {a b c : PathCandidate} {n m : Nat}

theorem compare_eq_lt : compare a b = .lt ↔ quality a b = .lt ∨ quality a b = .eq ∧ Before a b := by
  simp only [compare, Ordering.then_eq_lt, Ordering.then_eq_eq, Nat.compare_eq_lt, Nat.compare_eq_eq, Before]
  tauto

theorem Before.trans (hab : Before a b) (hbc : Before b c) : Before a c := by
  unfold Before at *
  omega

theorem Before.irrefl (a : PathCandidate) : ¬ Before a a := by
  unfold Before
  omega

/-- The comparison of two candidates that both have statistics. -/
theorem compare_eq_lt_of_some {n' : Nat} {m' r r' : Nat}
    (ha : a.samples.statistics = some (n, m, r)) (hb : b.samples.statistics = some (n', m', r')) :
    compare a b = .lt ↔ m < m' ∨ m = m' ∧
      (1 < n ∧ 1 < n' ∧ r < r' ∨ (1 < n → 1 < n' → r = r') ∧ Before a b) := by
  rw [compare_eq_lt, quality, ha, hb]
  by_cases hmore : 1 < n ∧ 1 < n'
  · simp only [hmore, and_self, if_true, Ordering.then_eq_lt, Ordering.then_eq_eq,
      Nat.compare_eq_lt, Nat.compare_eq_eq, true_and, forall_const]
    tauto
  · simp only [hmore, if_false, Ordering.then_eq_lt, Ordering.then_eq_eq, Nat.compare_eq_lt,
      Nat.compare_eq_eq, reduceCtorEq, and_false, or_false, and_true]
    tauto

theorem compare_self (a : PathCandidate) : compare a a ≠ .lt := by
  intro h
  have hswap := compare_swap a a
  rw [h] at hswap
  cases hswap

theorem compare_total (h : a.established ≠ b.established) :
    compare a b = .lt ∨ compare b a = .lt := by
  cases hab : compare a b with
  | lt => exact Or.inl rfl
  | gt => exact Or.inr (by rw [compare_swap a b, hab]; rfl)
  | eq =>
    simp only [compare, Ordering.then_eq_eq, Nat.compare_eq_eq] at hab
    exact absurd hab.2 h

/-! ## The circles -/

/-- Three candidates of one median on which the comparison goes round: `a` and `c` have a range and
`c` has the smaller one, while `b` has a single sample and lies between them otherwise. -/
structure Circle (a b c : PathCandidate) (median : Nat) (n n' : Nat)
    (range range' single : Nat) : Prop where
  first : a.samples.statistics = some (n, median, range)
  middle : b.samples.statistics = some (1, median, single)
  last : c.samples.statistics = some (n', median, range')
  first_more : 1 < n
  last_more : 1 < n'
  smaller : range' < range
  before : Before a b
  before' : Before b c

/-- Some three of the candidates are in a circle. -/
def Cyclic (l : List PathCandidate) : Prop :=
  ∃ a ∈ l, ∃ b ∈ l, ∃ c ∈ l, ∃ median n n' range range' single,
    Circle a b c median n n' range range' single

theorem statistics_pos {s : PingSamples} {r : Nat} (h : s.statistics = some (n, m, r)) : 1 ≤ n := by
  unfold PingSamples.statistics at h
  split at h
  · cases h
  · split at h
    · cases h
    · split at h <;> cases h <;> decide

theorem Circle.lt {median : Nat} {n' : Nat} {range range' single : Nat}
    (h : Circle a b c median n n' range range' single) :
    compare a b = .lt ∧ compare b c = .lt ∧ compare c a = .lt := by
  refine ⟨(compare_eq_lt_of_some h.first h.middle).2 (Or.inr ⟨rfl, Or.inr ⟨?_, h.before⟩⟩),
    (compare_eq_lt_of_some h.middle h.last).2 (Or.inr ⟨rfl, Or.inr ⟨?_, h.before'⟩⟩),
    (compare_eq_lt_of_some h.last h.first).2
      (Or.inr ⟨rfl, Or.inl ⟨h.last_more, h.first_more, h.smaller⟩⟩)⟩
  · exact fun _ hone => absurd hone (Nat.lt_irrefl 1)
  · exact fun hone => absurd hone (Nat.lt_irrefl 1)

/-- A round through a candidate with a single sample, between two with a range, is a circle. -/
theorem Circle.of_round {na nb nc ra rb rc : Nat} (ha : a.samples.statistics = some (na, m, ra))
    (hb : b.samples.statistics = some (nb, m, rb)) (hc : c.samples.statistics = some (nc, m, rc))
    (ha1 : 1 < na) (hb1 : ¬ 1 < nb) (hc1 : 1 < nc) (hab : Before a b) (hbc : Before b c)
    (hca : rc < ra ∨ rc = ra ∧ Before c a) : Circle a b c m na nc ra rc rb := by
  have hnb := statistics_pos hb
  obtain rfl : nb = 1 := by omega
  rcases hca with hlt | ⟨-, hca⟩
  · exact ⟨ha, hb, hc, ha1, hc1, hlt, hab, hbc⟩
  · exact absurd ((hab.trans hbc).trans hca) (Before.irrefl a)

/-- Three candidates with statistics on which the comparison goes round are in a circle, from one of
the three on. -/
theorem circle_of_round {na nb nc ma mb mc ra rb rc : Nat}
    (ha : a.samples.statistics = some (na, ma, ra)) (hb : b.samples.statistics = some (nb, mb, rb))
    (hc : c.samples.statistics = some (nc, mc, rc)) (hab : compare a b = .lt)
    (hbc : compare b c = .lt) (hca : compare c a = .lt) :
    Circle a b c ma na nc ra rc rb ∨ Circle b c a ma nb na rb ra rc ∨
      Circle c a b ma nc nb rc rb ra := by
  rw [compare_eq_lt_of_some ha hb] at hab
  rw [compare_eq_lt_of_some hb hc] at hbc
  rw [compare_eq_lt_of_some hc ha] at hca
  -- The medians cannot fall, so they are equal.
  have hle : ∀ {m m' : Nat} {p : Prop}, m < m' ∨ m = m' ∧ p → m ≤ m' :=
    fun h => h.elim Nat.le_of_lt fun h => h.1.le
  have hmab := hle hab
  have hmbc := hle hbc
  have hmca := hle hca
  obtain rfl : ma = mb := by omega
  obtain rfl : ma = mc := by omega
  replace hab := (hab.resolve_left (Nat.lt_irrefl _)).2
  replace hbc := (hbc.resolve_left (Nat.lt_irrefl _)).2
  replace hca := (hca.resolve_left (Nat.lt_irrefl _)).2
  -- With no or several single samples the round would be one of `Before`.
  have hround : ¬ (Before a b ∧ Before b c ∧ Before c a) :=
    fun h => Before.irrefl a ((h.1.trans h.2.1).trans h.2.2)
  by_cases ha1 : 1 < na <;> by_cases hb1 : 1 < nb <;> by_cases hc1 : 1 < nc <;>
    simp only [ha1, hb1, hc1, true_and, false_and, forall_const, false_or,
      IsEmpty.forall_iff] at hab hbc hca
  · have hrab := hle hab
    have hrbc := hle hbc
    have hrca := hle hca
    exact absurd ⟨(hab.resolve_left (by omega)).2, (hbc.resolve_left (by omega)).2,
      (hca.resolve_left (by omega)).2⟩ hround
  · exact Or.inr (Or.inl (.of_round hb hc ha hb1 hc1 ha1 hbc hca hab))
  · exact Or.inl (.of_round ha hb hc ha1 hb1 hc1 hab hbc hca)
  · exact absurd ⟨hab, hbc, hca⟩ hround
  · exact Or.inr (Or.inr (.of_round hc ha hb hc1 ha1 hb1 hca hab hbc))
  all_goals exact absurd ⟨hab, hbc, hca⟩ hround

/-- A candidate without statistics precedes none that has them. -/
theorem isSome_of_compare (h : compare a b = .lt) (hb : b.samples.statistics.isSome) :
    a.samples.statistics.isSome := by
  obtain ⟨s, hs⟩ := Option.isSome_iff_exists.1 hb
  cases ha : a.samples.statistics with
  | some => rfl
  | none => simp [compare_eq_lt, quality, ha, hs] at h

theorem before_of_compare (h : compare a b = .lt) (ha : a.samples.statistics = none)
    (hb : b.samples.statistics = none) : Before a b := by
  simpa [compare_eq_lt, quality, ha, hb] using h

/-- A round of the comparison is a circle. -/
theorem exists_circle (hab : compare a b = .lt) (hbc : compare b c = .lt) (hca : compare c a = .lt) :
    Cyclic [a, b, c] := by
  cases ha : a.samples.statistics with
  | none =>
    have hnot : a.samples.statistics.isSome = false := by rw [ha]; rfl
    have hb : b.samples.statistics = none := by
      by_contra hne
      rw [isSome_of_compare hab (Option.isSome_iff_ne_none.2 hne)] at hnot
      cases hnot
    have hc : c.samples.statistics = none := by
      by_contra hne
      rw [isSome_of_compare hab (isSome_of_compare hbc (Option.isSome_iff_ne_none.2 hne))] at hnot
      cases hnot
    have hround := ((before_of_compare hab ha hb).trans (before_of_compare hbc hb hc)).trans
      (before_of_compare hca hc ha)
    exact absurd hround (Before.irrefl a)
  | some s =>
    have hc := isSome_of_compare hca (by rw [ha]; rfl)
    have hb := isSome_of_compare hbc hc
    obtain ⟨t, ht⟩ := Option.isSome_iff_exists.1 hb
    obtain ⟨u, hu⟩ := Option.isSome_iff_exists.1 hc
    rcases circle_of_round ha ht hu hab hbc hca with h | h | h
    · exact ⟨a, by simp, b, by simp, c, by simp, _, _, _, _, _, _, h⟩
    · exact ⟨b, by simp, c, by simp, a, by simp, _, _, _, _, _, _, h⟩
    · exact ⟨c, by simp, a, by simp, b, by simp, _, _, _, _, _, _, h⟩

theorem Cyclic.subset {l l' : List PathCandidate} (h : Cyclic l) (hsub : l ⊆ l') : Cyclic l' := by
  obtain ⟨a, ha, b, hb, c, hc, hcircle⟩ := h
  exact ⟨a, hsub ha, b, hsub hb, c, hsub hc, hcircle⟩

/-- On candidates of distinct orders of establishment the comparison is a strict total order exactly
when none of them are in a circle. -/
theorem strictTotalOn_iff {l : List PathCandidate} (hdistinct : (l.map (·.established)).Nodup) :
    StrictTotalOn compare l ↔ ¬ Cyclic l := by
  have hne : ∀ a ∈ l, ∀ b ∈ l, a ≠ b → a.established ≠ b.established :=
    fun a ha b hb hab he => hab (List.inj_on_of_nodup_map hdistinct ha hb he)
  constructor
  · rintro h ⟨a, ha, b, hb, c, hc, _, _, _, _, _, _, hcircle⟩
    obtain ⟨hab, hbc, hca⟩ := hcircle.lt
    have hac := h.trans a ha b hb c hc hab hbc
    rw [compare_swap a c, hac] at hca
    cases hca
  · intro hno
    refine ⟨fun a _ => compare_self a, fun a ha b hb hab => compare_total (hne a ha b hb hab), ?_⟩
    intro a ha b hb c hc hab hbc
    have hac : a ≠ c := by
      rintro rfl
      rw [compare_swap a b, hab] at hbc
      cases hbc
    rcases compare_total (hne a ha c hc hac) with hlt | hca
    · exact hlt
    · refine absurd ((exists_circle hab hbc hca).subset ?_) hno
      intro x hx
      simp only [List.mem_cons, List.not_mem_nil, or_false] at hx
      rcases hx with rfl | rfl | rfl <;> assumption

end Yonder.Net
