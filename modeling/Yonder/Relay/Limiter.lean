import Yonder.Lib.RateBound
import Yonder.Lib.Table

/-!
# Admission control for resolve requests

`ResolveLimiters` has one limiter for all requests and a bounded table of limiters by source prefix.
A source's limiter is dropped once the source has been quiet for the idle timeout, and a new one
starts full. The configuration check does not relate the idle timeout to the time a burst needs to
refill: `sourceBounded_iff` says that the bound of the source rate holds for every sequence of calls
exactly when the idle timeout refills the burst.
-/

namespace Yonder.Relay

open Lib

/-- `ResolveRate`: a validated rate. -/
structure ResolveRate extends Rate where
  perSecond_pos : 1 ≤ perSecond
  perSecond_le : perSecond ≤ 10000
  burst_pos : 1 ≤ burst
  burst_le : burst ≤ 65536

inductive RelayResourceError where
  | sourceResolveExceedsGlobal
  | sourceLimiterWindowOverflow
  | sourceLimiterCapacityTooSmall
deriving DecidableEq

/-- `SourceLimiterCapacity`. -/
structure SourceLimiterCapacity where
  value : Nat
  pos : 1 ≤ value
  le : value ≤ 65536

/-- `SourceLimiterIdle`. -/
structure SourceLimiterIdle where
  seconds : Nat
  pos : 1 ≤ seconds
  le : seconds ≤ 86400

/-- `ResolveLimits`, as `new` accepts them. -/
structure ResolveLimits where
  global : ResolveRate
  source : ResolveRate
  sourceLimiterCapacity : SourceLimiterCapacity
  sourceLimiterIdle : SourceLimiterIdle
  perSecond_le : source.perSecond ≤ global.perSecond
  burst_le : source.burst ≤ global.burst
  window_le : global.perSecond * sourceLimiterIdle.seconds + global.burst ≤
    sourceLimiterCapacity.value

namespace ResolveLimits

/-- `ResolveLimits::new`. -/
def new (global source : ResolveRate) (capacity : SourceLimiterCapacity)
    (idle : SourceLimiterIdle) : Except RelayResourceError ResolveLimits :=
  if h : global.perSecond < source.perSecond ∨ global.burst < source.burst then
    .error .sourceResolveExceedsGlobal
  else if 2 ^ 64 ≤ global.perSecond * idle.seconds then .error .sourceLimiterWindowOverflow
  else if 2 ^ 64 ≤ global.perSecond * idle.seconds + global.burst then
    .error .sourceLimiterWindowOverflow
  else if hw : capacity.value < global.perSecond * idle.seconds + global.burst then
    .error .sourceLimiterCapacityTooSmall
  else
    .ok ⟨global, source, capacity, idle, by omega, by omega, by omega⟩

/-- The idle timeout in nanoseconds. -/
def idle (limits : ResolveLimits) : Nat := limits.sourceLimiterIdle.seconds * second

end ResolveLimits

section

variable {State Source : Type} [DecidableEq Source] (G : Limiter State)

structure SourceLimiter (State : Type) where
  limiter : State
  lastSeen : Nat

structure ResolveLimiters (State Source : Type) [DecidableEq Source] where
  global : State
  sources : Table Source (SourceLimiter State)
  limits : ResolveLimits

namespace ResolveLimiters

/-- `with_limits`, at a time. -/
def withLimits (limits : ResolveLimits) (now : Nat) : ResolveLimiters State Source where
  global := G.new limits.global.toRate now
  sources := ∅
  limits := limits

/-- `prune`: the sources seen within the idle timeout are kept; a time before the last use has no
age. -/
def prune (r : ResolveLimiters State Source) (now : Nat) : ResolveLimiters State Source :=
  { r with sources := r.sources.retain fun _ entry =>
      now < entry.lastSeen || now - entry.lastSeen < r.limits.idle }

def checkGlobal (r : ResolveLimiters State Source) (now : Nat) :
    Bool × ResolveLimiters State Source :=
  ((G.check r.global now).1, { r with global := (G.check r.global now).2 })

/-- The check of a source's limiter, which is then in the table as last seen now. -/
def checkLimiter (r : ResolveLimiters State Source) (source : Source) (limiter : State)
    (now : Nat) : Bool × ResolveLimiters State Source :=
  ((G.check limiter now).1,
    { r with sources := r.sources.insert source ⟨(G.check limiter now).2, now⟩ })

def checkSource (r : ResolveLimiters State Source) (source : Source) (now : Nat) :
    Bool × ResolveLimiters State Source :=
  let r := r.prune now
  match r.sources.lookup source with
  | some entry => checkLimiter G r source entry.limiter now
  | none =>
    if r.sources.size = r.limits.sourceLimiterCapacity.value then (false, r)
    else checkLimiter G r source (G.new r.limits.source.toRate now) now

/-- `check`: the global limiter first. -/
def check (r : ResolveLimiters State Source) (source : Source) (now : Nat) :
    Bool × ResolveLimiters State Source :=
  if (r.checkGlobal G now).1 then (r.checkGlobal G now).2.checkSource G source now
  else (false, (r.checkGlobal G now).2)

/-! ## Runs -/

/-- A call, with the time at which it is made. -/
inductive Call (Source : Type) where
  | global (now : Nat)
  | source (q : Source) (now : Nat)
  | both (q : Source) (now : Nat)

def Call.time : Call Source → Nat
  | .global now => now
  | .source _ now => now
  | .both _ now => now

/-- One call, and the log of the times at which requests of `p` were admitted. -/
def serve (p : Source) : ResolveLimiters State Source × List Nat → Call Source →
    ResolveLimiters State Source × List Nat
  | (r, log), .global now => ((r.checkGlobal G now).2, log)
  | (r, log), .source q now =>
    ((r.checkSource G q now).2, log ++ if q = p ∧ (r.checkSource G q now).1 then [now] else [])
  | (r, log), .both q now =>
    ((r.check G q now).2, log ++ if q = p ∧ (r.check G q now).1 then [now] else [])

/-- The times at which requests of `p` are admitted, from new limiters at `start` on. -/
def admissions (limits : ResolveLimits) (start : Nat) (p : Source) (calls : List (Call Source)) :
    List Nat :=
  (calls.foldl (serve G p) (withLimits G limits start, [])).2

/-! ## What a source's limiter is between calls -/

/-- The limiter of `p` was new at `start` and has seen `times`; before it, `old` was admitted. -/
structure Lifetime (limits : ResolveLimits) (clock : Nat) (log : List Nat)
    (entry : SourceLimiter State) (old : List Nat) (start : Nat) (times : List Nat) : Prop where
  log_eq : log = old ++ (G.run (G.new limits.source.toRate start) times).1
  limiter_eq : entry.limiter = (G.run (G.new limits.source.toRate start) times).2
  old_bounded : Bounded limits.source.toRate old
  old_before : ∀ t ∈ old, t + limits.idle ≤ start
  sorted : (start :: times).Pairwise (· ≤ ·)
  times_le : ∀ t ∈ times, t ≤ entry.lastSeen
  start_le : start ≤ entry.lastSeen
  seen_le : entry.lastSeen ≤ clock

/-- What is known of the limiter of `p` at a time. -/
structure Kept (limits : ResolveLimits) (p : Source) (clock : Nat)
    (r : ResolveLimiters State Source) (log : List Nat) : Prop where
  limits_eq : r.limits = limits
  gone : r.sources.lookup p = none →
    Bounded limits.source.toRate log ∧ ∀ t ∈ log, t + limits.idle ≤ clock
  live : ∀ entry, r.sources.lookup p = some entry →
    ∃ old start times, Lifetime G limits clock log entry old start times

variable {G}

/-- The idle timeout refills the burst. -/
def Refills (limits : ResolveLimits) : Prop :=
  limits.source.burst ≤ limits.source.perSecond * limits.sourceLimiterIdle.seconds

variable {limits : ResolveLimits} {clock now : Nat} {log old times : List Nat}
  {entry : SourceLimiter State} {p : Source} {r : ResolveLimiters State Source}

theorem Refills.pause (h : Refills limits) :
    limits.source.burst * second ≤ limits.source.perSecond * limits.idle := by
  rw [ResolveLimits.idle, ← Nat.mul_assoc]
  exact Nat.mul_le_mul_right _ h

theorem Lifetime.bounded {start : Nat} (h : Lifetime G limits clock log entry old start times)
    (hG : Gcra G limits.source.toRate) (hrefill : Refills limits) :
    Bounded limits.source.toRate log := by
  rw [h.log_eq]
  refine h.old_bounded.append (hG.bounded start times h.sorted) h.old_before ?_ hrefill.pause
  intro t ht
  exact (List.pairwise_cons.1 h.sorted).1 t ((G.run_sublist _ _).subset ht)

theorem Lifetime.le_lastSeen {start : Nat} (h : Lifetime G limits clock log entry old start times) :
    ∀ t ∈ log, t ≤ entry.lastSeen := by
  intro t ht
  rw [h.log_eq, List.mem_append] at ht
  rcases ht with ht | ht
  · exact (Nat.le_add_right _ _).trans ((h.old_before t ht).trans h.start_le)
  · exact h.times_le t ((G.run_sublist _ _).subset ht)

theorem Kept.bounded (h : Kept G limits p clock r log) (hG : Gcra G limits.source.toRate)
    (hrefill : Refills limits) : Bounded limits.source.toRate log := by
  cases hp : r.sources.lookup p with
  | none => exact (h.gone hp).1
  | some entry =>
    obtain ⟨old, start, times, hlife⟩ := h.live entry hp
    exact hlife.bounded hG hrefill

theorem kept_withLimits (limits : ResolveLimits) (p : Source) (start : Nat) :
    Kept G limits p start (withLimits G limits start : ResolveLimiters State Source) [] where
  limits_eq := rfl
  gone := fun _ => ⟨bounded_nil _, nofun⟩
  live := fun entry h => by
    rw [withLimits, Table.lookup_empty] at h
    cases h

/-- Time passes; a limiter that has been idle goes, and what it admitted stays within the law. -/
theorem Kept.prune (h : Kept G limits p clock r log) (hG : Gcra G limits.source.toRate)
    (hrefill : Refills limits) (hnow : clock ≤ now) : Kept G limits p now (r.prune now) log := by
  have hlookup : (r.prune now).sources.lookup p = (r.sources.lookup p).filter fun entry =>
      now < entry.lastSeen || now - entry.lastSeen < limits.idle := by
    rw [ResolveLimiters.prune, Table.lookup_retain, h.limits_eq]
  refine ⟨h.limits_eq, fun hgone => ⟨h.bounded hG hrefill, fun t ht => ?_⟩, fun entry hentry => ?_⟩
  · cases hp : r.sources.lookup p with
    | none => exact ((h.gone hp).2 t ht).trans hnow
    | some entry =>
      obtain ⟨old, start, times, hlife⟩ := h.live entry hp
      have hseen := hlife.le_lastSeen t ht
      rw [hlookup, hp, Option.filter_eq_none_iff] at hgone
      have hidle := hgone entry rfl
      simp only [Bool.or_eq_true, decide_eq_true_eq, not_or] at hidle
      omega
  · rw [hlookup, Option.filter_eq_some_iff] at hentry
    obtain ⟨old, start, times, hlife⟩ := h.live entry hentry.1
    exact ⟨old, start, times, { hlife with seen_le := hlife.seen_le.trans hnow }⟩

/-- One more check of a limiter. -/
theorem Lifetime.check {start : Nat} (h : Lifetime G limits now log entry old start times) :
    Lifetime G limits now (log ++ if (G.check entry.limiter now).1 then [now] else [])
      ⟨(G.check entry.limiter now).2, now⟩ old start (times ++ [now]) where
  log_eq := by rw [Limiter.run_append, h.log_eq, List.append_assoc, h.limiter_eq]
  limiter_eq := by rw [Limiter.run_append, h.limiter_eq]
  old_bounded := h.old_bounded
  old_before := h.old_before
  sorted := by
    rw [← List.cons_append, List.pairwise_append]
    refine ⟨h.sorted, List.pairwise_singleton _ _, fun a ha b hb => ?_⟩
    rw [List.mem_singleton.1 hb]
    rcases List.mem_cons.1 ha with rfl | ha
    · exact h.start_le.trans h.seen_le
    · exact (h.times_le a ha).trans h.seen_le
  times_le := fun t ht => by
    rcases List.mem_append.1 ht with ht | ht
    · exact (h.times_le t ht).trans h.seen_le
    · exact (List.mem_singleton.1 ht).le
  start_le := h.start_le.trans h.seen_le
  seen_le := Nat.le_refl _

/-- A new limiter, before its first check. -/
theorem lifetime_new (hbounded : Bounded limits.source.toRate log)
    (hbefore : ∀ t ∈ log, t + limits.idle ≤ now) :
    Lifetime G limits now log ⟨G.new limits.source.toRate now, now⟩ log now [] where
  log_eq := (List.append_nil log).symm
  limiter_eq := rfl
  old_bounded := hbounded
  old_before := hbefore
  sorted := List.pairwise_singleton _ _
  times_le := nofun
  start_le := Nat.le_refl _
  seen_le := Nat.le_refl _

/-- A check of another source leaves the limiter of `p` alone. -/
theorem Kept.other {q : Source} (h : Kept G limits p now r log) (hne : p ≠ q) (limiter : State) :
    Kept G limits p now (r.checkLimiter G q limiter now).2 log := by
  have hlookup : (r.checkLimiter G q limiter now).2.sources.lookup p = r.sources.lookup p := by
    rw [checkLimiter, Table.lookup_insert, if_neg hne]
  refine ⟨h.limits_eq, fun hgone => h.gone ?_, fun e he => h.live e ?_⟩
  · rwa [← hlookup]
  · rwa [← hlookup]

theorem Kept.own {start : Nat} (hlimits : r.limits = limits)
    (h : Lifetime G limits now log entry old start times) :
    Kept G limits p now (r.checkLimiter G p entry.limiter now).2
      (log ++ if (r.checkLimiter G p entry.limiter now).1 then [now] else []) := by
  have hlookup : (r.checkLimiter G p entry.limiter now).2.sources.lookup p =
      some ⟨(G.check entry.limiter now).2, now⟩ := by
    rw [checkLimiter, Table.lookup_insert, if_pos rfl]
  refine ⟨hlimits, fun hgone => ?_, fun e he => ?_⟩
  · rw [hlookup] at hgone
    cases hgone
  · rw [hlookup] at he
    cases he
    exact ⟨old, start, times ++ [now], h.check⟩

theorem Kept.checkSource (h : Kept G limits p clock r log) (hG : Gcra G limits.source.toRate)
    (hrefill : Refills limits) (hnow : clock ≤ now) (q : Source) :
    Kept G limits p now (r.checkSource G q now).2
      (log ++ if q = p ∧ (r.checkSource G q now).1 then [now] else []) := by
  have hpruned := h.prune hG hrefill hnow
  unfold ResolveLimiters.checkSource
  by_cases hq : q = p
  case neg =>
    simp only [hq, false_and, if_false, List.append_nil]
    split
    case h_1 => exact hpruned.other (Ne.symm hq) _
    case h_2 =>
      split
      · exact hpruned
      · exact hpruned.other (Ne.symm hq) _
  case pos =>
    subst hq
    simp only [true_and]
    split
    case h_1 entry hentry =>
      obtain ⟨old, start, times, hlife⟩ := hpruned.live entry hentry
      exact Kept.own hpruned.limits_eq hlife
    case h_2 hnone =>
      split
      · simpa using hpruned
      · obtain ⟨hbounded, hbefore⟩ := hpruned.gone hnone
        rw [hpruned.limits_eq]
        exact Kept.own hpruned.limits_eq (lifetime_new hbounded hbefore)

theorem Kept.later (h : Kept G limits p clock r log) (hnow : clock ≤ now) :
    Kept G limits p now r log where
  limits_eq := h.limits_eq
  gone := fun hgone => ⟨(h.gone hgone).1, fun t ht => ((h.gone hgone).2 t ht).trans hnow⟩
  live := fun entry hentry => by
    obtain ⟨old, start, times, hlife⟩ := h.live entry hentry
    exact ⟨old, start, times, { hlife with seen_le := hlife.seen_le.trans hnow }⟩

theorem Kept.checkGlobal (h : Kept G limits p clock r log) (now : Nat) :
    Kept G limits p clock (r.checkGlobal G now).2 log :=
  ⟨h.limits_eq, h.gone, h.live⟩

/-- One call keeps what is known of the limiter of `p`. -/
theorem Kept.serve (h : Kept G limits p clock r log) (hG : Gcra G limits.source.toRate)
    (hrefill : Refills limits) (c : Call Source) (hnow : clock ≤ c.time) :
    Kept G limits p c.time (serve G p (r, log) c).1 (serve G p (r, log) c).2 := by
  cases c with
  | global now => exact (h.later hnow).checkGlobal now
  | source q now => exact h.checkSource hG hrefill hnow q
  | both q now =>
    have hglobal := h.checkGlobal now
    simp only [ResolveLimiters.serve, ResolveLimiters.check]
    split
    case isTrue => exact hglobal.checkSource hG hrefill hnow q
    case isFalse => simpa using hglobal.later hnow

theorem bounded_of_refills (hG : Gcra G limits.source.toRate) (hrefill : Refills limits)
    (calls : List (Call Source)) (st : ResolveLimiters State Source × List Nat)
    (h : Kept G limits p clock st.1 st.2)
    (hsorted : (clock :: calls.map Call.time).Pairwise (· ≤ ·)) :
    Bounded limits.source.toRate (calls.foldl (ResolveLimiters.serve G p) st).2 := by
  induction calls generalizing clock st with
  | nil => exact h.bounded hG hrefill
  | cons c rest ih =>
    obtain ⟨hfirst, hrest⟩ := List.pairwise_cons.1 hsorted
    exact ih _ (h.serve hG hrefill c (hfirst _ List.mem_cons_self)) hrest

/-! ## Two bursts -/

/-- Only `p` has a limiter, if any. -/
def OnlySource (p : Source) (r : ResolveLimiters State Source) : Prop :=
  ∀ q, q ≠ p → r.sources.lookup q = none

theorem idle_pos (limits : ResolveLimits) : 0 < limits.idle :=
  Nat.mul_pos limits.sourceLimiterIdle.pos (by decide)

theorem prune_lookup (r : ResolveLimiters State Source) (now : Nat) (q : Source) :
    (r.prune now).sources.lookup q = (r.sources.lookup q).filter fun entry =>
      now < entry.lastSeen || now - entry.lastSeen < r.limits.idle := by
  rw [ResolveLimiters.prune, Table.lookup_retain]

theorem OnlySource.checkLimiter (h : OnlySource p r) (limiter : State) (now : Nat) :
    OnlySource p (ResolveLimiters.checkLimiter G (r.prune now) p limiter now).2 := by
  intro q hq
  rw [ResolveLimiters.checkLimiter, Table.lookup_insert, if_neg hq, prune_lookup, h q hq]
  rfl

/-- Requests of `p` at one time: `limiter` is what the first of them finds. -/
theorem serve_same_time (now n : Nat) (log : List Nat) {limiter : State} (honly : OnlySource p r)
    (hfirst : r.checkSource G p now = (r.prune now).checkLimiter G p limiter now) :
    ∃ (t : ResolveLimiters State Source) (s : State), t.limits = r.limits ∧ OnlySource p t ∧
      t.sources.lookup p = some ⟨s, now⟩ ∧
      (List.replicate (n + 1) (Call.source p now)).foldl (ResolveLimiters.serve G p) (r, log) =
        (t, log ++ (G.run limiter (List.replicate (n + 1) now)).1) := by
  have hstep : ResolveLimiters.serve G p (r, log) (Call.source p now) =
      (((r.prune now).checkLimiter G p limiter now).2,
        log ++ if (G.check limiter now).1 then [now] else []) := by
    simp only [ResolveLimiters.serve, hfirst, true_and]
    rfl
  rw [List.replicate_succ, List.foldl_cons, hstep]
  induction n generalizing r log limiter with
  | zero =>
    refine ⟨((r.prune now).checkLimiter G p limiter now).2, (G.check limiter now).2, rfl,
      honly.checkLimiter limiter now, ?_, ?_⟩
    · rw [ResolveLimiters.checkLimiter, Table.lookup_insert, if_pos rfl]
    · simp [Limiter.run]
  | succ n ih =>
    -- The next request finds the limiter that the first one left, seen at this very time.
    have hentry : ((((r.prune now).checkLimiter G p limiter now).2).prune now).sources.lookup p =
        some ⟨(G.check limiter now).2, now⟩ := by
      rw [prune_lookup, ResolveLimiters.checkLimiter, Table.lookup_insert, if_pos rfl]
      simp [idle_pos]
    have hnext : (((r.prune now).checkLimiter G p limiter now).2).checkSource G p now =
        ((((r.prune now).checkLimiter G p limiter now).2).prune now).checkLimiter G p
          (G.check limiter now).2 now := by
      simp only [ResolveLimiters.checkSource, hentry]
    obtain ⟨t, s, hlimits, honly', hp, hrun⟩ := ih
      (log ++ if (G.check limiter now).1 then [now] else [])
      (honly.checkLimiter limiter now) hnext (by
        simp only [ResolveLimiters.serve, hnext, true_and]
        rfl)
    refine ⟨t, s, hlimits, honly', hp, ?_⟩
    rw [List.replicate_succ, List.foldl_cons]
    simp only [ResolveLimiters.serve, hnext, true_and]
    refine hrun.trans ?_
    rw [List.append_assoc, List.replicate_succ (n := n + 1), Limiter.run]

/-- A burst at one time, by a limiter that is new at that time. -/
theorem serve_burst (now : Nat) (hG : Gcra G limits.source.toRate) (log : List Nat)
    (hlimits : r.limits = limits) (honly : OnlySource p r)
    (hp : (r.prune now).sources.lookup p = none) :
    ∃ (t : ResolveLimiters State Source) (s : State), t.limits = limits ∧ OnlySource p t ∧
      t.sources.lookup p = some ⟨s, now⟩ ∧
      (List.replicate limits.source.burst (Call.source p now)).foldl (ResolveLimiters.serve G p)
        (r, log) = (t, log ++ List.replicate limits.source.burst now) := by
  have hnone : ∀ q, (r.prune now).sources.lookup q = none := by
    intro q
    by_cases hq : q = p
    case pos => rw [hq, hp]
    case neg =>
      rw [prune_lookup, honly q hq]
      rfl
  have hsize : (r.prune now).sources.size ≠ (r.prune now).limits.sourceLimiterCapacity.value := by
    rw [Table.size_eq_zero hnone]
    exact (Nat.lt_of_lt_of_le Nat.zero_lt_one (SourceLimiterCapacity.pos _)).ne
  have hfirst : r.checkSource G p now =
      (r.prune now).checkLimiter G p (G.new limits.source.toRate now) now := by
    simp only [ResolveLimiters.checkSource, hp, if_neg hsize]
    rw [show (r.prune now).limits = limits from hlimits]
  obtain ⟨t, s, ht, honly', hentry, hrun⟩ :=
    serve_same_time now (limits.source.burst - 1) log honly hfirst
  rw [Nat.sub_add_cancel limits.source.burst_pos, hG.full now] at hrun
  exact ⟨t, s, ht.trans hlimits, honly', hentry, hrun⟩

/-- For every limiter that does what is assumed of it, the bound of the source rate holds in every
window of every sequence of calls exactly when the idle timeout refills the burst. -/
theorem sourceBounded_iff (limits : ResolveLimits) (hG : Gcra G limits.source.toRate)
    (start : Nat) (p : Source) :
    (∀ calls : List (Call Source), (start :: calls.map Call.time).Pairwise (· ≤ ·) →
      ∀ first length, timesIn first (first + length) (admissions G limits start p calls) * second ≤
        limits.source.burst * second + limits.source.perSecond * length) ↔
      limits.source.burst ≤ limits.source.perSecond * limits.sourceLimiterIdle.seconds := by
  constructor
  · intro hbound
    -- A burst at the start, and another when the limiter has just gone idle.
    have hempty : ∀ q, (withLimits G limits start : ResolveLimiters State Source).sources.lookup q
        = none := fun q => Table.lookup_empty q
    obtain ⟨r, s, hr, honly, hp, hfirst⟩ := serve_burst (p := p) start hG
      (r := withLimits G limits start) [] rfl (fun q _ => hempty q)
      (by rw [prune_lookup, hempty]; rfl)
    have hgone : (r.prune (start + limits.idle)).sources.lookup p = none := by
      rw [prune_lookup, hp, hr]
      simp [Option.filter]
    obtain ⟨t, -, -, -, -, hsecond⟩ := serve_burst (p := p) (start + limits.idle) hG
      (List.replicate limits.source.burst start) hr honly hgone
    have hadmissions : admissions G limits start p
        (List.replicate limits.source.burst (Call.source p start) ++
          List.replicate limits.source.burst (Call.source p (start + limits.idle))) =
        List.replicate limits.source.burst start ++
          List.replicate limits.source.burst (start + limits.idle) := by
      rw [admissions, List.foldl_append, hfirst, List.nil_append, hsecond]
    have hsorted : (start :: (List.replicate limits.source.burst (Call.source p start) ++
        List.replicate limits.source.burst (Call.source p (start + limits.idle))).map
          Call.time).Pairwise (· ≤ ·) := by
      rw [List.map_append, List.map_replicate, List.map_replicate, ← List.cons_append, Call.time,
        Call.time, ← List.replicate_succ, List.pairwise_append, List.pairwise_replicate,
        List.pairwise_replicate]
      refine ⟨Or.inr (Nat.le_refl _), Or.inr (Nat.le_refl _), fun a ha b hb => ?_⟩
      rw [List.eq_of_mem_replicate ha, List.eq_of_mem_replicate hb]
      exact Nat.le_add_right _ _
    have h := hbound _ hsorted start limits.idle
    rw [hadmissions, timesIn_append, timesIn, timesIn, List.countP_replicate, List.countP_replicate,
      if_pos (by simp), if_pos (by simp), Nat.add_mul] at h
    rw [ResolveLimits.idle, ← Nat.mul_assoc] at h
    exact Nat.le_of_mul_le_mul_right (by omega) (by decide : 0 < second)
  · intro hrefill calls hsorted first length
    have h := bounded_of_refills hG hrefill calls (withLimits G limits start, [])
      (kept_withLimits limits p start) hsorted first (first + length) (Nat.le_add_right _ _)
    rwa [Nat.add_sub_cancel_left] at h

/-- Limits that `new` accepts, with a burst of four that takes four seconds to refill and an idle
timeout of one second. -/
def shortIdle : ResolveLimits where
  global := ⟨⟨100, 100⟩, by decide, by decide, by decide, by decide⟩
  source := ⟨⟨1, 4⟩, by decide, by decide, by decide, by decide⟩
  sourceLimiterCapacity := ⟨200, by decide, by decide⟩
  sourceLimiterIdle := ⟨1, by decide, by decide⟩
  perSecond_le := by decide
  burst_le := by decide
  window_le := by decide

/-- The equivalence for leaky buckets and the limits with a short idle timeout. -/
theorem sourceBounded_iff_shortIdle :
    Gcra leakyBucket shortIdle.source.toRate ∧
    ((∀ calls : List (Call Nat), (0 :: calls.map Call.time).Pairwise (· ≤ ·) →
      ∀ first length,
        timesIn first (first + length) (admissions leakyBucket shortIdle 0 7 calls) * second ≤
          shortIdle.source.burst * second + shortIdle.source.perSecond * length) ↔
      shortIdle.source.burst ≤
        shortIdle.source.perSecond * shortIdle.sourceLimiterIdle.seconds) :=
  ⟨gcra_leakyBucket _, sourceBounded_iff shortIdle (gcra_leakyBucket _) 0 7⟩

/-- Accepted limits and leaky buckets with which a source gets eight requests through both limiters
in a window of one second, where the burst and the rate give five. -/
theorem source_exceeds_rate :
    (ResolveLimits.new shortIdle.global shortIdle.source shortIdle.sourceLimiterCapacity
        shortIdle.sourceLimiterIdle).isOk = true ∧
      (0 :: (List.replicate 4 (Call.both 7 0) ++
        List.replicate 4 (Call.both 7 second)).map Call.time).Pairwise (· ≤ ·) ∧
      timesIn 0 (0 + second) (admissions leakyBucket shortIdle 0 7
        (List.replicate 4 (Call.both 7 0) ++ List.replicate 4 (Call.both 7 second))) = 8 ∧
      ¬ 8 * second ≤ shortIdle.source.burst * second + shortIdle.source.perSecond * second := by
  decide +kernel

end ResolveLimiters

end

end Yonder.Relay
