import Yonder.Relay.Limiter

/-!
# The table of source limiters

`check_source` refuses a new source when the table is full. The service asks the global limiter
first, so every entry of the table stands for a request that was admitted globally at the time the
entry was last seen. Pruning leaves the entries seen within the idle timeout, the global rate bounds
the requests of that window, and the limits leave room for all of them: `source_table_has_room`.
-/

namespace Yonder.Relay.ResolveLimiters

open Lib

variable {State Source : Type} [DecidableEq Source]

/-- The limiters after a call. -/
def answer (G : Limiter State) (r : ResolveLimiters State Source) :
    Call Source → ResolveLimiters State Source
  | .global now => (r.checkGlobal G now).2
  | .source q now => (r.checkSource G q now).2
  | .both q now => (r.check G q now).2

/-- A call that asks the global limiter, and a source's limiter only if that one admits. -/
def GlobalFirst : Call Source → Prop
  | .source .. => False
  | _ => True

/-- `check_source` refuses `q` because the table is full. -/
def RefusesFull (r : ResolveLimiters State Source) (q : Source) (now : Nat) : Prop :=
  (r.prune now).sources.lookup q = none ∧
    (r.prune now).sources.size = (r.prune now).limits.sourceLimiterCapacity.value

/-- The global limiter was new at `start`, has seen `times` and admitted `log`; the entries last seen
from any time on are no more than the admissions from that time on. -/
structure Covered (G : Limiter State) (limits : ResolveLimits) (start : Nat) (times : List Nat)
    (r : ResolveLimiters State Source) : Prop where
  limits_eq : r.limits = limits
  global_eq : r.global = (G.run (G.new limits.global.toRate start) times).2
  entries_le : ∀ a, (r.sources.count fun e => decide (a ≤ e.lastSeen)) ≤
    (G.run (G.new limits.global.toRate start) times).1.countP fun t => decide (a ≤ t)

variable {G : Limiter State} {limits : ResolveLimits} {start now : Nat} {times : List Nat}
  {r : ResolveLimiters State Source}

theorem covered_withLimits (limits : ResolveLimits) (start : Nat) :
    Covered G limits start [] (withLimits G limits start : ResolveLimiters State Source) :=
  ⟨rfl, rfl, fun _ => Nat.zero_le _⟩

theorem Covered.checkGlobal (h : Covered G limits start times r) (now : Nat) :
    Covered G limits start (times ++ [now]) (r.checkGlobal G now).2 := by
  refine ⟨h.limits_eq, ?_, fun a => ?_⟩
  · rw [Limiter.run_append, ← h.global_eq]
    rfl
  · rw [Limiter.run_append, List.countP_append]
    exact (h.entries_le a).trans (Nat.le_add_right _ _)

/-- The request that is admitted makes up for the entry of its source. -/
theorem Covered.checkSource (h : Covered G limits start times r)
    (hadmitted : (r.checkGlobal G now).1 = true) (q : Source) :
    Covered G limits start (times ++ [now])
      (ResolveLimiters.checkSource G (r.checkGlobal G now).2 q now).2 := by
  have hglobal := h.checkGlobal now
  have hpruned : ∀ p : SourceLimiter State → Bool,
      ((r.checkGlobal G now).2.prune now).sources.count p ≤ r.sources.count p :=
    fun p => Table.count_retain_le _ _ p
  have hlog : ∀ a, (r.sources.count fun e => decide (a ≤ e.lastSeen)) + (if a ≤ now then 1 else 0) ≤
      (G.run (G.new limits.global.toRate start) (times ++ [now])).1.countP
        fun t => decide (a ≤ t) := by
    intro a
    have hone : (G.check (G.run (G.new limits.global.toRate start) times).2 now).1 = true := by
      rw [← h.global_eq]
      exact hadmitted
    rw [Limiter.run_append, List.countP_append, if_pos hone, List.countP_singleton]
    simp only [decide_eq_true_eq]
    exact Nat.add_le_add_right (h.entries_le a) _
  have hinsert : ∀ (limiter : State), Covered G limits start (times ++ [now])
      (((r.checkGlobal G now).2.prune now).checkLimiter G q limiter now).2 := by
    intro limiter
    refine ⟨h.limits_eq, hglobal.global_eq, fun a => ?_⟩
    refine le_trans (Table.count_insert_le _ _ _ _) (le_trans ?_ (hlog a))
    simp only [decide_eq_true_eq]
    exact Nat.add_le_add_right (hpruned _) _
  unfold ResolveLimiters.checkSource
  dsimp only
  split
  case h_1 => exact hinsert _
  case h_2 =>
    split
    case isTrue =>
      exact ⟨h.limits_eq, hglobal.global_eq, fun a =>
        (hpruned _).trans ((Nat.le_add_right _ _).trans (hlog a))⟩
    case isFalse => exact hinsert _

theorem Covered.answer (h : Covered G limits start times r) {c : Call Source}
    (hc : GlobalFirst c) :
    Covered G limits start (times ++ [c.time]) (ResolveLimiters.answer G r c) := by
  cases c with
  | global now => exact h.checkGlobal now
  | source q now => exact hc.elim
  | both q now =>
    simp only [ResolveLimiters.answer, ResolveLimiters.check]
    split
    case isTrue hadmitted => exact h.checkSource hadmitted q
    case isFalse => exact h.checkGlobal now

theorem Covered.answers {calls : List (Call Source)} (h : Covered G limits start times r)
    (hcalls : ∀ c ∈ calls, GlobalFirst c) :
    Covered G limits start (times ++ calls.map Call.time)
      (calls.foldl (ResolveLimiters.answer G) r) := by
  induction calls generalizing r times with
  | nil => rwa [List.map_nil, List.append_nil]
  | cons c rest ih =>
    have hrest := ih (h.answer (hcalls c List.mem_cons_self))
      fun c' hc' => hcalls c' (List.mem_cons_of_mem _ hc')
    rwa [List.append_assoc] at hrest

/-- What pruning leaves was seen within the idle timeout. -/
theorem size_prune_le (r : ResolveLimiters State Source) (now : Nat) :
    (r.prune now).sources.size ≤
      r.sources.count fun e => decide (now + 1 - r.limits.idle ≤ e.lastSeen) := by
  rw [Table.size_eq_count]
  refine Table.count_le fun q e he _ => ?_
  rw [prune_lookup, Option.filter_eq_some_iff] at he
  refine ⟨he.1, ?_⟩
  have hkept := he.2
  simp only [Bool.or_eq_true, decide_eq_true_eq] at hkept ⊢
  omega

/-- The limits leave room for every request that a window shorter than the idle timeout admits. -/
theorem room_of_bounded (limits : ResolveLimits) {n length : Nat} (hlength : length < limits.idle)
    (h : n * second ≤ limits.global.burst * second + limits.global.perSecond * length) :
    n ≤ limits.sourceLimiterCapacity.value := by
  have hrate : limits.global.perSecond * length ≤
      limits.global.perSecond * limits.sourceLimiterIdle.seconds * second := by
    rw [Nat.mul_assoc]
    exact Nat.mul_le_mul_left _ (Nat.le_of_lt hlength)
  have hn : n * second ≤
      (limits.global.perSecond * limits.sourceLimiterIdle.seconds + limits.global.burst) * second := by
    rw [Nat.add_mul]
    omega
  exact (Nat.le_of_mul_le_mul_right hn (by decide)).trans limits.window_le

/-- For every limiter that keeps the law of the global rate, every accepted limits and every sequence
of calls that ask the global limiter first, at times that do not decrease: the table has room for the
source of a request that the global limiter admits. -/
theorem source_table_has_room (limits : ResolveLimits)
    (hG : ∀ start times, (start :: times).Pairwise (· ≤ ·) →
      Bounded limits.global.toRate (G.run (G.new limits.global.toRate start) times).1)
    (start : Nat) (calls : List (Call Source)) (hcalls : ∀ c ∈ calls, GlobalFirst c) (q : Source)
    (now : Nat) (hsorted : (start :: (calls.map Call.time ++ [now])).Pairwise (· ≤ ·)) :
    let r := calls.foldl (answer G) (withLimits G limits start)
    (r.checkGlobal G now).1 = true → ¬ RefusesFull (r.checkGlobal G now).2 q now := by
  intro r hadmitted hrefuses
  have hr : Covered G limits start (calls.map Call.time) r :=
    (covered_withLimits limits start).answers hcalls
  -- The request counts as an admission of the window, but it has no entry yet.
  set log := (G.run (G.new limits.global.toRate start) (calls.map Call.time)).1 with hlog
  have hrun : (G.run (G.new limits.global.toRate start) (calls.map Call.time ++ [now])).1 =
      log ++ [now] := by
    rw [Limiter.run_append, if_pos]
    rw [← hr.global_eq]
    exact hadmitted
  have hlate : ∀ t ∈ log ++ [now], t ≤ now := by
    intro t ht
    rcases List.mem_append.1 ht with ht | ht
    · have hmem := (G.run_sublist _ _).subset ht
      exact (List.pairwise_append.1 (List.pairwise_cons.1 hsorted).2).2.2 t hmem now (by simp)
    · exact (List.mem_singleton.1 ht).le
  have hsize : (r.prune now).sources.size ≤
      log.countP fun t => decide (now + 1 - limits.idle ≤ t) := by
    have hle := size_prune_le r now
    rw [hr.limits_eq] at hle
    exact hle.trans (hr.entries_le _)
  have hidle := idle_pos limits
  have hcount : timesIn (now + 1 - limits.idle) now (log ++ [now]) =
      (log.countP fun t => decide (now + 1 - limits.idle ≤ t)) + 1 := by
    have hall : timesIn (now + 1 - limits.idle) now (log ++ [now]) =
        (log ++ [now]).countP fun t => decide (now + 1 - limits.idle ≤ t) := by
      refine List.countP_congr fun t ht => ?_
      have hle := hlate t ht
      simp only [decide_eq_true_eq]
      omega
    rw [hall, List.countP_append, List.countP_singleton, if_pos]
    simp only [decide_eq_true_eq]
    omega
  have hbound := hG start _ hsorted (now + 1 - limits.idle) now (by omega)
  rw [hrun, hcount] at hbound
  have hroom := room_of_bounded limits (by omega) hbound
  have hfull : (r.prune now).sources.size = limits.sourceLimiterCapacity.value := by
    have h := hrefuses.2
    rwa [show ((r.checkGlobal G now).2.prune now).limits = limits from hr.limits_eq] at h
  omega

/-- A bucket for each of two sources, at limits with a short idle timeout. -/
theorem source_table_has_room_shortIdle :
    let r := [Call.both 7 0, .global 0].foldl (answer leakyBucket) (withLimits leakyBucket shortIdle 0)
    (r.checkGlobal leakyBucket 5).1 = true ∧ ¬ RefusesFull (r.checkGlobal leakyBucket 5).2 8 5 :=
  ⟨by decide +kernel, source_table_has_room shortIdle (gcra_leakyBucket _).bounded 0
    [Call.both 7 0, .global 0] (by simp [GlobalFirst]) 8 5 (by decide) (by decide +kernel)⟩

end Yonder.Relay.ResolveLimiters
