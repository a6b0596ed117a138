import Mathlib.Tactic.Ring

/-!
# Rate limits

A `Limiter` admits or refuses requests as they come. `Bounded` is the law of a rate with a burst: in
every window, at most the burst and what the rate gives for the length of the window. The law holds
for two runs one after the other when the pause between them is long enough to refill the burst
(`Bounded.append`). `leakyBucket` is a limiter that keeps the law (`gcra_leakyBucket`).
-/

namespace Yonder.Lib

/-- Nanoseconds in a second. -/
def second : Nat := 1000000000

structure Rate where
  perSecond : Nat
  burst : Nat
deriving DecidableEq

/-- A rate limiter: a new one at a time, and a check at a time. -/
structure Limiter (State : Type) where
  new : Rate → Nat → State
  check : State → Nat → Bool × State

namespace Limiter

variable {State : Type} (G : Limiter State)

/-- The times at which a run of checks admits, and the state after it. -/
def run : State → List Nat → List Nat × State
  | s, [] => ([], s)
  | s, t :: rest =>
    let admitted := run (G.check s t).2 rest
    ((if (G.check s t).1 then [t] else []) ++ admitted.1, admitted.2)

theorem run_sublist (s : State) (times : List Nat) : (G.run s times).1.Sublist times := by
  induction times generalizing s with
  | nil => exact List.Sublist.refl []
  | cons t rest ih =>
    simp only [run]
    split
    · exact (ih _).cons_cons t
    · exact (ih _).cons t

theorem run_append (s : State) (times : List Nat) (t : Nat) :
    G.run s (times ++ [t]) =
      ((G.run s times).1 ++ (if (G.check (G.run s times).2 t).1 then [t] else []),
        (G.check (G.run s times).2 t).2) := by
  induction times generalizing s with
  | nil => exact Prod.ext (List.append_nil _) rfl
  | cons u rest ih =>
    rw [List.cons_append, run, ih, run]
    simp only [List.append_assoc]

end Limiter

/-- The number of times in a window. -/
def timesIn (a b : Nat) (times : List Nat) : Nat := times.countP fun t => a ≤ t ∧ t ≤ b

/-- In every window at most the burst and what the rate gives. -/
def Bounded (rate : Rate) (times : List Nat) : Prop :=
  ∀ a b, a ≤ b → timesIn a b times * second ≤ rate.burst * second + rate.perSecond * (b - a)

theorem timesIn_append (a b : Nat) (l l' : List Nat) :
    timesIn a b (l ++ l') = timesIn a b l + timesIn a b l' := List.countP_append

theorem timesIn_eq_zero {a b : Nat} {l : List Nat} (h : ∀ t ∈ l, t < a ∨ b < t) :
    timesIn a b l = 0 := by
  rw [timesIn, List.countP_eq_zero]
  intro t ht
  have := h t ht
  simp
  omega

theorem timesIn_mono {a b a' b' : Nat} {l : List Nat}
    (h : ∀ t ∈ l, a ≤ t → t ≤ b → a' ≤ t ∧ t ≤ b') : timesIn a b l ≤ timesIn a' b' l := by
  refine List.countP_mono_left fun t ht hin => ?_
  simp only [decide_eq_true_eq] at hin ⊢
  exact h t ht hin.1 hin.2

theorem bounded_nil (rate : Rate) : Bounded rate [] := by
  intro a b _
  rw [timesIn, List.countP_nil, Nat.zero_mul]
  exact Nat.zero_le _

/-- The law across a pause that refills the burst. -/
theorem Bounded.append {rate : Rate} {l l' : List Nat} {start pause : Nat} (h : Bounded rate l)
    (h' : Bounded rate l') (hbefore : ∀ t ∈ l, t + pause ≤ start) (hafter : ∀ t ∈ l', start ≤ t)
    (hrefill : rate.burst * second ≤ rate.perSecond * pause) : Bounded rate (l ++ l') := by
  intro a b hab
  rw [timesIn_append]
  by_cases hstart : b < start
  case pos =>
    have hzero := timesIn_eq_zero (a := a) fun t ht => Or.inr (Nat.lt_of_lt_of_le hstart (hafter t ht))
    rw [hzero]
    exact h a b hab
  case neg =>
    by_cases hpause : start < a + pause
    case pos =>
      have hzero : timesIn a b l = 0 := timesIn_eq_zero fun t ht => Or.inl (by
        have := hbefore t ht
        omega)
      rw [hzero, Nat.zero_add]
      exact h' a b hab
    case neg =>
      -- Both parts meet the window, and the pause lies in it.
      have hl : timesIn a b l ≤ timesIn a (start - pause) l :=
        timesIn_mono fun t ht hat _ => ⟨hat, by have := hbefore t ht; omega⟩
      have hl' : timesIn a b l' ≤ timesIn start b l' :=
        timesIn_mono fun t ht _ htb => ⟨hafter t ht, htb⟩
      have hbound := h a (start - pause) (by omega)
      have hbound' := h' start b (by omega)
      have hsplit : rate.perSecond * (b - a) = rate.perSecond * (start - pause - a) +
          rate.perSecond * pause + rate.perSecond * (b - start) := by
        rw [← Nat.mul_add, ← Nat.mul_add]
        congr 1
        omega
      have hmul := Nat.mul_le_mul_right second hl
      have hmul' := Nat.mul_le_mul_right second hl'
      rw [Nat.add_mul, hsplit]
      omega

/-- What is assumed of a limiter at a rate: every run of one keeps the law, and a new one is full. -/
structure Gcra {State : Type} (G : Limiter State) (rate : Rate) : Prop where
  bounded : ∀ start times, (start :: times).Pairwise (· ≤ ·) →
    Bounded rate (G.run (G.new rate start) times).1
  full : ∀ start, (G.run (G.new rate start) (List.replicate rate.burst start)).1 =
    List.replicate rate.burst start

/-! ## The leaky bucket -/

/-- A leaky bucket: what it holds, in parts of a request per nanosecond, and when it was looked at. -/
structure Bucket where
  rate : Rate
  level : Nat
  last : Nat

namespace Bucket

/-- What is left in the bucket at a time. -/
def leaked (s : Bucket) (now : Nat) : Nat := s.level - s.rate.perSecond * (now - s.last)

def check (s : Bucket) (now : Nat) : Bool × Bucket :=
  if s.leaked now + second ≤ s.rate.burst * second then
    (true, { s with level := s.leaked now + second, last := now })
  else (false, { s with level := s.leaked now, last := now })

end Bucket

/-- The leaky bucket as a limiter. -/
def leakyBucket : Limiter Bucket where
  new := fun rate now => ⟨rate, 0, now⟩
  check := Bucket.check

/-- What a check leaves: the level, raised by the request if it is admitted. -/
theorem Bucket.check_spec {s : Bucket} (h : s.level ≤ s.rate.burst * second) (now : Nat) :
    (s.check now).2.rate = s.rate ∧ (s.check now).2.last = now ∧
      (s.check now).2.level ≤ s.rate.burst * second ∧
      (s.check now).2.level = s.leaked now + if (s.check now).1 then second else 0 := by
  have hleaked : s.leaked now ≤ s.level := Nat.sub_le _ _
  unfold Bucket.check
  split
  case isTrue hroom => exact ⟨rfl, rfl, hroom, rfl⟩
  case isFalse => exact ⟨rfl, rfl, hleaked.trans h, rfl⟩

theorem timesIn_run_cons (s : Bucket) (a b t : Nat) (rest : List Nat) :
    timesIn a b (leakyBucket.run s (t :: rest)).1 =
      (if (s.check t).1 ∧ a ≤ t ∧ t ≤ b then 1 else 0) +
        timesIn a b (leakyBucket.run (s.check t).2 rest).1 := by
  rw [Limiter.run, timesIn_append]
  show timesIn a b (if (s.check t).1 then [t] else []) + _ = _
  congr 1
  by_cases hcheck : (s.check t).1 = true <;> simp [hcheck, timesIn, List.countP_cons]

/-- From the last look on, what is admitted and what was in the bucket stay under the law. -/
theorem leaky_from_last (s : Bucket) (times : List Nat) (b : Nat)
    (hlevel : s.level ≤ s.rate.burst * second) (hsorted : (s.last :: times).Pairwise (· ≤ ·))
    (hb : s.last ≤ b) :
    timesIn s.last b (leakyBucket.run s times).1 * second + s.level ≤
      s.rate.burst * second + s.rate.perSecond * (b - s.last) := by
  induction times generalizing s with
  | nil =>
    rw [Limiter.run, timesIn, List.countP_nil]
    omega
  | cons t rest ih =>
    obtain ⟨hfirst, hrest⟩ := List.pairwise_cons.1 hsorted
    have ht : s.last ≤ t := hfirst t List.mem_cons_self
    by_cases htb : t ≤ b
    case neg =>
      have hzero : timesIn s.last b (leakyBucket.run s (t :: rest)).1 = 0 := by
        refine timesIn_eq_zero fun u hu => Or.inr ?_
        have hmem := (leakyBucket.run_sublist s _).subset hu
        rcases List.mem_cons.1 hmem with rfl | hmem
        · omega
        · have := (List.pairwise_cons.1 hrest).1 u hmem
          omega
      rw [hzero]
      omega
    case pos =>
      obtain ⟨hrate, hlast, hle, hnew⟩ := Bucket.check_spec hlevel t
      have hstep := ih (s.check t).2 (by rwa [hrate]) (by rwa [hlast]) (by rwa [hlast])
      have hwider : timesIn s.last b (leakyBucket.run (s.check t).2 rest).1 ≤
          timesIn t b (leakyBucket.run (s.check t).2 rest).1 := by
        refine timesIn_mono fun u hu _ hub => ⟨?_, hub⟩
        exact (List.pairwise_cons.1 hrest).1 u ((leakyBucket.run_sublist _ _).subset hu)
      have hsplit : s.rate.perSecond * (b - s.last) =
          s.rate.perSecond * (t - s.last) + s.rate.perSecond * (b - t) := by
        rw [← Nat.mul_add]
        congr 1
        omega
      have hmul := Nat.mul_le_mul_right second hwider
      rw [hrate, hlast, hnew, Bucket.leaked] at hstep
      rw [timesIn_run_cons, hsplit]
      simp only [ht, htb, and_true, Nat.add_mul]
      split at hstep <;> simp_all <;> omega

/-- Every window of a run keeps the law. -/
theorem leaky_window (s : Bucket) (times : List Nat) (a b : Nat)
    (hlevel : s.level ≤ s.rate.burst * second) (hsorted : (s.last :: times).Pairwise (· ≤ ·))
    (hab : a ≤ b) :
    timesIn a b (leakyBucket.run s times).1 * second ≤
      s.rate.burst * second + s.rate.perSecond * (b - a) := by
  induction times generalizing s with
  | nil =>
    rw [Limiter.run, timesIn, List.countP_nil]
    omega
  | cons t rest ih =>
    obtain ⟨hrate, hlast, hle, hnew⟩ := Bucket.check_spec hlevel t
    have hrest := (List.pairwise_cons.1 hsorted).2
    by_cases hin : a ≤ t ∧ t ≤ b
    case neg =>
      rw [timesIn_run_cons, if_neg fun h => hin h.2, Nat.zero_add, ← hrate]
      exact ih (s.check t).2 (by rwa [hrate]) (by rwa [hlast])
    case pos =>
      -- The first request in the window: the law from the last look on, after its check.
      have hfrom := leaky_from_last (s.check t).2 rest b (by rwa [hrate]) (by rwa [hlast])
        (hlast.trans_le hin.2)
      have hlater : timesIn a b (leakyBucket.run (s.check t).2 rest).1 ≤
          timesIn t b (leakyBucket.run (s.check t).2 rest).1 := by
        refine timesIn_mono fun u hu _ hub => ⟨?_, hub⟩
        exact (List.pairwise_cons.1 hrest).1 u ((leakyBucket.run_sublist _ _).subset hu)
      have hmul := Nat.mul_le_mul_right second hlater
      have hshorter : s.rate.perSecond * (b - t) ≤ s.rate.perSecond * (b - a) :=
        Nat.mul_le_mul_left _ (by omega)
      rw [hrate, hlast, hnew] at hfrom
      rw [timesIn_run_cons]
      simp only [hin, and_true, Nat.add_mul]
      split at hfrom <;> simp_all <;> omega

theorem leaky_full (rate : Rate) (start n k : Nat) (h : k + n ≤ rate.burst) :
    (leakyBucket.run (⟨rate, k * second, start⟩ : Bucket) (List.replicate n start)).1 =
      List.replicate n start := by
  induction n generalizing k with
  | zero => rfl
  | succ n ih =>
    have hroom : (k + 1) * second ≤ rate.burst * second := Nat.mul_le_mul_right _ (by omega)
    have hcheck : Bucket.check ⟨rate, k * second, start⟩ start =
        (true, ⟨rate, (k + 1) * second, start⟩) := by
      rw [Bucket.check, Bucket.leaked, Nat.sub_self, Nat.mul_zero, Nat.sub_zero, ← Nat.succ_mul,
        if_pos hroom]
    rw [List.replicate_succ, Limiter.run]
    simp only [leakyBucket, hcheck, if_true, List.singleton_append]
    exact congrArg _ (ih (k + 1) (by omega))

/-- A leaky bucket does what is assumed of a limiter. -/
theorem gcra_leakyBucket (rate : Rate) : Gcra leakyBucket rate where
  bounded := fun start times hsorted a b hab =>
    leaky_window ⟨rate, 0, start⟩ times a b (Nat.zero_le _) hsorted hab
  full := fun start => by
    have h := leaky_full rate start rate.burst 0 (by omega)
    rwa [Nat.zero_mul] at h

end Yonder.Lib
