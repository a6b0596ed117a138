import Mathlib.Tactic.Ring

/-!
# Big-endian digits

`digits b w n` are the lowest `w` digits of `n` in base `b`, the highest first, and `ofDigits` is the
number that digits stand for.
-/

namespace Yonder.Lib

/-- The lowest `w` digits of `n`, the highest first. -/
def digits (b : Nat) : Nat → Nat → List Nat
  | 0, _ => []
  | w + 1, n => n / b ^ w % b :: digits b w n

/-- The number with the given digits. -/
def ofDigits (b : Nat) : List Nat → Nat
  | [] => 0
  | d :: ds => d * b ^ ds.length + ofDigits b ds

variable {b : Nat}

@[simp] theorem length_digits (w n : Nat) : (digits b w n).length = w := by
  induction w with
  | zero => rfl
  | succ w ih => rw [digits, List.length_cons, ih]

theorem digits_lt (hb : 0 < b) (w n : Nat) : ∀ d ∈ digits b w n, d < b := by
  induction w with
  | zero => exact fun d hd => absurd hd List.not_mem_nil
  | succ w ih => exact List.forall_mem_cons.2 ⟨Nat.mod_lt _ hb, ih⟩

theorem ofDigits_lt {ds : List Nat} (hlt : ∀ d ∈ ds, d < b) : ofDigits b ds < b ^ ds.length := by
  induction ds with
  | nil => exact Nat.one_pos
  | cons d ds ih =>
    rw [List.forall_mem_cons] at hlt
    calc d * b ^ ds.length + ofDigits b ds < d * b ^ ds.length + b ^ ds.length :=
          Nat.add_lt_add_left (ih hlt.2) _
      _ = (d + 1) * b ^ ds.length := by ring
      _ ≤ b * b ^ ds.length := Nat.mul_le_mul_right _ hlt.1
      _ = b ^ (d :: ds).length := by rw [List.length_cons, pow_succ, Nat.mul_comm]

theorem ofDigits_digits (w n : Nat) : ofDigits b (digits b w n) = n % b ^ w := by
  induction w with
  | zero => rw [pow_zero, Nat.mod_one]; rfl
  | succ w ih =>
    rw [digits, ofDigits, length_digits, ih, pow_succ, Nat.mod_mul, Nat.mul_comm, Nat.add_comm]

/-- The digits of a number are the digits of its two parts. -/
theorem digits_add (w k n : Nat) : digits b (w + k) n = digits b w (n / b ^ k) ++ digits b k n := by
  induction w with
  | zero => rw [Nat.zero_add]; rfl
  | succ w ih =>
    rw [Nat.add_right_comm, digits, digits, ih, List.cons_append, Nat.div_div_eq_div_mul, ← pow_add,
      Nat.add_comm k w]

/-- Digits of one length that stand for the same number are the same. -/
theorem ofDigits_inj {ds ds' : List Nat} (hlt : ∀ d ∈ ds, d < b) (hlt' : ∀ d ∈ ds', d < b)
    (hlen : ds.length = ds'.length) (h : ofDigits b ds = ofDigits b ds') : ds = ds' := by
  induction ds generalizing ds' with
  | nil => exact (List.length_eq_zero_iff.1 hlen.symm).symm
  | cons d ds ih =>
    cases ds' with
    | nil => cases hlen
    | cons d' ds' =>
      rw [List.forall_mem_cons] at hlt hlt'
      have hlen' : ds.length = ds'.length := Nat.succ.inj hlen
      rw [ofDigits, ofDigits, ← hlen'] at h
      have hrest := ofDigits_lt hlt.2
      have hrest' := ofDigits_lt hlt'.2
      rw [← hlen'] at hrest'
      -- the top digit is the quotient and the rest is the remainder
      have hdiv := congrArg (· / b ^ ds.length) h
      have hmod := congrArg (· % b ^ ds.length) h
      have hpos : 0 < b ^ ds.length := Nat.lt_of_le_of_lt (Nat.zero_le _) hrest
      simp only [Nat.mul_comm _ (b ^ ds.length), Nat.mul_add_div hpos, Nat.div_eq_of_lt hrest,
        Nat.div_eq_of_lt hrest', Nat.add_zero] at hdiv
      simp only [Nat.mul_comm _ (b ^ ds.length), Nat.mul_add_mod, Nat.mod_eq_of_lt hrest,
        Nat.mod_eq_of_lt hrest'] at hmod
      rw [hdiv, ih hlt.2 hlt'.2 hlen' hmod]

end Yonder.Lib
