import Mathlib.Data.List.Basic

/-!
# Blocks of a fixed length

`Chunked L x blocks rest` says that `x` is the whole blocks `blocks` of length `L` followed by a
shorter `rest`. There is one such decomposition, and it does not depend on the pieces in which `x`
arrived.
-/

namespace Yonder.Lib

variable {α : Type} {L : Nat}

/-- Whole blocks and a shorter rest. -/
structure Chunked (L : Nat) (x : List α) (blocks : List (List α)) (rest : List α) : Prop where
  eq : x = blocks.flatten ++ rest
  length_block : ∀ b ∈ blocks, b.length = L
  length_rest : rest.length < L

namespace Chunked

/-- More input continues at the rest. -/
theorem append {x y r r' : List α} {bs bs' : List (List α)} (h : Chunked L x bs r)
    (h' : Chunked L (r ++ y) bs' r') : Chunked L (x ++ y) (bs ++ bs') r' where
  eq := by rw [h.eq, List.append_assoc, h'.eq, List.flatten_append, List.append_assoc]
  length_block b hb := (List.mem_append.1 hb).elim (h.length_block b) (h'.length_block b)
  length_rest := h'.length_rest

/-- The decomposition is unique. -/
theorem unique {bs : List (List α)} : ∀ {x r r' : List α} {bs' : List (List α)},
    Chunked L x bs r → Chunked L x bs' r' → bs = bs' ∧ r = r' := by
  induction bs with
  | nil =>
    intro x r r' bs' h h'
    cases bs' with
    | nil => exact ⟨rfl, by simpa using h.eq.symm.trans h'.eq⟩
    | cons b bs' =>
      -- a whole block does not fit into the rest
      have hlen := congrArg List.length (h.eq.symm.trans h'.eq)
      have hb := h'.length_block b List.mem_cons_self
      have hr := h.length_rest
      simp only [List.flatten_nil, List.nil_append, List.flatten_cons, List.length_append,
        hb] at hlen
      omega
  | cons b bs ih =>
    intro x r r' bs' h h'
    have hb := h.length_block b List.mem_cons_self
    cases bs' with
    | nil =>
      have hlen := congrArg List.length (h.eq.symm.trans h'.eq)
      have hr := h'.length_rest
      simp only [List.flatten_nil, List.nil_append, List.flatten_cons, List.length_append,
        hb] at hlen
      omega
    | cons b' bs' =>
      have hb' := h'.length_block b' List.mem_cons_self
      have heq := h.eq.symm.trans h'.eq
      rw [List.flatten_cons, List.flatten_cons, List.append_assoc, List.append_assoc] at heq
      obtain ⟨rfl, htail⟩ := List.append_inj heq (hb.trans hb'.symm)
      have hrest := ih (x := bs.flatten ++ r)
        ⟨rfl, fun c hc => h.length_block c (List.mem_cons_of_mem _ hc), h.length_rest⟩
        ⟨htail, fun c hc => h'.length_block c (List.mem_cons_of_mem _ hc), h'.length_rest⟩
      exact ⟨by rw [hrest.1], hrest.2⟩

end Chunked

/-- Cutting at the multiples of `L` gives the decomposition. -/
theorem chunked_blocks (hL : 0 < L) (x : List α) :
    Chunked L x ((List.range (x.length / L)).map fun i => (x.drop (i * L)).take L)
      (x.drop (x.length / L * L)) := by
  generalize hn : x.length / L = n
  induction n generalizing x with
  | zero =>
    have hlt : x.length < L := (Nat.div_eq_zero_iff_lt hL).1 hn
    simpa using (⟨rfl, by simp, hlt⟩ : Chunked L x [] x)
  | succ n ih =>
    have hle : L ≤ x.length := by
      by_contra hlt
      rw [Nat.div_eq_of_lt (Nat.lt_of_not_le hlt)] at hn
      exact absurd hn (Nat.succ_ne_zero n).symm
    have hrest := ih (x.drop L) (by
      have hsplit : x.length / L = (x.length - L) / L + 1 := Nat.div_eq_sub_div hL hle
      rw [List.length_drop]
      omega)
    have hfirst : Chunked L (x.take L) [x.take L] [] :=
      ⟨by simp, by simp [Nat.min_eq_left hle], hL⟩
    have hall := hfirst.append (y := x.drop L) (by simpa using hrest)
    rw [List.take_append_drop] at hall
    have hmul : ∀ k, (k + 1) * L = L + k * L := by
      intro k
      rw [Nat.succ_mul, Nat.add_comm]
    simpa [List.range_succ_eq_map, Function.comp_def, hmul] using hall

end Yonder.Lib
