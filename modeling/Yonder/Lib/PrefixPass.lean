import Mathlib.Tactic.SplitIfs

/-!
# Two prefixes in one pass

A reader that collects the first `stop` elements of a file in one pass and remembers what it had at
the mark `mark` on the way. `chunk` says how much a read at a position returns at most, so any split
of the file into reads is covered, with at least one element a read before the end of the file.

`prefixPass_eq` says what the pass ends with: the position, the prefix and the snapshot at the mark.
`twoMarkPass` remembers what it had at two marks. Each of its two snapshots is that of a pass with one
mark, so `twoMarkPass_eq` needs no loop invariant of its own; the marks must differ, because a read that
crosses both at once would take only the first snapshot.
-/

namespace Yonder.Lib

variable {α : Type}

/-- Where the pass stands: what it has collected and what it had at the mark. -/
structure Pass (α : Type) where
  position : Nat
  collected : List α
  snapshot : Option (List α)

namespace Pass

/-- The snapshot is taken when the position is exactly at the mark. -/
def atMark (p : Pass α) (mark : Nat) : Pass α :=
  if p.position = mark ∧ p.snapshot.isNone then { p with snapshot := some p.collected } else p

/-- One read: a part that crosses the mark is split there. -/
def take (p : Pass α) (mark : Nat) (read : List α) : Pass α :=
  if p.snapshot.isNone ∧ p.position < mark then
    let before := min (mark - p.position) read.length
    if before < read.length then
      ⟨p.position + read.length, p.collected ++ read.take before ++ read.drop before,
        some (p.collected ++ read.take before)⟩
    else ⟨p.position + read.length, p.collected ++ read.take before, p.snapshot⟩
  else ⟨p.position + read.length, p.collected ++ read, p.snapshot⟩

end Pass

/-- The loop: up to `size` elements a read, until `stop` or the end of the file. -/
def prefixLoop (file : List α) (chunk : Nat → Nat) (size mark stop : Nat) :
    Nat → Pass α → Pass α
  | 0, p => p
  | fuel + 1, p =>
    let p := p.atMark mark
    let remaining := stop - p.position
    if remaining = 0 then p
    else
      let read := (file.drop p.position).take
        (min (min remaining size) (max 1 (chunk p.position)))
      if read.isEmpty then p else prefixLoop file chunk size mark stop fuel (p.take mark read)

/-- The pass from the start of the file; every read but the last returns something. -/
def prefixPass (file : List α) (chunk : Nat → Nat) (size mark stop : Nat) : Pass α :=
  prefixLoop file chunk size mark stop (stop + 1) ⟨0, [], none⟩

variable {file : List α} {chunk : Nat → Nat} {size mark stop : Nat}

/-- What has been read is a prefix of the file, and the snapshot is the prefix up to the mark once the
mark is behind. -/
structure Pass.Reading (file : List α) (mark : Nat) (p : Pass α) : Prop where
  le : p.position ≤ file.length
  collected_eq : p.collected = file.take p.position
  pending : p.snapshot = none → p.position ≤ mark
  taken : ∀ x, p.snapshot = some x → mark ≤ p.position ∧ x = file.take mark

theorem Pass.Reading.atMark {p : Pass α} (h : p.Reading file mark) :
    (p.atMark mark).Reading file mark ∧ (p.atMark mark).position = p.position ∧
      (p.position = mark → (p.atMark mark).snapshot = some (file.take mark)) := by
  unfold Pass.atMark
  split_ifs with hmark
  · refine ⟨⟨h.le, h.collected_eq, nofun, ?_⟩, rfl, ?_⟩
    · rintro x ⟨⟩
      exact ⟨hmark.1 ▸ Nat.le_refl _, by rw [h.collected_eq, hmark.1]⟩
    · intro _
      rw [h.collected_eq, hmark.1]
  · refine ⟨h, rfl, ?_⟩
    intro hpos
    -- at the mark and not taken now: it was taken before
    cases hsnapshot : p.snapshot with
    | none => exact absurd ⟨hpos, by rw [hsnapshot]; rfl⟩ hmark
    | some x => rw [(h.taken x hsnapshot).2]

theorem Pass.Reading.take {p : Pass α} (h : p.Reading file mark) {n : Nat} (hn : n ≤ file.length - p.position)
    (hpending : p.snapshot = none → p.position ≠ mark) :
    (p.take mark ((file.drop p.position).take n)).Reading file mark ∧
      (p.take mark ((file.drop p.position).take n)).position = p.position + n := by
  have hlen : ((file.drop p.position).take n).length = n := by
    rw [List.length_take, List.length_drop]
    omega
  have hall : p.collected ++ (file.drop p.position).take n = file.take (p.position + n) := by
    rw [h.collected_eq, List.take_add]
  have hle := h.le
  have hend : p.position + n ≤ file.length := by omega
  unfold Pass.take
  dsimp only
  split_ifs with hbefore hcross
  · -- the read crosses the mark
    rw [hlen] at hcross ⊢
    have hmin : min (mark - p.position) n = mark - p.position := by omega
    rw [hmin] at hcross ⊢
    refine ⟨⟨hend, ?_, nofun, ?_⟩, rfl⟩
    · rw [List.append_assoc, List.take_append_drop, hall]
    · rintro x ⟨⟩
      refine ⟨show mark ≤ p.position + n by omega, ?_⟩
      rw [List.take_take, Nat.min_eq_left (by omega), h.collected_eq, ← List.take_add]
      congr 1
      omega
  · -- the read ends at the mark or before it
    rw [hlen] at hcross ⊢
    have hmin : min (mark - p.position) n = n := by omega
    rw [hmin, List.take_take, Nat.min_self, hall]
    refine ⟨⟨hend, rfl, fun _ => show p.position + n ≤ mark by omega, ?_⟩, rfl⟩
    intro x hx
    rw [Option.isNone_iff_eq_none.1 hbefore.1] at hx
    cases hx
  · rw [hlen, hall]
    refine ⟨⟨hend, rfl, ?_, ?_⟩, rfl⟩
    · intro hnone
      have hpos := h.pending hnone
      have hne := hpending hnone
      exact absurd ⟨Option.isNone_iff_eq_none.2 hnone, by omega⟩ hbefore
    · intro x hx
      have htaken := h.taken x hx
      exact ⟨show mark ≤ p.position + n by omega, htaken.2⟩

theorem prefixLoop_reading (chunk : Nat → Nat) (stop : Nat) (hsize : 0 < size) (fuel : Nat) {p : Pass α} (h : p.Reading file mark)
    (hstop : p.position ≤ stop) (hfuel : stop - p.position < fuel) :
    let q := prefixLoop file chunk size mark stop fuel p
    q.Reading file mark ∧ q.position = min stop file.length ∧
      (q.position = mark → q.snapshot = some (file.take mark)) := by
  induction fuel generalizing p with
  | zero => omega
  | succ fuel ih =>
    obtain ⟨hmark, hpos, hat⟩ := h.atMark
    have hle := h.le
    simp only [prefixLoop]
    split_ifs with hdone hempty
    · refine ⟨hmark, by omega, fun heq => hat (hpos ▸ heq)⟩
    · -- the end of the file
      rw [List.isEmpty_iff, hpos] at hempty
      have hzero := congrArg List.length hempty
      simp only [List.length_take, List.length_drop, List.length_nil] at hzero
      exact ⟨hmark, by omega, fun heq => hat (hpos ▸ heq)⟩
    · have hread : (file.drop (p.atMark mark).position).take
          (min (min (stop - (p.atMark mark).position) size) (max 1 (chunk (p.atMark mark).position))) =
          (file.drop (p.atMark mark).position).take
            (min (min (min (stop - (p.atMark mark).position) size)
              (max 1 (chunk (p.atMark mark).position))) (file.length - (p.atMark mark).position)) := by
        rw [List.take_eq_take_iff, List.length_drop]
        omega
      rw [hread] at hempty ⊢
      have hpending : (p.atMark mark).snapshot = none → (p.atMark mark).position ≠ mark := by
        intro hnone heq
        rw [hat (hpos ▸ heq)] at hnone
        cases hnone
      obtain ⟨hnext, hnextPos⟩ := hmark.take (Nat.min_le_right _ _) hpending
      -- a read that is not empty is at least one element
      have hsome : min (min (min (stop - (p.atMark mark).position) size)
          (max 1 (chunk (p.atMark mark).position))) (file.length - (p.atMark mark).position) ≠ 0 := by
        intro hzero
        rw [hzero] at hempty
        exact hempty rfl
      refine ih hnext ?_ ?_
      · rw [hnextPos]
        omega
      · rw [hnextPos]
        omega

/-- The pass ends with the prefix up to `stop`, or with the file if that is shorter, and has the
prefix up to the mark exactly if it got there. -/
theorem prefixPass_eq (hsize : 0 < size) : prefixPass file chunk size mark stop =
    ⟨min stop file.length, file.take stop,
      if mark ≤ min stop file.length then some (file.take mark) else none⟩ := by
  have hstart : (⟨0, [], none⟩ : Pass α).Reading file mark :=
    ⟨Nat.zero_le _, rfl, fun _ => Nat.zero_le _, nofun⟩
  obtain ⟨hq, hpos, hat⟩ := prefixLoop_reading chunk stop hsize (stop + 1) hstart
    (Nat.zero_le _) (by show stop - 0 < stop + 1; omega)
  unfold prefixPass
  generalize prefixLoop file chunk size mark stop (stop + 1) ⟨0, [], none⟩ = q at hq hpos hat
  obtain ⟨position, collected, snapshot⟩ := q
  dsimp only at hpos hat
  subst hpos
  have hcollected : collected = file.take stop := by
    have h : collected = file.take (min stop file.length) := hq.collected_eq
    rw [h, ← List.take_eq_take_min]
  subst hcollected
  congr 1
  cases snapshot with
  | none =>
    have hpending := hq.pending rfl
    rw [if_neg]
    intro hle
    cases hat (Nat.le_antisymm hpending hle)
  | some x =>
    obtain ⟨hle, rfl⟩ := hq.taken x rfl
    rw [if_pos hle]

/-! ## Two marks -/

/-- Where a pass with two marks stands. -/
structure TwoMarkPass (α : Type) where
  position : Nat
  collected : List α
  first : Option (List α)
  second : Option (List α)

namespace TwoMarkPass

def atMarks (p : TwoMarkPass α) (mark₁ mark₂ : Nat) : TwoMarkPass α :=
  let p := if p.position = mark₁ ∧ p.first.isNone then { p with first := some p.collected } else p
  if p.position = mark₂ ∧ p.second.isNone then { p with second := some p.collected } else p

/-- The part of a read up to the first mark: what is collected with it, its length and the snapshot. -/
def upToFirst (p : TwoMarkPass α) (mark₁ : Nat) (read : List α) :
    List α × Nat × Option (List α) :=
  if p.first.isNone ∧ p.position < mark₁ then
    let before := min (mark₁ - p.position) read.length
    let collected := p.collected ++ read.take before
    (collected, before, if before < read.length then some collected else p.first)
  else (p.collected, 0, p.first)

/-- One read: up to the first mark, on to the second mark, and the rest. -/
def take (p : TwoMarkPass α) (mark₁ mark₂ : Nat) (read : List α) : TwoMarkPass α :=
  let (collected, offset, first) := p.upToFirst mark₁ read
  let (collected, offset, second) :=
    if p.second.isNone ∧ p.position + offset < mark₂ then
      let before := min (mark₂ - (p.position + offset)) (read.length - offset)
      let collected := collected ++ (read.drop offset).take before
      (collected, offset + before,
        if offset + before < read.length then some collected else p.second)
    else (collected, offset, p.second)
  ⟨p.position + read.length, collected ++ read.drop offset, first, second⟩

/-- The pass that only knows the first mark, and the one that only knows the second. -/
def onlyFirst (p : TwoMarkPass α) : Pass α := ⟨p.position, p.collected, p.first⟩

def onlySecond (p : TwoMarkPass α) : Pass α := ⟨p.position, p.collected, p.second⟩

@[simp] theorem onlyFirst_position (p : TwoMarkPass α) : p.onlyFirst.position = p.position := rfl
@[simp] theorem onlySecond_position (p : TwoMarkPass α) : p.onlySecond.position = p.position := rfl

end TwoMarkPass

def twoMarkLoop (file : List α) (chunk : Nat → Nat) (size mark₁ mark₂ stop : Nat) :
    Nat → TwoMarkPass α → TwoMarkPass α
  | 0, p => p
  | fuel + 1, p =>
    let p := p.atMarks mark₁ mark₂
    let remaining := stop - p.position
    if remaining = 0 then p
    else
      let read := (file.drop p.position).take
        (min (min remaining size) (max 1 (chunk p.position)))
      if read.isEmpty then p
      else twoMarkLoop file chunk size mark₁ mark₂ stop fuel (p.take mark₁ mark₂ read)

def twoMarkPass (file : List α) (chunk : Nat → Nat) (size mark₁ mark₂ stop : Nat) :
    TwoMarkPass α :=
  twoMarkLoop file chunk size mark₁ mark₂ stop (stop + 1) ⟨0, [], none, none⟩

namespace TwoMarkPass

variable {mark₁ mark₂ : Nat}

theorem onlyFirst_atMarks (p : TwoMarkPass α) (mark₁ mark₂ : Nat) :
    (p.atMarks mark₁ mark₂).onlyFirst = p.onlyFirst.atMark mark₁ := by
  unfold atMarks Pass.atMark
  dsimp only
  split_ifs <;> first | rfl | contradiction

theorem onlySecond_atMarks (p : TwoMarkPass α) (mark₁ mark₂ : Nat) :
    (p.atMarks mark₁ mark₂).onlySecond = p.onlySecond.atMark mark₂ := by
  unfold atMarks Pass.atMark
  dsimp only
  split_ifs <;> first | rfl | contradiction

/-- A read is collected up to some place and then from there. -/
theorem collect_split (collected read : List α) (n : Nat) :
    collected ++ read.take n ++ read.drop n = collected ++ read := by
  rw [List.append_assoc, List.take_append_drop]

theorem upToFirst_fst (p : TwoMarkPass α) (mark₁ : Nat) (read : List α) :
    (p.upToFirst mark₁ read).1 = p.collected ++ read.take (p.upToFirst mark₁ read).2.1 := by
  unfold upToFirst
  split_ifs with hfirst
  · rfl
  · exact (List.append_nil _).symm

theorem take_collected (p : TwoMarkPass α) (mark₁ mark₂ : Nat) (read : List α) :
    (p.take mark₁ mark₂ read).collected = p.collected ++ read := by
  unfold take
  have hfst := p.upToFirst_fst mark₁ read
  generalize p.upToFirst mark₁ read = part at hfst
  obtain ⟨collected, offset, first⟩ := part
  dsimp only at hfst ⊢
  subst hfst
  by_cases hsecond : p.second.isNone = true ∧ p.position + offset < mark₂
  · rw [if_pos hsecond]
    dsimp only
    rw [List.append_assoc, List.append_assoc, ← List.drop_drop, List.take_append_drop,
      List.take_append_drop]
  · rw [if_neg hsecond]
    exact collect_split _ _ _

theorem onlyFirst_take (p : TwoMarkPass α) (read : List α) :
    (p.take mark₁ mark₂ read).onlyFirst = p.onlyFirst.take mark₁ read := by
  have hcollected := p.take_collected mark₁ mark₂ read
  have hfirst : (p.take mark₁ mark₂ read).first = (p.upToFirst mark₁ read).2.2 := by
    unfold take
    generalize p.upToFirst mark₁ read = part
    obtain ⟨collected, offset, first⟩ := part
    dsimp only
  have hposition : (p.take mark₁ mark₂ read).position = p.position + read.length := rfl
  unfold onlyFirst
  rw [hcollected, hfirst, hposition]
  unfold Pass.take upToFirst
  dsimp only
  split_ifs with hbefore hcross
  · rw [collect_split]
  · have hall : min (mark₁ - p.position) read.length = read.length := by omega
    rw [hall, List.take_length]
  · rfl

/-- How far the part up to the first mark goes: to the mark or to the end of the read, or nowhere. -/
theorem upToFirst_offset (p : TwoMarkPass α) (mark₁ : Nat) (read : List α) :
    (p.upToFirst mark₁ read).2.1 = 0 ∨ p.position < mark₁ ∧
      (p.upToFirst mark₁ read).2.1 = min (mark₁ - p.position) read.length := by
  unfold upToFirst
  split_ifs with hfirst
  · exact .inr ⟨hfirst.2, rfl⟩
  · exact .inl rfl

theorem onlySecond_take (hmarks : mark₁ < mark₂) (p : TwoMarkPass α) (read : List α) :
    (p.take mark₁ mark₂ read).onlySecond = p.onlySecond.take mark₂ read := by
  have hcollected := p.take_collected mark₁ mark₂ read
  have hoffset := p.upToFirst_offset mark₁ read
  have hfst := p.upToFirst_fst mark₁ read
  have hsecond : (p.take mark₁ mark₂ read).second = (p.onlySecond.take mark₂ read).snapshot := by
    unfold take
    generalize p.upToFirst mark₁ read = part at hoffset hfst
    obtain ⟨collected, offset, first⟩ := part
    dsimp only at hoffset hfst ⊢
    subst hfst
    unfold Pass.take onlySecond
    dsimp only
    by_cases htaken : p.second.isNone = true ∧ p.position < mark₂
    case neg =>
      rw [if_neg htaken, if_neg]
      rintro ⟨hnone, hlt⟩
      exact htaken ⟨hnone, by omega⟩
    case pos =>
      rw [if_pos htaken]
      by_cases hbehind : p.position + offset < mark₂
      case pos =>
        -- The two parts in front of the second mark make up the one part of the other pass.
        have hsum : offset + min (mark₂ - (p.position + offset)) (read.length - offset) =
            min (mark₂ - p.position) read.length := by omega
        rw [if_pos ⟨htaken.1, hbehind⟩]
        dsimp only
        rw [hsum, List.append_assoc, ← List.take_add, hsum]
        split_ifs <;> rfl
      case neg =>
        -- The first mark is not the second one, so the read ended here.
        have hend : ¬ min (mark₂ - p.position) read.length < read.length := by omega
        rw [if_neg fun h => hbehind h.2, if_neg hend]
  have hposition : (p.take mark₁ mark₂ read).position = (p.onlySecond.take mark₂ read).position := by
    unfold Pass.take
    dsimp only
    split_ifs <;> rfl
  have hall : (p.onlySecond.take mark₂ read).collected = p.collected ++ read := by
    unfold Pass.take
    dsimp only
    split_ifs with hbefore hcross
    · exact collect_split _ _ _
    · have hwhole : min (mark₂ - p.onlySecond.position) read.length = read.length := by omega
      rw [hwhole, List.take_length]
      rfl
    · rfl
  unfold onlySecond at hsecond hposition hall ⊢
  rw [hcollected, hsecond, hposition, ← hall]

end TwoMarkPass

variable {mark₁ mark₂ : Nat}

theorem onlyFirst_twoMarkLoop (fuel : Nat) (p : TwoMarkPass α) :
    (twoMarkLoop file chunk size mark₁ mark₂ stop fuel p).onlyFirst =
      prefixLoop file chunk size mark₁ stop fuel p.onlyFirst := by
  induction fuel generalizing p with
  | zero => rfl
  | succ fuel ih =>
    rw [twoMarkLoop, prefixLoop, ← p.onlyFirst_atMarks mark₁ mark₂]
    dsimp only
    rw [TwoMarkPass.onlyFirst_position]
    split_ifs with hdone hempty
    · rfl
    · rfl
    · rw [ih, TwoMarkPass.onlyFirst_take]

theorem onlySecond_twoMarkLoop (hmarks : mark₁ < mark₂) (fuel : Nat) (p : TwoMarkPass α) :
    (twoMarkLoop file chunk size mark₁ mark₂ stop fuel p).onlySecond =
      prefixLoop file chunk size mark₂ stop fuel p.onlySecond := by
  induction fuel generalizing p with
  | zero => rfl
  | succ fuel ih =>
    rw [twoMarkLoop, prefixLoop, ← p.onlySecond_atMarks mark₁ mark₂]
    dsimp only
    rw [TwoMarkPass.onlySecond_position]
    split_ifs with hdone hempty
    · rfl
    · rfl
    · rw [ih, TwoMarkPass.onlySecond_take hmarks]

/-- A pass with two different marks ends with the prefix up to `stop` and with the prefix up to each
mark that it got to. -/
theorem twoMarkPass_eq (hsize : 0 < size) (hmarks : mark₁ < mark₂) :
    twoMarkPass file chunk size mark₁ mark₂ stop =
      ⟨min stop file.length, file.take stop,
        if mark₁ ≤ min stop file.length then some (file.take mark₁) else none,
        if mark₂ ≤ min stop file.length then some (file.take mark₂) else none⟩ := by
  have hfirst : (twoMarkPass file chunk size mark₁ mark₂ stop).onlyFirst = _ :=
    (onlyFirst_twoMarkLoop (stop + 1) ⟨0, [], none, none⟩).trans (prefixPass_eq hsize)
  have hsecond : (twoMarkPass file chunk size mark₁ mark₂ stop).onlySecond = _ :=
    (onlySecond_twoMarkLoop hmarks (stop + 1) ⟨0, [], none, none⟩).trans (prefixPass_eq hsize)
  generalize twoMarkPass file chunk size mark₁ mark₂ stop = p at hfirst hsecond
  obtain ⟨position, collected, first, second⟩ := p
  cases hfirst
  cases hsecond
  rfl

end Yonder.Lib
