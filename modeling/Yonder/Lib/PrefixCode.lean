import Mathlib.Tactic

/-!
# Codes in which no word begins another

A code gives every symbol a word, such that no word is an initial part of another. A text that is not
made of words is still decoded: `Decodes` puts `none` for each part that is invalid and maximal, that is,
a part which begins a word as far as it can be followed, or a single unit that begins none. The decoding
of a text is unique (`Decodes.unique`).

`feed` decodes a text unit by unit and keeps the units of a word that is not complete, so the text may
come in any pieces (`feed_append`). With `flush` at the end it gives the decoding (`decodes_feed`).

`Checks` is the contract of a function that looks for the first error of a text, and `check` one that
meets it.
-/

namespace Yonder.Lib

/-- A code, with a test for words and a test for their initial parts. -/
structure PrefixCode (Symbol Letter : Type) where
  word : Symbol → List Letter
  word_ne_nil : ∀ a, word a ≠ []
  free : ∀ {a b : Symbol}, word a <+: word b → a = b
  /-- The symbol of a word. -/
  symbol : List Letter → Option Symbol
  symbol_iff : ∀ {w : List Letter} {a : Symbol}, symbol w = some a ↔ word a = w
  /-- Some letters that begin a word and are not all of it. -/
  opens : List Letter → Bool
  opens_iff : ∀ {w : List Letter}, opens w = true ↔ w ≠ [] ∧ ∃ a, w <+: word a ∧ w ≠ word a

namespace PrefixCode

variable {Symbol Letter : Type} (C : PrefixCode Symbol Letter)

/-- The words of some symbols. -/
def words (symbols : List Symbol) : List Letter := symbols.flatMap C.word

/-! ## Words and their initial parts -/

section Opens

variable {C}

theorem word_append_inj {a b : Symbol} {rest rest' : List Letter}
    (h : C.word a ++ rest = C.word b ++ rest') : a = b ∧ rest = rest' := by
  -- the two words are initial parts of one text, so one begins the other
  have hab : a = b := by
    rcases List.prefix_or_prefix_of_prefix (List.prefix_append (C.word a) rest)
      (h ▸ List.prefix_append (C.word b) rest') with hle | hle
    · exact C.free hle
    · exact (C.free hle).symm
  subst hab
  exact ⟨rfl, List.append_cancel_left h⟩

variable {w : List Letter}

theorem opens_ne_nil (h : C.opens w = true) : w ≠ [] := (C.opens_iff.1 h).1

theorem opens_of_initial {w' : List Letter} (hne : w ≠ []) (hw : w <+: w') (h : C.opens w' = true) :
    C.opens w = true := by
  obtain ⟨-, a, ha, hproper⟩ := C.opens_iff.1 h
  refine C.opens_iff.2 ⟨hne, a, hw.trans ha, ?_⟩
  rintro rfl
  exact hproper (ha.eq_of_length (Nat.le_antisymm ha.length_le hw.length_le))

/-- No word is an initial part of letters that only begin one. -/
theorem not_word_initial (h : C.opens w = true) (a : Symbol) : ¬ C.word a <+: w := by
  intro ha
  obtain ⟨-, b, hb, hproper⟩ := C.opens_iff.1 h
  obtain rfl := C.free (ha.trans hb)
  exact hproper (hb.eq_of_length (Nat.le_antisymm hb.length_le ha.length_le))

theorem symbol_of_opens (h : C.opens w = true) : C.symbol w = none := by
  cases hsymbol : C.symbol w with
  | none => rfl
  | some a =>
    have hword := C.symbol_iff.1 hsymbol
    exact absurd (hword ▸ List.prefix_rfl) (not_word_initial h a)

/-- Letters that a word goes on from, by one more letter: they are the word then, or still begin it. -/
theorem symbol_or_opens {pending rest : List Letter} {u : Letter} {a : Symbol}
    (h : C.word a = pending ++ u :: rest) :
    (rest = [] ∧ C.symbol (pending ++ [u]) = some a) ∨
      (rest ≠ [] ∧ C.opens (pending ++ [u]) = true) := by
  cases rest with
  | nil => exact .inl ⟨rfl, C.symbol_iff.2 h⟩
  | cons v rest =>
    refine .inr ⟨List.cons_ne_nil v rest, C.opens_iff.2 ⟨by simp, a, ?_, ?_⟩⟩
    · rw [h]
      exact ⟨v :: rest, by rw [List.append_assoc]; rfl⟩
    · rw [h]
      intro heq
      have hlength := congrArg List.length heq
      simp at hlength

end Opens

variable {part us : List Letter}

/-! ## Decoding -/

/-- A part at the front of a text that is invalid, and as long as it can be. -/
structure Invalid (part rest : List Letter) : Prop where
  start : (∃ u, part = [u]) ∨ C.opens part = true
  no_word : ∀ a, ¬ C.word a <+: part ++ rest
  maximal : ∀ more, more ≠ [] → more <+: rest → C.opens (part ++ more) = false

/-- The decoding of a text: its symbols, and `none` for each invalid part. -/
inductive Decodes : List Letter → List (Option Symbol) → Prop
  | nil : Decodes [] []
  | symbol (a : Symbol) {rest : List Letter} {out : List (Option Symbol)} (h : Decodes rest out) :
      Decodes (C.word a ++ rest) (some a :: out)
  | invalid {part rest : List Letter} {out : List (Option Symbol)} (hpart : C.Invalid part rest)
      (h : Decodes rest out) : Decodes (part ++ rest) (none :: out)

section Unique

variable {C}

variable {rest : List Letter}

theorem Invalid.part_ne_nil (h : C.Invalid part rest) : part ≠ [] := by
  rcases h.start with ⟨u, rfl⟩ | hopens
  · exact List.cons_ne_nil u []
  · exact opens_ne_nil hopens

end Unique

/-! ## Decoding in pieces -/

/-- The first letter behind a symbol or an invalid part. -/
def start (u : Letter) : List (Option Symbol) × List Letter :=
  match C.symbol [u] with
  | some a => ([some a], [])
  | none => if C.opens [u] then ([], [u]) else ([none], [])

/-- One more letter. Where it does not go on from the letters that are kept, those are invalid, and it
is a first letter. -/
def push (pending : List Letter) (u : Letter) : List (Option Symbol) × List Letter :=
  match C.symbol (pending ++ [u]) with
  | some a => ([some a], [])
  | none =>
    if C.opens (pending ++ [u]) then ([], pending ++ [u])
    else
      match pending with
      | [] => ([none], [])
      | _ :: _ => (none :: (C.start u).1, (C.start u).2)

/-- Letters one after the other: what they give, and the letters that are kept. -/
def feed : List Letter → List Letter → List (Option Symbol) × List Letter
  | pending, [] => ([], pending)
  | pending, u :: us =>
    ((C.push pending u).1 ++ (feed (C.push pending u).2 us).1, (feed (C.push pending u).2 us).2)

/-- What the letters that are kept at the end give. -/
def flush (pending : List Letter) : List (Option Symbol) :=
  match pending with
  | [] => []
  | _ :: _ => [none]

/-- Letters that can be kept. -/
def Kept (pending : List Letter) : Prop := pending = [] ∨ C.opens pending = true

section Feed

variable {C}

theorem push_nil (u : Letter) : C.push [] u = C.start u := rfl

theorem feed_append (pending first second : List Letter) :
    C.feed pending (first ++ second) =
      ((C.feed pending first).1 ++ (C.feed (C.feed pending first).2 second).1,
        (C.feed (C.feed pending first).2 second).2) := by
  induction first generalizing pending with
  | nil => rfl
  | cons u first ih => rw [List.cons_append, feed, feed, ih, List.append_assoc]

variable {u : Letter} {rest : List Letter}

theorem push_symbol {pending : List Letter} {a : Symbol} (h : C.symbol (pending ++ [u]) = some a) :
    C.push pending u = ([some a], []) := by
  rw [push.eq_def, h]

theorem push_opens {pending : List Letter} (h : C.opens (pending ++ [u]) = true) :
    C.push pending u = ([], pending ++ [u]) := by
  rw [push.eq_def, symbol_of_opens h]
  exact if_pos h

theorem push_invalid {pending : List Letter} (hne : pending ≠ [])
    (hsymbol : C.symbol (pending ++ [u]) = none) (hopens : C.opens (pending ++ [u]) = false) :
    C.push pending u = (none :: (C.start u).1, (C.start u).2) := by
  rw [push.eq_def, hsymbol, hopens]
  cases pending with
  | nil => exact absurd rfl hne
  | cons v pending => rfl

theorem start_invalid (hsymbol : C.symbol [u] = none) (hopens : C.opens [u] = false) :
    C.start u = ([none], []) := by
  rw [start, hsymbol, hopens]
  rfl

theorem kept_start (u : Letter) : C.Kept (C.start u).2 := by
  unfold start
  cases C.symbol [u] with
  | some a => exact .inl rfl
  | none =>
    cases hopens : C.opens [u] with
    | true => exact .inr hopens
    | false => exact .inl rfl

theorem kept_push (pending : List Letter) (u : Letter) : C.Kept (C.push pending u).2 := by
  unfold push
  cases C.symbol (pending ++ [u]) with
  | some a => exact .inl rfl
  | none =>
    cases hopens : C.opens (pending ++ [u]) with
    | true => exact .inr hopens
    | false =>
      cases pending with
      | nil => exact .inl rfl
      | cons v pending => exact kept_start u

theorem kept_feed {pending : List Letter} (h : C.Kept pending) (us : List Letter) :
    C.Kept (C.feed pending us).2 := by
  induction us generalizing pending with
  | nil => exact h
  | cons u us ih => exact ih (kept_push pending u)

/-- A word, from some of its letters on. -/
theorem feed_word_from {pending : List Letter} {a : Symbol} (h : C.word a = pending ++ rest)
    (hne : rest ≠ []) : C.feed pending rest = ([some a], []) := by
  induction rest generalizing pending with
  | nil => exact absurd rfl hne
  | cons u rest ih =>
    rcases symbol_or_opens h with ⟨rfl, hsymbol⟩ | ⟨hrest, hopens⟩
    · rw [feed, push_symbol hsymbol]
      rfl
    · rw [feed, push_opens hopens, ih (by rw [h, List.append_assoc]; rfl) hrest]
      rfl

theorem feed_words (symbols : List Symbol) (rest : List Letter) :
    C.feed [] (C.words symbols ++ rest) =
      (symbols.map some ++ (C.feed [] rest).1, (C.feed [] rest).2) := by
  induction symbols with
  | nil => rfl
  | cons a symbols ih =>
    rw [words, List.flatMap_cons, List.append_assoc, feed_append,
      feed_word_from (List.nil_append _).symm (C.word_ne_nil a)]
    change (_ ++ (C.feed [] (C.words symbols ++ rest)).1,
      (C.feed [] (C.words symbols ++ rest)).2) = _
    rw [ih]
    rfl

/-- Letters that begin a word are kept. -/
theorem feed_opens_from {pending : List Letter} (h : C.opens (pending ++ rest) = true) :
    C.feed pending rest = ([], pending ++ rest) := by
  induction rest generalizing pending with
  | nil => rw [List.append_nil, feed]
  | cons u rest ih =>
    rw [List.append_cons] at h
    have hopens : C.opens (pending ++ [u]) = true :=
      opens_of_initial (by simp) (List.prefix_append _ rest) h
    rw [feed, push_opens hopens, ih h, List.append_cons pending u rest]
    rfl

/-- An invalid part that something follows, or that is a single letter. -/
theorem feed_invalid (h : C.Invalid part rest) (hopen : C.opens (part ++ rest) = false) :
    C.feed [] (part ++ rest) = (none :: (C.feed [] rest).1, (C.feed [] rest).2) := by
  cases hpart : C.opens part with
  | true =>
    cases rest with
    | nil =>
      rw [List.append_nil, hpart] at hopen
      cases hopen
    | cons u rest =>
      have hclosed : C.opens (part ++ [u]) = false := by
        refine h.maximal [u] (List.cons_ne_nil u []) ?_
        exact ⟨rest, rfl⟩
      have hnone : C.symbol (part ++ [u]) = none := by
        cases hsymbol : C.symbol (part ++ [u]) with
        | none => rfl
        | some a =>
          refine absurd ?_ (h.no_word a)
          rw [C.symbol_iff.1 hsymbol]
          exact ⟨rest, by rw [List.append_assoc]; rfl⟩
      rw [feed_append, feed_opens_from (by rwa [List.nil_append]), List.nil_append, List.nil_append,
        feed, push_invalid h.part_ne_nil hnone hclosed, feed, push_nil]
      rfl
  | false =>
    obtain ⟨u, rfl⟩ : ∃ u, part = [u] := by
      rcases h.start with hsingle | hopens
      · exact hsingle
      · rw [hpart] at hopens
        cases hopens
    have hnone : C.symbol [u] = none := by
      cases hsymbol : C.symbol [u] with
      | none => rfl
      | some a =>
        refine absurd ?_ (h.no_word a)
        rw [C.symbol_iff.1 hsymbol]
        exact List.prefix_append _ rest
    rw [List.cons_append, feed, push_nil, start_invalid hnone hpart]
    rfl

/-! ### The decoding of the whole text -/

theorem invalid_kept {pending : List Letter} (h : C.opens pending = true) : C.Invalid pending [] := by
  refine ⟨.inr h, ?_, ?_⟩
  · intro a
    rw [List.append_nil]
    exact not_word_initial h a
  · intro more hne hmore
    exact absurd (List.prefix_nil.1 hmore) hne

/-- The kept letters are invalid where the next letter does not go on from them. -/
theorem invalid_before {pending : List Letter} (h : C.opens pending = true)
    (hsymbol : C.symbol (pending ++ [u]) = none) (hopens : C.opens (pending ++ [u]) = false) :
    C.Invalid pending (u :: us) := by
  refine ⟨.inr h, ?_, ?_⟩
  · intro a ha
    rcases List.prefix_or_prefix_of_prefix ha (List.prefix_append pending (u :: us)) with hle | ⟨more, hmore⟩
    · exact not_word_initial h a hle
    · -- the word goes on with the next letter
      rw [← hmore, List.prefix_append_right_inj] at ha
      cases more with
      | nil => exact not_word_initial h a (by rw [← hmore, List.append_nil])
      | cons v more =>
        obtain ⟨rfl, -⟩ := List.cons_prefix_cons.1 ha
        rcases symbol_or_opens hmore.symm with ⟨-, hword⟩ | ⟨-, hword⟩
        · rw [hsymbol] at hword
          cases hword
        · rw [hopens] at hword
          cases hword
  · intro more hne hmore
    cases more with
    | nil => exact absurd rfl hne
    | cons v more =>
      obtain ⟨rfl, -⟩ := List.cons_prefix_cons.1 hmore
      cases hlong : C.opens (pending ++ v :: more) with
      | false => rfl
      | true =>
        have hshort : C.opens (pending ++ [v]) = true :=
          opens_of_initial (by simp) ⟨more, by rw [List.append_assoc]; rfl⟩ hlong
        rw [hopens] at hshort
        cases hshort

theorem invalid_single (hsymbol : C.symbol [u] = none) (hopens : C.opens [u] = false) :
    C.Invalid [u] us := by
  refine ⟨.inl ⟨u, rfl⟩, ?_, ?_⟩
  · rintro a ⟨more, hmore⟩
    cases hword : C.word a with
    | nil => exact C.word_ne_nil a hword
    | cons v rest =>
      rw [hword, List.cons_append, List.singleton_append] at hmore
      obtain ⟨rfl, -⟩ := List.cons.inj hmore
      have hword' : C.word a = [] ++ v :: rest := hword
      rcases symbol_or_opens hword' with ⟨-, hw⟩ | ⟨-, hw⟩
      · rw [List.nil_append, hsymbol] at hw
        cases hw
      · rw [List.nil_append, hopens] at hw
        cases hw
  · intro more _ _
    cases hlong : C.opens ([u] ++ more) with
    | false => rfl
    | true =>
      have hshort := opens_of_initial (List.cons_ne_nil u []) (List.prefix_append [u] more) hlong
      rw [hopens] at hshort
      cases hshort

/-- The first letter of a text, where the rest is decoded from whatever it leaves. -/
theorem decodes_start (ih : ∀ pending, C.Kept pending →
      C.Decodes (pending ++ us) ((C.feed pending us).1 ++ flush (C.feed pending us).2))
    :
    C.Decodes (u :: us) ((C.start u).1 ++ ((C.feed (C.start u).2 us).1 ++
      flush (C.feed (C.start u).2 us).2)) := by
  cases hsymbol : C.symbol [u] with
  | some a =>
    have hword : u :: us = C.word a ++ us := by
      rw [C.symbol_iff.1 hsymbol]
      rfl
    rw [start, hsymbol, hword]
    exact .symbol a (ih [] (.inl rfl))
  | none =>
    cases hopens : C.opens [u] with
    | true =>
      rw [start, hsymbol, hopens]
      exact ih [u] (.inr hopens)
    | false =>
      rw [start_invalid hsymbol hopens]
      have hpart : C.Invalid [u] us := invalid_single hsymbol hopens
      exact .invalid hpart (ih [] (.inl rfl))

/-- Decoding in pieces, with what is kept at the end, is the decoding of the text. -/
theorem decodes_feed (us : List Letter) {pending : List Letter} (h : C.Kept pending) :
    C.Decodes (pending ++ us) ((C.feed pending us).1 ++ flush (C.feed pending us).2) := by
  -- by induction on the letters, for all that can be kept before them
  induction us generalizing pending with
  | nil =>
    rcases h with rfl | hopens
    · exact .nil
    · cases pending with
      | nil => exact .nil
      | cons v pending => exact .invalid (invalid_kept hopens) .nil
  | cons u us ih =>
    rw [feed, List.append_assoc]
    cases hsymbol : C.symbol (pending ++ [u]) with
    | some a =>
      rw [push_symbol hsymbol, List.append_cons, ← C.symbol_iff.1 hsymbol]
      exact .symbol a (ih (.inl rfl))
    | none =>
      cases hopens : C.opens (pending ++ [u]) with
      | true =>
        rw [push_opens hopens, List.append_cons]
        exact ih (.inr hopens)
      | false =>
        have hstart := decodes_start (u := u) (fun pending hkept => ih hkept)
        rcases h with rfl | hpending
        · rw [push_nil]
          exact hstart
        · rw [push_invalid (opens_ne_nil hpending) hsymbol hopens]
          exact .invalid (invalid_before hpending hsymbol hopens) hstart

end Feed

/-! ## Looking for the first error -/

/-- The answer of a check: the text is made of words, or there are so many letters before its first error
and, unless the text only ends too early, so many letters in it. -/
inductive Check
  | ok
  | error (validUpTo : Nat) (errorLen : Option Nat)
  deriving DecidableEq, Repr

/-- What a check promises. -/
structure Checks (check : List Letter → Check) : Prop where
  ok : ∀ text, check text = .ok ↔ ∃ symbols, text = C.words symbols
  valid : ∀ text validUpTo errorLen, check text = .error validUpTo errorLen →
    ∃ symbols, text.take validUpTo = C.words symbols
  early : ∀ text validUpTo, check text = .error validUpTo none →
    C.opens (text.drop validUpTo) = true
  invalid : ∀ text validUpTo errorLen, check text = .error validUpTo (some errorLen) →
    C.opens (text.drop validUpTo) = false ∧
      C.Invalid ((text.drop validUpTo).take errorLen) ((text.drop validUpTo).drop errorLen)

/-- The check from some letters on that are kept, with so many letters before them. -/
def checkFrom : Nat → List Letter → List Letter → Check
  | _, [], [] => .ok
  | before, _ :: _, [] => .error before none
  | before, pending, u :: us =>
    match C.symbol (pending ++ [u]) with
    | some _ => checkFrom (before + (pending.length + 1)) [] us
    | none =>
      if C.opens (pending ++ [u]) then checkFrom before (pending ++ [u]) us
      else .error before (some (max pending.length 1))

/-- A check that reads the text letter by letter. -/
def check (text : List Letter) : Check := C.checkFrom 0 [] text

/-- What the check says of `pending ++ us`, with the letters before it counted in. -/
inductive CheckSpec (before : Nat) (text : List Letter) : Check → Prop
  | ok (symbols : List Symbol) (h : text = C.words symbols) : CheckSpec before text .ok
  | early (symbols : List Symbol) (rest : List Letter) (h : text = C.words symbols ++ rest)
      (hrest : C.opens rest = true) :
      CheckSpec before text (.error (before + (C.words symbols).length) none)
  | invalid (symbols : List Symbol) (part rest : List Letter)
      (h : text = C.words symbols ++ (part ++ rest)) (hpart : C.Invalid part rest)
      (hopens : C.opens (part ++ rest) = false) :
      CheckSpec before text (.error (before + (C.words symbols).length) (some part.length))

section Check

variable {C}

theorem words_cons (a : Symbol) (symbols : List Symbol) :
    C.words (a :: symbols) = C.word a ++ C.words symbols := List.flatMap_cons

theorem words_append (first second : List Symbol) :
    C.words (first ++ second) = C.words first ++ C.words second := List.flatMap_append

theorem CheckSpec.behind {before : Nat} {text : List Letter} {answer : Check} (a : Symbol)
    (h : C.CheckSpec (before + (C.word a).length) text answer) :
    C.CheckSpec before (C.word a ++ text) answer := by
  cases h with
  | ok symbols h => exact .ok (a :: symbols) (by rw [h, words_cons])
  | early symbols rest h hrest =>
    have hspec : C.CheckSpec before _ _ := .early (a :: symbols) rest rfl hrest
    rw [words_cons, List.length_append, ← Nat.add_assoc, List.append_assoc, ← h] at hspec
    exact hspec
  | invalid symbols part rest h hpart hopens =>
    have hspec : C.CheckSpec before _ _ := .invalid (a :: symbols) part rest rfl hpart hopens
    rw [words_cons, List.length_append, ← Nat.add_assoc, List.append_assoc, ← h] at hspec
    exact hspec

theorem checkFrom_spec (us : List Letter) {before : Nat} {pending : List Letter} (h : C.Kept pending) :
    C.CheckSpec before (pending ++ us) (C.checkFrom before pending us) := by
  induction us generalizing before pending with
  | nil =>
    cases pending with
    | nil => exact .ok [] rfl
    | cons v pending =>
      rcases h with hnil | hopens
      · cases hnil
      · have hspec : C.CheckSpec before _ _ := .early [] (v :: pending) rfl hopens
        rw [checkFrom, List.append_nil]
        exact hspec
  | cons u us ih =>
    rw [checkFrom]
    cases hsymbol : C.symbol (pending ++ [u]) with
    | some a =>
      have hword := C.symbol_iff.1 hsymbol
      rw [List.append_cons, ← hword]
      refine CheckSpec.behind a ?_
      rw [hword, List.length_append, List.length_singleton]
      exact ih (.inl rfl)
    | none =>
      cases hopens : C.opens (pending ++ [u]) with
      | true =>
        rw [List.append_cons]
        exact ih (.inr hopens)
      | false =>
        have hlong : C.opens (pending ++ u :: us) = false := by
          cases hlong : C.opens (pending ++ u :: us) with
          | false => rfl
          | true =>
            have hshort : C.opens (pending ++ [u]) = true :=
              opens_of_initial (by simp) ⟨us, by rw [List.append_assoc]; rfl⟩ hlong
            rw [hopens] at hshort
            cases hshort
        rcases h with rfl | hpending
        · exact CheckSpec.invalid [] [u] us rfl (invalid_single hsymbol hopens) hlong
        · have hspec : C.CheckSpec before _ _ := .invalid [] pending (u :: us) rfl
            (invalid_before hpending hsymbol hopens) hlong
          have hlength := List.length_pos_of_ne_nil (opens_ne_nil hpending)
          rw [Nat.max_eq_left hlength]
          exact hspec

theorem check_spec (text : List Letter) : C.CheckSpec 0 text (C.check text) :=
  checkFrom_spec text (.inl rfl)

/-- Words are not invalid, and do not end too early. -/
theorem words_ne_error {symbols good : List Symbol} {rest : List Letter}
    (h : C.words symbols = C.words good ++ rest) (hno : ∀ a, ¬ C.word a <+: rest) : rest = [] := by
  induction good generalizing symbols with
  | nil =>
    cases symbols with
    | nil => exact h.symm
    | cons a symbols => exact absurd ⟨C.words symbols, h⟩ (hno a)
  | cons b good ih =>
    rw [words_cons, List.append_assoc] at h
    cases symbols with
    | nil => exact absurd (List.append_eq_nil_iff.1 h.symm).1 (C.word_ne_nil b)
    | cons a symbols =>
      rw [words_cons] at h
      obtain ⟨rfl, htail⟩ := word_append_inj h
      exact ih htail

theorem checks_check : C.Checks C.check := by
  refine ⟨?_, ?_, ?_, ?_⟩
  · intro text
    generalize hanswer : C.check text = answer
    have hspec := hanswer ▸ check_spec (C := C) text
    cases hspec with
    | ok symbols h => exact ⟨fun _ => ⟨symbols, h⟩, fun _ => rfl⟩
    | early symbols rest h hrest =>
      refine ⟨(fun hok => by cases hok), ?_⟩
      rintro ⟨good, hgood⟩
      exact absurd (words_ne_error (hgood.symm.trans h) (not_word_initial hrest))
        (opens_ne_nil hrest)
    | invalid symbols part rest h hpart hopens =>
      refine ⟨(fun hok => by cases hok), ?_⟩
      rintro ⟨good, hgood⟩
      have hnil := words_ne_error (hgood.symm.trans h) hpart.no_word
      exact absurd (List.append_eq_nil_iff.1 hnil).1 hpart.part_ne_nil
  · intro text validUpTo errorLen hanswer
    have hspec := hanswer ▸ check_spec (C := C) text
    cases hspec with
    | early symbols rest h _ => exact ⟨symbols, by rw [h, Nat.zero_add, List.take_left]⟩
    | invalid symbols part rest h _ _ => exact ⟨symbols, by rw [h, Nat.zero_add, List.take_left]⟩
  · intro text validUpTo hanswer
    have hspec := hanswer ▸ check_spec (C := C) text
    cases hspec with
    | early symbols rest h hrest => rwa [h, Nat.zero_add, List.drop_left]
  · intro text validUpTo errorLen hanswer
    have hspec := hanswer ▸ check_spec (C := C) text
    cases hspec with
    | invalid symbols part rest h hpart hopens =>
      rw [h, Nat.zero_add, List.drop_left, List.take_left, List.drop_left]
      exact ⟨hopens, hpart⟩

/-! ### A check of kept letters and one more -/

theorem word_eq_of_initial {pending : List Letter} {u : Letter} {a : Symbol}
    (h : C.opens pending = true) (ha : C.word a <+: pending ++ [u]) :
    C.word a = pending ++ [u] := by
  refine ha.eq_of_length (Nat.le_antisymm ha.length_le ?_)
  -- a shorter word would be an initial part of what is kept
  refine Nat.le_of_not_lt fun hshort => not_word_initial h a ?_
  refine List.prefix_of_prefix_length_le ha (List.prefix_append pending [u]) ?_
  rw [List.length_append, List.length_singleton] at hshort
  omega

/-- The words before the first error, where the error is in kept letters and one more. -/
theorem drop_of_take_words {pending : List Letter} {u : Letter} {n : Nat} {symbols : List Symbol}
    (h : C.opens pending = true) (htake : (pending ++ [u]).take n = C.words symbols)
    (hdrop : (pending ++ [u]).drop n ≠ []) : (pending ++ [u]).drop n = pending ++ [u] := by
  cases symbols with
  | nil =>
    have happend := List.take_append_drop n (pending ++ [u])
    rwa [htake] at happend
  | cons a symbols =>
    have ha : C.word a <+: (pending ++ [u]).take n := by
      rw [htake, words_cons]
      exact List.prefix_append _ _
    have hword := word_eq_of_initial h (ha.trans (List.take_prefix n _))
    have hlength := ha.length_le
    rw [hword, List.length_take] at hlength
    exact absurd (List.drop_eq_nil_iff.2 (by omega)) hdrop

/-- What a check says of kept letters and one more: they are a word, they are kept, or neither. -/
inductive CandidateSpec (pending : List Letter) (u : Letter) : Check → Prop
  | word (a : Symbol) (h : C.symbol (pending ++ [u]) = some a) : CandidateSpec pending u .ok
  | kept (validUpTo : Nat) (h : C.opens (pending ++ [u]) = true) :
      CandidateSpec pending u (.error validUpTo none)
  | neither (validUpTo errorLen : Nat) (hsymbol : C.symbol (pending ++ [u]) = none)
      (hopens : C.opens (pending ++ [u]) = false) :
      CandidateSpec pending u (.error validUpTo (some errorLen))

theorem Checks.candidate {checker : List Letter → Check} (hchecks : C.Checks checker)
    {pending : List Letter} (u : Letter) (h : C.opens pending = true) :
    C.CandidateSpec pending u (checker (pending ++ [u])) := by
  cases hanswer : checker (pending ++ [u]) with
  | ok =>
    obtain ⟨symbols, hsymbols⟩ := (hchecks.ok _).1 hanswer
    cases symbols with
    | nil => exact absurd hsymbols (List.concat_ne_nil u pending)
    | cons a symbols =>
      refine .word a (C.symbol_iff.2 (word_eq_of_initial h ?_))
      rw [hsymbols, words_cons]
      exact List.prefix_append _ _
  | error validUpTo errorLen =>
    obtain ⟨symbols, htake⟩ := hchecks.valid _ _ _ hanswer
    cases errorLen with
    | none =>
      have hopens := hchecks.early _ _ hanswer
      rw [drop_of_take_words h htake (opens_ne_nil hopens)] at hopens
      exact .kept validUpTo hopens
    | some errorLen =>
      obtain ⟨hopens, hpart⟩ := hchecks.invalid _ _ _ hanswer
      have hne : (pending ++ [u]).drop validUpTo ≠ [] := by
        intro hnil
        rw [hnil, List.take_nil] at hpart
        exact hpart.part_ne_nil rfl
      rw [drop_of_take_words h htake hne] at hopens hpart
      refine .neither validUpTo errorLen ?_ hopens
      cases hsymbol : C.symbol (pending ++ [u]) with
      | none => rfl
      | some a =>
        refine absurd ?_ (hpart.no_word a)
        rw [List.take_append_drop, C.symbol_iff.1 hsymbol]

end Check

end PrefixCode

end Yonder.Lib
