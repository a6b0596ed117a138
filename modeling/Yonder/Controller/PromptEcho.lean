import Yonder.Controller.PromptFlow

/-!
# The echo of the prompt line

In raw mode the controller echoes the line of the prompt itself. `echoDelta` compares the line that is on
the display with the line of the editor byte by byte, erases a cell for each character behind the bytes
they share, and writes the rest of the new line. It cuts both lines at a number of bytes; a cut inside a
character panics.

The display is a list of characters, one for each cell (`Screen`). The echo shows the line, and does not
panic, exactly where the first characters in which the lines differ do not begin with the same byte
(`echo_iff`).
-/

namespace Yonder.Controller

open Lib

/-- What the echo writes: backspace, space, backspace, or some text. -/
inductive EchoWrite where
  | erase
  | text (added : List Char)
  deriving DecidableEq, Repr

/-- The cells after a write. -/
def EchoWrite.render (cells : List Char) : EchoWrite → List Char
  | .erase => cells.dropLast
  | .text added => cells ++ added

/-- A string from a number of bytes on; `none` inside a character. -/
def sliceFrom : List Char → Nat → Option (List Char)
  | cs, 0 => some cs
  | [], _ + 1 => none
  | c :: cs, n + 1 =>
    if (String.utf8EncodeChar c).length ≤ n + 1 then
      sliceFrom cs (n + 1 - (String.utf8EncodeChar c).length)
    else none

/-- The number of bytes that two strings have in common at the front. -/
def commonLen (left right : Bytes) : Nat :=
  ((left.zip right).takeWhile fun pair => pair.1 == pair.2).length

/-- One echo: the line that is then on the display, and what is written. -/
def PathPromptFlow.echoDelta (f : PathPromptFlow) : Option (PathPromptFlow × List EchoWrite) := do
  let common := commonLen (utf8 (String.ofList f.echoed)) (utf8 f.prompt.currentLine)
  let erased ← sliceFrom f.echoed common
  let added ← sliceFrom f.prompt.line common
  return ({ f with echoed := f.prompt.line },
    erased.map (fun _ => .erase) ++ if added ≠ [] then [.text added] else [])

/-! ## Where two lines part -/

/-- The first characters in which the lines differ begin with the same byte. -/
def SharesLead : List Char → List Char → Prop
  | x :: xs, y :: ys =>
    if x = y then SharesLead xs ys
    else (String.utf8EncodeChar x).head? = (String.utf8EncodeChar y).head?
  | _, _ => False

instance SharesLead.decidable : (xs ys : List Char) → Decidable (SharesLead xs ys)
  | [], _ => .isFalse id
  | _ :: _, [] => .isFalse id
  | x :: xs, y :: ys =>
    have := SharesLead.decidable xs ys
    inferInstanceAs (Decidable (if x = y then SharesLead xs ys
      else (String.utf8EncodeChar x).head? = (String.utf8EncodeChar y).head?))

@[simp] theorem commonLen_cons (x y : UInt8) (xs ys : Bytes) :
    commonLen (x :: xs) (y :: ys) = if x = y then commonLen xs ys + 1 else 0 := by
  unfold commonLen
  by_cases h : x = y
  · simp [h]
  · simp [h]

@[simp] theorem commonLen_nil_left (ys : Bytes) : commonLen [] ys = 0 := rfl

@[simp] theorem commonLen_nil_right (xs : Bytes) : commonLen xs [] = 0 := by
  cases xs <;> rfl

theorem commonLen_append (shared xs ys : Bytes) :
    commonLen (shared ++ xs) (shared ++ ys) = shared.length + commonLen xs ys := by
  induction shared with
  | nil => rw [List.nil_append, List.nil_append, List.length_nil, Nat.zero_add]
  | cons b shared ih =>
    rw [List.cons_append, List.cons_append, commonLen_cons, if_pos rfl, ih, List.length_cons]
    omega

/-- Where neither of two words begins the other, they part before either ends. -/
theorem commonLen_lt {left right : Bytes} (xs ys : Bytes) (hleft : ¬ left <+: right)
    (hright : ¬ right <+: left) :
    commonLen (left ++ xs) (right ++ ys) < left.length ∧
      commonLen (left ++ xs) (right ++ ys) < right.length ∧
      (0 < commonLen (left ++ xs) (right ++ ys) ↔ left.head? = right.head?) := by
  induction left generalizing right with
  | nil => exact absurd List.nil_prefix hleft
  | cons x left ih =>
    cases right with
    | nil => exact absurd List.nil_prefix hright
    | cons y right =>
      rw [List.cons_append, List.cons_append, commonLen_cons]
      by_cases hxy : x = y
      · subst hxy
        have hparts := @ih right (fun h => hleft (List.cons_prefix_cons.2 ⟨rfl, h⟩))
          (fun h => hright (List.cons_prefix_cons.2 ⟨rfl, h⟩))
        rw [if_pos rfl, List.length_cons, List.length_cons]
        exact ⟨by omega, by omega, by simp⟩
      · rw [if_neg hxy]
        exact ⟨Nat.succ_pos _, Nat.succ_pos _, by simp [hxy]⟩

theorem sliceFrom_zero (cs : List Char) : sliceFrom cs 0 = some cs := by
  cases cs <;> rfl

theorem sliceFrom_whole (c : Char) (cs : List Char) (n : Nat) :
    sliceFrom (c :: cs) ((String.utf8EncodeChar c).length + n) = sliceFrom cs n := by
  have hpos : 0 < (String.utf8EncodeChar c).length :=
    List.length_pos_of_ne_nil String.utf8EncodeChar_ne_nil
  obtain ⟨m, hm⟩ := Nat.exists_eq_add_of_lt hpos
  rw [Nat.zero_add] at hm
  have hsum : (String.utf8EncodeChar c).length + n = (m + n) + 1 := by omega
  rw [hsum, sliceFrom, if_pos (by omega)]
  congr 1
  omega

theorem sliceFrom_inside {c : Char} {n : Nat} (cs : List Char) (hpos : 0 < n)
    (hlt : n < (String.utf8EncodeChar c).length) : sliceFrom (c :: cs) n = none := by
  obtain ⟨m, rfl⟩ := Nat.exists_eq_succ_of_ne_zero (Nat.pos_iff_ne_zero.1 hpos)
  rw [sliceFrom, if_neg (by omega)]

/-- The two cuts of an echo. -/
inductive CutSpec (echoed line : List Char) : Option (List Char) → Option (List Char) → Prop
  | inside (h : SharesLead echoed line) : CutSpec echoed line none none
  | between (shared erased added : List Char) (hechoed : echoed = shared ++ erased)
      (hline : line = shared ++ added) (h : ¬ SharesLead echoed line) :
      CutSpec echoed line (some erased) (some added)

theorem cut_spec (echoed line : List Char) :
    CutSpec echoed line
      (sliceFrom echoed (commonLen (Utf8.code.words echoed) (Utf8.code.words line)))
      (sliceFrom line (commonLen (Utf8.code.words echoed) (Utf8.code.words line))) := by
  induction echoed generalizing line with
  | nil =>
    rw [show Utf8.code.words [] = [] from rfl, commonLen_nil_left, sliceFrom_zero, sliceFrom_zero]
    exact .between [] [] line rfl rfl id
  | cons x echoed ih =>
    cases line with
    | nil =>
      rw [show Utf8.code.words [] = [] from rfl, commonLen_nil_right, sliceFrom_zero, sliceFrom_zero]
      exact .between [] (x :: echoed) [] rfl rfl id
    | cons y line =>
      rw [PrefixCode.words_cons, PrefixCode.words_cons]
      by_cases hxy : x = y
      · -- the same character: the cut is in what follows
        subst hxy
        have hshares : SharesLead (x :: echoed) (x :: line) = SharesLead echoed line := if_pos rfl
        have hrest := ih line
        rw [commonLen_append]
        change CutSpec _ _ (sliceFrom _ ((String.utf8EncodeChar x).length + _))
          (sliceFrom _ ((String.utf8EncodeChar x).length + _))
        rw [sliceFrom_whole, sliceFrom_whole]
        generalize sliceFrom echoed _ = erased at hrest ⊢
        generalize sliceFrom line _ = added at hrest ⊢
        cases hrest with
        | inside h => exact .inside (hshares ▸ h)
        | between shared erased added hechoed hline h =>
          exact .between (x :: shared) erased added (by rw [hechoed]; rfl) (by rw [hline]; rfl)
            (hshares ▸ h)
      · have hshares : SharesLead (x :: echoed) (y :: line) =
            ((String.utf8EncodeChar x).head? = (String.utf8EncodeChar y).head?) := if_neg hxy
        obtain ⟨hleft, hright, hlead⟩ := commonLen_lt (Utf8.code.words echoed) (Utf8.code.words line)
          (fun h => hxy (Utf8.code.free h)) (fun h => hxy (Utf8.code.free h).symm)
        generalize commonLen _ _ = n at hleft hright hlead ⊢
        rcases Nat.eq_zero_or_pos n with rfl | hpos
        · rw [sliceFrom_zero, sliceFrom_zero]
          refine .between [] (x :: echoed) (y :: line) rfl rfl ?_
          rw [hshares]
          exact fun h => Nat.lt_irrefl 0 (hlead.2 h)
        · rw [sliceFrom_inside echoed hpos hleft, sliceFrom_inside line hpos hright]
          exact .inside (hshares ▸ hlead.1 hpos)

namespace PathPromptFlow

theorem echoDelta_eq (f : PathPromptFlow) :
    f.echoDelta =
      (sliceFrom f.echoed
        (commonLen (Utf8.code.words f.echoed) (Utf8.code.words f.prompt.line))).bind fun erased =>
      (sliceFrom f.prompt.line
        (commonLen (Utf8.code.words f.echoed) (Utf8.code.words f.prompt.line))).bind fun added =>
      some ({ f with echoed := f.prompt.line },
        erased.map (fun _ => .erase) ++ if added ≠ [] then [.text added] else []) := by
  rw [echoDelta, PathPrompt.currentLine, Utf8.utf8_ofList, Utf8.utf8_ofList]
  rfl

/-- Erasing as many cells as there are characters behind the shared ones. -/
theorem render_erase (n : Nat) (shared : List Char) {erased : List Char} (h : erased.length = n) :
    (List.replicate n EchoWrite.erase).foldl EchoWrite.render (shared ++ erased) = shared := by
  induction n generalizing erased with
  | zero =>
    obtain rfl := List.length_eq_zero_iff.1 h
    exact List.append_nil shared
  | succ n ih =>
    rcases List.eq_nil_or_concat erased with rfl | ⟨front, last, rfl⟩
    · cases h
    · rw [List.concat_eq_append, List.length_append, List.length_singleton] at h
      rw [List.replicate_succ, List.foldl_cons, List.concat_eq_append, ← List.append_assoc,
        EchoWrite.render, List.dropLast_concat]
      exact ih (Nat.succ.inj h)

theorem render_text (cells added : List Char) :
    (if added ≠ [] then [EchoWrite.text added] else []).foldl EchoWrite.render cells =
      cells ++ added := by
  split_ifs with h
  · rfl
  · rw [not_not.1 h, List.append_nil]
    rfl

/-- All that an echo can do: it panics, or the display shows the line. -/
inductive EchoSpec (f : PathPromptFlow) : Option (PathPromptFlow × List EchoWrite) → Prop
  | panics (h : SharesLead f.echoed f.prompt.line) : EchoSpec f none
  | shows (h : ¬ SharesLead f.echoed f.prompt.line) (writes : List EchoWrite)
      (hwrites : writes.foldl EchoWrite.render f.echoed = f.prompt.line) :
      EchoSpec f (some ({ f with echoed := f.prompt.line }, writes))

theorem echoDelta_spec (f : PathPromptFlow) : EchoSpec f f.echoDelta := by
  have hcut := cut_spec f.echoed f.prompt.line
  rw [echoDelta_eq]
  generalize sliceFrom f.echoed _ = erased at hcut ⊢
  generalize sliceFrom f.prompt.line _ = added at hcut ⊢
  cases hcut with
  | inside h => exact .panics h
  | between shared erased added hechoed hline h =>
    refine .shows h _ ?_
    rw [List.foldl_append, render_text, List.map_const', hechoed, render_erase _ shared rfl, hline]

/-! ## The fields -/

/-- What a feed does to the lines: a field that goes on keeps the echoed line, and a new one begins with
an empty line. -/
def Lines (echoed : List Char) (f' : PathPromptFlow) : FlowProgress → Prop
  | .active _ => f'.echoed = echoed
  | .reprompt | .nextField => f'.echoed = [] ∧ f'.prompt.line = []
  | .completed _ _ | .cancelled => True

theorem lines_advance {f f' : PathPromptFlow} {result : PromptResult} {progress : FlowProgress}
    (hended : result.isTerminal = true → f.prompt.line = [])
    (h : f.advance result = some (f', progress)) : Lines f.echoed f' progress := by
  cases result with
  | submitted path =>
    rw [advance] at h
    split_ifs at h with hfield
    · cases h
      exact ⟨rfl, rfl⟩
    · obtain ⟨first, -, hafter⟩ := Option.map_eq_some_iff.1 h
      cases hafter
      trivial
  | empty =>
    obtain ⟨first, -, hafter⟩ := Option.map_eq_some_iff.1 h
    cases hafter
    trivial
  | cancelled =>
    cases h
    trivial
  | reprompt =>
    cases h
    exact ⟨rfl, hended rfl⟩
  | bell =>
    cases h
    rfl
  | «continue» =>
    cases h
    rfl

theorem lines_feed {f f' : PathPromptFlow} {processed : ProcessedInput} {progress : FlowProgress}
    (h : f.feed processed = some (f', progress)) : Lines f.echoed f' progress := by
  have hinitial : (f.feedInitial processed.remainder).1.echoed = f.echoed ∧
      ((f.feedInitial processed.remainder).2.isTerminal = true →
        (f.feedInitial processed.remainder).1.prompt.line = []) := by
    unfold feedInitial
    split_ifs
    · exact ⟨rfl, fun hended => (PathPrompt.feedImpl_terminal hended).1⟩
    · exact ⟨rfl, (by intro hended; cases hended)⟩
  unfold feed at h
  generalize f.feedInitial processed.remainder = after at h hinitial
  obtain ⟨g, result⟩ := after
  obtain ⟨hechoed, hended⟩ := hinitial
  have hlines : Lines g.echoed f' progress := by
    dsimp only at h
    split_ifs at h
    · have hnext := lines_advance (fun hterminal => (PathPrompt.feedImpl_terminal hterminal).1) h
      exact hnext
    · exact lines_advance hended h
  cases progress with
  | active bell => exact Eq.trans hlines hechoed
  | reprompt => exact hlines
  | nextField => exact hlines
  | completed first second => trivial
  | cancelled => trivial

end PathPromptFlow

/-! ## The display -/

/-- The prompt, and the cells of the display behind its label. -/
structure Screen where
  flow : PathPromptFlow
  cells : List Char
  /-- The field goes on, and the echo is still to come. -/
  due : Bool
  live : Bool
  panicked : Bool
  deriving DecidableEq, Repr

inductive ScreenAction where
  | feed (processed : ProcessedInput)
  | echo
  deriving DecidableEq

namespace Screen

def new : Screen := ⟨.new, [], false, true, false⟩

/-- A feed; a new field starts on a line of its own. -/
def feed (s : Screen) (processed : ProcessedInput) : Option Screen :=
  (s.flow.feed processed).map fun after =>
    match after.2 with
    | .active _ => { s with flow := after.1, due := true }
    | .reprompt | .nextField => { s with flow := after.1, cells := [] }
    | .completed _ _ | .cancelled => { s with flow := after.1, cells := [], live := false }

/-- An echo. -/
def echo (s : Screen) : Screen :=
  match s.flow.echoDelta with
  | none => { s with due := false, panicked := true }
  | some (flow, writes) =>
    { s with flow := flow, due := false, cells := writes.foldl EchoWrite.render s.cells }

/-- A feed that leaves the field active is followed by an echo. -/
def step (s : Screen) : ScreenAction → Option Screen
  | .feed processed => if s.live ∧ s.due = false ∧ s.panicked = false then s.feed processed else none
  | .echo => if s.due then some s.echo else none

/-- The echo has not panicked, and after it the display shows the line of the field. -/
def Shows (s : Screen) : Prop :=
  s.panicked = false ∧ (s.live = true → s.due = false → s.cells = s.flow.prompt.line)

/-- An echo comes where the lines part between characters, or at characters with different lead
bytes. -/
def Clear (s : Screen) : ScreenAction → Prop
  | .feed _ => True
  | .echo => ¬ SharesLead s.flow.echoed s.flow.prompt.line

instance Clear.decidable (s : Screen) : (a : ScreenAction) → Decidable (Clear s a)
  | .feed _ => .isTrue trivial
  | .echo => inferInstanceAs (Decidable (¬ SharesLead s.flow.echoed s.flow.prompt.line))

/-- The display shows the echoed line, which is the line of the field when no echo is due. -/
structure Good (s : Screen) : Prop where
  fine : s.panicked = false
  valid : s.live = true → s.flow.Valid
  cells : s.live = true → s.cells = s.flow.echoed
  line : s.live = true → s.due = false → s.flow.echoed = s.flow.prompt.line
  idle : s.live = false → s.due = false

theorem good_new : Good new :=
  ⟨rfl, fun _ => PathPromptFlow.valid_new, fun _ => rfl, fun _ _ => rfl, fun _ => rfl⟩

theorem Good.shows {s : Screen} (h : Good s) : s.Shows :=
  ⟨h.fine, fun hlive hdue => (h.cells hlive).trans (h.line hlive hdue)⟩

theorem Good.feed {s s' : Screen} (h : Good s) {processed : ProcessedInput}
    (hstep : step s (.feed processed) = some s') : Good s' := by
  rw [step] at hstep
  split_ifs at hstep with hready
  obtain ⟨hlive, hdue, -⟩ := hready
  obtain ⟨⟨f', progress⟩, hfeed, hafter⟩ := Option.map_eq_some_iff.1 hstep
  obtain ⟨f'', progress'', hvalid, hkeep⟩ := (h.valid hlive).feed processed
  obtain ⟨rfl, rfl⟩ := Prod.mk.inj (Option.some.inj (hvalid.symm.trans hfeed))
  have hlines := PathPromptFlow.lines_feed hfeed
  cases progress'' with
  | active bell =>
    subst hafter
    exact ⟨h.fine, fun _ => hkeep rfl, fun _ => (h.cells hlive).trans hlines.symm,
      (by intro _ hfalse; cases hfalse), (by intro hdead; rw [hlive] at hdead; cases hdead)⟩
  | reprompt =>
    subst hafter
    obtain ⟨hechoed, hline⟩ := hlines
    exact ⟨h.fine, fun _ => hkeep rfl, fun _ => hechoed.symm, fun _ _ => hechoed.trans hline.symm,
      fun _ => hdue⟩
  | nextField =>
    subst hafter
    obtain ⟨hechoed, hline⟩ := hlines
    exact ⟨h.fine, fun _ => hkeep rfl, fun _ => hechoed.symm, fun _ _ => hechoed.trans hline.symm,
      fun _ => hdue⟩
  | completed first second =>
    subst hafter
    exact ⟨h.fine, (by intro hfalse; cases hfalse), (by intro hfalse; cases hfalse),
      (by intro hfalse; cases hfalse), fun _ => hdue⟩
  | cancelled =>
    subst hafter
    exact ⟨h.fine, (by intro hfalse; cases hfalse), (by intro hfalse; cases hfalse),
      (by intro hfalse; cases hfalse), fun _ => hdue⟩

theorem Good.echo {s s' : Screen} (h : Good s) (hstep : step s .echo = some s') :
    (Clear s .echo → Good s') ∧ (¬ Clear s .echo → s'.panicked = true) := by
  rw [step] at hstep
  split_ifs at hstep with hdue
  have hlive : s.live = true := by
    cases hlive : s.live with
    | true => rfl
    | false =>
      rw [h.idle hlive] at hdue
      cases hdue
  obtain rfl := Option.some.inj hstep
  have hspec := s.flow.echoDelta_spec
  unfold Screen.echo
  generalize s.flow.echoDelta = after at hspec
  cases hspec with
  | panics hshares => exact ⟨fun hclear => absurd hshares hclear, fun _ => rfl⟩
  | shows hclear writes hwrites =>
    refine ⟨fun _ => ⟨h.fine, ?_, ?_, fun _ _ => rfl, fun _ => rfl⟩, fun hshares => absurd hclear hshares⟩
    · exact fun _ => ⟨(h.valid hlive).first, (h.valid hlive).required⟩
    · intro _
      dsimp only
      rw [h.cells hlive, hwrites]

/-- For every sequence of chunks, with an echo after each feed that leaves the field active: no echo
panics, and after each the display shows the line, exactly when no echo comes where the first characters
in which the lines differ begin with the same byte. -/
theorem echo_iff (actions : List ScreenAction) (s : Screen)
    (hrun : Machine.run step new actions = some s) :
    Machine.Throughout step Shows new actions ↔ Machine.Allowed step Clear new actions := by
  refine Machine.throughout_iff_allowed Good (fun s h => h.shows) ?_ ?_ good_new hrun
  · intro s a s' hs hstep hclear
    cases a with
    | feed processed => exact hs.feed hstep
    | echo => exact (hs.echo hstep).1 hclear
  · intro s a s' hs hstep hclear hshows
    cases a with
    | feed processed => exact hclear trivial
    | echo =>
      have hpanicked := (hs.echo hstep).2 hclear
      rw [hshows.1] at hpanicked
      cases hpanicked

theorem echo_iff_edited :
    ∃ s, Machine.run step new [.feed { pathBytes := [0x61, 0xC3, 0xA9] }, .echo,
        .feed { pathBytes := [0x7F, 0x62] }, .echo] = some s ∧
      Machine.Throughout step Shows new [.feed { pathBytes := [0x61, 0xC3, 0xA9] }, .echo,
        .feed { pathBytes := [0x7F, 0x62] }, .echo] := by
  have hrun : (Machine.run step new [.feed { pathBytes := [0x61, 0xC3, 0xA9] }, .echo,
      .feed { pathBytes := [0x7F, 0x62] }, .echo]).map cells = some ['a', 'b'] := by decide +kernel
  obtain ⟨s, hs, -⟩ := Option.map_eq_some_iff.1 hrun
  exact ⟨s, hs, (echo_iff _ s hs).2 (by decide +kernel)⟩

/-- One accented letter replaced by another in one chunk: the letters share their first byte, the cut is
inside them, and the echo panics. -/
theorem replaced_accent_panics :
    ∃ s, Machine.run step new [.feed { pathBytes := [0xC3, 0xA9] }, .echo,
        .feed { pathBytes := [0x7F, 0xC3, 0xA8] }, .echo] = some s ∧
      s.panicked = true ∧ s.flow.prompt.line = ['è'] := by
  have hrun : (Machine.run step new [.feed { pathBytes := [0xC3, 0xA9] }, .echo,
      .feed { pathBytes := [0x7F, 0xC3, 0xA8] }, .echo]).map
        (fun s => (s.panicked, s.flow.prompt.line)) = some (true, ['è']) := by decide +kernel
  obtain ⟨s, hs, hvalues⟩ := Option.map_eq_some_iff.1 hrun
  obtain ⟨hpanicked, hline⟩ := Prod.mk.inj hvalues
  exact ⟨s, hs, hpanicked, hline⟩

end Screen

end Yonder.Controller
