import Yonder.Lib.Utf8

/-!
# Remote output on a console that takes text

The controller writes the host's terminal output to its own terminal. A Windows console takes text, so
there the bytes go through an adapter, `RemoteTerminalOutput`, which hands on whole characters, keeps a
character that a chunk cuts, and replaces what is not UTF-8. Elsewhere the bytes go through unchanged.

The adapter asks the standard library's `from_utf8` where the first error of some bytes is. That function
is a parameter here, with its documented behaviour `Checks` as a hypothesis. A slice out of range, a
debug assertion that fails and a loop that does not end would give `none`.

`prepareInto_eq`: a chunk gives what the decoder `feed` gives on its bytes. So the outputs and the tail
are the lossy decoding of the whole text, for every split into chunks.
-/

namespace Yonder.Controller

open Lib
open Lib.PrefixCode

/-! ## The adapter -/

inductive RemoteTerminalOutputMode
  | bytes
  | windowsConsoleUtf8
  deriving DecidableEq, Repr

/-- The size of the buffer for a character that a chunk cuts. -/
def utf8SequenceCapacity : Nat := 4

/-- U+FFFD. -/
def utf8Replacement : Bytes := [0xEF, 0xBF, 0xBD]

/-- The size of a chunk of the terminal stream. -/
def terminalChunkCapacity : Nat := 16 * 1024

/-- What the pump reserves for the display bytes of one chunk. -/
def displayBufferCapacity : Nat := terminalChunkCapacity * utf8Replacement.length

structure RemoteTerminalOutput where
  mode : RemoteTerminalOutputMode
  /-- The first `pending_len` bytes of the buffer. -/
  pending : Bytes
  deriving DecidableEq, Repr

namespace RemoteTerminalOutput

def new (mode : RemoteTerminalOutputMode) : RemoteTerminalOutput := ⟨mode, []⟩

section Prepare

variable (fromUtf8 : Bytes → Check)

/-- The loop over a character that an earlier chunk began. It gives the display bytes and, unless the
chunk has ended, the bytes that are left; the pending bytes are then none. -/
def finishPending : Bytes → Bytes → Bytes → Option (Bytes × Bytes × Option Bytes)
  | display, [], bytes => some (display, [], some bytes)
  | display, p :: ps, [] => some (display, p :: ps, none)
  | display, p :: ps, next :: remaining =>
    if (p :: ps).length < utf8SequenceCapacity then
      match fromUtf8 (p :: ps ++ [next]) with
      | .ok => finishPending (display ++ (p :: ps ++ [next])) [] remaining
      | .error _ none => finishPending display (p :: ps ++ [next]) remaining
      -- the byte is not taken: with nothing pending the loop ends
      | .error _ (some _) => some (display ++ utf8Replacement, [], some (next :: remaining))
    else none

/-- The loop over the bytes behind it, for so many rounds. -/
def prepareRest : Nat → Bytes → Bytes → Option (Bytes × Bytes)
  | _, display, [] => some (display, [])
  | 0, _, _ :: _ => none
  | fuel + 1, display, b :: bs =>
    match fromUtf8 (b :: bs) with
    | .ok => some (display ++ b :: bs, [])
    | .error validLen errorLen =>
      let display := if validLen ≠ 0 then display ++ (b :: bs).take validLen else display
      let bytes := if validLen ≠ 0 then (b :: bs).drop validLen else b :: bs
      match errorLen with
      | some invalidLen => prepareRest fuel (display ++ utf8Replacement) (bytes.drop invalidLen)
      | none => if bytes.length < utf8SequenceCapacity then some (display, bytes) else none

/-- The display bytes and the pending bytes of a chunk. Each round takes a byte at least. -/
def prepareWindowsConsoleUtf8 (pending bytes : Bytes) : Option (Bytes × Bytes) := do
  let (display, pending, rest) ← finishPending fromUtf8 [] pending bytes
  match rest with
  | none => return (display, pending)
  | some bytes => prepareRest fromUtf8 bytes.length display bytes

/-- One chunk: the adapter afterwards, and the display bytes. -/
def prepareInto (o : RemoteTerminalOutput) (bytes : Bytes) : Option (RemoteTerminalOutput × Bytes) :=
  match o.mode with
  | .bytes => some (o, bytes)
  | .windowsConsoleUtf8 => do
      let (display, pending) ← prepareWindowsConsoleUtf8 fromUtf8 o.pending bytes
      return ({ o with pending := pending }, display)

/-- The display bytes of an incomplete character at the end. -/
def takeTail (o : RemoteTerminalOutput) : RemoteTerminalOutput × Bytes :=
  if o.mode = .windowsConsoleUtf8 ∧ o.pending ≠ [] then ({ o with pending := [] }, utf8Replacement)
  else (o, [])

/-- Chunk after chunk: the adapter afterwards, and the display bytes of each. -/
def prepareAll : RemoteTerminalOutput → List Bytes → Option (RemoteTerminalOutput × List Bytes)
  | o, [] => some (o, [])
  | o, chunk :: chunks => do
      let (o, display) ← o.prepareInto fromUtf8 chunk
      let (o, displays) ← prepareAll o chunks
      return (o, display :: displays)

end Prepare

/-! ## The display bytes of a decoding -/

/-- A character as its bytes, an invalid part as U+FFFD. -/
def shown : Option Char → Bytes
  | some c => String.utf8EncodeChar c
  | none => utf8Replacement

/-- The lossy decoding of a text, as bytes. -/
def lossy (decoded : List (Option Char)) : Bytes := decoded.flatMap shown

theorem lossy_append (first second : List (Option Char)) :
    lossy (first ++ second) = lossy first ++ lossy second := List.flatMap_append

theorem lossy_map_some (cs : List Char) : lossy (cs.map some) = Utf8.code.words cs := by
  rw [lossy, List.flatMap_map]
  rfl

theorem lossy_none_cons (decoded : List (Option Char)) :
    lossy (none :: decoded) = utf8Replacement ++ lossy decoded := List.flatMap_cons

/-- What is shown is text. -/
theorem lossy_eq_utf8 (decoded : List (Option Char)) :
    lossy decoded = utf8 (String.ofList (decoded.map fun c => c.getD (Char.ofNat 0xFFFD))) := by
  rw [Utf8.utf8_ofList]
  induction decoded with
  | nil => rfl
  | cons c decoded ih =>
    rw [lossy, List.flatMap_cons, List.map_cons, words_cons]
    congr 1
    cases c with
    | none => decide
    | some c => rfl

/-! ## A chunk gives what the decoder gives -/

section Spec

variable {fromUtf8 : Bytes → Check} (hchecks : Utf8.code.Checks fromUtf8)

include hchecks

theorem finishPending_spec (bytes display : Bytes) {pending : Bytes} (h : Utf8.code.Kept pending) :
    ∃ out left rest, finishPending fromUtf8 display pending bytes =
        some (display ++ lossy out, left, rest) ∧
      match rest with
      | none => Utf8.code.feed pending bytes = (out, left)
      | some bytes' => Utf8.code.feed pending bytes =
          (out ++ (Utf8.code.feed [] bytes').1, (Utf8.code.feed [] bytes').2) := by
  -- by induction on the bytes of the chunk, for all that can be pending before them
  induction bytes generalizing display pending with
  | nil =>
    cases pending with
    | nil => exact ⟨[], [], some [], by rw [finishPending]; simp [lossy], rfl⟩
    | cons p pending => exact ⟨[], p :: pending, none, by rw [finishPending]; simp [lossy], rfl⟩
  | cons next remaining ih =>
    rcases h with rfl | hopens
    · exact ⟨[], [], some (next :: remaining), by rw [finishPending]; simp [lossy], rfl⟩
    · obtain ⟨p, ps, rfl⟩ := List.exists_cons_of_ne_nil (opens_ne_nil hopens)
      have hlength : (p :: ps).length < utf8SequenceCapacity :=
        Nat.lt_succ_of_le (Utf8.length_le_of_opens hopens)
      rw [finishPending, if_pos hlength]
      generalize hanswer : fromUtf8 (p :: ps ++ [next]) = answer
      have hspec := hanswer ▸ hchecks.candidate next hopens
      cases hspec with
      | word c hsymbol =>
        refine ⟨[some c], [], some remaining, ?_, ?_⟩
        · have hword : lossy [some c] = p :: ps ++ [next] := by
            rw [← Utf8.code.symbol_iff.1 hsymbol]
            exact List.append_nil _
          dsimp only
          rw [hword]
          cases remaining <;> rw [finishPending]
        · rw [feed, push_symbol hsymbol]
      | kept validUpTo hcandidate =>
        obtain ⟨out, left, rest, hrun, hfeed⟩ := ih display (.inr hcandidate)
        refine ⟨out, left, rest, hrun, ?_⟩
        rw [feed, push_opens hcandidate]
        exact hfeed
      | neither validUpTo errorLen hsymbol hcandidate =>
        refine ⟨[none], [], some (next :: remaining), rfl, ?_⟩
        rw [feed, push_invalid (opens_ne_nil hopens) hsymbol hcandidate]
        rfl

theorem prepareRest_spec (fuel : Nat) {display bytes : Bytes} (hfuel : bytes.length ≤ fuel) :
    prepareRest fromUtf8 fuel display bytes =
      some (display ++ lossy (Utf8.code.feed [] bytes).1, (Utf8.code.feed [] bytes).2) := by
  -- by induction on the rounds: each one that goes on has taken a byte at least
  induction fuel generalizing display bytes with
  | zero =>
    obtain rfl := List.length_eq_zero_iff.1 (Nat.le_zero.1 hfuel)
    rw [prepareRest]
    simp [feed, lossy]
  | succ fuel ih =>
    cases bytes with
    | nil =>
      rw [prepareRest]
      simp [feed, lossy]
    | cons b bs =>
      rw [prepareRest]
      cases hanswer : fromUtf8 (b :: bs) with
      | ok =>
        obtain ⟨cs, hcs⟩ := (hchecks.ok _).1 hanswer
        have hfeed := feed_words (C := Utf8.code) cs []
        rw [List.append_nil, ← hcs] at hfeed
        rw [hfeed]
        simp only [feed, List.append_nil, lossy_map_some, ← hcs]
      | error validLen errorLen =>
        obtain ⟨cs, hcs⟩ := hchecks.valid _ _ _ hanswer
        have hsplit := List.take_append_drop validLen (b :: bs)
        rw [hcs] at hsplit
        have hdisplay : (if validLen ≠ 0 then display ++ (b :: bs).take validLen else display) =
            display ++ Utf8.code.words cs := by
          by_cases hzero : validLen = 0
          · rw [← hcs, hzero, if_neg (not_not_intro rfl), List.take_zero, List.append_nil]
          · rw [if_pos hzero, hcs]
        have hbytes : (if validLen ≠ 0 then (b :: bs).drop validLen else b :: bs) =
            (b :: bs).drop validLen := by
          by_cases hzero : validLen = 0
          · rw [hzero, if_neg (not_not_intro rfl), List.drop_zero]
          · rw [if_pos hzero]
        have hfeed := feed_words (C := Utf8.code) cs ((b :: bs).drop validLen)
        rw [hsplit] at hfeed
        dsimp only
        rw [hdisplay, hbytes, hfeed, lossy_append, lossy_map_some]
        cases errorLen with
        | none =>
          have hopens := hchecks.early _ _ hanswer
          have hlength : ((b :: bs).drop validLen).length < utf8SequenceCapacity :=
            Nat.lt_succ_of_le (Utf8.length_le_of_opens hopens)
          have hkept : Utf8.code.feed [] ((b :: bs).drop validLen) = ([], _) :=
            feed_opens_from (by rwa [List.nil_append])
          rw [hkept]
          dsimp only
          rw [if_pos hlength]
          simp [lossy]
        | some invalidLen =>
          obtain ⟨hopens, hpart⟩ := hchecks.invalid _ _ _ hanswer
          have hinvalid := feed_invalid hpart (by rwa [List.take_append_drop])
          rw [List.take_append_drop] at hinvalid
          have hshorter : (((b :: bs).drop validLen).drop invalidLen).length ≤ fuel := by
            have hpos := List.length_pos_of_ne_nil hpart.part_ne_nil
            rw [List.length_take] at hpos
            rw [List.length_drop]
            rw [List.length_drop] at hpos ⊢
            omega
          dsimp only
          rw [ih hshorter, hinvalid, lossy_none_cons]
          simp [List.append_assoc]

/-- A chunk gives what the decoder gives on its bytes. -/
theorem prepareInto_eq {pending : Bytes} (h : Utf8.code.Kept pending) (bytes : Bytes) :
    prepareInto fromUtf8 ⟨.windowsConsoleUtf8, pending⟩ bytes =
      some (⟨.windowsConsoleUtf8, (Utf8.code.feed pending bytes).2⟩,
        lossy (Utf8.code.feed pending bytes).1) := by
  obtain ⟨out, left, rest, hfinish, hfeed⟩ := finishPending_spec hchecks bytes [] h
  rw [prepareInto, prepareWindowsConsoleUtf8, hfinish]
  cases rest with
  | none =>
    rw [hfeed]
    rfl
  | some bytes' =>
    rw [hfeed, lossy_append]
    change (prepareRest fromUtf8 bytes'.length ([] ++ lossy out) bytes').bind _ = _
    rw [prepareRest_spec hchecks bytes'.length le_rfl]
    rfl

/-- A run: the outputs so far are those of the decoder on all bytes so far. -/
theorem prepareAll_eq (chunks : List Bytes) {pending : Bytes} (h : Utf8.code.Kept pending) :
    ∃ displays, prepareAll fromUtf8 ⟨.windowsConsoleUtf8, pending⟩ chunks =
        some (⟨.windowsConsoleUtf8, (Utf8.code.feed pending chunks.flatten).2⟩, displays) ∧
      displays.flatten = lossy (Utf8.code.feed pending chunks.flatten).1 ∧
      ∀ display ∈ displays, ∃ decoded, display = lossy decoded := by
  induction chunks generalizing pending with
  | nil => exact ⟨[], rfl, rfl, (by intro display hmem; cases hmem)⟩
  | cons chunk chunks ih =>
    obtain ⟨displays, hrun, hflatten, htext⟩ := ih (kept_feed h chunk)
    refine ⟨lossy (Utf8.code.feed pending chunk).1 :: displays, ?_, ?_, ?_⟩
    · rw [prepareAll, prepareInto_eq hchecks h chunk, List.flatten_cons, feed_append]
      change (prepareAll fromUtf8 _ chunks).bind _ = _
      rw [hrun]
      rfl
    · rw [List.flatten_cons, List.flatten_cons, feed_append, lossy_append, hflatten]
    · intro display hmem
      rcases List.mem_cons.1 hmem with rfl | hmem
      · exact ⟨_, rfl⟩
      · exact htext display hmem

end Spec

theorem takeTail_eq (pending : Bytes) :
    (takeTail ⟨.windowsConsoleUtf8, pending⟩).2 = lossy (flush pending) := by
  cases pending with
  | nil => rfl
  | cons p pending => rfl

theorem prepareAll_bytes (fromUtf8 : Bytes → Check) (chunks : List Bytes) :
    prepareAll fromUtf8 (new .bytes) chunks = some (new .bytes, chunks) := by
  induction chunks with
  | nil => rfl
  | cons chunk chunks ih =>
    rw [prepareAll]
    change (prepareAll fromUtf8 (new .bytes) chunks).bind _ = _
    rw [ih]
    rfl

/-! ## The size of an output -/

/-- What pending bytes may give beyond three bytes for each byte of the next chunk. -/
def carriedRoom (pending : Bytes) : Nat := if pending = [] then 0 else utf8Replacement.length

theorem carriedRoom_le (pending : Bytes) : carriedRoom pending ≤ 3 := by
  unfold carriedRoom
  split_ifs
  · exact Nat.zero_le 3
  · exact le_rfl

theorem carriedRoom_le_three_mul (pending : Bytes) : carriedRoom pending ≤ 3 * pending.length := by
  cases pending with
  | nil => exact le_rfl
  | cons p pending =>
    refine (carriedRoom_le _).trans ?_
    rw [List.length_cons]
    omega

theorem length_lossy_symbol (c : Char) : (lossy [some c]).length ≤ 4 := by
  rw [lossy, List.flatMap_cons, List.flatMap_nil, List.append_nil]
  exact Utf8.length_encodeNat_le c.toNat

theorem start_room (b : UInt8) :
    (lossy (Utf8.code.start b).1).length + carriedRoom (Utf8.code.start b).2 ≤ 3 := by
  unfold start
  cases hsymbol : Utf8.code.symbol [b] with
  | some c =>
    have hword : lossy [some c] = [b] := by
      rw [← Utf8.code.symbol_iff.1 hsymbol]
      exact List.append_nil _
    dsimp only
    rw [hword]
    exact Nat.le_add_left 1 2
  | none =>
    cases Utf8.code.opens [b] with
    | true => exact carriedRoom_le [b]
    | false => exact le_rfl

theorem push_room {pending : Bytes} (h : Utf8.code.Kept pending) (b : UInt8) :
    (lossy (Utf8.code.push pending b).1).length + carriedRoom (Utf8.code.push pending b).2 ≤
      3 + carriedRoom pending := by
  rcases h with rfl | hpending
  · exact start_room b
  · have hroom : carriedRoom pending = 3 := if_neg (opens_ne_nil hpending)
    rw [hroom]
    cases hsymbol : Utf8.code.symbol (pending ++ [b]) with
    | some c =>
      rw [push_symbol hsymbol]
      have hlength := length_lossy_symbol c
      change (lossy [some c]).length + 0 ≤ 6
      omega
    | none =>
      cases hopens : Utf8.code.opens (pending ++ [b]) with
      | true =>
        rw [push_opens hopens]
        have hle := carriedRoom_le (pending ++ [b])
        change 0 + carriedRoom (pending ++ [b]) ≤ 6
        omega
      | false =>
        have hstart := start_room b
        rw [push_invalid (opens_ne_nil hpending) hsymbol hopens]
        dsimp only
        rw [lossy_none_cons, List.length_append, Nat.add_assoc]
        exact Nat.add_le_add_left hstart 3

theorem feed_room (bytes : Bytes) {pending : Bytes} (h : Utf8.code.Kept pending) :
    (lossy (Utf8.code.feed pending bytes).1).length + carriedRoom (Utf8.code.feed pending bytes).2 ≤
      3 * bytes.length + carriedRoom pending := by
  induction bytes generalizing pending with
  | nil =>
    change 0 + carriedRoom pending ≤ 0 + carriedRoom pending
    exact le_rfl
  | cons b bytes ih =>
    have hfirst := push_room h b
    have hrest := ih (kept_push pending b)
    rw [feed]
    dsimp only
    rw [lossy_append, List.length_append, List.length_cons]
    omega

/-! ## The adapter as a whole -/

/-- For every split of the bytes into chunks, the outputs and the tail are the lossy decoding of all the
bytes, each output is text, and at most three bytes are pending. An output has at most three bytes for
each byte of its chunk, and three more if bytes were pending, so it fits what the pump reserves if none
were. In the byte mode the chunks go through unchanged. -/
theorem console_text (fromUtf8 : Bytes → Check) (hchecks : Utf8.code.Checks fromUtf8)
    (chunks : List Bytes) :
    (∃ o displays decoded,
      prepareAll fromUtf8 (new .windowsConsoleUtf8) chunks = some (o, displays) ∧
      Utf8.code.Decodes chunks.flatten decoded ∧
      displays.flatten ++ o.takeTail.2 = lossy decoded ∧
      o.pending.length ≤ 3 ∧
      (∀ display ∈ displays, ∃ text, utf8 text = display) ∧
      ∀ chunk, ∃ o' display, o.prepareInto fromUtf8 chunk = some (o', display) ∧
        display.length ≤ 3 * (chunk.length + o.pending.length) ∧
        display.length ≤ 3 * chunk.length + carriedRoom o.pending ∧
        (chunk.length ≤ terminalChunkCapacity →
          display.length ≤ displayBufferCapacity + carriedRoom o.pending)) ∧
    prepareAll fromUtf8 (new .bytes) chunks = some (new .bytes, chunks) ∧
    (new .bytes).takeTail = (new .bytes, []) := by
  have hnil : Utf8.code.Kept [] := .inl rfl
  obtain ⟨displays, hrun, hflatten, htext⟩ := prepareAll_eq hchecks chunks hnil
  have hkept := kept_feed hnil chunks.flatten
  refine ⟨⟨_, displays, _, hrun, decodes_feed chunks.flatten hnil, ?_, ?_, ?_, ?_⟩, ?_, ?_⟩
  · rw [takeTail_eq, hflatten, lossy_append]
  · rcases hkept with hempty | hopens
    · rw [hempty]
      exact Nat.zero_le 3
    · exact Utf8.length_le_of_opens hopens
  · intro display hmem
    obtain ⟨decoded, rfl⟩ := htext display hmem
    exact ⟨_, (lossy_eq_utf8 decoded).symm⟩
  · intro chunk
    refine ⟨_, _, prepareInto_eq hchecks hkept chunk, ?_, ?_, ?_⟩
    · have hroom := feed_room chunk hkept
      have hcarried := carriedRoom_le_three_mul (Utf8.code.feed [] chunks.flatten).2
      dsimp only
      omega
    · have hroom := feed_room chunk hkept
      dsimp only
      omega
    · intro hchunk
      have hroom := feed_room chunk hkept
      change _ ≤ terminalChunkCapacity * 3 + _
      dsimp only
      omega
  · exact prepareAll_bytes fromUtf8 chunks
  · rfl

theorem console_text_check :
    Utf8.code.Checks Utf8.code.check ∧
      ∃ o displays, prepareAll Utf8.code.check (new .windowsConsoleUtf8) [[0x61, 0xE2], [0x82, 0xFF]] =
        some (o, displays) := by
  obtain ⟨⟨o, displays, _, hrun, _⟩, _⟩ :=
    console_text Utf8.code.check checks_check [[0x61, 0xE2], [0x82, 0xFF]]
  exact ⟨checks_check, o, displays, hrun⟩

/-- Bytes that begin no character, behind a character that an earlier chunk cut. -/
theorem feed_ones (n : Nat) :
    Utf8.code.feed [] (List.replicate n 0xFF) = (List.replicate n none, []) := by
  induction n with
  | zero => rfl
  | succ n ih =>
    have hstart : Utf8.code.start 0xFF = ([none], []) := by decide +kernel
    rw [List.replicate_succ, feed, push_nil, hstart, ih]
    rfl

theorem feed_ones_behind (n : Nat) :
    Utf8.code.feed [0xE2] (List.replicate (n + 1) 0xFF) = (List.replicate (n + 2) none, []) := by
  have hpush : Utf8.code.push [0xE2] 0xFF = ([none, none], []) := by decide +kernel
  rw [List.replicate_succ, feed, hpush, feed_ones]
  rfl

theorem length_lossy_replicate (n : Nat) : (lossy (List.replicate n none)).length = 3 * n := by
  induction n with
  | zero => rfl
  | succ n ih =>
    rw [List.replicate_succ, lossy_none_cons, List.length_append, ih]
    change 3 + 3 * n = 3 * (n + 1)
    omega

/-- A full chunk behind a character that an earlier chunk cut does not fit what the pump reserves: the
character's part is replaced too. -/
theorem output_exceeds_reserve :
    ∃ o displays o' display, prepareAll Utf8.code.check (new .windowsConsoleUtf8) [[0xE2]] =
        some (o, displays) ∧
      o.prepareInto Utf8.code.check (List.replicate terminalChunkCapacity 0xFF) =
        some (o', display) ∧
      3 * terminalChunkCapacity + o.pending.length < display.length ∧
      displayBufferCapacity < display.length := by
  have hkept : Utf8.code.Kept [0xE2] := .inr (by decide +kernel)
  have hrun : prepareAll Utf8.code.check (new .windowsConsoleUtf8) [[0xE2]] =
      some (⟨.windowsConsoleUtf8, [0xE2]⟩, [[]]) := by decide +kernel
  have hchunk := prepareInto_eq checks_check hkept (List.replicate terminalChunkCapacity 0xFF)
  have hfeed := feed_ones_behind 16383
  have hlength := length_lossy_replicate 16385
  rw [show terminalChunkCapacity = 16383 + 1 from rfl, hfeed] at hchunk
  refine ⟨_, _, _, _, hrun, hchunk, ?_, ?_⟩
  · rw [hlength]
    decide
  · rw [hlength]
    decide

end RemoteTerminalOutput

end Yonder.Controller
