import Yonder.Lib.Bytes

/-!
# Frames on an ordered byte stream

A `Framing` gives every message a frame and reads a whole frame off the front of a byte string.
`Carries` relates the bytes on the way in one direction to the messages that were written whole and
the messages that were read: what was read, and then what is on the way, is an initial part of what
was written, and all of it as long as the writer may still write. The rules say that this survives
writing a frame or a part of one, reading, and cutting the stream at any byte.
-/

namespace Yonder.Lib

/-- Frames of messages: a whole frame is read back with what follows it, and of less than a frame
nothing is read. -/
structure Framing (Message : Type) where
  enc : Message → Bytes
  ok : Message → Prop
  parse : Bytes → Option (Message × Bytes)
  parse_nil : parse [] = none
  parse_enc : ∀ m rest, ok m → parse (enc m ++ rest) = some (m, rest)
  parse_short : ∀ m short, ok m → short <+: enc m → short ≠ enc m → parse short = none

namespace Framing

variable {Message : Type} (F : Framing Message)

def encAll (messages : List Message) : Bytes := messages.flatMap F.enc

/-- Less than a whole frame. -/
def Short (bytes : Bytes) : Prop :=
  bytes = [] ∨ ∃ m, F.ok m ∧ bytes <+: F.enc m ∧ bytes ≠ F.enc m

/-- The bytes on the way, when `sent` was written and `taken` was read. -/
def Carries (sent taken : List Message) (bytes : Bytes) (writable : Bool) : Prop :=
  ∃ flight stub, bytes = F.encAll flight ++ stub ∧ taken ++ flight <+: sent ∧ F.Short stub ∧
    (∀ m ∈ flight, F.ok m) ∧ (writable = true → taken ++ flight = sent ∧ stub = [])

variable {F}

theorem parse_of_short {bytes : Bytes} (h : F.Short bytes) : F.parse bytes = none := by
  rcases h with rfl | ⟨m, hm, hpre, hne⟩
  · exact F.parse_nil
  · exact F.parse_short m bytes hm hpre hne

variable {m : Message} {n : Nat}

theorem short_take (hm : F.ok m) (hn : n < (F.enc m).length) : F.Short ((F.enc m).take n) := by
  refine .inr ⟨m, hm, List.take_prefix n _, fun heq => ?_⟩
  have hlength := congrArg List.length heq
  rw [List.length_take] at hlength
  omega

theorem Short.take {bytes : Bytes} (h : F.Short bytes) (n : Nat) : F.Short (bytes.take n) := by
  rcases h with rfl | ⟨m, hm, hpre, hne⟩
  · exact .inl List.take_nil
  · refine .inr ⟨m, hm, (List.take_prefix n bytes).trans hpre, fun heq => hne ?_⟩
    -- a frame that is a part of `bytes` is all of it
    exact hpre.eq_of_length_le (heq ▸ (List.take_prefix n bytes).length_le)

/-- Cutting what is on the way leaves whole frames and less than one. -/
theorem take_encAll (flight : List Message) {stub : Bytes} (hstub : F.Short stub)
    (hok : ∀ m ∈ flight, F.ok m) (n : Nat) : ∃ flight' stub',
      (F.encAll flight ++ stub).take n = F.encAll flight' ++ stub' ∧ flight' <+: flight ∧
        F.Short stub' := by
  induction flight generalizing n with
  | nil => exact ⟨[], stub.take n, rfl, List.nil_prefix, hstub.take n⟩
  | cons m flight ih =>
    have hm : F.ok m := hok m (List.mem_cons_self ..)
    have hsplit : F.encAll (m :: flight) ++ stub = F.enc m ++ (F.encAll flight ++ stub) := by
      simp only [encAll, List.flatMap_cons, List.append_assoc]
    rw [hsplit]
    by_cases hn : n < (F.enc m).length
    case pos =>
      refine ⟨[], (F.enc m).take n, ?_, List.nil_prefix, short_take hm hn⟩
      rw [List.take_append_of_le_length (Nat.le_of_lt hn)]
      rfl
    case neg =>
      obtain ⟨flight', stub', htake, hpre, hshort⟩ :=
        ih (fun m' hm' => hok m' (List.mem_cons_of_mem _ hm')) (n - (F.enc m).length)
      refine ⟨m :: flight', stub', ?_, List.cons_prefix_cons.2 ⟨rfl, hpre⟩, hshort⟩
      rw [List.take_append, List.take_of_length_le (Nat.le_of_not_lt hn), htake]
      simp only [encAll, List.flatMap_cons, List.append_assoc]

variable {sent taken : List Message} {bytes : Bytes} {writable : Bool}

theorem Carries.nil : F.Carries [] [] [] true :=
  ⟨[], [], rfl, List.nil_prefix, .inl rfl, fun _ h => absurd h List.not_mem_nil, fun _ => ⟨rfl, rfl⟩⟩

theorem Carries.takenFirst (h : F.Carries sent taken bytes writable) : taken <+: sent := by
  obtain ⟨flight, -, -, hpre, -⟩ := h
  exact (List.prefix_append taken flight).trans hpre

/-- The writer stops. -/
theorem Carries.stop (h : F.Carries sent taken bytes writable) : F.Carries sent taken bytes false := by
  obtain ⟨flight, stub, hbytes, hpre, hstub, hok, -⟩ := h
  exact ⟨flight, stub, hbytes, hpre, hstub, hok, fun h => absurd h Bool.false_ne_true⟩

/-- A frame is written whole. -/
theorem Carries.write (h : F.Carries sent taken bytes true) (hm : F.ok m) :
    F.Carries (sent ++ [m]) taken (bytes ++ F.enc m) true := by
  obtain ⟨flight, stub, rfl, -, hstub, hok, hall⟩ := h
  obtain ⟨rfl, rfl⟩ := hall rfl
  refine ⟨flight ++ [m], [], ?_, ?_, .inl rfl, fun m' hm' => ?_, fun _ => ⟨?_, rfl⟩⟩
  · simp [encAll]
  · rw [← List.append_assoc]
  · rcases List.mem_append.1 hm' with hm' | hm'
    · exact hok m' hm'
    · rwa [List.mem_singleton.1 hm']
  · rw [List.append_assoc]

/-- A part of a frame is written, and the writer stops. -/
theorem Carries.writePart (h : F.Carries sent taken bytes true) (hm : F.ok m)
    (hn : n < (F.enc m).length) : F.Carries sent taken (bytes ++ (F.enc m).take n) false := by
  obtain ⟨flight, stub, rfl, hpre, -, hok, hall⟩ := h
  obtain ⟨-, rfl⟩ := hall rfl
  refine ⟨flight, (F.enc m).take n, ?_, hpre, short_take hm hn, hok,
    fun h => absurd h Bool.false_ne_true⟩
  rw [List.append_nil]

/-- What is written to a stream that was cut is lost. -/
theorem Carries.lose (h : F.Carries sent taken bytes writable) (more : List Message) :
    F.Carries (sent ++ more) taken bytes false := by
  obtain ⟨flight, stub, hbytes, hpre, hstub, hok, -⟩ := h
  exact ⟨flight, stub, hbytes, hpre.trans (List.prefix_append sent more), hstub, hok,
    fun h => absurd h Bool.false_ne_true⟩

/-- The stream is cut after any byte. -/
theorem Carries.cut (h : F.Carries sent taken bytes writable) (n : Nat) :
    F.Carries sent taken (bytes.take n) false := by
  obtain ⟨flight, stub, rfl, hpre, hstub, hok, -⟩ := h
  obtain ⟨flight', stub', htake, hflight, hstub'⟩ := take_encAll flight hstub hok n
  refine ⟨flight', stub', htake, ?_, hstub', fun m hm => hok m (hflight.subset hm),
    fun h => absurd h Bool.false_ne_true⟩
  exact ((List.prefix_append_right_inj taken).2 hflight).trans hpre

/-- What is read is the next message that was written. -/
theorem Carries.read (h : F.Carries sent taken bytes writable) {rest : Bytes}
    (hparse : F.parse bytes = some (m, rest)) : F.Carries sent (taken ++ [m]) rest writable := by
  obtain ⟨flight, stub, rfl, hpre, hstub, hok, hall⟩ := h
  cases flight with
  | nil =>
    rw [encAll, List.flatMap_nil, List.nil_append, parse_of_short hstub] at hparse
    cases hparse
  | cons m' flight =>
    have hsplit : F.encAll (m' :: flight) ++ stub = F.enc m' ++ (F.encAll flight ++ stub) := by
      simp only [encAll, List.flatMap_cons, List.append_assoc]
    rw [hsplit, F.parse_enc m' _ (hok m' (List.mem_cons_self ..))] at hparse
    cases hparse
    refine ⟨flight, stub, rfl, ?_, hstub, fun m' hm' => hok m' (List.mem_cons_of_mem _ hm'),
      fun hw => ⟨?_, (hall hw).2⟩⟩
    · rwa [List.append_assoc]
    · rw [List.append_assoc]
      exact (hall hw).1

end Framing

end Yonder.Lib
