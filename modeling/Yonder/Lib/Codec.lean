import Yonder.Lib.Bytes

/-!
# Fixed-width codecs

A `Codec` is a fixed-width byte layout of a type together with the decoder's own acceptance check
`ok`. Its single law `dec_eq_some` says that the decoder answers `a` on exactly one byte string,
the encoding of `a`, and only when `a` passes the check; both round trips follow. Layouts are built
from words, byte arrays and one-byte tags by `prod`, `iso` and `guard`, so a message type gets its
round trips from the list of its fields.
-/

namespace Yonder.Lib

/-- A fixed-width byte layout of `α` whose decoder accepts the values with `ok`. -/
structure Codec (α : Type) where
  width : Nat
  enc : α → Bytes
  dec : Bytes → Option α
  ok : α → Prop
  enc_length : ∀ a, (enc a).length = width
  dec_eq_some : ∀ bs a, dec bs = some a ↔ ok a ∧ enc a = bs

namespace Codec

variable {α β : Type}

variable {a : α} {bs : Bytes} {c : Codec α}

theorem dec_enc (c : Codec α) (h : c.ok a) : c.dec (c.enc a) = some a :=
  (c.dec_eq_some _ _).2 ⟨h, rfl⟩

theorem enc_of_dec (c : Codec α) (h : c.dec bs = some a) : c.enc a = bs :=
  ((c.dec_eq_some _ _).1 h).2

theorem ok_of_dec (c : Codec α) (h : c.dec bs = some a) : c.ok a :=
  ((c.dec_eq_some _ _).1 h).1

theorem length_of_dec (c : Codec α) (h : c.dec bs = some a) : bs.length = c.width := by
  rw [← c.enc_of_dec h, c.enc_length]

/-- Accepted values with one encoding are equal. -/
theorem enc_inj (c : Codec α) {b : α} (ha : c.ok a) (hb : c.ok b) (h : c.enc a = c.enc b) :
    a = b := by
  have e := c.dec_enc ha
  rw [h, c.dec_enc hb] at e
  exact (Option.some.inj e).symm

/-- A fixed-size byte array, as it is. -/
def bytes (n : Nat) : Codec (FixedBytes n) where
  width := n
  enc a := a.1
  dec bs := if h : bs.length = n then some ⟨bs, h⟩ else none
  ok _ := True
  enc_length a := a.2
  dec_eq_some bs a := by
    constructor
    · intro h
      split at h
      · exact ⟨trivial, congrArg Subtype.val (Option.some.inj h).symm⟩
      · cases h
    · rintro ⟨-, rfl⟩
      simp [a.2]

/-- A word type that is faithfully described by its value below `256 ^ w`, big-endian. -/
def word (w : Nat) (toNat : α → Nat) (ofNat : Nat → α) (to_of : ∀ n, n < 256 ^ w → toNat (ofNat n) = n)
    (of_to : ∀ a, ofNat (toNat a) = a) (lt : ∀ a, toNat a < 256 ^ w) : Codec α where
  width := w
  enc a := beBytes w (toNat a)
  dec bs := if bs.length = w then some (ofNat (beNat bs)) else none
  ok _ := True
  enc_length a := length_beBytes w (toNat a)
  dec_eq_some bs a := by
    constructor
    · intro h
      split at h
      · rename_i hl
        obtain rfl := Option.some.inj h
        refine ⟨trivial, ?_⟩
        subst hl
        rw [to_of _ (beNat_lt bs), beBytes_beNat]
      · cases h
    · rintro ⟨-, rfl⟩
      rw [if_pos (length_beBytes w _), beNat_beBytes, Nat.mod_eq_of_lt (lt a), of_to]

/-- One byte. -/
def u8 : Codec UInt8 :=
  word 1 UInt8.toNat UInt8.ofNat (fun n h => UInt8.toNat_ofNat_of_lt' (by simpa using h))
    (fun a => by simp) (fun a => by simpa using a.toNat_lt)

/-- A big-endian `u16`. -/
def u16 : Codec UInt16 :=
  word 2 UInt16.toNat UInt16.ofNat (fun n h => UInt16.toNat_ofNat_of_lt' (by simpa using h))
    (fun a => by simp) (fun a => by simpa using a.toNat_lt)

/-- A big-endian `u32`. -/
def u32 : Codec UInt32 :=
  word 4 UInt32.toNat UInt32.ofNat (fun n h => UInt32.toNat_ofNat_of_lt' (by simpa using h))
    (fun a => by simp) (fun a => by simpa using a.toNat_lt)

/-- A big-endian `u64`. -/
def u64 : Codec UInt64 :=
  word 8 UInt64.toNat UInt64.ofNat (fun n h => UInt64.toNat_ofNat_of_lt' (by simpa using h))
    (fun a => by simp) (fun a => by simpa using a.toNat_lt)

/-- A one-byte tag: `code` gives the byte of a value and `ofByte` is its inverse. -/
def tag (code : α → UInt8) (ofByte : UInt8 → Option α)
    (h : ∀ b a, ofByte b = some a ↔ code a = b) : Codec α where
  width := 1
  enc a := [code a]
  dec bs := match bs with
    | [b] => ofByte b
    | _ => none
  ok _ := True
  enc_length _ := rfl
  dec_eq_some bs a := by
    match bs with
    | [] => simp
    | [b] => simp [h]
    | _ :: _ :: _ => simp

/-- A fixed byte string that carries no information. -/
def const (magic : Bytes) : Codec Unit where
  width := magic.length
  enc _ := magic
  dec bs := if bs = magic then some () else none
  ok _ := True
  enc_length _ := rfl
  dec_eq_some bs a := by
    by_cases h : bs = magic
    · simp [h]
    · simp [h, Ne.symm h]

/-- Two layouts one after the other. -/
def prod (c : Codec α) (d : Codec β) : Codec (α × β) where
  width := c.width + d.width
  enc p := c.enc p.1 ++ d.enc p.2
  dec bs := do
    let a ← c.dec (bs.take c.width)
    let b ← d.dec (bs.drop c.width)
    return (a, b)
  ok p := c.ok p.1 ∧ d.ok p.2
  enc_length p := by rw [List.length_append, c.enc_length, d.enc_length]
  dec_eq_some bs p := by
    obtain ⟨a, b⟩ := p
    simp only [Option.bind_eq_bind, Option.bind_eq_some_iff, Option.pure_def, Option.some.injEq,
      Prod.mk.injEq]
    constructor
    · rintro ⟨a', ha, b', hb, rfl, rfl⟩
      refine ⟨⟨c.ok_of_dec ha, d.ok_of_dec hb⟩, ?_⟩
      rw [c.enc_of_dec ha, d.enc_of_dec hb, List.take_append_drop]
    · rintro ⟨⟨ha, hb⟩, rfl⟩
      have hl : (c.enc a).length = c.width := c.enc_length a
      refine ⟨a, ?_, b, ?_, rfl, rfl⟩
      · rw [List.take_left' hl]
        exact c.dec_enc ha
      · rw [List.drop_left' hl]
        exact d.dec_enc hb

/-- The layout of a type that is another one under new names. -/
def iso (c : Codec α) (e : α ≃ β) : Codec β where
  width := c.width
  enc b := c.enc (e.symm b)
  dec bs := (c.dec bs).map e
  ok b := c.ok (e.symm b)
  enc_length b := c.enc_length _
  dec_eq_some bs b := by
    rw [Option.map_eq_some_iff]
    constructor
    · rintro ⟨a, ha, rfl⟩
      rw [e.symm_apply_apply]
      exact (c.dec_eq_some _ _).1 ha
    · intro h
      exact ⟨e.symm b, (c.dec_eq_some _ _).2 h, e.apply_symm_apply b⟩

/-- The layout of the values that have a form in another layout: `view` reads a raw value and
`raw` gives the one raw value it reads. -/
def partialIso (c : Codec α) (view : α → Option β) (raw : β → α)
    (h : ∀ a b, view a = some b ↔ raw b = a) : Codec β where
  width := c.width
  enc b := c.enc (raw b)
  dec bs := (c.dec bs).bind view
  ok b := c.ok (raw b)
  enc_length b := c.enc_length _
  dec_eq_some bs b := by
    rw [Option.bind_eq_some_iff]
    constructor
    · rintro ⟨a, ha, hv⟩
      obtain rfl := (h a b).1 hv
      exact (c.dec_eq_some _ _).1 ha
    · intro hb
      exact ⟨raw b, (c.dec_eq_some _ _).2 hb, (h _ b).2 rfl⟩

/-- The layout with one more acceptance check. -/
def guard (c : Codec α) (p : α → Prop) [DecidablePred p] : Codec α where
  width := c.width
  enc := c.enc
  dec bs := (c.dec bs).filter fun a => decide (p a)
  ok a := c.ok a ∧ p a
  enc_length := c.enc_length
  dec_eq_some bs a := by
    rw [Option.filter_eq_some_iff, c.dec_eq_some]
    simp only [decide_eq_true_eq]
    tauto

/-- Reading one value off the front of a longer byte string. -/
def read (c : Codec α) (bs : Bytes) : Option (α × Bytes) :=
  (c.dec (bs.take c.width)).map fun a => (a, bs.drop c.width)

theorem read_eq_some (c : Codec α) (bs rest : Bytes) (a : α) :
    c.read bs = some (a, rest) ↔ c.ok a ∧ bs = c.enc a ++ rest := by
  unfold read
  rw [Option.map_eq_some_iff]
  constructor
  · rintro ⟨b, hb, he⟩
    obtain ⟨rfl, rfl⟩ := Prod.mk.inj he
    refine ⟨c.ok_of_dec hb, ?_⟩
    rw [c.enc_of_dec hb, List.take_append_drop]
  · rintro ⟨ha, rfl⟩
    have hl : (c.enc a).length = c.width := c.enc_length a
    refine ⟨a, ?_, ?_⟩
    · rw [List.take_left' hl]
      exact c.dec_enc ha
    · rw [List.drop_left' hl]

theorem read_append (c : Codec α) (h : c.ok a) (rest : Bytes) :
    c.read (c.enc a ++ rest) = some (a, rest) :=
  (c.read_eq_some _ _ _).2 ⟨h, rfl⟩

@[simp] theorem bytes_width (n : Nat) : (bytes n).width = n := rfl
@[simp] theorem bytes_enc {n : Nat} (a : FixedBytes n) : (bytes n).enc a = a.1 := rfl
@[simp] theorem bytes_ok {n : Nat} (a : FixedBytes n) : (bytes n).ok a := trivial
@[simp] theorem u8_ok (a : UInt8) : u8.ok a := trivial
@[simp] theorem u16_ok (a : UInt16) : u16.ok a := trivial
@[simp] theorem u32_ok (a : UInt32) : u32.ok a := trivial
@[simp] theorem u64_ok (a : UInt64) : u64.ok a := trivial
@[simp] theorem u8_width : u8.width = 1 := rfl
@[simp] theorem u16_width : u16.width = 2 := rfl
@[simp] theorem u32_width : u32.width = 4 := rfl
@[simp] theorem u64_width : u64.width = 8 := rfl
@[simp] theorem prod_ok (c : Codec α) (d : Codec β) (p : α × β) :
    (c.prod d).ok p ↔ c.ok p.1 ∧ d.ok p.2 := Iff.rfl
@[simp] theorem prod_width (c : Codec α) (d : Codec β) : (c.prod d).width = c.width + d.width := rfl
@[simp] theorem prod_enc (c : Codec α) (d : Codec β) (p : α × β) :
    (c.prod d).enc p = c.enc p.1 ++ d.enc p.2 := rfl
@[simp] theorem iso_ok (c : Codec α) (e : α ≃ β) (b : β) : (c.iso e).ok b ↔ c.ok (e.symm b) := Iff.rfl
@[simp] theorem iso_width (c : Codec α) (e : α ≃ β) : (c.iso e).width = c.width := rfl
@[simp] theorem partialIso_ok (c : Codec α) (view : α → Option β) (raw : β → α)
    (h : ∀ a b, view a = some b ↔ raw b = a) (b : β) :
    (c.partialIso view raw h).ok b ↔ c.ok (raw b) := Iff.rfl
@[simp] theorem partialIso_width (c : Codec α) (view : α → Option β) (raw : β → α)
    (h : ∀ a b, view a = some b ↔ raw b = a) : (c.partialIso view raw h).width = c.width := rfl
@[simp] theorem guard_ok (c : Codec α) (p : α → Prop) [DecidablePred p] (a : α) :
    (c.guard p).ok a ↔ c.ok a ∧ p a := Iff.rfl
@[simp] theorem guard_width (c : Codec α) (p : α → Prop) [DecidablePred p] :
    (c.guard p).width = c.width := rfl
@[simp] theorem tag_ok (code : α → UInt8) (ofByte : UInt8 → Option α)
    (h : ∀ b a, ofByte b = some a ↔ code a = b) (a : α) : (tag code ofByte h).ok a := trivial
@[simp] theorem tag_width (code : α → UInt8) (ofByte : UInt8 → Option α)
    (h : ∀ b a, ofByte b = some a ↔ code a = b) : (tag code ofByte h).width = 1 := rfl

/-! ## Layouts that lose nothing

A layout can be injective on all values, also on those its decoder refuses. -/

theorem enc_injective (c : Codec α) (h : ∀ a, c.ok a) : Function.Injective c.enc :=
  fun _ _ heq => c.enc_inj (h _) (h _) heq

theorem prod_injective {d : Codec β} (hc : Function.Injective c.enc) (hd : Function.Injective d.enc) :
    Function.Injective (c.prod d).enc := by
  intro p q h
  obtain ⟨hfst, hsnd⟩ := List.append_inj h ((c.enc_length p.1).trans (c.enc_length q.1).symm)
  exact Prod.ext (hc hfst) (hd hsnd)

theorem guard_injective {p : α → Prop} [DecidablePred p] (hc : Function.Injective c.enc) :
    Function.Injective (c.guard p).enc := hc

theorem iso_injective {e : α ≃ β} (hc : Function.Injective c.enc) :
    Function.Injective (c.iso e).enc :=
  fun _ _ h => e.symm.injective (hc h)

end Codec

/-! ## Messages of any length -/

/-- The decoder accepts exactly the encodings, each as the one message that it encodes. -/
structure Canonical {M ε : Type} (encode : M → Bytes) (decode : Bytes → Except ε M) : Prop where
  decode_encode : ∀ m, decode (encode m) = .ok m
  encode_decode : ∀ bytes m, decode bytes = .ok m → encode m = bytes
  unique : ∀ bytes m m', decode bytes = .ok m → encode m' = bytes → m' = m

theorem canonical_of_iff {M ε : Type} {encode : M → Bytes} {decode : Bytes → Except ε M}
    (h : ∀ bytes m, decode bytes = .ok m ↔ encode m = bytes) : Canonical encode decode where
  decode_encode _ := (h _ _).2 rfl
  encode_decode bytes m hm := (h bytes m).1 hm
  unique bytes _ m' hm hm' := Except.ok.inj (((h bytes m').2 hm').symm.trans hm)

end Yonder.Lib
