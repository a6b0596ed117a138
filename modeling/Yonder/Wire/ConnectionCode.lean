import Yonder.Lib.Digits
import Yonder.Lib.Fallible
import Yonder.Lib.Utf8
import Yonder.Relay.Registry

/-!
# Connection codes

A connection code is a 20-bit locator and a 60-bit secret, written as sixteen symbols of five bits in
groups of four. The parser takes either case, reads `O` as `0` and `I` and `L` as `1`, and takes the
symbols with or without the three dashes.

The base-32 codec is a parameter: `Encoding.BigEndian` says that its symbols are the digits of the
big-endian number. `connection_code`: the text of a code parses to the code and begins with the text
of its locator, the parser accepts exactly the strings of `Grammar`, and two accepted strings stand
for the same code exactly when their symbols are the same once mapped.
-/

namespace Yonder.Wire

open Lib Relay

/-! ## The codec -/

/-- The characters of `SYMBOLS`. -/
def symbolChars : List Char :=
  ['0', '1', '2', '3', '4', '5', '6', '7', '8', '9', 'A', 'B', 'C', 'D', 'E', 'F',
    'G', 'H', 'J', 'K', 'M', 'N', 'P', 'Q', 'R', 'S', 'T', 'V', 'W', 'X', 'Y', 'Z']

/-- The byte of an ASCII character. -/
def byteOf (c : Char) : UInt8 := UInt8.ofNat c.toNat

/-- The bytes of `SYMBOLS`. -/
def symbols : Bytes := symbolChars.map byteOf

/-- The encoding that `crockford` builds from the symbols. -/
structure Encoding where
  encode : Bytes → Bytes
  decode : Bytes → Option Bytes

/-- The symbols of the digits. -/
def write (alphabet : Bytes) (ds : List Nat) : Bytes := ds.map (alphabet.getD · 0)

/-- The encoding writes the big-endian number that the bytes stand for, filled up with zero bits on
the right, in base 32; and it reads whole bytes back. -/
structure Encoding.BigEndian (alphabet : Bytes) (e : Encoding) : Prop where
  encode : ∀ bytes, e.encode bytes =
    write alphabet (digits 32 ((8 * bytes.length + 4) / 5)
      (beNat bytes * 2 ^ (5 * ((8 * bytes.length + 4) / 5) - 8 * bytes.length)))
  decode : ∀ ds, ds.length % 8 = 0 → (∀ d ∈ ds, d < 32) →
    e.decode (write alphabet ds) = some (beBytes (5 * ds.length / 8) (ofDigits 32 ds))

/-! ## Codes -/

/-- A 60-bit secret. -/
structure PakeSecret where
  bytes : Bytes
  length : bytes.length = 8
  top : bytes.headD 0 &&& 0xF0 = 0
deriving DecidableEq

structure ConnectionCode where
  locator : Locator
  secret : PakeSecret
deriving DecidableEq

inductive CodeError where
  | invalidLength
  | invalidGrouping
  | invalidCharacter
  | invalidEncoding
deriving DecidableEq

/-- `Locator::to_wire`. -/
def toWire (locator : Locator) : UInt8 × UInt8 × UInt8 :=
  (UInt8.ofNat (locator.value >>> 16 &&& 0x0F), UInt8.ofNat (locator.value >>> 8),
    UInt8.ofNat locator.value)

/-- `Locator::write_symbols`. -/
def writeSymbols (e : Encoding) (locator : Locator) : Bytes :=
  let (w₀, w₁, w₂) := toWire locator
  (e.encode [w₀ <<< 4 ||| w₁ >>> 4, w₁ <<< 4 ||| w₂ >>> 4, w₂ <<< 4]).take 4

/-- The `Display` text of a locator. -/
def displayLocator (e : Encoding) (locator : Locator) : Option String :=
  ofUtf8 (writeSymbols e locator)

namespace ConnectionCode

/-- `packed`: the ten bytes of a code. -/
def packed (code : ConnectionCode) : Bytes :=
  let locator := code.locator.value
  [UInt8.ofNat (locator >>> 12), UInt8.ofNat (locator >>> 4),
    UInt8.ofNat locator <<< 4 ||| code.secret.bytes.headD 0] ++ code.secret.bytes.tail

/-- The `Display` text of an exposed code. -/
def expose (e : Encoding) (code : ConnectionCode) : Option String :=
  let symbols := e.encode code.packed
  ofUtf8 (symbols.take 4 ++ byteOf '-' :: (symbols.drop 4).take 4 ++ byteOf '-' ::
    (symbols.drop 8).take 4 ++ byteOf '-' :: symbols.drop 12)

end ConnectionCode

/-! ## The parser -/

def normalizeUpper (value : UInt8) : Except CodeError UInt8 :=
  if value = byteOf 'O' then .ok (byteOf '0')
  else if value = byteOf 'I' ∨ value = byteOf 'L' then .ok (byteOf '1')
  else if value = byteOf 'U' then .error .invalidCharacter
  else if symbols.contains value then .ok value
  else .error .invalidCharacter

/-- The body of the loop of `normalize_symbols`. -/
def normalizeSymbol (source : UInt8) : Except CodeError UInt8 :=
  if byteOf 'a' ≤ source ∧ source ≤ byteOf 'z' then
    normalizeUpper (source - byteOf 'a' + byteOf 'A')
  else if byteOf 'A' ≤ source ∧ source ≤ byteOf 'Z' ∨ byteOf '0' ≤ source ∧ source ≤ byteOf '9' then
    normalizeUpper source
  else .error .invalidCharacter

def normalizeSymbols : Bytes → Except CodeError Bytes
  | [] => .ok []
  | source :: rest => do
    let symbol ← normalizeSymbol source
    return symbol :: (← normalizeSymbols rest)

/-- A text without what stands at the positions of the dashes. -/
def compact {α : Type} (text : List α) : List α :=
  text.take 4 ++ (text.drop 5).take 4 ++ (text.drop 10).take 4 ++ text.drop 15

/-- The locator and the secret of ten bytes. -/
def unpack (packed : Bytes) : Except CodeError ConnectionCode :=
  let locator := (packed.getD 0 0).toNat <<< 12 ||| (packed.getD 1 0).toNat <<< 4 |||
    (packed.getD 2 0 >>> 4).toNat
  let secret := (packed.getD 2 0 &&& 0x0F) :: packed.drop 3
  if hlocator : locator < 2 ^ 20 then
    if hsecret : secret.length = 8 ∧ secret.headD 0 &&& 0xF0 = 0 then
      .ok ⟨⟨locator, hlocator⟩, ⟨secret, hsecret.1, hsecret.2⟩⟩
    else .error .invalidEncoding
  else .error .invalidEncoding

/-- The first part of `from_str`: the normalized symbols of a text of either length. -/
def readSymbols (bytes : Bytes) : Except CodeError Bytes :=
  if bytes.length = 16 then normalizeSymbols bytes
  else if bytes.length = 19 then
    if bytes.getD 4 0 ≠ byteOf '-' ∨ bytes.getD 9 0 ≠ byteOf '-' ∨ bytes.getD 14 0 ≠ byteOf '-' then
      .error .invalidGrouping
    else normalizeSymbols (compact bytes)
  else .error .invalidLength

/-- `from_str`, on the bytes of the string. -/
def parse (e : Encoding) (bytes : Bytes) : Except CodeError ConnectionCode := do
  let normalized ← readSymbols bytes
  match e.decode normalized with
  | none => .error .invalidEncoding
  | some packed => unpack packed

def fromStr (e : Encoding) (input : String) : Except CodeError ConnectionCode :=
  parse e (utf8 input)

/-! ## The grammar -/

/-- The upper-case symbol of a character, with `O` as `0` and `I` and `L` as `1`. -/
def mapped (c : Char) : Char :=
  if c.toUpper = 'O' then '0'
  else if c.toUpper = 'I' ∨ c.toUpper = 'L' then '1'
  else c.toUpper

def IsSymbol (c : Char) : Prop := mapped c ∈ symbolChars

instance : DecidablePred IsSymbol := fun c => inferInstanceAs (Decidable (mapped c ∈ symbolChars))

/-- Sixteen symbols, or nineteen characters with dashes at the positions 4, 9 and 14 and symbols
elsewhere. -/
def Grammar (text : List Char) : Prop :=
  (text.length = 16 ∧ ∀ c ∈ text, IsSymbol c) ∨
    (text.length = 19 ∧ text[4]? = some '-' ∧ text[9]? = some '-' ∧ text[14]? = some '-' ∧
      ∀ c ∈ compact text, IsSymbol c)

/-- The symbols of a text, without dashes. -/
def body (text : List Char) : List Char := if text.length = 16 then text else compact text

/-! ## Codes as numbers -/

/-- The 80-bit number of a code. -/
def ConnectionCode.value (code : ConnectionCode) : Nat :=
  code.locator.value * 2 ^ 60 + beNat code.secret.bytes

theorem toNat_lt_of_and (s : UInt8) (h : s &&& 0xF0 = 0) : s.toNat < 16 := by
  have hall : ∀ n < 256, n &&& 0xF0 = 0 → n < 16 := by decide +kernel
  exact hall s.toNat s.toNat_lt (by simpa using congrArg UInt8.toNat h)

/-- A nibble put in front of another. -/
theorem toNat_shiftLeft_or (a s : UInt8) (h : s.toNat < 16) :
    (a <<< 4 ||| s).toNat = a.toNat % 16 * 16 + s.toNat := by
  have ha := a.toNat_lt
  have hshift : (a <<< 4).toNat = (a.toNat % 16) <<< 4 := by
    rw [UInt8.toNat_shiftLeft, Nat.shiftLeft_eq, Nat.shiftLeft_eq]
    show a.toNat * 16 % 256 = a.toNat % 16 * 16
    omega
  rw [UInt8.toNat_or, hshift, ← Nat.shiftLeft_add_eq_or_of_lt (by omega), Nat.shiftLeft_eq]

theorem toNat_shiftRight (a : UInt8) : (a >>> 4).toNat = a.toNat / 16 := by
  rw [UInt8.toNat_shiftRight, Nat.shiftRight_eq_div_pow]
  rfl

/-- The lower nibble of a byte in front of the upper one of the next. -/
theorem toNat_join (a b : UInt8) :
    (a <<< 4 ||| b >>> 4).toNat = a.toNat % 16 * 16 + b.toNat / 16 := by
  have hb := b.toNat_lt
  rw [toNat_shiftLeft_or _ _ (by rw [toNat_shiftRight]; omega), toNat_shiftRight]

theorem toNat_and (a : UInt8) : (a &&& 0x0F).toNat = a.toNat % 16 := by
  rw [UInt8.toNat_and]
  exact Nat.and_two_pow_sub_one_eq_mod _ 4

/-- The secret as its first byte and seven others. -/
theorem PakeSecret.cases (secret : PakeSecret) :
    ∃ s₀ rest, secret.bytes = s₀ :: rest ∧ rest.length = 7 ∧ s₀.toNat < 16 := by
  obtain ⟨bytes, hlen, htop⟩ := secret
  cases bytes with
  | nil => cases hlen
  | cons s₀ rest => exact ⟨s₀, rest, rfl, Nat.succ.inj hlen, toNat_lt_of_and _ htop⟩

theorem beNat_packed (code : ConnectionCode) :
    code.packed.length = 10 ∧ beNat code.packed = code.value := by
  obtain ⟨locator, secret⟩ := code
  obtain ⟨s₀, rest, hbytes, hlen, hs₀⟩ := secret.cases
  have hv := locator.lt
  have hnibble := toNat_shiftLeft_or (UInt8.ofNat locator.value) s₀ hs₀
  simp only [ConnectionCode.packed, ConnectionCode.value, hbytes, List.headD_cons, List.tail_cons,
    List.cons_append, List.nil_append, List.length_cons, beNat, hlen, hnibble, UInt8.toNat_ofNat',
    Nat.shiftRight_eq_div_pow, true_and]
  omega

/-- Ten bytes are the code with their number. -/
theorem unpack_spec {packed : Bytes} (hlen : packed.length = 10) :
    ∃ code, unpack packed = .ok code ∧ code.value = beNat packed := by
  match packed, hlen with
  | p₀ :: p₁ :: p₂ :: rest, hlen =>
    have hrest : rest.length = 7 := by simpa using hlen
    have h₀ := p₀.toNat_lt
    have h₁ := p₁.toNat_lt
    have h₂ := p₂.toNat_lt
    have hlocator : p₀.toNat <<< 12 ||| p₁.toNat <<< 4 ||| (p₂ >>> 4).toNat =
        p₀.toNat * 4096 + p₁.toNat * 16 + p₂.toNat / 16 := by
      rw [toNat_shiftRight, Nat.or_assoc, ← Nat.shiftLeft_add_eq_or_of_lt (i := 4) (by omega),
        ← Nat.shiftLeft_add_eq_or_of_lt (i := 12) (by rw [Nat.shiftLeft_eq]; omega),
        Nat.shiftLeft_eq, Nat.shiftLeft_eq]
      omega
    have htop : (p₂ &&& 0x0F) &&& 0xF0 = 0 := by
      rw [UInt8.and_assoc]
      exact UInt8.and_zero
    rw [unpack]
    simp only [List.getD_cons_zero, List.getD_cons_succ, List.drop_succ_cons, List.drop_zero,
      List.length_cons, List.headD_cons]
    rw [dif_pos (by omega), dif_pos ⟨by omega, htop⟩]
    refine ⟨_, rfl, ?_⟩
    simp only [ConnectionCode.value, hlocator, beNat, toNat_and, hrest, List.length_cons]
    omega

theorem PakeSecret.beNat_lt (secret : PakeSecret) : beNat secret.bytes < 2 ^ 60 := by
  obtain ⟨s₀, rest, hbytes, hlen, hs₀⟩ := secret.cases
  have hrest := Lib.beNat_lt rest
  rw [hbytes, beNat, hlen] at *
  omega

theorem value_injective {code code' : ConnectionCode} (h : code.value = code'.value) :
    code = code' := by
  obtain ⟨⟨v, hv⟩, secret⟩ := code
  obtain ⟨⟨v', hv'⟩, secret'⟩ := code'
  have hlt := secret.beNat_lt
  have hlt' := secret'.beNat_lt
  simp only [ConnectionCode.value] at h
  have hvalue : v = v' := by omega
  have hsecret : beNat secret.bytes = beNat secret'.bytes := by omega
  have hbytes : secret.bytes = secret'.bytes := by
    rw [← beBytes_beNat secret.bytes, ← beBytes_beNat secret'.bytes, secret.length, secret'.length,
      hsecret]
  obtain ⟨bytes, hlen, htop⟩ := secret
  obtain ⟨bytes', hlen', htop'⟩ := secret'
  subst hvalue hbytes
  rfl

/-! ## Symbols as digits -/

/-- The parser takes the bytes of the symbols, and maps them as the grammar does. -/
theorem normalizeSymbol_spec (b : UInt8) : normalizeSymbol b =
    if b.toNat < 128 ∧ IsSymbol (Char.ofNat b.toNat) then .ok (byteOf (mapped (Char.ofNat b.toNat)))
    else .error .invalidCharacter := by
  have hall : ∀ n < 256, normalizeSymbol (UInt8.ofNat n) =
      if n < 128 ∧ IsSymbol (Char.ofNat n) then .ok (byteOf (mapped (Char.ofNat n)))
      else .error .invalidCharacter := by decide +kernel
  have hb := hall b.toNat b.toNat_lt
  rwa [UInt8.ofNat_toNat] at hb

theorem byteOf_toNat {c : Char} (h : c.toNat < 128) : (byteOf c).toNat = c.toNat := by
  rw [byteOf, UInt8.toNat_ofNat']
  exact Nat.mod_eq_of_lt (by omega)

/-- What is mapped to a symbol is ASCII. -/
theorem IsSymbol.ascii {c : Char} (h : IsSymbol c) : c.toNat < 128 := by
  by_contra hge
  have hupper : c.toUpper = c := by
    refine dif_neg ?_
    rintro ⟨-, hle⟩
    have hle' : c.toNat ≤ 122 := hle
    omega
  have hne : ∀ d : Char, d.toNat < 128 → c ≠ d := fun d hd heq => hge (heq ▸ hd)
  rw [IsSymbol, mapped, hupper, if_neg (hne _ (by decide)),
    if_neg (not_or.2 ⟨hne _ (by decide), hne _ (by decide)⟩)] at h
  have hall : symbolChars.all (·.toNat < 128) = true := by decide
  exact hge (of_decide_eq_true (List.all_eq_true.1 hall c h))

theorem normalizeSymbol_byteOf {c : Char} (h : IsSymbol c) :
    normalizeSymbol (byteOf c) = .ok (byteOf (mapped c)) := by
  rw [normalizeSymbol_spec, byteOf_toNat h.ascii, Char.ofNat_toNat, if_pos ⟨h.ascii, h⟩]

theorem normalizeSymbols_map {text : List Char} (h : ∀ c ∈ text, IsSymbol c) :
    normalizeSymbols (text.map byteOf) = .ok ((text.map mapped).map byteOf) := by
  induction text with
  | nil => rfl
  | cons c rest ih =>
    rw [List.forall_mem_cons] at h
    rw [List.map_cons, normalizeSymbols, normalizeSymbol_byteOf h.1, ih h.2]
    rfl

theorem normalizeSymbols_ok {bytes normalized : Bytes} (h : normalizeSymbols bytes = .ok normalized) :
    ∀ b ∈ bytes, b.toNat < 128 ∧ IsSymbol (Char.ofNat b.toNat) := by
  induction bytes generalizing normalized with
  | nil => exact fun b hb => absurd hb List.not_mem_nil
  | cons b rest ih =>
    rw [normalizeSymbols] at h
    obtain ⟨symbol, hsymbol, h⟩ := bind_eq_ok_iff.1 h
    obtain ⟨symbols, hsymbols, -⟩ := bind_eq_ok_iff.1 h
    refine List.forall_mem_cons.2 ⟨?_, ih hsymbols⟩
    rw [normalizeSymbol_spec] at hsymbol
    split at hsymbol
    case isTrue hb => exact hb
    case isFalse => cases hsymbol

theorem getD_symbols {c : Char} (h : c ∈ symbolChars) :
    symbols.getD (symbolChars.idxOf c) 0 = byteOf c := by
  have hlt := List.idxOf_lt_length_of_mem h
  rw [symbols, List.getD_eq_getElem?_getD, List.getElem?_map, List.getElem?_eq_getElem hlt,
    List.getElem_idxOf]
  rfl

/-- The digits of some symbols. -/
def digitsOf (text : List Char) : List Nat := text.map fun c => symbolChars.idxOf (mapped c)

theorem digitsOf_lt {text : List Char} (h : ∀ c ∈ text, IsSymbol c) :
    ∀ d ∈ digitsOf text, d < 32 := by
  intro d hd
  obtain ⟨c, hc, rfl⟩ := List.mem_map.1 hd
  exact List.idxOf_lt_length_of_mem (h c hc)

theorem write_digitsOf {text : List Char} (h : ∀ c ∈ text, IsSymbol c) :
    write symbols (digitsOf text) = (text.map mapped).map byteOf := by
  rw [write, digitsOf, List.map_map, List.map_map]
  exact List.map_congr_left fun c hc => getD_symbols (h c hc)

theorem digitsOf_inj {text text' : List Char} (h : ∀ c ∈ text, IsSymbol c) :
    digitsOf text = digitsOf text' ↔ text.map mapped = text'.map mapped := by
  have hmap : ∀ text, digitsOf text = (text.map mapped).map symbolChars.idxOf := by
    intro text
    rw [digitsOf, List.map_map]
    rfl
  rw [hmap, hmap]
  refine ⟨fun heq => ?_, congrArg _⟩
  generalize htext : text.map mapped = l at heq ⊢
  generalize text'.map mapped = l' at heq ⊢
  have hmem : ∀ c ∈ l, c ∈ symbolChars := by
    rw [← htext]
    exact List.forall_mem_map.2 h
  clear htext
  induction l generalizing l' with
  | nil => exact (List.map_eq_nil_iff.1 heq.symm).symm
  | cons c l ih =>
    cases l' with
    | nil => cases heq
    | cons c' l' =>
      rw [List.map_cons, List.map_cons, List.cons.injEq] at heq
      rw [List.forall_mem_cons] at hmem
      rw [(List.idxOf_inj hmem.1).1 heq.1, ih l' heq.2 hmem.2]

/-! ## Accepted texts -/

section Accepted

variable {e : Encoding}

/-- Sixteen symbols are the code with the number of their digits. -/
theorem decode_symbols (he : e.BigEndian symbols) {text : List Char} (hlen : text.length = 16)
    (h : ∀ c ∈ text, IsSymbol c) : ∃ packed code,
      e.decode ((text.map mapped).map byteOf) = some packed ∧ unpack packed = .ok code ∧
        code.value = ofDigits 32 (digitsOf text) := by
  have hdigits : (digitsOf text).length = 16 := by rw [digitsOf, List.length_map, hlen]
  have hlt := ofDigits_lt (digitsOf_lt h)
  rw [hdigits] at hlt
  have hdecode := he.decode (digitsOf text) (by rw [hdigits]) (digitsOf_lt h)
  rw [write_digitsOf h, hdigits] at hdecode
  obtain ⟨code, hunpack, hvalue⟩ := unpack_spec (length_beBytes 10 (ofDigits 32 (digitsOf text)))
  refine ⟨_, code, hdecode, hunpack, ?_⟩
  rw [hvalue, beNat_beBytes]
  exact Nat.mod_eq_of_lt hlt

theorem compact_map {α β : Type} (f : α → β) (text : List α) :
    compact (text.map f) = (compact text).map f := by
  simp only [compact, List.map_append, List.map_take, List.map_drop]

theorem length_compact {α : Type} {text : List α} (h : text.length = 19) :
    (compact text).length = 16 := by
  simp [compact, h]

theorem getD_map_of_getElem? {text : List Char} {i : Nat} (h : text[i]? = some '-') :
    (text.map byteOf).getD i 0 = byteOf '-' := by
  rw [List.getD_eq_getElem?_getD, List.getElem?_map, h]
  rfl

theorem length_body {text : List Char} (h : Grammar text) : (body text).length = 16 := by
  rw [body]
  split
  case isTrue hlen => exact hlen
  case isFalse hlen =>
    rcases h with ⟨hlen', -⟩ | ⟨hlen', -⟩
    · exact absurd hlen' hlen
    · exact length_compact hlen'

theorem Grammar.symbols {text : List Char} (h : Grammar text) : ∀ c ∈ body text, IsSymbol c := by
  rw [body]
  rcases h with ⟨hlen, h⟩ | ⟨hlen, -, -, -, h⟩
  · rwa [if_pos hlen]
  · rwa [if_neg (by omega)]

theorem parse_map (he : e.BigEndian symbols) {text : List Char} (h : Grammar text) :
    ∃ code, parse e (text.map byteOf) = .ok code ∧ code.value = ofDigits 32 (digitsOf (body text)) := by
  obtain ⟨packed, code, hdecode, hunpack, hvalue⟩ := decode_symbols he (length_body h) h.symbols
  refine ⟨code, ?_, hvalue⟩
  suffices hread : readSymbols (text.map byteOf) = .ok (((body text).map mapped).map byteOf) by
    rw [parse, hread]
    simp only [bind, Except.bind, hdecode, hunpack]
  have hnormalized := normalizeSymbols_map h.symbols
  rw [body] at hnormalized ⊢
  rw [readSymbols, List.length_map]
  rcases h with ⟨hlen, -⟩ | ⟨hlen, h₄, h₉, h₁₄, -⟩
  · rwa [if_pos hlen, if_pos hlen] at *
  · have hne : ¬ text.length = 16 := by omega
    rw [if_neg hne] at hnormalized ⊢
    rw [if_pos hlen, getD_map_of_getElem? h₄, getD_map_of_getElem? h₉, getD_map_of_getElem? h₁₄,
      if_neg (by simp), compact_map, hnormalized, if_neg hne]

/-! ## Strings -/

/-- The bytes of an ASCII text. -/
theorem utf8_of_ascii {input : String} (h : ∀ c ∈ input.toList, c.toNat < 128) :
    utf8 input = input.toList.map byteOf := by
  rw [Utf8.utf8_eq_words, PrefixCode.words]
  generalize input.toList = text at h ⊢
  induction text with
  | nil => rfl
  | cons c rest ih =>
    rw [List.forall_mem_cons] at h
    rw [List.flatMap_cons, List.map_cons, ih h.2]
    show String.utf8EncodeChar c ++ _ = _
    rw [Utf8.utf8EncodeChar_eq, Utf8.encodeNat, if_pos (by omega)]
    rfl

/-- A text is ASCII if its bytes are. -/
theorem ascii_of_utf8 {input : String} (h : ∀ b ∈ utf8 input, b.toNat < 128) :
    ∀ c ∈ input.toList, c.toNat < 128 := by
  intro c hc
  by_contra hge
  -- the first byte of another character is not ASCII
  have hfirst : ∃ b ∈ Utf8.encodeNat c.toNat, 128 ≤ b.toNat := by
    unfold Utf8.encodeNat
    rw [if_neg (by omega)]
    split
    case isTrue => exact ⟨_, List.mem_cons_self, by rw [UInt8.toNat_ofNat']; omega⟩
    case isFalse =>
      split <;> exact ⟨_, List.mem_cons_self, by rw [UInt8.toNat_ofNat']; omega⟩
  obtain ⟨b, hb, hlow⟩ := hfirst
  have hmem : b ∈ utf8 input := by
    rw [Utf8.utf8_eq_words]
    exact List.mem_flatMap.2 ⟨c, hc, hb⟩
  exact absurd (h b hmem) (by omega)

/-- A text of nineteen characters is its groups and the characters between them. -/
theorem split_groups {α : Type} {text : List α} (h : text.length = 19) (d : α) :
    text = text.take 4 ++ text.getD 4 d :: ((text.drop 5).take 4 ++ text.getD 9 d ::
      ((text.drop 10).take 4 ++ text.getD 14 d :: text.drop 15)) := by
  have hcons : ∀ i < 19, text.getD i d :: text.drop (i + 1) = text.drop i := by
    intro i hi
    rw [List.getD_eq_getElem?_getD, List.getElem?_eq_getElem (by omega), Option.getD_some,
      ← List.drop_eq_getElem_cons]
  have hsplit : ∀ i, (text.drop i).take 4 ++ text.drop (i + 4) = text.drop i := by
    intro i
    rw [← List.drop_drop, List.take_append_drop]
  rw [hcons 14 (by omega), hsplit 10, hcons 9 (by omega), hsplit 5, hcons 4 (by omega),
    List.take_append_drop]

theorem byteOf_inj {c d : Char} (hc : c.toNat < 128) (hd : d.toNat < 128)
    (h : byteOf c = byteOf d) : c = d := by
  rw [← Char.ofNat_toNat c, ← byteOf_toNat hc, h, byteOf_toNat hd, Char.ofNat_toNat]

theorem isSymbol_of_bytes {text : List Char} (hascii : ∀ c ∈ text, c.toNat < 128)
    (h : ∀ b ∈ text.map byteOf, b.toNat < 128 ∧ IsSymbol (Char.ofNat b.toNat)) :
    ∀ c ∈ text, IsSymbol c := by
  intro c hc
  have hsymbol := (h _ (List.mem_map_of_mem hc)).2
  rwa [byteOf_toNat (hascii c hc), Char.ofNat_toNat] at hsymbol

theorem compact_subset {α : Type} (text : List α) : compact text ⊆ text := by
  intro x hx
  simp only [compact, List.mem_append] at hx
  rcases hx with ((hx | hx) | hx) | hx
  · exact List.mem_of_mem_take hx
  · exact List.mem_of_mem_drop (List.mem_of_mem_take hx)
  · exact List.mem_of_mem_drop (List.mem_of_mem_take hx)
  · exact List.mem_of_mem_drop hx

/-- What holds of the groups and of the three characters between them holds of the whole text. -/
theorem forall_mem_of_compact {α : Type} {text : List α} (hlen : text.length = 19) (d : α)
    {p : α → Prop} (h₄ : p (text.getD 4 d)) (h₉ : p (text.getD 9 d)) (h₁₄ : p (text.getD 14 d))
    (h : ∀ x ∈ compact text, p x) : ∀ x ∈ text, p x := by
  intro x hx
  rw [split_groups hlen d] at hx
  simp only [compact, List.mem_append, List.mem_cons] at hx h
  rcases hx with hx | rfl | hx | rfl | hx | rfl | hx
  · exact h x (.inl (.inl (.inl hx)))
  · exact h₄
  · exact h x (.inl (.inl (.inr hx)))
  · exact h₉
  · exact h x (.inl (.inr hx))
  · exact h₁₄
  · exact h x (.inr hx)

/-- The parser accepts texts of the grammar only. -/
theorem grammar_of_fromStr {input : String} {code : ConnectionCode}
    (h : fromStr e input = .ok code) : Grammar input.toList := by
  rw [fromStr, parse] at h
  obtain ⟨normalized, hnormalized, -⟩ := bind_eq_ok_iff.1 h
  rw [readSymbols] at hnormalized
  split at hnormalized
  case isTrue hlen =>
    have hok := normalizeSymbols_ok hnormalized
    have hascii := ascii_of_utf8 fun b hb => (hok b hb).1
    rw [utf8_of_ascii hascii] at hlen hok
    exact .inl ⟨by rwa [List.length_map] at hlen, isSymbol_of_bytes hascii hok⟩
  case isFalse =>
    split at hnormalized
    case isFalse => cases hnormalized
    case isTrue hlen =>
      split at hnormalized
      case isTrue => cases hnormalized
      case isFalse hdashes =>
        simp only [ne_eq, not_or, not_not] at hdashes
        obtain ⟨h₄, h₉, h₁₄⟩ := hdashes
        have hok := normalizeSymbols_ok hnormalized
        have hdash : (byteOf '-').toNat < 128 := by decide
        have hascii : ∀ c ∈ input.toList, c.toNat < 128 :=
          ascii_of_utf8 (forall_mem_of_compact hlen 0 (by rwa [h₄]) (by rwa [h₉]) (by rwa [h₁₄])
            fun b hb => (hok b hb).1)
        rw [utf8_of_ascii hascii] at hlen h₄ h₉ h₁₄ hok
        rw [List.length_map] at hlen
        rw [compact_map] at hok
        have hget : ∀ i < 19, (input.toList.map byteOf).getD i 0 = byteOf '-' →
            input.toList[i]? = some '-' := by
          intro i hi hbyte
          have hsome := List.getElem?_eq_getElem (l := input.toList) (i := i) (by omega)
          rw [List.getD_eq_getElem?_getD, List.getElem?_map, hsome] at hbyte
          rw [hsome, byteOf_inj (hascii _ (List.getElem_mem _)) (by decide) hbyte]
        exact .inr ⟨hlen, hget 4 (by omega) h₄, hget 9 (by omega) h₉, hget 14 (by omega) h₁₄,
          isSymbol_of_bytes (fun c hc => hascii c (compact_subset _ hc)) hok⟩

theorem fromStr_of_grammar (he : e.BigEndian symbols) {input : String} (h : Grammar input.toList) :
    ∃ code, fromStr e input = .ok code ∧
      code.value = ofDigits 32 (digitsOf (body input.toList)) := by
  have hascii : ∀ c ∈ input.toList, c.toNat < 128 := by
    rcases h with ⟨-, h⟩ | ⟨hlen, h₄, h₉, h₁₄, h⟩
    · exact fun c hc => (h c hc).ascii
    · refine forall_mem_of_compact hlen '-' ?_ ?_ ?_ fun c hc => (h c hc).ascii
      · rw [List.getD_eq_getElem?_getD, h₄]
        decide
      · rw [List.getD_eq_getElem?_getD, h₉]
        decide
      · rw [List.getD_eq_getElem?_getD, h₁₄]
        decide
  rw [fromStr, utf8_of_ascii hascii]
  exact parse_map he h

/-! ## The text of a code -/

/-- The symbol of a digit. -/
def charOf (d : Nat) : Char := symbolChars.getD d '0'

theorem charOf_spec : ∀ d < 32, (charOf d).toNat < 128 ∧ IsSymbol (charOf d) ∧
    symbolChars.idxOf (mapped (charOf d)) = d ∧ symbols.getD d 0 = byteOf (charOf d) := by
  decide +kernel

theorem write_eq {ds : List Nat} (h : ∀ d ∈ ds, d < 32) :
    write symbols ds = (ds.map charOf).map byteOf := by
  rw [write, List.map_map]
  exact List.map_congr_left fun d hd => (charOf_spec d (h d hd)).2.2.2

theorem digitsOf_map_charOf {ds : List Nat} (h : ∀ d ∈ ds, d < 32) :
    digitsOf (ds.map charOf) = ds := by
  rw [digitsOf, List.map_map]
  conv_rhs => rw [← List.map_id ds]
  exact List.map_congr_left fun d hd => (charOf_spec d (h d hd)).2.2.1

theorem ofUtf8_of_ascii {text : List Char} (h : ∀ c ∈ text, c.toNat < 128) :
    ofUtf8 (text.map byteOf) = some (String.ofList text) := by
  rw [ofUtf8_eq_some, utf8_of_ascii (by rwa [String.toList_ofList]), String.toList_ofList]

/-- The three bytes of a locator are its value, with the upper four bits zero. -/
theorem toWire_spec (locator : Locator) :
    (toWire locator).1.toNat < 16 ∧ (toWire locator).1.toNat * 65536 +
      (toWire locator).2.1.toNat * 256 + (toWire locator).2.2.toNat = locator.value := by
  have hv := locator.lt
  have hand : locator.value / 2 ^ 16 &&& 0x0F = locator.value / 2 ^ 16 % 16 :=
    Nat.and_two_pow_sub_one_eq_mod _ 4
  simp only [toWire, UInt8.toNat_ofNat', Nat.shiftRight_eq_div_pow]
  omega

/-- The symbols of a locator are its four digits. -/
theorem displayLocator_eq (he : e.BigEndian symbols) (locator : Locator) :
    displayLocator e locator = some (String.ofList ((digits 32 4 locator.value).map charOf)) := by
  have hlt := digits_lt (b := 32) (by decide) 4 locator.value
  suffices hbytes : writeSymbols e locator = ((digits 32 4 locator.value).map charOf).map byteOf by
    rw [displayLocator, hbytes]
    exact ofUtf8_of_ascii (List.forall_mem_map.2 fun d hd => (charOf_spec d (hlt d hd)).1)
  have hvalue : ∀ w₀ w₁ w₂ : UInt8, w₀.toNat < 16 → beNat [w₀ <<< 4 ||| w₁ >>> 4,
      w₁ <<< 4 ||| w₂ >>> 4, w₂ <<< 4] * 2 = (w₀.toNat * 65536 + w₁.toNat * 256 + w₂.toNat) * 32 := by
    intro w₀ w₁ w₂ hw₀
    have hlast : (w₂ <<< 4).toNat = w₂.toNat % 16 * 16 := by
      simpa using toNat_shiftLeft_or w₂ 0 (by decide)
    simp only [beNat, toNat_join, hlast, List.length_cons, List.length_nil]
    omega
  have hwire := toWire_spec locator
  rw [writeSymbols]
  rcases hparts : toWire locator with ⟨w₀, w₁, w₂⟩
  rw [hparts] at hwire
  dsimp only at hwire ⊢
  have hencode : ∀ a b c, e.encode [a, b, c] =
      write symbols (digits 32 5 (beNat [a, b, c] * 2)) := by
    intro a b c
    rw [he.encode, List.length_cons, List.length_cons, List.length_singleton]
    norm_num
  -- five digits, of which the last is the padding
  rw [hencode, hvalue _ _ _ hwire.1, hwire.2, digits_add 4 1, pow_one,
    Nat.mul_div_cancel _ (by decide), write, List.map_append, List.take_left' (by simp), ← write,
    write_eq hlt]

/-- The symbols of a code in groups of four. -/
def grouped (chars : List Char) : List Char :=
  chars.take 4 ++ '-' :: (chars.drop 4).take 4 ++ '-' :: (chars.drop 8).take 4 ++ '-' :: chars.drop 12

theorem grammar_grouped {chars : List Char} (hlen : chars.length = 16) (h : ∀ c ∈ chars, IsSymbol c) :
    Grammar (grouped chars) ∧ body (grouped chars) = chars ∧
      ∀ c ∈ grouped chars, c.toNat < 128 := by
  match chars, hlen with
  | [c₀, c₁, c₂, c₃, c₄, c₅, c₆, c₇, c₈, c₉, c₁₀, c₁₁, c₁₂, c₁₃, c₁₄, c₁₅], _ =>
    refine ⟨.inr ⟨rfl, rfl, rfl, rfl, h⟩, rfl, ?_⟩
    have hdash : '-'.toNat < 128 := by decide
    exact forall_mem_of_compact rfl '-' hdash hdash hdash fun c hc => (h c hc).ascii

theorem expose_eq (he : e.BigEndian symbols) (code : ConnectionCode) :
    code.expose e = some (String.ofList (grouped ((digits 32 16 code.value).map charOf))) := by
  have hlt := digits_lt (b := 32) (by decide) 16 code.value
  obtain ⟨hlen, hvalue⟩ := beNat_packed code
  have hencode : e.encode code.packed = ((digits 32 16 code.value).map charOf).map byteOf := by
    rw [he.encode, hlen, hvalue, ← write_eq hlt]
    simp
  have hsymbols := List.forall_mem_map.2 fun d hd => (charOf_spec d (hlt d hd)).2.1
  rw [ConnectionCode.expose, hencode, ← ofUtf8_of_ascii (grammar_grouped (by simp) hsymbols).2.2]
  simp only [grouped, List.map_append, List.map_cons, List.map_take, List.map_drop]

theorem value_lt (code : ConnectionCode) : code.value < 32 ^ 16 := by
  obtain ⟨hlen, hvalue⟩ := beNat_packed code
  have hlt := beNat_lt code.packed
  rwa [hlen, hvalue] at hlt

/-- For every encoding that is big-endian over the symbols: the text of a code parses to the code,
and its first four symbols are the text of the locator; a string is accepted exactly when it is in the
grammar; and accepted strings stand for the same code exactly when their mapped symbols are equal. -/
theorem connection_code (e : Encoding) (he : e.BigEndian symbols) :
    (∀ code : ConnectionCode, ∃ text shown, code.expose e = some text ∧
      displayLocator e code.locator = some shown ∧ fromStr e text = .ok code ∧
        text.toList.take 4 = shown.toList) ∧
    (∀ input, (∃ code, fromStr e input = .ok code) ↔ Grammar input.toList) ∧
    ∀ input input' code code', fromStr e input = .ok code → fromStr e input' = .ok code' →
      (code = code' ↔
        (body input.toList).map mapped = (body input'.toList).map mapped) := by
  refine ⟨fun code => ?_, fun input => ⟨?_, ?_⟩, ?_⟩
  · have hlt := digits_lt (b := 32) (by decide) 16 code.value
    have hsymbols := List.forall_mem_map.2 fun d hd => (charOf_spec d (hlt d hd)).2.1
    obtain ⟨hgrammar, hbody, -⟩ := grammar_grouped (by simp) hsymbols
    refine ⟨_, _, expose_eq he code, displayLocator_eq he code.locator, ?_, ?_⟩
    · have hinput : Grammar (String.ofList
          (grouped ((digits 32 16 code.value).map charOf))).toList := by
        rwa [String.toList_ofList]
      obtain ⟨code', hparse, hvalue⟩ := fromStr_of_grammar he hinput
      rw [String.toList_ofList, hbody, digitsOf_map_charOf hlt, ofDigits_digits,
        Nat.mod_eq_of_lt (value_lt code)] at hvalue
      rw [hparse, value_injective hvalue]
    · -- the upper twenty bits are the locator
      have htop : code.value / 32 ^ 12 = code.locator.value := by
        have hlow := code.secret.beNat_lt
        rw [ConnectionCode.value]
        omega
      have htake : ∀ chars : List Char, chars.length = 16 →
          (grouped chars).take 4 = chars.take 4 := fun chars hlen => by simp [grouped, hlen]
      rw [String.toList_ofList, String.toList_ofList, htake _ (by simp), ← htop, digits_add 4 12,
        List.map_append, List.take_left' (by simp)]
  · rintro ⟨code, h⟩
    exact grammar_of_fromStr h
  · intro h
    obtain ⟨code, hparse, -⟩ := fromStr_of_grammar he h
    exact ⟨code, hparse⟩
  · intro input input' code code' h h'
    have hgrammar := grammar_of_fromStr h
    have hgrammar' := grammar_of_fromStr h'
    obtain ⟨_, hparse, hvalue⟩ := fromStr_of_grammar he hgrammar
    obtain ⟨_, hparse', hvalue'⟩ := fromStr_of_grammar he hgrammar'
    cases h.symm.trans hparse
    cases h'.symm.trans hparse'
    rw [← digitsOf_inj hgrammar.symbols]
    constructor
    · rintro rfl
      refine ofDigits_inj (digitsOf_lt hgrammar.symbols) (digitsOf_lt hgrammar'.symbols) ?_
        (hvalue.symm.trans hvalue')
      rw [digitsOf, digitsOf, List.length_map, List.length_map, length_body hgrammar,
        length_body hgrammar']
    · intro hdigits
      exact value_injective (by rw [hvalue, hvalue', hdigits])

end Accepted

/-- An encoding that is big-endian over the symbols. -/
def reference : Encoding where
  encode bytes :=
    write symbols (digits 32 ((8 * bytes.length + 4) / 5)
      (beNat bytes * 2 ^ (5 * ((8 * bytes.length + 4) / 5) - 8 * bytes.length)))
  decode text := some (beBytes (5 * text.length / 8) (ofDigits 32 (text.map symbols.idxOf)))

theorem reference_bigEndian : reference.BigEndian symbols where
  encode _ := rfl
  decode ds _ hlt := by
    have hread : (write symbols ds).map symbols.idxOf = ds := by
      have hall : ∀ d < 32, symbols.idxOf (symbols.getD d 0) = d := by decide +kernel
      rw [write, List.map_map]
      conv_rhs => rw [← List.map_id ds]
      exact List.map_congr_left fun d hd => hall d (hlt d hd)
    simp only [reference, hread]
    rw [write, List.length_map]

theorem connection_code_reference : reference.BigEndian symbols ∧
    ∀ input, (∃ code, fromStr reference input = .ok code) ↔ Grammar input.toList :=
  ⟨reference_bigEndian, (connection_code reference reference_bigEndian).2.1⟩

end Yonder.Wire
