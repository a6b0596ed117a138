import Yonder.Lib.Bytes
import Yonder.Lib.PrefixCode

/-!
# UTF-8 as a code

The characters and their UTF-8 bytes are a code in which no word begins another. A few bytes begin a
character where a shortest tail of `tails` completes them.
-/

namespace Yonder.Lib

namespace Utf8

/-- The bytes of the scalar value `v`. -/
def encodeNat (v : Nat) : Bytes :=
  if v ≤ 127 then [UInt8.ofNat v]
  else if v ≤ 2047 then [UInt8.ofNat (v / 64 % 32 + 192), UInt8.ofNat (v % 64 + 128)]
  else if v ≤ 65535 then
    [UInt8.ofNat (v / 4096 % 16 + 224), UInt8.ofNat (v / 64 % 64 + 128), UInt8.ofNat (v % 64 + 128)]
  else
    [UInt8.ofNat (v / 262144 % 8 + 240), UInt8.ofNat (v / 4096 % 64 + 128),
      UInt8.ofNat (v / 64 % 64 + 128), UInt8.ofNat (v % 64 + 128)]

theorem utf8EncodeChar_eq (c : Char) : String.utf8EncodeChar c = encodeNat c.toNat := rfl

variable {v : Nat} {bs : Bytes}

theorem utf8EncodeChar_ofNat (h : v.isValidChar) :
    String.utf8EncodeChar (Char.ofNat v) = encodeNat v := by
  rw [utf8EncodeChar_eq, Char.ofNat, dif_pos h]
  congr 1

/-- The character at the front of some bytes. -/
def decodeChar (bs : Bytes) : Option Char := ByteArray.utf8DecodeChar? ⟨bs.toArray⟩ 0

theorem decodeChar_append (c : Char) (rest : Bytes) :
    decodeChar (String.utf8EncodeChar c ++ rest) = some c := by
  have hdecode := ByteArray.utf8DecodeChar?_utf8EncodeChar_append (b := ⟨rest.toArray⟩) (c := c)
  rw [← hdecode, decodeChar]
  congr 1
  apply ByteArray.ext
  simp [ByteArray.data_append, List.data_toByteArray]

theorem encode_free {a b : Char} (h : String.utf8EncodeChar a <+: String.utf8EncodeChar b) :
    a = b := by
  obtain ⟨rest, hrest⟩ := h
  have hfirst := decodeChar_append a rest
  have hsecond := decodeChar_append b []
  rw [hrest] at hfirst
  rw [List.append_nil, hfirst] at hsecond
  exact Option.some.inj hsecond

/-- The character with these bytes. -/
def symbol (bs : Bytes) : Option Char :=
  (decodeChar bs).filter (fun c => String.utf8EncodeChar c == bs)

theorem symbol_iff {c : Char} : symbol bs = some c ↔ String.utf8EncodeChar c = bs := by
  constructor
  · intro h
    obtain ⟨-, hword⟩ := Option.filter_eq_some_iff.1 h
    exact eq_of_beq hword
  · rintro rfl
    have hdecode := decodeChar_append c []
    rw [List.append_nil] at hdecode
    exact Option.filter_eq_some_iff.2 ⟨hdecode, beq_self_eq_true _⟩

/-- The lowest bytes behind a part of a character. The second byte is higher behind the first bytes
`E0` and `F0`. -/
def tails : List Bytes :=
  [[0x80], [0x80, 0x80], [0xA0, 0x80], [0x80, 0x80, 0x80], [0x90, 0x80, 0x80]]

/-- Bytes that begin a character and are not all of it. -/
def opens (bs : Bytes) : Bool := !bs.isEmpty && tails.any (fun tail => (symbol (bs ++ tail)).isSome)

theorem opens_of_tail (v : Nat) (tail : Bytes) (hne : bs ≠ []) (htail : tail ∈ tails)
    (hvalid : v.isValidChar) (hencode : encodeNat v = bs ++ tail) : opens bs = true := by
  have hsymbol : symbol (bs ++ tail) = some (Char.ofNat v) :=
    symbol_iff.2 (by rw [utf8EncodeChar_ofNat hvalid, hencode])
  rw [opens, Bool.and_eq_true, List.any_eq_true]
  refine ⟨?_, tail, htail, by rw [hsymbol]; rfl⟩
  cases bs with
  | nil => exact absurd rfl hne
  | cons b bs => rfl

theorem encodeNat_two (hlow : 127 < v) (hhigh : v ≤ 2047) :
    encodeNat v = [UInt8.ofNat (v / 64 % 32 + 192), UInt8.ofNat (v % 64 + 128)] := by
  rw [encodeNat, if_neg (by omega), if_pos hhigh]

theorem encodeNat_three (hlow : 2047 < v) (hhigh : v ≤ 65535) :
    encodeNat v = [UInt8.ofNat (v / 4096 % 16 + 224), UInt8.ofNat (v / 64 % 64 + 128),
      UInt8.ofNat (v % 64 + 128)] := by
  rw [encodeNat, if_neg (by omega), if_neg (by omega), if_pos hhigh]

theorem encodeNat_four (hlow : 65535 < v) :
    encodeNat v = [UInt8.ofNat (v / 262144 % 8 + 240), UInt8.ofNat (v / 4096 % 64 + 128),
      UInt8.ofNat (v / 64 % 64 + 128), UInt8.ofNat (v % 64 + 128)] := by
  rw [encodeNat, if_neg (by omega), if_neg (by omega), if_neg (by omega)]

/-! The parts of a character begin the first character with the same first bytes: its value ends in
zeros, unless that is too low for so many bytes. -/

theorem opens_two (hlow : 127 < v) (hhigh : v ≤ 2047) :
    opens [UInt8.ofNat (v / 64 % 32 + 192)] = true := by
  apply opens_of_tail (v / 64 * 64) [0x80] (List.cons_ne_nil _ _) (by decide) (.inl (by omega))
  rw [encodeNat_two (by omega) (by omega), show v / 64 * 64 / 64 = v / 64 by omega,
    show v / 64 * 64 % 64 + 128 = 0x80 by omega]
  rfl

theorem opens_three_first (hlow : 2047 < v) (hhigh : v ≤ 65535) :
    opens [UInt8.ofNat (v / 4096 % 16 + 224)] = true := by
  by_cases hzero : v / 4096 = 0
  · rw [hzero]
    exact opens_of_tail 2048 [0xA0, 0x80] (List.cons_ne_nil _ _) (by decide) (by decide) (by decide)
  · apply opens_of_tail (v / 4096 * 4096) [0x80, 0x80] (List.cons_ne_nil _ _) (by decide)
    · unfold Nat.isValidChar
      omega
    · rw [encodeNat_three (by omega) (by omega), show v / 4096 * 4096 / 4096 = v / 4096 by omega,
        show v / 4096 * 4096 / 64 % 64 + 128 = 0x80 by omega,
        show v / 4096 * 4096 % 64 + 128 = 0x80 by omega]
      rfl

theorem opens_three_second (hvalid : v.isValidChar) (hlow : 2047 < v) (hhigh : v ≤ 65535) :
    opens [UInt8.ofNat (v / 4096 % 16 + 224), UInt8.ofNat (v / 64 % 64 + 128)] = true := by
  apply opens_of_tail (v / 64 * 64) [0x80] (List.cons_ne_nil _ _) (by decide)
  · unfold Nat.isValidChar at hvalid ⊢
    omega
  · rw [encodeNat_three (by omega) (by omega), show v / 64 * 64 / 4096 = v / 4096 by omega,
      show v / 64 * 64 / 64 = v / 64 by omega, show v / 64 * 64 % 64 + 128 = 0x80 by omega]
    rfl

theorem opens_four_first (hlow : 65535 < v) (hhigh : v < 0x110000) :
    opens [UInt8.ofNat (v / 262144 % 8 + 240)] = true := by
  by_cases hzero : v / 262144 = 0
  · rw [hzero]
    exact opens_of_tail 65536 [0x90, 0x80, 0x80] (List.cons_ne_nil _ _) (by decide) (by decide)
      (by decide)
  · apply opens_of_tail (v / 262144 * 262144) [0x80, 0x80, 0x80] (List.cons_ne_nil _ _) (by decide)
      (.inr (by omega))
    rw [encodeNat_four (by omega), show v / 262144 * 262144 / 262144 = v / 262144 by omega,
      show v / 262144 * 262144 / 4096 % 64 + 128 = 0x80 by omega,
      show v / 262144 * 262144 / 64 % 64 + 128 = 0x80 by omega,
      show v / 262144 * 262144 % 64 + 128 = 0x80 by omega]
    rfl

theorem opens_four_second (hlow : 65535 < v) (hhigh : v < 0x110000) :
    opens [UInt8.ofNat (v / 262144 % 8 + 240), UInt8.ofNat (v / 4096 % 64 + 128)] = true := by
  apply opens_of_tail (v / 4096 * 4096) [0x80, 0x80] (List.cons_ne_nil _ _) (by decide)
    (.inr (by omega))
  rw [encodeNat_four (by omega), show v / 4096 * 4096 / 262144 = v / 262144 by omega,
    show v / 4096 * 4096 / 4096 = v / 4096 by omega,
    show v / 4096 * 4096 / 64 % 64 + 128 = 0x80 by omega,
    show v / 4096 * 4096 % 64 + 128 = 0x80 by omega]
  rfl

theorem opens_four_third (hlow : 65535 < v) (hhigh : v < 0x110000) :
    opens [UInt8.ofNat (v / 262144 % 8 + 240), UInt8.ofNat (v / 4096 % 64 + 128),
      UInt8.ofNat (v / 64 % 64 + 128)] = true := by
  apply opens_of_tail (v / 64 * 64) [0x80] (List.cons_ne_nil _ _) (by decide) (.inr (by omega))
  rw [encodeNat_four (by omega), show v / 64 * 64 / 262144 = v / 262144 by omega,
    show v / 64 * 64 / 4096 = v / 4096 by omega, show v / 64 * 64 / 64 = v / 64 by omega,
    show v / 64 * 64 % 64 + 128 = 0x80 by omega]
  rfl

theorem opens_take (hvalid : v.isValidChar) {k : Nat} (hpos : 0 < k) (hk : k < (encodeNat v).length) :
    opens ((encodeNat v).take k) = true := by
  have hbound : v < 0x110000 := by
    unfold Nat.isValidChar at hvalid
    omega
  -- by the number of bytes of the character
  rcases Nat.lt_or_ge 127 v with h1 | h1
  · rcases Nat.lt_or_ge 2047 v with h2 | h2
    · rcases Nat.lt_or_ge 65535 v with h3 | h3
      · rw [encodeNat_four h3] at hk ⊢
        have hk' : k < 4 := hk
        interval_cases k
        · exact opens_four_first h3 hbound
        · exact opens_four_second h3 hbound
        · exact opens_four_third h3 hbound
      · rw [encodeNat_three h2 h3] at hk ⊢
        have hk' : k < 3 := hk
        interval_cases k
        · exact opens_three_first h2 h3
        · exact opens_three_second hvalid h2 h3
    · rw [encodeNat_two h1 h2] at hk ⊢
      have hk' : k < 2 := hk
      interval_cases k
      exact opens_two h1 h2
  · rw [encodeNat, if_pos h1, List.length_singleton] at hk
    omega

theorem opens_iff : opens bs = true ↔
    bs ≠ [] ∧ ∃ c, bs <+: String.utf8EncodeChar c ∧ bs ≠ String.utf8EncodeChar c := by
  constructor
  · intro h
    rw [opens, Bool.and_eq_true, List.any_eq_true] at h
    obtain ⟨hne, tail, htail, hsome⟩ := h
    obtain ⟨c, hc⟩ := Option.isSome_iff_exists.1 hsome
    have hword := symbol_iff.1 hc
    refine ⟨(by rintro rfl; cases hne), c, hword ▸ List.prefix_append bs tail, ?_⟩
    rw [hword]
    intro heq
    have hnil : tail = [] := List.append_cancel_left (heq.symm.trans (List.append_nil bs).symm)
    subst hnil
    exact absurd htail (by decide)
  · rintro ⟨hne, c, hle, hproper⟩
    rw [List.prefix_iff_eq_take.1 hle, utf8EncodeChar_eq]
    refine opens_take c.valid (List.length_pos_of_ne_nil hne) ?_
    refine lt_of_le_of_ne hle.length_le ?_
    intro hlength
    exact hproper (hle.eq_of_length hlength)

theorem length_encodeNat_le (v : Nat) : (encodeNat v).length ≤ 4 := by
  unfold encodeNat
  split_ifs <;> simp

/-- Bytes that begin a character are at most three. -/
theorem length_le_of_opens (h : opens bs = true) : bs.length ≤ 3 := by
  obtain ⟨-, c, hle, hproper⟩ := opens_iff.1 h
  have hlength : bs.length ≠ (encodeNat c.toNat).length := fun heq => hproper (hle.eq_of_length heq)
  have hle' : bs.length ≤ (encodeNat c.toNat).length := hle.length_le
  have hfour := length_encodeNat_le c.toNat
  omega

/-- UTF-8. -/
def code : PrefixCode Char UInt8 where
  word := String.utf8EncodeChar
  word_ne_nil := fun _ => String.utf8EncodeChar_ne_nil
  free := encode_free
  symbol := symbol
  symbol_iff := symbol_iff
  opens := opens
  opens_iff := opens_iff

/-! ## Strings -/

theorem utf8_eq_words (s : String) : utf8 s = code.words s.toList := by
  rw [utf8, String.toUTF8, ← String.utf8Encode_toList, List.utf8Encode, List.data_toByteArray]
  rfl

theorem utf8_ofList (cs : List Char) : utf8 (String.ofList cs) = code.words cs := by
  rw [utf8_eq_words, String.toList_ofList]

/-- Bytes are valid UTF-8 where they are the words of some characters. -/
theorem ofUtf8_words (cs : List Char) : ofUtf8 (code.words cs) = some (String.ofList cs) :=
  (ofUtf8_eq_some _ _).2 (utf8_ofList cs)

end Utf8

end Yonder.Lib
