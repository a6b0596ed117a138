import Mathlib.Tactic

/-!
# Byte strings, big-endian words and fixed-size byte arrays

Byte strings are lists of bytes. `beBytes w n` is the `w`-byte big-endian form of `n` and `beNat`
reads a byte string back; `beNat_beBytes` and `beBytes_beNat` are the two round trips, the first
modulo `256 ^ w`. `FixedBytes n` is a byte string together with the proof that it has `n` bytes.
-/

namespace Yonder.Lib

/-- A byte string. -/
abbrev Bytes := List UInt8

/-- A byte array of a fixed length. -/
abbrev FixedBytes (n : Nat) := { bs : Bytes // bs.length = n }

/-- The byte string that repeats one byte. -/
def FixedBytes.replicate (n : Nat) (b : UInt8) : FixedBytes n :=
  ⟨List.replicate n b, List.length_replicate⟩

/-- The UTF-8 bytes of a string. -/
def utf8 (s : String) : Bytes := s.toUTF8.data.toList

/-- The string with the given UTF-8 bytes, when the bytes are valid UTF-8. -/
def ofUtf8 (bs : Bytes) : Option String := String.fromUTF8? ⟨bs.toArray⟩

theorem ofUtf8_eq_some (bs : Bytes) (s : String) : ofUtf8 bs = some s ↔ utf8 s = bs := by
  unfold ofUtf8 utf8 String.fromUTF8? String.toUTF8
  constructor
  · intro h
    split at h
    · obtain rfl := Option.some.inj h
      rfl
    · cases h
  · rintro rfl
    rw [dif_pos s.isValidUTF8]
    rfl

/-- The `w`-byte big-endian form of `n`; higher digits are dropped. -/
def beBytes : Nat → Nat → Bytes
  | 0, _ => []
  | w + 1, n => UInt8.ofNat (n / 256 ^ w) :: beBytes w n

/-- The value of a big-endian byte string. -/
def beNat : Bytes → Nat
  | [] => 0
  | b :: bs => b.toNat * 256 ^ bs.length + beNat bs

@[simp] theorem length_beBytes (w n : Nat) : (beBytes w n).length = w := by
  induction w with
  | zero => rfl
  | succ w ih => simp [beBytes, ih]

theorem beNat_lt (bs : Bytes) : beNat bs < 256 ^ bs.length := by
  induction bs with
  | nil => simp [beNat]
  | cons b bs ih =>
    have hb : b.toNat < 256 := b.toNat_lt
    calc b.toNat * 256 ^ bs.length + beNat bs
        < b.toNat * 256 ^ bs.length + 256 ^ bs.length := by omega
      _ = (b.toNat + 1) * 256 ^ bs.length := by ring
      _ ≤ 256 * 256 ^ bs.length := Nat.mul_le_mul_right _ (by omega)
      _ = 256 ^ (b :: bs).length := by rw [List.length_cons, pow_succ]; ring

theorem beNat_beBytes (w n : Nat) : beNat (beBytes w n) = n % 256 ^ w := by
  induction w with
  | zero => simp [beBytes, beNat, Nat.mod_one]
  | succ w ih =>
    have split : n % 256 ^ (w + 1) = n % 256 ^ w + 256 ^ w * (n / 256 ^ w % 256) := by
      rw [pow_succ, Nat.mod_mul]
    have top : (UInt8.ofNat (n / 256 ^ w)).toNat = n / 256 ^ w % 256 := by simp
    rw [beBytes, beNat, length_beBytes, ih, top, split, Nat.mul_comm, Nat.add_comm]

theorem beBytes_beNat (bs : Bytes) : beBytes bs.length (beNat bs) = bs := by
  -- the digits below the top one do not see the top digit
  have low : ∀ (w k m : Nat), beBytes w (k * 256 ^ w + m) = beBytes w m := by
    intro w
    induction w with
    | zero => intro k m; rfl
    | succ w ih =>
      intro k m
      have hpow : k * 256 ^ (w + 1) + m = (k * 256) * 256 ^ w + m := by ring
      simp only [beBytes]
      rw [hpow, ih (k * 256) m]
      congr 1
      rw [Nat.mul_comm (k * 256), Nat.mul_add_div (by positivity)]
      apply UInt8.toNat_inj.mp
      simp only [UInt8.toNat_ofNat']
      omega
  induction bs with
  | nil => rfl
  | cons b bs ih =>
    simp only [List.length_cons, beBytes, beNat]
    rw [low, ih, Nat.mul_comm, Nat.mul_add_div (by positivity),
      Nat.div_eq_of_lt (beNat_lt bs), Nat.add_zero]
    simp

end Yonder.Lib
