import Mathlib.Data.List.Basic
import Mathlib.Data.Nat.Notation

/-!
# Base64

Bytes are written in groups of three, four digits a group; the last group is
filled up with padding.  `decode` reads the digits back.  It wants all of the
padding, which may be percent-encoded, and no bits before it that are not
written, as a canonical text has none.

The alphabet is a parameter: a reader may know more digits than the writer
uses.
-/

namespace SoulonWallet.Base64

def padding : UInt16 := 0x3D

structure Alphabet where
  digit : ℕ → UInt16
  value : UInt16 → Option ℕ
  value_digit : ∀ number < 64, value (digit number) = some number
  value_padding : value padding = none

variable (alphabet : Alphabet)

def encode : List UInt8 → List UInt16
  | [] => []
  | [a] =>
      [alphabet.digit (a.toNat / 4), alphabet.digit (a.toNat % 4 * 16),
        padding, padding]
  | [a, b] =>
      [alphabet.digit (a.toNat / 4),
        alphabet.digit (a.toNat % 4 * 16 + b.toNat / 16),
        alphabet.digit (b.toNat % 16 * 4), padding]
  | a :: b :: c :: rest =>
      alphabet.digit (a.toNat / 4) ::
        alphabet.digit (a.toNat % 4 * 16 + b.toNat / 16) ::
        alphabet.digit (b.toNat % 16 * 4 + c.toNat / 64) ::
        alphabet.digit (c.toNat % 64) :: encode rest

/-- The rest of a text is this much padding, each written as `=`, `%3D` or
`%3d`. -/
def padded : ℕ → List UInt16 → Bool
  | 0, [] => true
  | count + 1, 0x3D :: rest => padded count rest
  | count + 1, 0x25 :: 0x33 :: last :: rest =>
      (last == 0x44 || last == 0x64) && padded count rest
  | _, _ => false

def decode : List UInt16 → Option (List UInt8)
  | [] => some []
  | a :: b :: c :: d :: rest =>
      match alphabet.value a, alphabet.value b, alphabet.value c,
        alphabet.value d with
      | some x, some y, some z, some w =>
          (decode rest).map fun bytes =>
            UInt8.ofNat (x * 4 + y / 16) ::
              UInt8.ofNat (y % 16 * 16 + z / 4) ::
              UInt8.ofNat (z % 4 * 64 + w) :: bytes
      | some x, some y, some z, none =>
          if z % 4 = 0 ∧ padded 1 (d :: rest) then
            some [UInt8.ofNat (x * 4 + y / 16),
              UInt8.ofNat (y % 16 * 16 + z / 4)]
          else none
      | some x, some y, none, _ =>
          if y % 16 = 0 ∧ padded 2 (c :: d :: rest) then
            some [UInt8.ofNat (x * 4 + y / 16)]
          else none
      | _, _, _, _ => none
  | _ => none

/-! ## Reading what was written -/

theorem ofNat_eq {byte : UInt8} {number : ℕ} (hnumber : number = byte.toNat) :
    UInt8.ofNat number = byte := by
  rw [hnumber, UInt8.ofNat_toNat]

theorem decode_encode (bytes : List UInt8) :
    decode alphabet (encode alphabet bytes) = some bytes := by
  have hpadding := alphabet.value_padding
  -- The four cases of a group: none left, one, two or all three bytes.
  induction bytes using encode.induct with
  | case1 => rfl
  | case2 a =>
      have ha := a.toNat_lt
      have hx := alphabet.value_digit (a.toNat / 4) (by omega)
      have hy := alphabet.value_digit (a.toNat % 4 * 16) (by omega)
      have hfirst : UInt8.ofNat
          (a.toNat / 4 * 4 + a.toNat % 4 * 16 / 16) = a :=
        ofNat_eq (by omega)
      simp only [encode, decode, hx, hy, hpadding]
      rw [if_pos ⟨by omega, rfl⟩, hfirst]
  | case3 a b =>
      have ha := a.toNat_lt
      have hb := b.toNat_lt
      have hx := alphabet.value_digit (a.toNat / 4) (by omega)
      have hy := alphabet.value_digit
        (a.toNat % 4 * 16 + b.toNat / 16) (by omega)
      have hz := alphabet.value_digit (b.toNat % 16 * 4) (by omega)
      have hfirst : UInt8.ofNat
          (a.toNat / 4 * 4 + (a.toNat % 4 * 16 + b.toNat / 16) / 16) = a :=
        ofNat_eq (by omega)
      have hsecond : UInt8.ofNat
          ((a.toNat % 4 * 16 + b.toNat / 16) % 16 * 16 +
            b.toNat % 16 * 4 / 4) = b :=
        ofNat_eq (by omega)
      simp only [encode, decode, hx, hy, hz, hpadding]
      rw [if_pos ⟨by omega, rfl⟩, hfirst, hsecond]
  | case4 a b c rest ih =>
      have ha := a.toNat_lt
      have hb := b.toNat_lt
      have hc := c.toNat_lt
      have hx := alphabet.value_digit (a.toNat / 4) (by omega)
      have hy := alphabet.value_digit
        (a.toNat % 4 * 16 + b.toNat / 16) (by omega)
      have hz := alphabet.value_digit
        (b.toNat % 16 * 4 + c.toNat / 64) (by omega)
      have hw := alphabet.value_digit (c.toNat % 64) (by omega)
      have hfirst : UInt8.ofNat
          (a.toNat / 4 * 4 + (a.toNat % 4 * 16 + b.toNat / 16) / 16) = a :=
        ofNat_eq (by omega)
      have hsecond : UInt8.ofNat
          ((a.toNat % 4 * 16 + b.toNat / 16) % 16 * 16 +
            (b.toNat % 16 * 4 + c.toNat / 64) / 4) = b :=
        ofNat_eq (by omega)
      have hthird : UInt8.ofNat
          ((b.toNat % 16 * 4 + c.toNat / 64) % 4 * 64 + c.toNat % 64) = c :=
        ofNat_eq (by omega)
      simp only [encode, decode, hx, hy, hz, hw, ih, Option.map_some, hfirst,
        hsecond, hthird]

end SoulonWallet.Base64
