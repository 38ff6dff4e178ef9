import SoulonWallet.Utf8Bytes

/-!
# Percent encoding

A byte that is not kept is written as a percent sign and two hexadecimal
digits.  A strict reader refuses a percent sign that no two digits follow, a
lenient one keeps it.  Both give back what was written, provided that the
percent sign itself is not kept.
-/

namespace SoulonWallet.PercentCoding

open Utf8 (Bytes)

def percent : UInt8 := 0x25

def isAlphanumeric (byte : UInt8) : Bool :=
  (0x30 ≤ byte && byte ≤ 0x39) || (0x41 ≤ byte && byte ≤ 0x5A) ||
    (0x61 ≤ byte && byte ≤ 0x7A)

def hexDigit (value : ℕ) : UInt8 :=
  if value < 10 then UInt8.ofNat (0x30 + value)
  else UInt8.ofNat (0x37 + value)

def hexValue (byte : UInt8) : Option ℕ :=
  if 0x30 ≤ byte ∧ byte ≤ 0x39 then some (byte.toNat - 0x30)
  else if 0x41 ≤ byte ∧ byte ≤ 0x46 then some (byte.toNat - 0x37)
  else if 0x61 ≤ byte ∧ byte ≤ 0x66 then some (byte.toNat - 0x57)
  else none

/-- The byte that two digits stand for. -/
def escapedByte (high low : UInt8) : Option UInt8 :=
  match hexValue high, hexValue low with
  | some high, some low => some (UInt8.ofNat (high * 16 + low))
  | _, _ => none

def encodeByte (keep : UInt8 → Bool) (byte : UInt8) : Bytes :=
  if keep byte then [byte]
  else [percent, hexDigit (byte.toNat / 16), hexDigit (byte.toNat % 16)]

def percentEncode (keep : UInt8 → Bool) (bytes : Bytes) : Bytes :=
  bytes.flatMap (encodeByte keep)

/-- The strict reader. -/
def unescape : Bytes → Option Bytes
  | [] => some []
  | byte :: rest =>
      if byte = percent then
        match rest with
        | high :: low :: tail =>
            match escapedByte high low with
            | some value => (unescape tail).map (value :: ·)
            | none => none
        | _ => none
      else (unescape rest).map (byte :: ·)

/-- The lenient reader. -/
def percentDecode : Bytes → Bytes
  | [] => []
  | byte :: rest =>
      if byte = percent then
        match rest with
        | high :: low :: tail =>
            match escapedByte high low with
            | some value => value :: percentDecode tail
            | none => byte :: percentDecode (high :: low :: tail)
        | short => byte :: percentDecode short
      else byte :: percentDecode rest

/-! ## Reading what was written -/

theorem hexValue_hexDigit {value : ℕ} (hvalue : value < 16) :
    hexValue (hexDigit value) = some value := by
  have hall : ∀ digit : Fin 16,
      hexValue (hexDigit digit) = some digit.val := by decide
  exact hall ⟨value, hvalue⟩

theorem escapedByte_hexDigit (byte : UInt8) :
    escapedByte (hexDigit (byte.toNat / 16)) (hexDigit (byte.toNat % 16)) =
      some byte := by
  have hbyte : byte.toNat < 256 := UInt8.toNat_lt byte
  have hsplit : byte.toNat / 16 * 16 + byte.toNat % 16 = byte.toNat := by
    omega
  unfold escapedByte
  simp only [hexValue_hexDigit (show byte.toNat / 16 < 16 by omega),
    hexValue_hexDigit (show byte.toNat % 16 < 16 by omega), hsplit,
    UInt8.ofNat_toNat]

theorem unescape_cons_of_ne
    {byte : UInt8} (hbyte : byte ≠ percent) (rest : Bytes) :
    unescape (byte :: rest) = (unescape rest).map (byte :: ·) := by
  rw [unescape.eq_def (byte :: rest)]
  exact if_neg hbyte

theorem percentDecode_cons_of_ne
    {byte : UInt8} (hbyte : byte ≠ percent) (rest : Bytes) :
    percentDecode (byte :: rest) = byte :: percentDecode rest := by
  rw [percentDecode.eq_def (byte :: rest)]
  exact if_neg hbyte

theorem unescape_escape
    {high low value : UInt8} (hvalue : escapedByte high low = some value)
    (tail : Bytes) :
    unescape (percent :: high :: low :: tail) =
      (unescape tail).map (value :: ·) := by
  rw [unescape, if_pos rfl]
  simp only [hvalue]

theorem unescape_encodeByte_append
    {keep : UInt8 → Bool} (hkeep : keep percent = false) (byte : UInt8)
    (rest : Bytes) :
    unescape (encodeByte keep byte ++ rest) =
      (unescape rest).map (byte :: ·) := by
  unfold encodeByte
  split_ifs with hbyte
  · have hne : byte ≠ percent := by
      rintro rfl
      rw [hkeep] at hbyte
      cases hbyte
    exact unescape_cons_of_ne hne rest
  · exact unescape_escape (escapedByte_hexDigit byte) rest

theorem unescape_percentEncode
    {keep : UInt8 → Bool} (hkeep : keep percent = false) (bytes : Bytes) :
    unescape (percentEncode keep bytes) = some bytes := by
  induction bytes with
  | nil => rfl
  | cons byte rest ih =>
      have hsplit : percentEncode keep (byte :: rest) =
          encodeByte keep byte ++ percentEncode keep rest := rfl
      rw [hsplit, unescape_encodeByte_append hkeep, ih]
      rfl

/-- The lenient reader agrees with the strict one where that one reads. -/
theorem percentDecode_of_unescape
    {bytes result : Bytes} (hread : unescape bytes = some result) :
    percentDecode bytes = result := by
  fun_induction unescape bytes generalizing result with
  | case1 => simpa [percentDecode] using hread
  | case2 high low tail value hvalue ih =>
      obtain ⟨rest, hrest, rfl⟩ := Option.map_eq_some_iff.mp hread
      rw [percentDecode, if_pos rfl]
      simp only [hvalue, ih hrest]
  | case3 => cases hread
  | case4 => cases hread
  | case5 byte rest hbyte ih =>
      obtain ⟨tail, htail, rfl⟩ := Option.map_eq_some_iff.mp hread
      rw [percentDecode_cons_of_ne hbyte, ih htail]

theorem unescape_append
    {front : Bytes} (hfront : percent ∉ front) (rest : Bytes) :
    unescape (front ++ rest) = (unescape rest).map (front ++ ·) := by
  induction front with
  | nil => simp
  | cons byte front ih =>
      rw [List.mem_cons, not_or] at hfront
      rw [List.cons_append, unescape_cons_of_ne (Ne.symm hfront.1),
        ih hfront.2, Option.map_map]
      rfl

theorem unescape_eq_self
    {bytes : Bytes} (hbytes : percent ∉ bytes) :
    unescape bytes = some bytes := by
  have hread := unescape_append hbytes []
  simpa [unescape] using hread

theorem length_unescape_le
    {bytes result : Bytes} (hread : unescape bytes = some result) :
    result.length ≤ bytes.length ∧
      (percent ∈ bytes → result.length < bytes.length) := by
  fun_induction unescape bytes generalizing result with
  | case1 =>
      obtain rfl := Option.some.inj hread
      simp
  | case2 high low tail value hvalue ih =>
      obtain ⟨rest, hrest, rfl⟩ := Option.map_eq_some_iff.mp hread
      have hle := (ih hrest).1
      simp only [List.length_cons]
      omega
  | case3 => cases hread
  | case4 => cases hread
  | case5 byte rest hbyte ih =>
      obtain ⟨tail, htail, rfl⟩ := Option.map_eq_some_iff.mp hread
      obtain ⟨hle, hlt⟩ := ih htail
      simp only [List.length_cons, List.mem_cons]
      refine ⟨by omega, ?_⟩
      rintro (hsame | hmem)
      · exact absurd hsame.symm hbyte
      · have := hlt hmem
        omega

/-- What a reader of escapes leaves alone has none. -/
theorem unescape_eq_self_iff {bytes : Bytes} :
    unescape bytes = some bytes ↔ percent ∉ bytes := by
  constructor
  · intro hread hmem
    exact Nat.lt_irrefl _ ((length_unescape_le hread).2 hmem)
  · exact unescape_eq_self

end SoulonWallet.PercentCoding
