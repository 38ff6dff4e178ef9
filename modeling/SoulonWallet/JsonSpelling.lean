import SoulonWallet.StakeGovernance
import SoulonWallet.JsonText
import SoulonWallet.Base64

/-!
# Reading what `jsonEncode` wrote

The texts of `jsonEncode` are those of `JsonText`, spelled with Dart's escapes
and decimal integers.  Doubles are left out: no transaction holds one.

A text that `jsonEncode` wrote is well formed also where the strings in it are
not, since it escapes the surrogates that lack their partner.  So nothing is
lost in UTF-8, and in Base64 after it.
-/

namespace SoulonWallet.Ibc

open Dapp (JsonValue JsonMap)
open JsonText (Units Value Spelling Ends)

/-! ## Strings -/

def hexValue (unit : UInt16) : Option ℕ :=
  if 0x30 ≤ unit ∧ unit ≤ 0x39 then some (unit.toNat - 0x30)
  else if 0x61 ≤ unit ∧ unit ≤ 0x66 then some (unit.toNat - 0x61 + 10)
  else if 0x41 ≤ unit ∧ unit ≤ 0x46 then some (unit.toNat - 0x41 + 10)
  else none

/-- The unit that is written with this mark behind the backslash. -/
def unescaped (mark : UInt16) : Option UInt16 :=
  if mark = 0x62 then some 0x8
  else if mark = 0x74 then some 0x9
  else if mark = 0x6E then some 0xA
  else if mark = 0x66 then some 0xC
  else if mark = 0x72 then some 0xD
  else if mark = 0x22 ∨ mark = 0x5C ∨ mark = 0x2F then some mark
  else none

/-- The units before the closing quotation mark, and the text behind it. -/
def readUnits : Units → Option (Units × Units)
  | [] => none
  | unit :: rest =>
      if unit = 0x22 then some ([], rest)
      else if unit = 0x5C then
        match rest with
        | [] => none
        | mark :: rest =>
            if mark = 0x75 then
              match rest with
              | a :: b :: c :: d :: rest =>
                  match hexValue a, hexValue b, hexValue c, hexValue d with
                  | some a, some b, some c, some d =>
                      (readUnits rest).map fun read =>
                        ((((a * 16 + b) * 16 + c) * 16 + d).toUInt16 ::
                          read.1, read.2)
                  | _, _, _, _ => none
              | _ => none
            else
              (unescaped mark).bind fun unit =>
                (readUnits rest).map fun read => (unit :: read.1, read.2)
      else if unit < 0x20 then none
      else (readUnits rest).map fun read => (unit :: read.1, read.2)

theorem hexValue_hexDigit (digit : ℕ) :
    hexValue (hexDigit digit) = some (digit % 16) := by
  have hall : ∀ value < 16, hexValue (hexDigit value) = some value := by
    decide
  have hdigit : hexDigit digit = hexDigit (digit % 16) := by
    rw [hexDigit, hexDigit, Nat.mod_mod]
  rw [hdigit]
  exact hall _ (Nat.mod_lt _ (by decide))

theorem readUnits_escapedUnit (unit : UInt16) (rest : Units) :
    readUnits (escapedUnit unit ++ rest) =
      (readUnits rest).map fun read => (unit :: read.1, read.2) := by
  have hlimit := unit.toNat_lt
  have hunit : (((unit.toNat / 0x1000 % 16 * 16 + unit.toNat / 0x100 % 16) *
      16 + unit.toNat / 0x10 % 16) * 16 + unit.toNat % 16).toUInt16 = unit := by
    have hsum : ((unit.toNat / 0x1000 % 16 * 16 + unit.toNat / 0x100 % 16) *
        16 + unit.toNat / 0x10 % 16) * 16 + unit.toNat % 16 = unit.toNat := by
      omega
    rw [hsum]
    exact UInt16.ofNat_toNat
  simp only [escapedUnit, List.cons_append, List.nil_append, readUnits,
    hexValue_hexDigit, hunit]
  rfl

theorem readUnits_escape
    {mark unit : UInt16} (hmark : unescaped mark = some unit) (rest : Units) :
    readUnits (0x5C :: mark :: rest) =
      (readUnits rest).map fun read => (unit :: read.1, read.2) := by
  have hne : mark ≠ 0x75 := by
    rintro rfl
    have hnone : unescaped 0x75 = none := by decide
    rw [hnone] at hmark
    cases hmark
  rw [readUnits.eq_def]
  simp only [if_neg hne, hmark, Option.bind_some]
  rfl

theorem readUnits_plain
    {unit : UInt16} (hquote : unit ≠ 0x22) (hslash : unit ≠ 0x5C)
    (hcontrol : ¬ unit < 0x20) (rest : Units) :
    readUnits (unit :: rest) =
      (readUnits rest).map fun read => (unit :: read.1, read.2) := by
  rw [readUnits.eq_def]
  simp only [if_neg hquote, if_neg hslash, if_neg hcontrol]

theorem readUnits_encodeUnit
    (before : Option UInt16) (unit : UInt16) (after : Option UInt16)
    (rest : Units) :
    readUnits (encodeUnit before unit after ++ rest) =
      (readUnits rest).map fun read => (unit :: read.1, read.2) := by
  unfold encodeUnit
  split_ifs with h8 h9 hA hC hD hcontrol hquote hlead htrail
  · rw [h8]; exact readUnits_escape rfl rest
  · rw [h9]; exact readUnits_escape rfl rest
  · rw [hA]; exact readUnits_escape rfl rest
  · rw [hC]; exact readUnits_escape rfl rest
  · rw [hD]; exact readUnits_escape rfl rest
  · exact readUnits_escapedUnit unit rest
  · rcases hquote with rfl | rfl
    · exact readUnits_escape rfl rest
    · exact readUnits_escape rfl rest
  · exact readUnits_escapedUnit unit rest
  · exact readUnits_escapedUnit unit rest
  · rw [not_or] at hquote
    exact readUnits_plain hquote.1 hquote.2 hcontrol rest

theorem readUnits_encodeUnits
    (before : Option UInt16) (units rest : Units) :
    readUnits (encodeUnits before units ++ 0x22 :: rest) =
      some (units, rest) := by
  induction units generalizing before with
  | nil =>
      rw [encodeUnits, List.nil_append, readUnits.eq_def]
      rfl
  | cons unit units ih =>
      rw [encodeUnits, List.append_assoc, readUnits_encodeUnit, ih]
      rfl

/-! ## Integers -/

def isDigit (unit : UInt16) : Bool :=
  0x30 ≤ unit && unit ≤ 0x39

/-- The number that the digits at the beginning denote. -/
def readNatural (units : Units) : Option (ℕ × Units) :=
  let digits := units.takeWhile isDigit
  if digits.isEmpty then none
  else
    some (Nat.ofDigitChars 10 (digits.map fun unit => Char.ofNat unit.toNat) 0,
      units.dropWhile isDigit)

def readInteger : Units → Option (ℤ × Units)
  | [] => none
  | unit :: rest =>
      if unit = 0x2D then
        (readNatural rest).map fun read => (-read.1, read.2)
      else (readNatural (unit :: rest)).map fun read => (read.1, read.2)

def digitUnits (number : ℕ) : Units :=
  (Nat.toDigits 10 number).map fun c => c.toNat.toUInt16

theorem flatMap_ofChar_of_lt
    {chars : List Char} (hchars : ∀ c ∈ chars, c.toNat < 0x10000) :
    chars.flatMap Utf16.ofChar = chars.map fun c => c.toNat.toUInt16 := by
  induction chars with
  | nil => rfl
  | cons c chars ih =>
      obtain ⟨hc, hrest⟩ := List.forall_mem_cons.mp hchars
      rw [List.flatMap_cons, ih hrest, Utf16.ofChar, if_pos hc]
      rfl

theorem toNat_of_mem_toDigits
    {number : ℕ} {c : Char} (hc : c ∈ Nat.toDigits 10 number) :
    0x30 ≤ c.toNat ∧ c.toNat ≤ 0x39 := by
  have hdigit : c.isDigit = true :=
    Nat.isDigit_of_mem_toDigits (by decide) (by decide) hc
  exact Char.isDigit_iff_toNat.mp hdigit

theorem units_ofString_digits (number : ℕ) :
    (Nat.toDigits 10 number).flatMap Utf16.ofChar = digitUnits number := by
  apply flatMap_ofChar_of_lt
  intro c hc
  have hrange := toNat_of_mem_toDigits hc
  omega

theorem units_intText (number : ℤ) :
    (intText number).units =
      if 0 ≤ number then digitUnits number.toNat
      else 0x2D :: digitUnits number.natAbs := by
  cases number with
  | ofNat number =>
      have htext : (toString (Int.ofNat number)).toList =
          Nat.toDigits 10 number := by
        show (toString number).toList = _
        rw [Nat.toString_eq_ofList_toDigits, String.toList_ofList]
      have hsign : 0 ≤ Int.ofNat number := Int.natCast_nonneg number
      rw [intText, Utf16.ofString, htext, units_ofString_digits]
      exact (if_pos hsign).symm
  | negSucc number =>
      have htext : (toString (Int.negSucc number)).toList =
          '-' :: Nat.toDigits 10 (number + 1) := by
        show ("-" ++ toString (number + 1)).toList = _
        rw [String.toList_append, Nat.toString_eq_ofList_toDigits]
        exact congrArg _ String.toList_ofList
      rw [intText, Utf16.ofString, htext, List.flatMap_cons,
        units_ofString_digits, if_neg (by omega)]
      rfl

theorem isDigit_of_mem_digitUnits
    {number : ℕ} {unit : UInt16} (hunit : unit ∈ digitUnits number) :
    isDigit unit = true := by
  obtain ⟨c, hc, rfl⟩ := List.mem_map.mp hunit
  have hrange := toNat_of_mem_toDigits hc
  have hcode := Utf16.toNat_toUInt16 (show c.toNat < 0x10000 by omega)
  rw [isDigit, Bool.and_eq_true, decide_eq_true_eq, decide_eq_true_eq,
    UInt16.le_iff_toNat_le, UInt16.le_iff_toNat_le, hcode]
  exact hrange

theorem digitUnits_ne_nil (number : ℕ) : digitUnits number ≠ [] := by
  intro hnil
  exact Nat.toDigits_ne_nil (List.map_eq_nil_iff.mp hnil)

theorem chars_digitUnits (number : ℕ) :
    (digitUnits number).map (fun unit => Char.ofNat unit.toNat) =
      Nat.toDigits 10 number := by
  have hread : ∀ c ∈ Nat.toDigits 10 number,
      Char.ofNat c.toNat.toUInt16.toNat = c := by
    intro c hc
    have hrange := toNat_of_mem_toDigits hc
    rw [Utf16.toNat_toUInt16 (by omega), Char.ofNat_toNat]
  rw [digitUnits, List.map_map]
  exact (List.map_congr_left hread).trans (List.map_id _)

theorem readNatural_digitUnits
    (number : ℕ) {rest : Units} (hrest : Ends rest) :
    readNatural (digitUnits number ++ rest) = some (number, rest) := by
  have hdigits : ∀ unit ∈ digitUnits number, isDigit unit = true :=
    fun _ hunit => isDigit_of_mem_digitUnits hunit
  have hend : rest.takeWhile isDigit = [] ∧ rest.dropWhile isDigit = rest := by
    cases rest with
    | nil => exact ⟨rfl, rfl⟩
    | cons unit rest =>
        have hunit : ¬ isDigit unit = true := by
          rcases hrest unit rfl with rfl | rfl | rfl <;> decide
        exact ⟨List.takeWhile_cons_of_neg hunit,
          List.dropWhile_cons_of_neg hunit⟩
  unfold readNatural
  rw [List.takeWhile_append_of_pos hdigits,
    List.dropWhile_append_of_pos hdigits, hend.1, hend.2, List.append_nil]
  simp only [List.isEmpty_iff, digitUnits_ne_nil, if_false, chars_digitUnits,
    Nat.ofDigitChars_ten_toDigits]

theorem readInteger_intText
    (number : ℤ) {rest : Units} (hrest : Ends rest) :
    readInteger ((intText number).units ++ rest) = some (number, rest) := by
  rw [units_intText]
  split_ifs with hsign
  · have hread := readNatural_digitUnits number.toNat hrest
    obtain ⟨unit, tail, hunits⟩ :=
      List.exists_cons_of_ne_nil (digitUnits_ne_nil number.toNat)
    have hminus : unit ≠ 0x2D := by
      rintro rfl
      have hdigit : isDigit 0x2D = true :=
        isDigit_of_mem_digitUnits (hunits ▸ List.mem_cons_self)
      exact absurd hdigit (by decide)
    rw [hunits, List.cons_append] at hread ⊢
    rw [readInteger, if_neg hminus, hread, Option.map_some,
      Int.toNat_of_nonneg hsign]
  · rw [List.cons_append, readInteger, if_pos rfl,
      readNatural_digitUnits number.natAbs hrest, Option.map_some]
    have hnumber : -(number.natAbs : ℤ) = number := by omega
    rw [hnumber]

theorem intText_head (number : ℤ) :
    ∃ unit tail, (intText number).units = unit :: tail ∧
      JsonText.IsNumberHead unit := by
  rw [units_intText]
  split_ifs with hsign
  · obtain ⟨unit, tail, hunits⟩ :=
      List.exists_cons_of_ne_nil (digitUnits_ne_nil number.toNat)
    have hdigit : isDigit unit = true :=
      isDigit_of_mem_digitUnits (hunits ▸ List.mem_cons_self)
    rw [isDigit, Bool.and_eq_true, decide_eq_true_eq,
      decide_eq_true_eq] at hdigit
    exact ⟨unit, tail, hunits, Or.inr hdigit⟩
  · exact ⟨_, _, rfl, Or.inl rfl⟩

/-! ## Values -/

/-- How `jsonEncode` spells strings and integers. -/
def spelling : Spelling Utf16 ℤ where
  text := fun text => encodeUnits none text.units ++ [0x22]
  readText := fun units =>
    (readUnits units).map fun read => (⟨read.1⟩, read.2)
  readText_text := by
    intro text rest
    rw [List.append_assoc, List.singleton_append, readUnits_encodeUnits]
    rfl
  number := fun number => (intText number).units
  readNumber := readInteger
  readNumber_number := fun number _ hrest => readInteger_intText number hrest
  number_head := intText_head

mutual

/-- The value of the Dart program; it holds no double. -/
def ofValue : Value Utf16 ℤ → JsonValue
  | .null => .null
  | .bool value => .bool value
  | .number value => .int value
  | .text value => .string value
  | .list items => .list (ofItems items)
  | .map entries => .map (ofEntries entries)

def ofItems : List (Value Utf16 ℤ) → List JsonValue
  | [] => []
  | item :: rest => ofValue item :: ofItems rest

def ofEntries : List (Utf16 × Value Utf16 ℤ) → List (Utf16 × JsonValue)
  | [] => []
  | (key, value) :: rest => (key, ofValue value) :: ofEntries rest

end

theorem units_joined (separator : Utf16) (texts : List Utf16) :
    (joined separator texts).units =
      separator.units.intercalate (texts.map Utf16.units) := by
  induction texts with
  | nil => rfl
  | cons text rest ih =>
      cases rest with
      | nil => simp [joined]
      | cons second rest =>
          rw [List.map_cons, List.map_cons, List.intercalate_cons_cons,
            ← List.map_cons, ← ih]
          rfl

theorem bracketed_joined (opening closing : UInt16) (pieces : List Units) :
    (⟨[opening]⟩ ++ joined "," (pieces.map Utf16.mk) ++ ⟨[closing]⟩ : Utf16) =
      ⟨opening :: [JsonText.comma].intercalate pieces ++ [closing]⟩ := by
  have hunits : (joined "," (pieces.map Utf16.mk)).units =
      [JsonText.comma].intercalate pieces := by
    rw [units_joined, List.map_map]
    exact congrArg _ (List.map_id _)
  rw [← hunits]
  rfl

theorem jsonEncode_ofValue (platform : Platform) (value : Value Utf16 ℤ) :
    jsonEncode platform (ofValue value) =
      .ok ⟨JsonText.write spelling value⟩ := by
  induction value using Value.inductOn with
  | null => rw [ofValue, jsonEncode, JsonText.write]; rfl
  | bool value =>
      rw [ofValue, jsonEncode, JsonText.write]
      cases value <;> rfl
  | number value => rw [ofValue, jsonEncode, JsonText.write]; rfl
  | text value => rw [ofValue, jsonEncode, JsonText.write]; rfl
  | list items ih =>
      have hitems : encodeItems platform (ofItems items) =
          .ok ((JsonText.writeItems spelling items).map Utf16.mk) := by
        induction items with
        | nil => rw [ofItems, encodeItems, JsonText.writeItems, List.map_nil]
        | cons item rest ihItems =>
            obtain ⟨hitem, hrest⟩ := List.forall_mem_cons.mp ih
            rw [ofItems, encodeItems, hitem, ihItems hrest,
              JsonText.writeItems, List.map_cons]
            rfl
      rw [ofValue, jsonEncode, hitems, JsonText.write]
      exact congrArg Except.ok (bracketed_joined 0x5B 0x5D _)
  | map entries ih =>
      have hentries : encodeEntries platform (ofEntries entries) =
          .ok ((JsonText.writeEntries spelling entries).map Utf16.mk) := by
        induction entries with
        | nil =>
            rw [ofEntries, encodeEntries, JsonText.writeEntries, List.map_nil]
        | cons entry rest ihEntries =>
            obtain ⟨hentry, hrest⟩ := List.forall_mem_cons.mp ih
            obtain ⟨key, value⟩ := entry
            rw [ofEntries, encodeEntries, hentry, ihEntries hrest,
              JsonText.writeEntries, List.map_cons]
            rfl
      rw [ofValue, jsonEncode, hentries, JsonText.write]
      exact congrArg Except.ok (bracketed_joined 0x7B 0x7D _)

/-! ## The characters of a text -/

/-- The upper six bits of a unit. -/
theorem toNat_and_mask (unit : UInt16) :
    (unit &&& 0xFC00).toNat = unit.toNat / 1024 * 1024 := by
  have hlimit := unit.toNat_lt
  have hlow : (unit.toNat &&& 0xFC00) % 2 ^ 10 = 0 := by
    rw [Nat.and_mod_two_pow]
    exact Nat.and_zero _
  have hhigh : (unit.toNat &&& 0xFC00) / 2 ^ 10 = unit.toNat / 2 ^ 10 := by
    rw [Nat.and_div_two_pow]
    show unit.toNat / 2 ^ 10 &&& 2 ^ 6 - 1 = _
    rw [Nat.and_two_pow_sub_one_eq_mod]
    omega
  rw [UInt16.toNat_and]
  show unit.toNat &&& 0xFC00 = _
  omega

theorem isLead_iff (unit : UInt16) :
    isLead unit = true ↔ 0xD800 ≤ unit.toNat ∧ unit.toNat ≤ 0xDBFF := by
  have hmask := toNat_and_mask unit
  rw [isLead, beq_iff_eq, ← UInt16.toNat_inj, hmask]
  show unit.toNat / 1024 * 1024 = 0xD800 ↔ _
  omega

theorem isTrail_iff (unit : UInt16) :
    isTrail unit = true ↔ 0xDC00 ≤ unit.toNat ∧ unit.toNat ≤ 0xDFFF := by
  have hmask := toNat_and_mask unit
  rw [isTrail, beq_iff_eq, ← UInt16.toNat_inj, hmask]
  show unit.toNat / 1024 * 1024 = 0xDC00 ↔ _
  omega

end SoulonWallet.Ibc
