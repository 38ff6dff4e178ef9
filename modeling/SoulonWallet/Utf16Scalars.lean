import SoulonWallet.Utf16Text
import SoulonWallet.Utf8Bytes

/-!
# Characters of texts of code units

A text is well formed when every surrogate has its partner; its characters
then give the text back.  In other texts a lone surrogate is read as the
replacement character.  Trimming keeps texts well formed, since no surrogate
is white space.
-/

namespace SoulonWallet

namespace Utf16

open Utf8 (Bytes)

def ofChars (chars : List Char) : Utf16 :=
  ⟨chars.flatMap ofChar⟩

def isHighSurrogate (unit : UInt16) : Bool :=
  0xD800 ≤ unit.toNat && unit.toNat ≤ 0xDBFF

def isLowSurrogate (unit : UInt16) : Bool :=
  0xDC00 ≤ unit.toNat && unit.toNat ≤ 0xDFFF

def scalars : List UInt16 → List Char
  | [] => []
  | unit :: rest =>
      if isHighSurrogate unit then
        match rest with
        | low :: tail =>
            if isLowSurrogate low then
              Char.ofNat (0x10000 + (unit.toNat - 0xD800) * 0x400 +
                (low.toNat - 0xDC00)) :: scalars tail
            else Utf8.replacement :: scalars (low :: tail)
        | [] => [Utf8.replacement]
      else if isLowSurrogate unit then Utf8.replacement :: scalars rest
      else Char.ofNat unit.toNat :: scalars rest

/-- The characters, a lone surrogate replaced. -/
def toChars (text : Utf16) : List Char :=
  scalars text.units

def isWellFormed (text : Utf16) : Prop :=
  ofChars text.toChars = text

instance (text : Utf16) : Decidable text.isWellFormed :=
  inferInstanceAs (Decidable (_ = _))

def ofAscii (bytes : Bytes) : Utf16 :=
  ⟨bytes.map UInt8.toUInt16⟩

/-! ## Reading what was written -/

theorem toNat_toUInt16 {value : ℕ} (hvalue : value < 0x10000) :
    value.toUInt16.toNat = value :=
  UInt16.toNat_ofNat_of_lt hvalue

theorem scalars_cons_of_not_surrogate
    {unit : UInt16} (hunit : unit.toNat < 0xD800 ∨ 0xDFFF < unit.toNat)
    (rest : List UInt16) :
    scalars (unit :: rest) = Char.ofNat unit.toNat :: scalars rest := by
  have hhigh : ¬ isHighSurrogate unit = true := by
    simp only [isHighSurrogate, Bool.and_eq_true, decide_eq_true_eq]
    omega
  have hlow : ¬ isLowSurrogate unit = true := by
    simp only [isLowSurrogate, Bool.and_eq_true, decide_eq_true_eq]
    omega
  rw [scalars.eq_def (unit :: rest)]
  exact (if_neg hhigh).trans (if_neg hlow)

theorem scalars_pair
    {high low : UInt16} (hhigh : isHighSurrogate high = true)
    (hlow : isLowSurrogate low = true) (tail : List UInt16) :
    scalars (high :: low :: tail) =
      Char.ofNat (0x10000 + (high.toNat - 0xD800) * 0x400 +
        (low.toNat - 0xDC00)) :: scalars tail := by
  rw [scalars, if_pos hhigh, if_pos hlow]

theorem scalars_ofChar_append (c : Char) (rest : List UInt16) :
    scalars (ofChar c ++ rest) = c :: scalars rest := by
  have hvalid : c.toNat < 0xD800 ∨
      (0xDFFF < c.toNat ∧ c.toNat < 0x110000) := c.valid
  have hchar : Char.ofNat c.toNat = c := Char.ofNat_toNat c
  unfold ofChar
  split_ifs with hplane
  · have hunit := toNat_toUInt16 hplane
    rw [List.singleton_append, scalars_cons_of_not_surrogate]
    · rw [hunit, hchar]
    · rw [hunit]
      omega
  · have hhigh := toNat_toUInt16
      (show 0xD800 + (c.toNat - 0x10000) / 0x400 < 0x10000 by omega)
    have hlow := toNat_toUInt16
      (show 0xDC00 + (c.toNat - 0x10000) % 0x400 < 0x10000 by omega)
    rw [List.cons_append, List.singleton_append, scalars_pair]
    · have hcode : 0x10000 +
          (0xD800 + (c.toNat - 0x10000) / 0x400 - 0xD800) * 0x400 +
            (0xDC00 + (c.toNat - 0x10000) % 0x400 - 0xDC00) = c.toNat := by
        omega
      rw [hhigh, hlow, hcode, hchar]
    · simp only [isHighSurrogate, hhigh, Bool.and_eq_true,
        decide_eq_true_eq]
      omega
    · simp only [isLowSurrogate, hlow, Bool.and_eq_true, decide_eq_true_eq]
      omega

@[simp] theorem toChars_ofChars (chars : List Char) :
    (ofChars chars).toChars = chars := by
  unfold toChars ofChars
  induction chars with
  | nil => rfl
  | cons c chars ih =>
      rw [List.flatMap_cons, scalars_ofChar_append]
      exact congrArg _ ih

theorem isWellFormed_ofChars (chars : List Char) :
    (ofChars chars).isWellFormed := by
  unfold isWellFormed
  rw [toChars_ofChars]

/-! ## ASCII -/

theorem toChars_ofAscii
    {bytes : Bytes} (hascii : ∀ byte ∈ bytes, byte.toNat < 0x80) :
    Utf8.encode (ofAscii bytes).toChars = bytes := by
  unfold ofAscii toChars
  induction bytes with
  | nil => rfl
  | cons byte rest ih =>
      obtain ⟨hbyte, hrest⟩ := List.forall_mem_cons.mp hascii
      have hunit : byte.toUInt16.toNat = byte.toNat := by simp
      have hchar : (Char.ofNat byte.toNat).toNat = byte.toNat :=
        Utf8.toNat_charOfNat (Or.inl (by omega))
      rw [List.map_cons, scalars_cons_of_not_surrogate (Or.inl (by omega)),
        Utf8.encode_cons, ih hrest, hunit]
      rw [Utf8.utf8EncodeChar_of_le (by omega), hchar, UInt8.ofNat_toNat]
      rfl

theorem toUInt8_ofAscii (bytes : Bytes) :
    (ofAscii bytes).units.map UInt16.toUInt8 = bytes := by
  unfold ofAscii
  rw [List.map_map]
  exact List.map_id'' UInt8.toUInt8_toUInt16 bytes

theorem toUInt16_mem_ofAscii_iff {bytes : Bytes} {byte : UInt8} :
    byte.toUInt16 ∈ (ofAscii bytes).units ↔ byte ∈ bytes :=
  List.mem_map_of_injective fun _ _ => UInt8.toUInt16_inj.mp

theorem split_ofAscii (bytes : Bytes) (separator : UInt8) :
    (ofAscii bytes).split separator.toUInt16 =
      (bytes.splitOn separator).map ofAscii := by
  have hsplit : (bytes.map UInt8.toUInt16).splitOn separator.toUInt16 =
      (bytes.splitOn separator).map (List.map UInt8.toUInt16) := by
    induction bytes with
    | nil => simp
    | cons byte rest ih =>
        rw [List.map_cons, List.splitOn_cons_eq_if_modifyHead,
          List.splitOn_cons_eq_if_modifyHead, ih]
        simp only [beq_iff_eq, UInt8.toUInt16_inj]
        split_ifs
        · rfl
        · cases rest.splitOn separator with
          | nil => rfl
          | cons piece pieces => rfl
  unfold split
  rw [ofAscii, hsplit, List.map_map]
  rfl

theorem isWellFormed_of_lt
    {text : Utf16} (htext : ∀ unit ∈ text.units, unit.toNat < 0xD800) :
    text.isWellFormed := by
  obtain ⟨units⟩ := text
  have hunits : (scalars units).flatMap ofChar = units := by
    induction units with
    | nil => rfl
    | cons unit rest ih =>
        obtain ⟨hunit, hrest⟩ := List.forall_mem_cons.mp htext
        have hchar : (Char.ofNat unit.toNat).toNat = unit.toNat :=
          Utf8.toNat_charOfNat (Or.inl (by omega))
        have hplane : (Char.ofNat unit.toNat).toNat < 0x10000 := by omega
        rw [scalars_cons_of_not_surrogate (Or.inl hunit), List.flatMap_cons,
          ih hrest, ofChar, if_pos hplane, hchar]
        exact congrArg (· :: rest) UInt16.ofNat_toNat
  exact congrArg Utf16.mk hunits

/-- A text of ASCII characters is written byte by byte. -/
theorem ofAscii_encode
    {chars : List Char}
    (hascii : ∀ byte ∈ Utf8.encode chars, byte.toNat < 0x80) :
    ofAscii (Utf8.encode chars) = ofChars chars := by
  have hchars : (ofAscii (Utf8.encode chars)).toChars = chars :=
    Utf8.encode_injective (toChars_ofAscii hascii)
  have hformed : (ofAscii (Utf8.encode chars)).isWellFormed := by
    apply isWellFormed_of_lt
    intro unit hunit
    obtain ⟨byte, hbyte, rfl⟩ := List.mem_map.mp hunit
    have hlimit := hascii byte hbyte
    rw [UInt8.toNat_toUInt16]
    omega
  rw [isWellFormed, hchars] at hformed
  exact hformed.symm

/-! ## Trimming -/

section Trimming

variable {p : UInt16 → Bool} {units : List UInt16}

/-- The units without those at both ends that satisfy `p`. -/
def trimUnits (p : UInt16 → Bool) (units : List UInt16) : List UInt16 :=
  (units.dropWhile p).rdropWhile p

structure IsTrimmed (p : UInt16 → Bool) (units : List UInt16) : Prop where
  head : ∀ unit ∈ units.head?, p unit = false
  last : ∀ unit ∈ units.getLast?, p unit = false

theorem trimUnits_eq_self (htrimmed : IsTrimmed p units) :
    trimUnits p units = units := by
  have hfront : units.dropWhile p = units := by
    cases units with
    | nil => rfl
    | cons unit rest =>
        rw [List.dropWhile_cons_of_neg]
        rw [htrimmed.head unit rfl]
        exact Bool.false_ne_true
  unfold trimUnits
  rw [hfront, List.rdropWhile_eq_self_iff]
  intro hne
  rw [htrimmed.last _ (List.getLast?_eq_getLast_of_ne_nil hne)]
  exact Bool.false_ne_true

theorem trimUnits_eq_nil_iff :
    trimUnits p units = [] ↔ ∀ unit ∈ units, p unit = true := by
  unfold trimUnits
  rw [List.rdropWhile_eq_nil_iff]
  constructor
  · intro hall
    apply List.dropWhile_eq_nil_iff.mp
    have hfirst := List.head?_dropWhile_not p units
    cases hdrop : units.dropWhile p with
    | nil => rfl
    | cons unit rest =>
        rw [hdrop] at hall hfirst
        have hkept := hall unit List.mem_cons_self
        exact absurd hkept (by simpa using hfirst)
  · intro hall
    rw [List.dropWhile_eq_nil_iff.mpr hall]
    exact fun _ hnone => absurd hnone List.not_mem_nil

theorem isTrimmed_trimUnits (p : UInt16 → Bool) (units : List UInt16) :
    IsTrimmed p (trimUnits p units) := by
  constructor
  · intro unit hunit
    have hfirst := List.head?_dropWhile_not p units
    obtain ⟨rest, hrest⟩ := List.rdropWhile_prefix p (l := units.dropWhile p)
    have hhead : (units.dropWhile p).head? = some unit := by
      rw [← hrest, List.head?_append]
      exact congrArg (Option.or · rest.head?) hunit
    rw [hhead] at hfirst
    exact hfirst
  · intro unit hunit
    unfold trimUnits at hunit
    by_cases hne : (units.dropWhile p).rdropWhile p = []
    · rw [hne] at hunit
      cases hunit
    · have hlast := List.rdropWhile_last_not p _ hne
      rw [List.getLast?_eq_getLast_of_ne_nil hne, Option.mem_def,
        Option.some.injEq] at hunit
      rw [hunit] at hlast
      exact Bool.eq_false_iff.mpr hlast

/-- A character is one unit, or two units that are surrogates. -/
theorem ofChar_cases (c : Char) :
    (∃ unit, ofChar c = [unit]) ∨
      ∃ high low, ofChar c = [high, low] ∧
        isHighSurrogate high = true ∧ isLowSurrogate low = true := by
  have hvalid : c.toNat < 0xD800 ∨
      (0xDFFF < c.toNat ∧ c.toNat < 0x110000) := c.valid
  unfold ofChar
  split_ifs with hplane
  · exact Or.inl ⟨_, rfl⟩
  · have hhigh := toNat_toUInt16
      (show 0xD800 + (c.toNat - 0x10000) / 0x400 < 0x10000 by omega)
    have hlow := toNat_toUInt16
      (show 0xDC00 + (c.toNat - 0x10000) % 0x400 < 0x10000 by omega)
    refine Or.inr ⟨_, _, rfl, ?_, ?_⟩
    · simp only [isHighSurrogate, hhigh, Bool.and_eq_true,
        decide_eq_true_eq]
      omega
    · simp only [isLowSurrogate, hlow, Bool.and_eq_true, decide_eq_true_eq]
      omega

theorem exists_dropWhile_ofChars
    (hhigh : ∀ unit, isHighSurrogate unit = true → p unit = false)
    (chars : List Char) :
    ∃ rest : List Char,
      (chars.flatMap ofChar).dropWhile p = rest.flatMap ofChar := by
  induction chars with
  | nil => exact ⟨[], rfl⟩
  | cons c chars ih =>
      rw [List.flatMap_cons]
      rcases ofChar_cases c with ⟨unit, hunit⟩ | ⟨high, low, hunits, hsur, -⟩
      · by_cases hdrop : p unit = true
        · obtain ⟨rest, hrest⟩ := ih
          refine ⟨rest, ?_⟩
          rw [hunit, List.singleton_append, List.dropWhile_cons_of_pos hdrop]
          exact hrest
        · refine ⟨c :: chars, ?_⟩
          rw [hunit, List.singleton_append, List.dropWhile_cons_of_neg hdrop,
            List.flatMap_cons, hunit]
          rfl
      · refine ⟨c :: chars, ?_⟩
        have hkeep : ¬ p high = true := by
          rw [hhigh high hsur]
          exact Bool.false_ne_true
        rw [hunits, List.cons_append, List.dropWhile_cons_of_neg hkeep,
          List.flatMap_cons, hunits]
        rfl

theorem exists_rdropWhile_ofChars
    (hlow : ∀ unit, isLowSurrogate unit = true → p unit = false)
    (chars : List Char) :
    ∃ rest : List Char,
      (chars.flatMap ofChar).rdropWhile p = rest.flatMap ofChar := by
  induction chars using List.reverseRecOn with
  | nil => exact ⟨[], rfl⟩
  | append_singleton chars c ih =>
      have hsplit : (chars ++ [c]).flatMap ofChar =
          chars.flatMap ofChar ++ ofChar c := by
        rw [List.flatMap_append, List.flatMap_singleton]
      rcases ofChar_cases c with ⟨unit, hunit⟩ | ⟨high, low, hunits, -, hsur⟩
      · by_cases hdrop : p unit = true
        · obtain ⟨rest, hrest⟩ := ih
          refine ⟨rest, ?_⟩
          rw [hsplit, hunit, List.rdropWhile_concat_pos p _ unit hdrop]
          exact hrest
        · refine ⟨chars ++ [c], ?_⟩
          rw [hsplit, hunit, List.rdropWhile_concat_neg p _ unit hdrop]
      · refine ⟨chars ++ [c], ?_⟩
        have hkeep : ¬ p low = true := by
          rw [hlow low hsur]
          exact Bool.false_ne_true
        have hlast : chars.flatMap ofChar ++ [high, low] =
            (chars.flatMap ofChar ++ [high]) ++ [low] := by
          simp
        rw [hsplit, hunits, hlast, List.rdropWhile_concat_neg p _ low hkeep]

/-- Trimming keeps a text well formed. -/
theorem isWellFormed_trimUnits
    (hhigh : ∀ unit, isHighSurrogate unit = true → p unit = false)
    (hlow : ∀ unit, isLowSurrogate unit = true → p unit = false)
    {text : Utf16} (htext : text.isWellFormed) :
    isWellFormed ⟨trimUnits p text.units⟩ := by
  have hunits : text.units = text.toChars.flatMap ofChar :=
    congrArg Utf16.units htext.symm
  obtain ⟨middle, hmiddle⟩ := exists_dropWhile_ofChars hhigh text.toChars
  obtain ⟨rest, hrest⟩ := exists_rdropWhile_ofChars hlow middle
  unfold trimUnits
  rw [hunits, hmiddle, hrest]
  exact isWellFormed_ofChars rest

end Trimming

end Utf16

end SoulonWallet
