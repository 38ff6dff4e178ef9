import SoulonWallet.BitGroups

/-!
# The Bech32 texts of BIP-173

Texts are lists of character codes.  A text consists of a human-readable part,
the separator and characters that stand for groups of five bits, the last six
of which are a checksum over all of it.  The rules for a whole text are on its
length, its letter case and the characters of its human-readable part.
-/

namespace SoulonWallet.Bip173

open BitGroups

def charset : List ℕ :=
  "qpzry9x8gf2tvdw0s3jn54khce6mua7l".toList.map Char.toNat

def separator : ℕ := 0x31

/-- The character that stands for a group of five bits. -/
def character (value : ℕ) : ℕ :=
  charset.getD value 0

def generators : List ℕ :=
  [0x3b6a57b2, 0x26508e6d, 0x1ea119fa, 0x3d4233dd, 0x2a1462b3]

/-- The generators that the bits of the top group select, added to the
remainder. -/
def reduce (top : ℕ) (chk : ℕ) (entries : List (ℕ × ℕ)) : ℕ :=
  entries.foldl
    (fun chk entry => if top.testBit entry.2 then chk ^^^ entry.1 else chk)
    chk

def polymodStep (chk value : ℕ) : ℕ :=
  reduce (chk >>> 25) ((chk &&& 0x1ffffff) <<< 5 ^^^ value)
    generators.zipIdx

def polymod (values : List ℕ) : ℕ :=
  values.foldl polymodStep 1

def hrpExpand (hrp : List ℕ) : List ℕ :=
  hrp.map (· >>> 5) ++ [0] ++ hrp.map (· &&& 31)

/-- The test vector `A12UEL5L`, which holds nothing but its checksum. -/
example : polymod (hrpExpand [97] ++ [10, 28, 25, 31, 20, 31]) = 1 := by
  decide

def IsUpper (c : ℕ) : Prop := 65 ≤ c ∧ c ≤ 90

def IsLower (c : ℕ) : Prop := 97 ≤ c ∧ c ≤ 122

instance (c : ℕ) : Decidable (IsUpper c) := inferInstanceAs (Decidable (_ ∧ _))

instance (c : ℕ) : Decidable (IsLower c) := inferInstanceAs (Decidable (_ ∧ _))

def lower (c : ℕ) : ℕ :=
  if IsUpper c then c + 32 else c

def Mixed (text : List ℕ) : Prop :=
  (∃ c ∈ text, IsUpper c) ∧ ∃ c ∈ text, IsLower c

instance (text : List ℕ) : Decidable (Mixed text) :=
  inferInstanceAs (Decidable (_ ∧ _))

/-- The printable characters. -/
def InRange (c : ℕ) : Prop := 33 ≤ c ∧ c ≤ 126

instance (c : ℕ) : Decidable (InRange c) := inferInstanceAs (Decidable (_ ∧ _))

/-- The text is in lower case and holds the groups behind the
human-readable part, with a correct checksum. -/
structure Encodes (text hrp values : List ℕ) : Prop where
  text_eq : text = hrp ++ separator :: values.map character
  hrp_pos : 1 ≤ hrp.length
  values_lt : ∀ value ∈ values, value < 2 ^ 5
  six_le : 6 ≤ values.length
  checksum : polymod (hrpExpand hrp ++ values) = 1

/-- The groups before the checksum are bytes and fewer than five zero bits of
padding. -/
def Regroups (values : List ℕ) : Prop :=
  ∃ bytes filled,
    (∀ byte ∈ bytes, byte < 2 ^ 8) ∧ filled < 5 ∧
      words 8 bytes ++ List.replicate filled false =
        words 5 (values.take (values.length - 6))

/-- A valid text; the human-readable part is given in lower case. -/
structure Valid (text hrp values : List ℕ) : Prop where
  encodes : Encodes (text.map lower) hrp values
  length_le : text.length ≤ 90
  unmixed : ¬ Mixed text
  hrp_le : hrp.length ≤ 83
  hrp_range : ∀ c ∈ hrp, InRange c

/-! ## What the rules on whole texts add -/

theorem inRange_lower_iff {c : ℕ} : InRange (lower c) ↔ InRange c := by
  unfold lower
  split_ifs with hupper
  · unfold IsUpper at hupper
    unfold InRange
    omega
  · exact Iff.rfl

theorem inRange_charset : ∀ c ∈ charset, InRange c := by
  decide

theorem character_mem {value : ℕ} (hvalue : value < 2 ^ 5) :
    character value ∈ charset := by
  have hlength : value < charset.length := hvalue
  rw [character, List.getD_eq_getElem?_getD,
    List.getElem?_eq_getElem hlength]
  exact List.getElem_mem hlength

/-- A text is valid when it is in the range of the printable characters, short
and not mixed, and its lower case form encodes the groups. -/
theorem valid_iff {text hrp values : List ℕ} :
    Valid text hrp values ↔
      Encodes (text.map lower) hrp values ∧ text.length ≤ 90 ∧
        ¬ Mixed text ∧ ∀ c ∈ text, InRange c := by
  constructor
  · intro hvalid
    refine ⟨hvalid.encodes, hvalid.length_le, hvalid.unmixed, ?_⟩
    intro c hc
    rw [← inRange_lower_iff]
    have hlower : lower c ∈ text.map lower := List.mem_map_of_mem hc
    rw [hvalid.encodes.text_eq] at hlower
    rcases List.mem_append.mp hlower with hhrp | hdata
    · exact hvalid.hrp_range _ hhrp
    · rcases List.mem_cons.mp hdata with hseparator | hcharacter
      · rw [hseparator]
        decide
      · obtain ⟨value, hvalue, hsame⟩ := List.mem_map.mp hcharacter
        rw [← hsame]
        exact inRange_charset _
          (character_mem (hvalid.encodes.values_lt value hvalue))
  · rintro ⟨hencodes, hlength, hunmixed, hrange⟩
    have htext := congrArg List.length hencodes.text_eq
    simp only [List.length_map, List.length_append, List.length_cons]
      at htext
    have hsix := hencodes.six_le
    refine ⟨hencodes, hlength, hunmixed, by omega, ?_⟩
    intro c hc
    have hmem : c ∈ text.map lower := by
      rw [hencodes.text_eq]
      exact List.mem_append_left _ hc
    obtain ⟨original, horiginal, rfl⟩ := List.mem_map.mp hmem
    exact inRange_lower_iff.mpr (hrange original horiginal)

end SoulonWallet.Bip173
