import Mathlib.Data.Nat.Size
import SoulonWallet.BitGroups
import SoulonWallet.ExceptResults

/-!
# The word indices of a mnemonic

`entropyToIndices` writes entropy and the first bits of its checksum as a
string of binary digits and cuts it into indices of eleven bits;
`validateIndices` writes the indices as such a string again and compares its
end with the checksum of its beginning.  An index that needs more than eleven
digits makes the string longer.

A string of binary digits is a list of bits.  The function that gives the
checksum is a parameter.
-/

namespace SoulonWallet.Mnemonic

open BitGroups

/-- The errors of an index out of range and of a negative shift. -/
inductive Failure where
  | range
  | argument
  deriving DecidableEq

/-- `toRadixString(2)` of a number that is not negative. -/
def toRadixString (value : ℕ) : List Bool :=
  if value = 0 then [false] else value.bits.reverse

def padLeft (digits : List Bool) (width : ℕ) : List Bool :=
  digits.leftpad width false

def digitsOf (width : ℕ) (values : List ℕ) : List Bool :=
  values.flatMap fun value => padLeft (toRadixString value) width

def substring (digits : List Bool) (start stop : ℕ) : List Bool :=
  (digits.drop start).take (stop - start)

def checksumDigit (checksum : List UInt8) (i : ℕ) : Except Failure Bool :=
  match checksum.head? with
  | none => .error .range
  | some byte =>
      if 7 < i then .error .argument
      else .ok (byte.toNat >>> (7 - i) &&& 1 = 1)

def checksumDigits (checksum : List UInt8) (checksumBits : ℕ) :
    Except Failure (List Bool) :=
  (List.range checksumBits).mapM (checksumDigit checksum)

section

variable (deriveChecksum : List UInt8 → List UInt8)

def entropyToIndices (entropy : List UInt8) : Except Failure (List ℕ) :=
  let checksumBits := entropy.length / 4
  match checksumDigits (deriveChecksum entropy) checksumBits with
  | .error failure => .error failure
  | .ok checksum =>
      let bitString := digitsOf 8 (entropy.map UInt8.toNat) ++ checksum
      .ok ((List.range ((bitString.length + 10) / 11)).filterMap fun i =>
        if i * 11 + 11 ≤ bitString.length then
          some (ofBits (substring bitString (i * 11) (i * 11 + 11)))
        else none)

def validateIndices (indices : List ℕ) : Except Failure Bool :=
  if indices.length ≠ 12 ∧ indices.length ≠ 15 ∧ indices.length ≠ 18 ∧
      indices.length ≠ 21 ∧ indices.length ≠ 24 then
    .ok false
  else
    let totalBits := indices.length * 11
    let checksumBits := totalBits / 33
    let entropyBits := totalBits - checksumBits
    let bitString := digitsOf 11 indices
    let entropyBytes := (List.range (entropyBits / 8)).map fun i =>
      UInt8.ofNat (ofBits (substring bitString (i * 8) (i * 8 + 8)))
    match checksumDigits (deriveChecksum entropyBytes) checksumBits with
    | .error failure => .error failure
    | .ok expectedBits => .ok (bitString.drop entropyBits = expectedBits)

end

/-! ## Binary digits -/

theorem ofBits_bits_reverse (value : ℕ) :
    ofBits value.bits.reverse = value := by
  induction value using Nat.binaryRec' with
  | zero => rfl
  | bit digit value hdigit ih =>
      rw [Nat.bits_append_bit value digit hdigit, List.reverse_cons,
        ofBits_concat, ih, Nat.bit_val]

theorem ofBits_toRadixString (value : ℕ) :
    ofBits (toRadixString value) = value := by
  unfold toRadixString
  split_ifs with hzero
  · exact hzero.symm
  · exact ofBits_bits_reverse value

theorem ofBits_replicate_append (count : ℕ) (digits : List Bool) :
    ofBits (List.replicate count false ++ digits) = ofBits digits := by
  induction count with
  | zero => rfl
  | succ count ih =>
      rw [List.replicate_succ, List.cons_append]
      exact ih

theorem length_toRadixString_le_iff
    {value width : ℕ} (hwidth : 0 < width) :
    (toRadixString value).length ≤ width ↔ value < 2 ^ width := by
  unfold toRadixString
  split_ifs with hzero
  · simp only [hzero, List.length_singleton, Nat.two_pow_pos, iff_true]
    omega
  · rw [List.length_reverse, Nat.size_eq_bits_len, Nat.size_le]

theorem length_padLeft (digits : List Bool) (width : ℕ) :
    (padLeft digits width).length = max width digits.length := by
  rw [padLeft, List.leftpad, List.length_append, List.length_replicate]
  omega

/-- A number that fits is written with exactly as many digits as the width. -/
theorem padLeft_toRadixString
    {value width : ℕ} (hwidth : 0 < width) (hvalue : value < 2 ^ width) :
    padLeft (toRadixString value) width = bits width value := by
  have hlength : (padLeft (toRadixString value) width).length = width := by
    rw [length_padLeft,
      max_eq_left ((length_toRadixString_le_iff hwidth).mpr hvalue)]
  have hbits := bits_ofBits (padLeft (toRadixString value) width)
  rw [hlength, padLeft, List.leftpad, ofBits_replicate_append,
    ofBits_toRadixString] at hbits
  exact hbits.symm

theorem digitsOf_eq_words
    {width : ℕ} {values : List ℕ} (hwidth : 0 < width)
    (hvalues : ∀ value ∈ values, value < 2 ^ width) :
    digitsOf width values = words width values :=
  List.flatMap_congr fun value hmem =>
    padLeft_toRadixString hwidth (hvalues value hmem)

theorem le_length_digitsOf (width : ℕ) (values : List ℕ) :
    values.length * width ≤ (digitsOf width values).length := by
  induction values with
  | nil => simp
  | cons value values ih =>
      have hpad := length_padLeft (toRadixString value) width
      simp only [digitsOf, List.flatMap_cons, List.length_append,
        List.length_cons] at ih ⊢
      rw [hpad, Nat.succ_mul]
      have hle := le_max_left width (toRadixString value).length
      omega

/-- A value that does not fit makes the digits longer. -/
theorem lt_of_length_digitsOf
    {width : ℕ} {values : List ℕ} (hwidth : 0 < width)
    (hlength : (digitsOf width values).length = values.length * width) :
    ∀ value ∈ values, value < 2 ^ width := by
  induction values with
  | nil => simp
  | cons value values ih =>
      have hpad := length_padLeft (toRadixString value) width
      have hrest := le_length_digitsOf width values
      simp only [digitsOf, List.flatMap_cons, List.length_append,
        List.length_cons] at ih hrest hlength
      rw [hpad, Nat.succ_mul] at hlength
      have hle := le_max_left width (toRadixString value).length
      rw [List.forall_mem_cons]
      constructor
      · rw [← length_toRadixString_le_iff hwidth]
        have hmax := le_max_right width (toRadixString value).length
        omega
      · exact ih (by omega)

/-! ## Reading the string -/

theorem length_checksumDigits
    {checksum : List UInt8} {count : ℕ} {digits : List Bool}
    (hdigits : checksumDigits checksum count = .ok digits) :
    digits.length = count := by
  rw [← (mapM_eq_ok_iff.mp hdigits).length_eq, List.length_range]

/-- The loop that takes a group only when it is complete. -/
theorem filterMap_range
    {α : Type*} (f : ℕ → α) {count total : ℕ} (hle : count ≤ total) :
    (List.range total).filterMap
        (fun i => if i < count then some (f i) else none) =
      (List.range count).map f := by
  obtain ⟨more, rfl⟩ := Nat.exists_eq_add_of_le hle
  rw [List.range_add, List.filterMap_append]
  have hfirst : (List.range count).filterMap
      (fun i => if i < count then some (f i) else none) =
        (List.range count).map f := by
    rw [← List.filterMap_eq_map]
    apply List.filterMap_congr
    intro i hi
    rw [if_pos (List.mem_range.mp hi)]
    rfl
  rw [hfirst]
  simp

theorem groups_eq_slices (digits : List Bool) :
    ((List.range ((digits.length + 10) / 11)).filterMap fun i =>
        if i * 11 + 11 ≤ digits.length then
          some (ofBits (substring digits (i * 11) (i * 11 + 11)))
        else none) =
      slices 11 (digits.length / 11) digits := by
  have hcomplete : ∀ i,
      i * 11 + 11 ≤ digits.length ↔ i < digits.length / 11 := by omega
  have hwidth : ∀ i, i * 11 + 11 - i * 11 = 11 := by omega
  simp only [hcomplete, substring, hwidth]
  exact filterMap_range _ (by omega)

variable {deriveChecksum : List UInt8 → List UInt8}
variable {entropy other : List UInt8} {indices : List ℕ} {count : ℕ}

/-- The indices hold the bits of the entropy and those of its checksum. -/
def Encodes (deriveChecksum : List UInt8 → List UInt8)
    (entropy : List UInt8) (count : ℕ) (indices : List ℕ) : Prop :=
  entropy.length = 4 * count ∧
    (∀ index ∈ indices, index < 2 ^ 11) ∧
    ∃ checksum,
      checksumDigits (deriveChecksum entropy) count = .ok checksum ∧
      words 11 indices = words 8 (entropy.map UInt8.toNat) ++ checksum

theorem Encodes.length
    (hencodes : Encodes deriveChecksum entropy count indices) :
    indices.length = 3 * count := by
  obtain ⟨hentropy, -, checksum, hchecksum, hwords⟩ := hencodes
  have hlength := congrArg List.length hwords
  rw [List.length_append, length_words, length_words, List.length_map,
    length_checksumDigits hchecksum] at hlength
  omega

theorem Encodes.entropy_unique
    (hencodes : Encodes deriveChecksum entropy count indices)
    (hother : Encodes deriveChecksum other count indices) :
    entropy = other := by
  obtain ⟨hentropy, -, checksum, -, hwords⟩ := hencodes
  obtain ⟨hlength, -, checksum', -, hwords'⟩ := hother
  rw [hwords] at hwords'
  obtain ⟨hsame, -⟩ := List.append_inj hwords' (by simp [hentropy, hlength])
  apply eq_of_map_toNat_eq
  exact eq_of_words_eq (map_toNat_lt entropy) (map_toNat_lt other) (by omega)
    hsame

theorem entropyToIndices_eq_ok_iff (hentropy : entropy.length = 4 * count) :
    entropyToIndices deriveChecksum entropy = .ok indices ↔
      Encodes deriveChecksum entropy count indices := by
  have hcount : entropy.length / 4 = count := by omega
  have hdigits : digitsOf 8 (entropy.map UInt8.toNat) =
      words 8 (entropy.map UInt8.toNat) :=
    digitsOf_eq_words (by omega) (map_toNat_lt entropy)
  simp only [entropyToIndices, hcount, groups_eq_slices, hdigits]
  cases hchecksum : checksumDigits (deriveChecksum entropy) count with
  | error failure => simp [Encodes, hchecksum]
  | ok checksum =>
      have hlength : (words 8 (entropy.map UInt8.toNat) ++
          checksum).length = 3 * count * 11 := by
        rw [List.length_append, length_words, List.length_map,
          length_checksumDigits hchecksum]
        omega
      have hslices := words_slices hlength.ge
      rw [← hlength, List.take_length] at hslices
      simp only [hlength, Nat.mul_div_cancel _ (show 0 < 11 by omega),
        Except.ok.injEq]
      constructor
      · rintro rfl
        exact ⟨hentropy, slices_lt, checksum, hchecksum, hslices⟩
      · rintro ⟨-, hindices, checksum', hchecksum', hwords⟩
        obtain rfl := Except.ok.inj (hchecksum.symm.trans hchecksum')
        exact eq_of_words_eq slices_lt hindices (by omega)
          (hslices.trans hwords.symm)

/-- The bytes that `validateIndices` reads at the start of the string. -/
def leadingBytes (count : ℕ) (digits : List Bool) : List UInt8 :=
  (List.range count).map fun i =>
    UInt8.ofNat (ofBits (substring digits (i * 8) (i * 8 + 8)))

theorem map_toNat_leadingBytes (count : ℕ) (digits : List Bool) :
    (leadingBytes count digits).map UInt8.toNat = slices 8 count digits := by
  rw [leadingBytes, List.map_map, slices]
  apply List.map_congr_left
  intro i hi
  have hwidth : i * 8 + 8 - i * 8 = 8 := by omega
  have hlt : ofBits (substring digits (i * 8) (i * 8 + 8)) < 2 ^ 8 := by
    apply (ofBits_lt _).trans_le
    apply Nat.pow_le_pow_right Nat.two_pos
    rw [substring, hwidth]
    exact List.length_take_le _ _
  rw [Function.comp_apply, UInt8.toNat_ofNat_of_lt' hlt, substring, hwidth]

theorem validateIndices_eq
    (hlength : indices.length = 3 * count) (hlow : 4 ≤ count)
    (hhigh : count ≤ 8) :
    validateIndices deriveChecksum indices =
      match checksumDigits
          (deriveChecksum (leadingBytes (4 * count) (digitsOf 11 indices)))
          count with
      | .error failure => .error failure
      | .ok expectedBits =>
          .ok ((digitsOf 11 indices).drop (4 * count * 8) = expectedBits) := by
  have hwords : ¬ (indices.length ≠ 12 ∧ indices.length ≠ 15 ∧
      indices.length ≠ 18 ∧ indices.length ≠ 21 ∧ indices.length ≠ 24) := by
    omega
  have hchecksum : indices.length * 11 / 33 = count := by omega
  have hentropy : indices.length * 11 - count = 4 * count * 8 := by omega
  have hbytes : 4 * count * 8 / 8 = 4 * count := by omega
  simp only [validateIndices, if_neg hwords, hchecksum, hentropy, hbytes]
  rfl

theorem validateIndices_eq_true_iff
    (hlength : indices.length = 3 * count) (hlow : 4 ≤ count)
    (hhigh : count ≤ 8) :
    validateIndices deriveChecksum indices = .ok true ↔
      ∃ entropy, Encodes deriveChecksum entropy count indices := by
  have hlong : 4 * count * 8 ≤ (digitsOf 11 indices).length := by
    have hle := le_length_digitsOf 11 indices
    omega
  have hleading := words_slices hlong
  rw [← map_toNat_leadingBytes] at hleading
  rw [validateIndices_eq hlength hlow hhigh]
  constructor
  · intro hvalid
    split at hvalid
    next => cases hvalid
    next expectedBits hexpected =>
      have hdrop := of_decide_eq_true (Except.ok.inj hvalid)
      have hcount := congrArg List.length hdrop
      rw [List.length_drop, length_checksumDigits hexpected] at hcount
      have hindices : ∀ index ∈ indices, index < 2 ^ 11 :=
        lt_of_length_digitsOf (by omega) (by omega)
      refine ⟨_, by simp [leadingBytes], hindices, expectedBits, hexpected,
        ?_⟩
      rw [hleading, ← hdrop, List.take_append_drop,
        digitsOf_eq_words (by omega) hindices]
  · rintro ⟨entropy, hentropy, hindices, checksum, hchecksum, hwords⟩
    rw [digitsOf_eq_words (by omega) hindices, hwords] at hleading ⊢
    have hbits : (words 8 (entropy.map UInt8.toNat)).length =
        4 * count * 8 := by
      rw [length_words, List.length_map, hentropy]
    rw [← hbits, List.take_left] at hleading
    have hbytes := eq_of_map_toNat_eq (eq_of_words_eq (map_toNat_lt _)
      (map_toNat_lt entropy) (by omega) hleading)
    rw [hbytes, hchecksum, ← hbits, List.drop_left]
    simp

/-- Entropy of one of the five sizes that the indices belong to. -/
def IsEntropyOf (deriveChecksum : List UInt8 → List UInt8)
    (indices : List ℕ) (entropy : List UInt8) : Prop :=
  entropy.length ∈ [16, 20, 24, 28, 32] ∧
    entropyToIndices deriveChecksum entropy = .ok indices

theorem isEntropyOf_iff :
    IsEntropyOf deriveChecksum indices entropy ↔
      ∃ count, 4 ≤ count ∧ count ≤ 8 ∧
        Encodes deriveChecksum entropy count indices := by
  constructor
  · rintro ⟨hlength, hindices⟩
    simp only [List.mem_cons, List.not_mem_nil, or_false] at hlength
    have hentropy : entropy.length = 4 * (entropy.length / 4) := by omega
    exact ⟨entropy.length / 4, by omega, by omega,
      (entropyToIndices_eq_ok_iff hentropy).mp hindices⟩
  · rintro ⟨count, hlow, hhigh, hencodes⟩
    have hentropy := hencodes.1
    refine ⟨?_, (entropyToIndices_eq_ok_iff hentropy).mpr hencodes⟩
    simp only [List.mem_cons, List.not_mem_nil, or_false]
    omega

theorem validateIndices_true_length
    (hvalid : validateIndices deriveChecksum indices = .ok true) :
    ∃ count, 4 ≤ count ∧ count ≤ 8 ∧ indices.length = 3 * count := by
  by_contra hnone
  push Not at hnone
  have hlength : indices.length ≠ 12 ∧ indices.length ≠ 15 ∧
      indices.length ≠ 18 ∧ indices.length ≠ 21 ∧ indices.length ≠ 24 := by
    refine ⟨?_, ?_, ?_, ?_, ?_⟩
    · exact hnone 4 (by omega) (by omega)
    · exact hnone 5 (by omega) (by omega)
    · exact hnone 6 (by omega) (by omega)
    · exact hnone 7 (by omega) (by omega)
    · exact hnone 8 (by omega) (by omega)
  rw [validateIndices, if_pos hlength] at hvalid
  cases hvalid

/-- Indices are valid exactly when they belong to some entropy, and then to
one only. -/
theorem validateIndices_iff_entropy
    (deriveChecksum : List UInt8 → List UInt8) (indices : List ℕ) :
    (validateIndices deriveChecksum indices = .ok true ↔
      ∃ entropy, IsEntropyOf deriveChecksum indices entropy) ∧
    (validateIndices deriveChecksum indices = .ok true ↔
      ∃! entropy, IsEntropyOf deriveChecksum indices entropy) := by
  have hvalid : validateIndices deriveChecksum indices = .ok true ↔
      ∃ entropy, IsEntropyOf deriveChecksum indices entropy := by
    constructor
    · intro hvalid
      obtain ⟨count, hlow, hhigh, hlength⟩ :=
        validateIndices_true_length hvalid
      obtain ⟨entropy, hencodes⟩ :=
        (validateIndices_eq_true_iff hlength hlow hhigh).mp hvalid
      exact ⟨entropy, isEntropyOf_iff.mpr ⟨count, hlow, hhigh, hencodes⟩⟩
    · rintro ⟨entropy, hentropy⟩
      obtain ⟨count, hlow, hhigh, hencodes⟩ := isEntropyOf_iff.mp hentropy
      exact (validateIndices_eq_true_iff hencodes.length hlow hhigh).mpr
        ⟨entropy, hencodes⟩
  refine ⟨hvalid, ?_, ?_⟩
  · intro htrue
    obtain ⟨entropy, hentropy⟩ := hvalid.mp htrue
    refine ⟨entropy, hentropy, ?_⟩
    intro other hother
    obtain ⟨count, -, -, hencodes⟩ := isEntropyOf_iff.mp hentropy
    obtain ⟨count', -, -, hencodes'⟩ := isEntropyOf_iff.mp hother
    have hcount : count' = count := by
      have hlength := hencodes.length
      have hlength' := hencodes'.length
      omega
    subst hcount
    exact hencodes'.entropy_unique hencodes
  · rintro ⟨entropy, hentropy, -⟩
    exact hvalid.mpr ⟨entropy, hentropy⟩

/-- The phrase of sixteen zero bytes, whose SHA-256 begins with `0x37`, and
one with an index that is too large. -/
example :
    validateIndices (fun _ => [0x37]) (List.replicate 11 0 ++ [3]) =
        .ok true ∧
      validateIndices (fun _ => [0x37])
        (List.replicate 10 0 ++ [2048, 3]) = .ok false := by
  decide

end SoulonWallet.Mnemonic
