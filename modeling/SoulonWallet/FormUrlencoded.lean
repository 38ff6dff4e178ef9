import SoulonWallet.PercentCoding

/-!
# Forms in URLs

The serializer and the parser of `application/x-www-form-urlencoded`.  A name
and a value are joined by an equals sign, the pairs by ampersands; a space is
written as a plus sign, and every byte of a text that is neither a letter nor
a digit nor one of four marks as an escape.  So no separator is left in what
is written of a text, and parsing gives the pairs back.
-/

namespace SoulonWallet.FormUrlencoded

open PercentCoding
open Utf8 (Bytes)

def space : UInt8 := 0x20

def plus : UInt8 := 0x2B

def ampersand : UInt8 := 0x26

def equals : UInt8 := 0x3D

/-- The letters, the digits, `*`, `-`, `.` and `_`. -/
def isFormByte (byte : UInt8) : Bool :=
  isAlphanumeric byte || byte == 0x2A || byte == 0x2D || byte == 0x2E ||
    byte == 0x5F

def serializeByte (byte : UInt8) : Bytes :=
  if byte = space then [plus] else encodeByte isFormByte byte

def serializeText (text : List Char) : Bytes :=
  (Utf8.encode text).flatMap serializeByte

def serializePair (pair : List Char × List Char) : Bytes :=
  serializeText pair.1 ++ equals :: serializeText pair.2

def serialize (pairs : List (List Char × List Char)) : Bytes :=
  [ampersand].intercalate (pairs.map serializePair)

def plusToSpace (bytes : Bytes) : Bytes :=
  bytes.map fun byte => if byte = plus then space else byte

def parseText (bytes : Bytes) : List Char :=
  Utf8.decode (percentDecode (plusToSpace bytes))

/-- Without an equals sign everything is the name. -/
def parsePair (bytes : Bytes) : List Char × List Char :=
  (parseText (bytes.takeWhile (· ≠ equals)),
    parseText ((bytes.dropWhile (· ≠ equals)).drop 1))

def parse (bytes : Bytes) : List (List Char × List Char) :=
  ((bytes.splitOn ampersand).filter (· ≠ [])).map parsePair

/-! ## The bytes of the serializer -/

/-- The bytes that the serializer writes for a text. -/
def isWritten (byte : UInt8) : Bool :=
  isFormByte byte || byte == plus || byte == percent

theorem toNat_of_isWritten
    {byte : UInt8} (hwritten : isWritten byte = true) :
    0x20 < byte.toNat ∧ byte.toNat < 0x80 ∧ byte.toNat ≠ 0x23 ∧
      byte.toNat ≠ 0x3F := by
  simp only [isWritten, isFormByte, isAlphanumeric, Bool.or_eq_true,
    Bool.and_eq_true, decide_eq_true_eq, beq_iff_eq, plus, percent,
    UInt8.le_iff_toNat_le, ← UInt8.toNat_inj] at hwritten
  simp at hwritten
  omega

theorem isWritten_hexDigit {value : ℕ} (hvalue : value < 16) :
    isWritten (hexDigit value) = true := by
  have hall : ∀ digit : Fin 16, isWritten (hexDigit digit) = true := by
    decide
  exact hall ⟨value, hvalue⟩

theorem isWritten_of_mem_serializeByte
    {byte written : UInt8} (hmem : written ∈ serializeByte byte) :
    isWritten written = true := by
  have hbyte : byte.toNat < 256 := UInt8.toNat_lt byte
  unfold serializeByte at hmem
  split_ifs at hmem with hspace
  · rw [List.mem_singleton.mp hmem]
    rfl
  · unfold encodeByte at hmem
    split_ifs at hmem with hform
    · rw [List.mem_singleton.mp hmem, isWritten, hform]
      rfl
    · simp only [List.mem_cons, List.not_mem_nil, or_false] at hmem
      rcases hmem with rfl | rfl | rfl
      · rfl
      · exact isWritten_hexDigit (by omega)
      · exact isWritten_hexDigit (by omega)

theorem isWritten_of_mem
    {text : List Char} {byte : UInt8} (hmem : byte ∈ serializeText text) :
    isWritten byte = true := by
  obtain ⟨original, -, hwritten⟩ := List.mem_flatMap.mp hmem
  exact isWritten_of_mem_serializeByte hwritten

theorem notMem_serializeText
    (text : List Char) {byte : UInt8} (hbyte : isWritten byte = false) :
    byte ∉ serializeText text := by
  intro hmem
  rw [isWritten_of_mem hmem] at hbyte
  cases hbyte

/-! ## Texts -/

theorem unescape_plusToSpace_serializeByte (byte : UInt8) (rest : Bytes) :
    unescape (plusToSpace (serializeByte byte) ++ rest) =
      (unescape rest).map (byte :: ·) := by
  have hnotPlus : ∀ digit < 16, hexDigit digit ≠ plus := by
    intro digit hdigit
    have hall : ∀ digit : Fin 16, hexDigit digit ≠ plus := by decide
    exact hall ⟨digit, hdigit⟩
  have hbyte : byte.toNat < 256 := UInt8.toNat_lt byte
  unfold serializeByte
  split_ifs with hspace
  · rw [hspace]
    exact unescape_cons_of_ne (by decide) rest
  · have hkept : plusToSpace (encodeByte isFormByte byte) =
        encodeByte isFormByte byte := by
      unfold encodeByte plusToSpace
      split_ifs with hform
      · have hne : byte ≠ plus := by
          rintro rfl
          cases hform
        simp [hne]
      · simp [hnotPlus _ (show byte.toNat / 16 < 16 by omega),
          hnotPlus _ (show byte.toNat % 16 < 16 by omega),
          show percent ≠ plus by decide]
    rw [hkept]
    exact unescape_encodeByte_append (by decide) byte rest

theorem unescape_serializeText (text : List Char) :
    unescape (plusToSpace (serializeText text)) =
      some (Utf8.encode text) := by
  unfold serializeText
  induction Utf8.encode text with
  | nil => rfl
  | cons byte rest ih =>
      have hsplit : plusToSpace ((byte :: rest).flatMap serializeByte) =
          plusToSpace (serializeByte byte) ++
            plusToSpace (rest.flatMap serializeByte) := by
        rw [List.flatMap_cons]
        exact List.map_append
      rw [hsplit, unescape_plusToSpace_serializeByte, ih]
      rfl

@[simp] theorem parseText_serializeText (text : List Char) :
    parseText (serializeText text) = text := by
  unfold parseText
  rw [percentDecode_of_unescape (unescape_serializeText text),
    Utf8.decode_encode]

/-! ## Pairs -/

theorem parsePair_serializePair (pair : List Char × List Char) :
    parsePair (serializePair pair) = pair := by
  have hname : ∀ byte ∈ serializeText pair.1,
      decide (byte ≠ equals) = true := by
    intro byte hmem
    apply decide_eq_true
    rintro rfl
    exact notMem_serializeText pair.1 rfl hmem
  unfold parsePair serializePair
  rw [List.takeWhile_append_of_pos hname, List.dropWhile_append_of_pos hname]
  simp

theorem ampersand_notMem_serializePair (pair : List Char × List Char) :
    ampersand ∉ serializePair pair := by
  unfold serializePair
  rw [List.mem_append, List.mem_cons, not_or, not_or]
  exact ⟨notMem_serializeText pair.1 rfl, by decide,
    notMem_serializeText pair.2 rfl⟩

theorem serializePair_ne_nil (pair : List Char × List Char) :
    serializePair pair ≠ [] := by
  intro hnil
  exact List.cons_ne_nil _ _ (List.append_eq_nil_iff.mp hnil).2

theorem splitOn_serialize
    {pairs : List (List Char × List Char)} (hpairs : pairs ≠ []) :
    (serialize pairs).splitOn ampersand = pairs.map serializePair := by
  apply List.splitOn_intercalate
  · intro piece hpiece
    obtain ⟨pair, -, rfl⟩ := List.mem_map.mp hpiece
    exact ampersand_notMem_serializePair pair
  · rwa [ne_eq, List.map_eq_nil_iff]

theorem parse_serialize (pairs : List (List Char × List Char)) :
    parse (serialize pairs) = pairs := by
  by_cases hpairs : pairs = []
  · rw [hpairs]
    rfl
  · have hfilter : (pairs.map serializePair).filter (· ≠ []) =
        pairs.map serializePair := by
      rw [List.filter_eq_self]
      intro piece hpiece
      obtain ⟨pair, -, rfl⟩ := List.mem_map.mp hpiece
      exact decide_eq_true (serializePair_ne_nil pair)
    unfold parse
    rw [splitOn_serialize hpairs, hfilter, List.map_map]
    exact List.map_id'' parsePair_serializePair pairs

theorem serialize_eq_nil_iff {pairs : List (List Char × List Char)} :
    serialize pairs = [] ↔ pairs = [] := by
  constructor
  · intro hnil
    rw [← parse_serialize pairs, hnil]
    rfl
  · rintro rfl
    rfl

theorem serialize_cons
    (pair : List Char × List Char) {pairs : List (List Char × List Char)}
    (hpairs : pairs ≠ []) :
    serialize (pair :: pairs) =
      serializePair pair ++ ampersand :: serialize pairs := by
  unfold serialize
  rw [List.map_cons, List.intercalate_cons_of_ne_nil, List.append_assoc,
    List.singleton_append]
  rwa [ne_eq, List.map_eq_nil_iff]

/-- The bytes of a query: those of its texts and the separators. -/
theorem mem_serialize
    {pairs : List (List Char × List Char)} {byte : UInt8}
    (hmem : byte ∈ serialize pairs) :
    isWritten byte = true ∨ byte = ampersand ∨ byte = equals := by
  have hpair : ∀ pair, byte ∈ serializePair pair →
      isWritten byte = true ∨ byte = equals := by
    intro pair hpair
    unfold serializePair at hpair
    rw [List.mem_append, List.mem_cons] at hpair
    rcases hpair with hname | rfl | hvalue
    · exact Or.inl (isWritten_of_mem hname)
    · exact Or.inr rfl
    · exact Or.inl (isWritten_of_mem hvalue)
  induction pairs with
  | nil => cases hmem
  | cons pair rest ih =>
      by_cases hrest : rest = []
      · rw [hrest, serialize, List.map_singleton,
          List.intercalate_singleton] at hmem
        exact (hpair pair hmem).imp_right Or.inr
      · rw [serialize_cons pair hrest, List.mem_append, List.mem_cons]
          at hmem
        rcases hmem with hmem | rfl | hmem
        · exact (hpair pair hmem).imp_right Or.inr
        · exact Or.inr (Or.inl rfl)
        · exact ih hmem

/-- They are printable, and none is a number sign or a question mark. -/
theorem toNat_of_mem_serialize
    {pairs : List (List Char × List Char)} {byte : UInt8}
    (hmem : byte ∈ serialize pairs) :
    0x20 < byte.toNat ∧ byte.toNat < 0x80 ∧ byte.toNat ≠ 0x23 ∧
      byte.toNat ≠ 0x3F := by
  rcases mem_serialize hmem with hwritten | rfl | rfl
  · exact toNat_of_isWritten hwritten
  · decide
  · decide

end SoulonWallet.FormUrlencoded
