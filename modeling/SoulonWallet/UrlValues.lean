import SoulonWallet.FormUrlencoded
import SoulonWallet.KeyedMap

/-!
# Query values over bytes

The values of a URL query: under every key a list of byte strings.  The parser
skips the pieces that it cannot read, and the encoder writes the keys in their
order.  Parsing what was encoded gives the same values, so two sets of values
are encoded alike exactly when they are the same.
-/

namespace SoulonWallet.UrlValues

open FormUrlencoded (ampersand equals plus space plusToSpace)
open PercentCoding
open Utf8 (Bytes)

abbrev Values := KeyedMap Bytes (List Bytes)

def semicolon : UInt8 := 0x3B

/-- The letters, the digits, `-`, `_`, `.` and `~`. -/
def isUnreserved (byte : UInt8) : Bool :=
  isAlphanumeric byte || byte == 0x2D || byte == 0x5F || byte == 0x2E ||
    byte == 0x7E

def escapeByte (byte : UInt8) : Bytes :=
  if byte = space then [plus] else encodeByte isUnreserved byte

def queryEscape (bytes : Bytes) : Bytes :=
  bytes.flatMap escapeByte

def queryUnescape (bytes : Bytes) : Option Bytes :=
  unescape (plusToSpace bytes)

def valuesOf (values : Values) (key : Bytes) : List Bytes :=
  KeyedMap.get values key []

def addValue (values : Values) (pair : Bytes × Bytes) : Values :=
  values.insert pair.1 (valuesOf values pair.1 ++ [pair.2])

/-- The pair that a piece of a query stands for, if it can be read. -/
def parsePiece (piece : Bytes) : Option (Bytes × Bytes) :=
  if semicolon ∈ piece ∨ piece = [] then none
  else
    match queryUnescape (piece.takeWhile (· ≠ equals)),
      queryUnescape ((piece.dropWhile (· ≠ equals)).drop 1) with
    | some key, some value => some (key, value)
    | _, _ => none

def parseQuery (query : Bytes) : Values :=
  ((query.splitOn ampersand).filterMap parsePiece).foldl addValue ∅

def writePair (pair : Bytes × Bytes) : Bytes :=
  queryEscape pair.1 ++ equals :: queryEscape pair.2

/-- The order of strings, byte by byte. -/
def byteLe (left right : Bytes) : Prop :=
  left.map UInt8.toNat ≤ right.map UInt8.toNat

instance : DecidableRel byteLe :=
  fun left right => inferInstanceAs
    (Decidable (left.map UInt8.toNat ≤ right.map UInt8.toNat))

instance : Std.Total byteLe :=
  ⟨fun left right => le_total (left.map UInt8.toNat) (right.map UInt8.toNat)⟩

instance : IsTrans Bytes byteLe :=
  ⟨fun _ _ _ hleft hright => le_trans hleft hright⟩

theorem byteLe_antisymm
    {left right : Bytes} (hle : byteLe left right) (hge : byteLe right left) :
    left = right :=
  List.map_injective_iff.mpr (fun _ _ => UInt8.toNat_inj.mp)
    (le_antisymm hle hge)

/-- The pairs of the values, the keys in their order. -/
def pairsOf (values : Values) : List (Bytes × Bytes) :=
  (values.keys.insertionSort byteLe).flatMap fun key =>
    (valuesOf values key).map fun value => (key, value)

def encode (values : Values) : Bytes :=
  [ampersand].intercalate ((pairsOf values).map writePair)

/-! ## One text -/

theorem isUnreserved_hexDigit {value : ℕ} (hvalue : value < 16) :
    isUnreserved (hexDigit value) = true := by
  have hall : ∀ digit : Fin 16, isUnreserved (hexDigit digit) = true := by
    decide
  exact hall ⟨value, hvalue⟩

/-- The bytes that an escaped text consists of. -/
theorem mem_queryEscape
    {bytes : Bytes} {byte : UInt8} (hmem : byte ∈ queryEscape bytes) :
    isUnreserved byte = true ∨ byte = plus ∨ byte = percent := by
  obtain ⟨original, -, hmem⟩ := List.mem_flatMap.mp hmem
  have horiginal : original.toNat < 256 := UInt8.toNat_lt original
  unfold escapeByte at hmem
  split_ifs at hmem with hspace
  · exact Or.inr (Or.inl (List.mem_singleton.mp hmem))
  · unfold encodeByte at hmem
    split_ifs at hmem with hkept
    · rw [List.mem_singleton.mp hmem]
      exact Or.inl hkept
    · simp only [List.mem_cons, List.not_mem_nil, or_false] at hmem
      rcases hmem with rfl | rfl | rfl
      · exact Or.inr (Or.inr rfl)
      · exact Or.inl (isUnreserved_hexDigit (by omega))
      · exact Or.inl (isUnreserved_hexDigit (by omega))

theorem notMem_queryEscape
    {byte : UInt8} (hbyte : isUnreserved byte = false) (hplus : byte ≠ plus)
    (hpercent : byte ≠ percent) (bytes : Bytes) :
    byte ∉ queryEscape bytes := by
  intro hmem
  rcases mem_queryEscape hmem with hkept | hsame | hsame
  · rw [hbyte] at hkept
    cases hkept
  · exact hplus hsame
  · exact hpercent hsame

theorem plusToSpace_encodeByte (byte : UInt8) :
    plusToSpace (encodeByte isUnreserved byte) =
      encodeByte isUnreserved byte := by
  have hbyte : byte.toNat < 256 := UInt8.toNat_lt byte
  have hkept : ∀ other, isUnreserved other = true → other ≠ plus := by
    rintro _ hother rfl
    cases hother
  unfold encodeByte plusToSpace
  split_ifs with hform
  · simp [hkept byte hform]
  · have hhigh := hkept _ (isUnreserved_hexDigit
      (show byte.toNat / 16 < 16 by omega))
    have hlow := hkept _ (isUnreserved_hexDigit
      (show byte.toNat % 16 < 16 by omega))
    simp [hhigh, hlow, show percent ≠ plus by decide]

theorem queryUnescape_queryEscape (bytes : Bytes) :
    queryUnescape (queryEscape bytes) = some bytes := by
  unfold queryUnescape queryEscape
  induction bytes with
  | nil => rfl
  | cons byte rest ih =>
      have hsplit : plusToSpace ((byte :: rest).flatMap escapeByte) =
          plusToSpace (escapeByte byte) ++
            plusToSpace (rest.flatMap escapeByte) := by
        rw [List.flatMap_cons]
        exact List.map_append
      rw [hsplit]
      unfold escapeByte
      split_ifs with hspace
      · rw [hspace]
        have hread := unescape_cons_of_ne (show space ≠ percent by decide)
          (plusToSpace (rest.flatMap escapeByte))
        rw [ih] at hread
        exact hread
      · rw [plusToSpace_encodeByte,
          unescape_encodeByte_append (show isUnreserved percent = false by rfl)]
        rw [show (rest.flatMap fun byte => if byte = space then [plus] else
          encodeByte isUnreserved byte) = rest.flatMap escapeByte from rfl, ih]
        rfl

/-! ## Pieces -/

theorem notMem_writePair
    {byte : UInt8} (hbyte : isUnreserved byte = false) (hplus : byte ≠ plus)
    (hpercent : byte ≠ percent) (hequals : byte ≠ equals)
    (pair : Bytes × Bytes) :
    byte ∉ writePair pair := by
  unfold writePair
  rw [List.mem_append, List.mem_cons, not_or, not_or]
  exact ⟨notMem_queryEscape hbyte hplus hpercent _, hequals,
    notMem_queryEscape hbyte hplus hpercent _⟩

theorem parsePiece_writePair (pair : Bytes × Bytes) :
    parsePiece (writePair pair) = some pair := by
  have hread : semicolon ∉ writePair pair ∧ writePair pair ≠ [] := by
    refine ⟨notMem_writePair (by decide) (by decide) (by decide) (by decide)
      pair, ?_⟩
    intro hnil
    exact List.cons_ne_nil _ _ (List.append_eq_nil_iff.mp hnil).2
  have hkey : ∀ byte ∈ queryEscape pair.1,
      decide (byte ≠ equals) = true := by
    intro byte hmem
    apply decide_eq_true
    rintro rfl
    exact notMem_queryEscape (by decide) (by decide) (by decide) _ hmem
  unfold parsePiece
  rw [if_neg (not_or.mpr hread)]
  unfold writePair
  rw [List.takeWhile_append_of_pos hkey, List.dropWhile_append_of_pos hkey]
  simp [queryUnescape_queryEscape]

/-! ## Values -/

/-- No key is kept without a value. -/
def Filled (values : Values) : Prop :=
  ∀ key, values.lookup key ≠ some []

theorem lookup_of_filled
    {values : Values} (hfilled : Filled values) (key : Bytes) :
    values.lookup key =
      if valuesOf values key = [] then none
      else some (valuesOf values key) := by
  unfold valuesOf KeyedMap.get
  cases hlookup : values.lookup key with
  | none => rfl
  | some found =>
      have hfound : found ≠ [] := by
        rintro rfl
        exact hfilled key hlookup
      simp [hfound]

theorem valuesOf_addValue
    (values : Values) (pair : Bytes × Bytes) (key : Bytes) :
    valuesOf (addValue values pair) key =
      valuesOf values key ++ if pair.1 = key then [pair.2] else [] := by
  unfold addValue
  by_cases hkey : key = pair.1
  · subst hkey
    rw [if_pos rfl]
    exact KeyedMap.get_insert_self _ _ _ _
  · rw [if_neg (Ne.symm hkey), List.append_nil]
    exact KeyedMap.get_insert_of_ne _ _ _ hkey

theorem Filled.addValue
    {values : Values} (hfilled : Filled values) (pair : Bytes × Bytes) :
    Filled (addValue values pair) := by
  intro key
  unfold UrlValues.addValue
  rw [KeyedMap.lookup_insert_eq]
  split_ifs with hkey
  · simp
  · exact hfilled key

theorem filled_foldl
    (pairs : List (Bytes × Bytes)) {values : Values}
    (hfilled : Filled values) :
    Filled (pairs.foldl addValue values) := by
  induction pairs generalizing values with
  | nil => exact hfilled
  | cons pair rest ih => exact ih (hfilled.addValue pair)

theorem valuesOf_foldl
    (pairs : List (Bytes × Bytes)) (values : Values) (key : Bytes) :
    valuesOf (pairs.foldl addValue values) key =
      valuesOf values key ++
        (pairs.filter fun pair => pair.1 = key).map Prod.snd := by
  induction pairs generalizing values with
  | nil => simp
  | cons pair rest ih =>
      rw [List.foldl_cons, ih, valuesOf_addValue, List.append_assoc]
      congr 1
      by_cases hkey : pair.1 = key
      · simp [hkey]
      · simp [hkey]

theorem parseQuery_filled (query : Bytes) : Filled (parseQuery query) := by
  apply filled_foldl
  intro key hlookup
  cases hlookup

/-- What is read of the pairs of some values under a key. -/
theorem filter_flatMap_key
    {keys : List Bytes} (hkeys : keys.Nodup) (values : Values) (key : Bytes) :
    ((keys.flatMap fun other => (valuesOf values other).map fun value =>
        (other, value)).filter fun pair => pair.1 = key).map Prod.snd =
      if key ∈ keys then valuesOf values key else [] := by
  induction keys with
  | nil => rfl
  | cons first rest ih =>
      obtain ⟨hfirst, hrest⟩ := List.nodup_cons.mp hkeys
      rw [List.flatMap_cons, List.filter_append, List.map_append, ih hrest]
      by_cases hkey : first = key
      · subst hkey
        have hall : ((valuesOf values first).map fun value =>
            (first, value)).filter (fun pair => pair.1 = first) =
            (valuesOf values first).map fun value => (first, value) := by
          rw [List.filter_eq_self]
          intro pair hpair
          obtain ⟨value, -, rfl⟩ := List.mem_map.mp hpair
          exact decide_eq_true rfl
        rw [hall, if_neg hfirst, List.append_nil, List.map_map,
          if_pos List.mem_cons_self]
        exact List.map_id _
      · have hnone : ((valuesOf values first).map fun value =>
            (first, value)).filter (fun pair => pair.1 = key) = [] := by
          rw [List.filter_eq_nil_iff]
          intro pair hpair
          obtain ⟨value, -, rfl⟩ := List.mem_map.mp hpair
          simpa using hkey
        rw [hnone]
        simp [Ne.symm hkey]

theorem valuesOf_foldl_pairsOf (values : Values) (key : Bytes) :
    valuesOf ((pairsOf values).foldl addValue ∅) key =
      valuesOf values key := by
  have hnodup : (values.keys.insertionSort byteLe).Nodup :=
    (List.perm_insertionSort _ _).nodup_iff.mpr values.keys_nodup
  rw [valuesOf_foldl]
  unfold pairsOf
  rw [filter_flatMap_key hnodup]
  by_cases hmem : key ∈ values.keys
  · rw [if_pos ((List.mem_insertionSort _).mpr hmem)]
    rfl
  · rw [if_neg (fun hsorted => hmem ((List.mem_insertionSort _).mp hsorted))]
    have hlookup : values.lookup key = none :=
      AList.lookup_eq_none.mpr hmem
    simp [valuesOf, KeyedMap.get, hlookup]

/-! ## Reading what was written -/

theorem parseQuery_encode_pairs (values : Values) :
    (((encode values).splitOn ampersand).filterMap parsePiece) =
      pairsOf values := by
  have hread : ((pairsOf values).map writePair).filterMap parsePiece =
      pairsOf values := by
    rw [List.filterMap_map]
    have hsome : parsePiece ∘ writePair = some := funext parsePiece_writePair
    rw [hsome, List.filterMap_some]
  unfold encode
  by_cases hempty : pairsOf values = []
  · rw [hempty]
    rfl
  · rw [List.splitOn_intercalate, hread]
    · intro piece hpiece
      obtain ⟨pair, -, rfl⟩ := List.mem_map.mp hpiece
      exact notMem_writePair (by decide) (by decide) (by decide) (by decide)
        pair
    · rwa [ne_eq, List.map_eq_nil_iff]

theorem lookup_parseQuery_encode
    {values : Values} (hfilled : Filled values) (key : Bytes) :
    (parseQuery (encode values)).lookup key = values.lookup key := by
  rw [lookup_of_filled (parseQuery_filled _), lookup_of_filled hfilled]
  unfold parseQuery
  rw [parseQuery_encode_pairs, valuesOf_foldl_pairsOf]

theorem pairsOf_congr
    {left right : Values} (hsame : ∀ key, left.lookup key = right.lookup key) :
    pairsOf left = pairsOf right := by
  have hkeys : left.keys.Perm right.keys := by
    apply (List.perm_ext_iff_of_nodup left.keys_nodup right.keys_nodup).mpr
    intro key
    rw [KeyedMap.mem_keys_iff, KeyedMap.mem_keys_iff, hsame]
  have hsorted : left.keys.insertionSort byteLe =
      right.keys.insertionSort byteLe := by
    have hperm := ((List.perm_insertionSort byteLe _).trans hkeys).trans
      (List.perm_insertionSort byteLe _).symm
    exact List.Perm.eq_of_pairwise
      (fun _ _ _ _ hle hge => byteLe_antisymm hle hge)
      (List.pairwise_insertionSort byteLe _)
      (List.pairwise_insertionSort byteLe _) hperm
  have hvalues : valuesOf left = valuesOf right := by
    funext key
    simp [valuesOf, KeyedMap.get, hsame key]
  unfold pairsOf
  rw [hsorted, hvalues]

theorem encode_eq_iff
    {left right : Values} (hleft : Filled left) (hright : Filled right) :
    encode left = encode right ↔
      ∀ key, left.lookup key = right.lookup key := by
  constructor
  · intro hencode key
    rw [← lookup_parseQuery_encode hleft, hencode,
      lookup_parseQuery_encode hright]
  · intro hsame
    unfold encode
    rw [pairsOf_congr hsame]

end SoulonWallet.UrlValues
