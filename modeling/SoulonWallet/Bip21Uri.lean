import SoulonWallet.Binary64
import SoulonWallet.ExceptResults
import SoulonWallet.FormUrlencoded
import SoulonWallet.Utf16Scalars
import SoulonWallet.WalletErrors

/-!
# Payment URIs of the wallet

`generateBip21Uri` validates its fields and writes the address as it is, the
amount and the memo into a query; `parseBip21Uri` takes the text apart at the
first colon and the first question mark and validates the parts again.

Both produce and accept the same normalized fields: every accepted text has
valid ones, they are written back to a URI, and that is read as the same
fields.  The lower-casing of texts beyond ASCII is a parameter.
-/

namespace SoulonWallet.Bip21

open FormUrlencoded (serialize serializePair)
open Utf16 (isWhiteSpace trimUnits IsTrimmed)
open Wallet (SoulonWalletError)

/-! ## The validators -/

/-- White space of JavaScript, for `trim` and for `\s`. -/
def isSpace (unit : UInt16) : Bool :=
  isWhiteSpace unit && unit != 0x85

def trim (text : Utf16) : Utf16 :=
  ⟨trimUnits isSpace text.units⟩

def invalidUri (message : Utf16) : SoulonWalletError where
  code := "BIP21_INVALID_URI"
  message := message

def invalidScheme (message : Utf16) : SoulonWalletError where
  code := "BIP21_INVALID_SCHEME"
  message := message

def invalidAddress (message : Utf16) : SoulonWalletError where
  code := "BIP21_INVALID_ADDRESS"
  message := message

def invalidAmount (message : Utf16) : SoulonWalletError where
  code := "BIP21_INVALID_AMOUNT"
  message := message

def normalizeNonEmpty (value : Utf16) (err : SoulonWalletError) :
    Except SoulonWalletError Utf16 :=
  if (trim value).isEmpty then .error err else .ok (trim value)

def isLower (unit : UInt16) : Bool :=
  0x61 ≤ unit && unit ≤ 0x7A

def isDigit (unit : UInt16) : Bool :=
  0x30 ≤ unit && unit ≤ 0x39

/-- `+`, `.` and `-` besides letters and digits. -/
def isSchemeUnit (unit : UInt16) : Bool :=
  isLower unit || isDigit unit || unit == 0x2B || unit == 0x2E ||
    unit == 0x2D

def matchesScheme : List UInt16 → Bool
  | [] => false
  | first :: rest => isLower first && rest.all isSchemeUnit

def validateScheme (unicode : Utf16 → Utf16) (scheme : Utf16) :
    Except SoulonWalletError Utf16 := do
  let trimmed ← normalizeNonEmpty scheme
    (invalidScheme "BIP-21 scheme is required")
  let normalizedScheme := trimmed.toLowerCase unicode
  if matchesScheme normalizedScheme.units then .ok normalizedScheme
  else .error (invalidScheme "BIP-21 scheme is invalid")

def colon : UInt16 := 0x3A

def questionMark : UInt16 := 0x3F

def numberSign : UInt16 := 0x23

def isInvalidAddressUnit (unit : UInt16) : Bool :=
  isSpace unit || unit == questionMark || unit == numberSign

def validateAddress (address : Utf16) : Except SoulonWalletError Utf16 := do
  let normalizedAddress ← normalizeNonEmpty address
    (invalidAddress "BIP-21 address is required")
  if normalizedAddress.units.any isInvalidAddressUnit then
    .error (invalidAddress "BIP-21 address is invalid")
  else .ok normalizedAddress

def decimalPoint : UInt16 := 0x2E

/-- No leading zero unless it is the only digit, and digits behind a point
if there is one. -/
def matchesAmount (units : List UInt16) : Bool :=
  let whole := units.takeWhile isDigit
  let rest := units.dropWhile isDigit
  (whole == [0x30] || (!whole.isEmpty && whole.head? != some 0x30)) &&
    match rest with
    | [] => true
    | point :: fraction =>
        point == decimalPoint && !fraction.isEmpty && fraction.all isDigit

def digitsValue (digits : List UInt16) : ℕ :=
  digits.foldl (fun value unit => value * 10 + (unit.toNat - 0x30)) 0

/-- `Number` of a text that is an amount. -/
def numberOf (units : List UInt16) : Binary64 :=
  let whole := units.takeWhile isDigit
  let fraction := (units.dropWhile isDigit).drop 1
  .round (digitsValue whole + digitsValue fraction / 10 ^ fraction.length)

def isAmount (units : List UInt16) : Bool :=
  matchesAmount units && !(Binary64.ge (.finite 0) (numberOf units))

def validateAmount (amount : Utf16) : Except SoulonWalletError Utf16 := do
  let normalizedAmount ← normalizeNonEmpty amount
    (invalidAmount "BIP-21 amount is required")
  if isAmount normalizedAmount.units then .ok normalizedAmount
  else .error (invalidAmount "BIP-21 amount is invalid")

/-! ## Query parameters -/

abbrev SearchParams := List (List Char × List Char)

namespace SearchParams

def set (params : SearchParams) (name : String) (value : Utf16) :
    SearchParams :=
  match params with
  | [] => [(name.toList, value.toChars)]
  | pair :: rest =>
      if pair.1 = name.toList then
        (name.toList, value.toChars) ::
          rest.filter fun other => other.1 ≠ name.toList
      else pair :: set rest name value

def get (params : SearchParams) (name : String) : Option Utf16 :=
  (params.find? fun pair => pair.1 = name.toList).map fun pair =>
    .ofChars pair.2

def toText (params : SearchParams) : Utf16 :=
  .ofAscii (serialize params)

/-- `new URLSearchParams(init)`. -/
def ofText (init : Utf16) : SearchParams :=
  let query :=
    match init.units with
    | [] => []
    | first :: rest => if first = questionMark then rest else first :: rest
  FormUrlencoded.parse (Utf8.encode (Utf16.toChars ⟨query⟩))

end SearchParams

/-! ## The two functions -/

structure GenerateBip21UriInput where
  address : Utf16
  amount : Option Utf16 := none
  memo : Option Utf16 := none
  scheme : Option Utf16 := none

@[ext] structure ParsedBip21Uri where
  scheme : Utf16
  address : Utf16
  amount : Option Utf16 := none
  memo : Option Utf16 := none
  deriving DecidableEq

def validateAmount? (amount : Option Utf16) :
    Except SoulonWalletError (Option Utf16) :=
  match amount with
  | none => .ok none
  | some amount => (validateAmount amount).map some

/-- The trimmed memo, unless it is blank. -/
def normalizedMemo (memo : Utf16) : Option Utf16 :=
  if (trim memo).isEmpty then none else some (trim memo)

/-- The parameters after the calls of `set`. -/
def searchParams (amount memo : Option Utf16) : SearchParams :=
  let withAmount : SearchParams :=
    match amount with
    | none => []
    | some amount => SearchParams.set [] "amount" amount
  match memo with
  | none => withAmount
  | some memo => withAmount.set "memo" memo

def generateBip21Uri (unicode : Utf16 → Utf16)
    (input : GenerateBip21UriInput) : Except SoulonWalletError Utf16 := do
  let scheme ← validateScheme unicode (input.scheme.getD "bitcoin")
  let address ← validateAddress input.address
  let amount ← validateAmount? input.amount
  let query := (searchParams amount (input.memo.bind normalizedMemo)).toText
  if query.isEmpty then .ok (scheme ++ (":" : Utf16) ++ address)
  else
    .ok (scheme ++ (":" : Utf16) ++ address ++ ("?" : Utf16) ++ query)

def parseBip21Uri (unicode : Utf16 → Utf16) (uri : Utf16) :
    Except SoulonWalletError ParsedBip21Uri := do
  let normalizedUri ← normalizeNonEmpty uri
    (invalidUri "BIP-21 URI is required")
  match normalizedUri.units.idxOf? colon with
  | none | some 0 => .error (invalidUri "BIP-21 URI is invalid")
  | some (before + 1) =>
      let scheme ← validateScheme unicode
        ⟨normalizedUri.units.take (before + 1)⟩
      let payload := normalizedUri.units.drop (before + 2)
      if payload = [] then .error (invalidUri "BIP-21 URI is invalid")
      else
        match payload.idxOf? questionMark with
        | none => do
            let address ← validateAddress ⟨payload⟩
            .ok { scheme, address }
        | some queryIndex => do
            let address ← validateAddress ⟨payload.take queryIndex⟩
            let searchParams :=
              SearchParams.ofText ⟨payload.drop (queryIndex + 1)⟩
            let amount ← validateAmount? (searchParams.get "amount")
            let memo :=
              (searchParams.get "memo").or (searchParams.get "message")
            .ok { scheme, address, amount, memo := memo.bind normalizedMemo }

/-! ## Units -/

theorem isSchemeUnit_iff {unit : UInt16} :
    isSchemeUnit unit = true ↔
      (0x61 ≤ unit.toNat ∧ unit.toNat ≤ 0x7A) ∨
        (0x30 ≤ unit.toNat ∧ unit.toNat ≤ 0x39) ∨ unit.toNat = 0x2B ∨
        unit.toNat = 0x2E ∨ unit.toNat = 0x2D := by
  simp [isSchemeUnit, isLower, isDigit, UInt16.le_iff_toNat_le,
    ← UInt16.toNat_inj, or_assoc]

theorem isSpace_iff {unit : UInt16} :
    isSpace unit = true ↔
      (9 ≤ unit.toNat ∧ unit.toNat ≤ 0xD) ∨ unit.toNat = 0x20 ∨
        unit.toNat = 0xA0 ∨ unit.toNat = 0x1680 ∨
        (0x2000 ≤ unit.toNat ∧ unit.toNat ≤ 0x200A) ∨
        unit.toNat = 0x2028 ∨ unit.toNat = 0x2029 ∨ unit.toNat = 0x202F ∨
        unit.toNat = 0x205F ∨ unit.toNat = 0x3000 ∨
        unit.toNat = 0xFEFF := by
  simp only [isSpace, isWhiteSpace, Bool.and_eq_true, Bool.or_eq_true,
    decide_eq_true_eq, beq_iff_eq, bne_iff_ne, UInt16.le_iff_toNat_le,
    ← UInt16.toNat_inj, ne_eq]
  simp
  omega

theorem isSpace_eq_false_of
    {unit : UInt16} (hlow : 0x20 < unit.toNat) (hhigh : unit.toNat < 0x80) :
    isSpace unit = false := by
  rw [Bool.eq_false_iff, ne_eq, isSpace_iff]
  omega

theorem isSpace_eq_false_of_surrogate
    {unit : UInt16} (hlow : 0xD800 ≤ unit.toNat)
    (hhigh : unit.toNat ≤ 0xDFFF) : isSpace unit = false := by
  rw [Bool.eq_false_iff, ne_eq, isSpace_iff]
  omega

/-! ## Valid fields -/

theorem trim_eq_self
    {text : Utf16} (htext : IsTrimmed isSpace text.units) :
    trim text = text :=
  congrArg Utf16.mk (Utf16.trimUnits_eq_self htext)

theorem isTrimmed_of_forall
    {units : List UInt16} (hunits : ∀ unit ∈ units, isSpace unit = false) :
    IsTrimmed isSpace units := by
  constructor
  · exact fun unit hunit => hunits unit (List.mem_of_mem_head? hunit)
  · exact fun unit hunit => hunits unit (List.mem_of_getLast? hunit)

theorem normalizeNonEmpty_eq_ok_iff
    {value normalized : Utf16} {err : SoulonWalletError} :
    normalizeNonEmpty value err = .ok normalized ↔
      normalized = trim value ∧ (trim value).isEmpty = false := by
  unfold normalizeNonEmpty
  split_ifs with hempty
  · simp [hempty]
  · simp [hempty, eq_comm]

theorem mem_of_matchesScheme
    {units : List UInt16} (hscheme : matchesScheme units = true) :
    units ≠ [] ∧ ∀ unit ∈ units, isSchemeUnit unit = true := by
  cases units with
  | nil => cases hscheme
  | cons first rest =>
      unfold matchesScheme at hscheme
      rw [Bool.and_eq_true, List.all_eq_true] at hscheme
      refine ⟨List.cons_ne_nil _ _, ?_⟩
      intro unit hunit
      rcases List.mem_cons.mp hunit with rfl | hrest
      · simp [isSchemeUnit, hscheme.1]
      · exact hscheme.2 unit hrest

theorem validateScheme_eq_ok
    {unicode : Utf16 → Utf16} {scheme normalized : Utf16}
    (hscheme : validateScheme unicode scheme = .ok normalized) :
    normalized = (trim scheme).toLowerCase unicode ∧
      matchesScheme normalized.units = true := by
  obtain ⟨trimmed, htrimmed, hlower⟩ := bind_eq_ok_iff.mp hscheme
  obtain ⟨rfl, -⟩ := normalizeNonEmpty_eq_ok_iff.mp htrimmed
  simp only at hlower
  split_ifs at hlower with hmatches
  obtain rfl := Except.ok.inj hlower
  exact ⟨rfl, hmatches⟩

theorem toLowerCase_of_matches
    (unicode : Utf16 → Utf16) {scheme : Utf16}
    (hscheme : matchesScheme scheme.units = true) :
    scheme.toLowerCase unicode = scheme := by
  obtain ⟨-, hunits⟩ := mem_of_matchesScheme hscheme
  have hascii : scheme.units.all (· < 0x80) = true := by
    rw [List.all_eq_true]
    intro unit hunit
    have hbounds := isSchemeUnit_iff.mp (hunits unit hunit)
    rw [decide_eq_true_iff, UInt16.lt_iff_toNat_lt]
    have hlimit : (0x80 : UInt16).toNat = 0x80 := rfl
    omega
  have hkeep : ∀ unit ∈ scheme.units, Utf16.lowerUnit unit = id unit := by
    intro unit hunit
    have hbounds := isSchemeUnit_iff.mp (hunits unit hunit)
    apply if_neg
    rw [UInt16.le_iff_toNat_le, UInt16.le_iff_toNat_le]
    have hlow : (0x41 : UInt16).toNat = 0x41 := rfl
    have hhigh : (0x5A : UInt16).toNat = 0x5A := rfl
    omega
  rw [Utf16.toLowerCase, if_pos hascii, List.map_congr_left hkeep,
    List.map_id]

theorem isSpace_of_isSchemeUnit
    {unit : UInt16} (hunit : isSchemeUnit unit = true) :
    isSpace unit = false := by
  have hbounds := isSchemeUnit_iff.mp hunit
  apply isSpace_eq_false_of
  · omega
  · omega

theorem isEmpty_eq_false_iff {text : Utf16} :
    text.isEmpty = false ↔ text.units ≠ [] := by
  rw [Utf16.isEmpty, List.isEmpty_eq_false_iff]

/-- A text that is trimmed and not empty is its own normal form. -/
theorem normalizeNonEmpty_of_trimmed
    {value : Utf16} (hne : value.units ≠ [])
    (htrimmed : IsTrimmed isSpace value.units) (err : SoulonWalletError) :
    normalizeNonEmpty value err = .ok value := by
  rw [normalizeNonEmpty_eq_ok_iff, trim_eq_self htrimmed]
  exact ⟨rfl, isEmpty_eq_false_iff.mpr hne⟩

theorem validateScheme_of_matches
    (unicode : Utf16 → Utf16) {scheme : Utf16}
    (hscheme : matchesScheme scheme.units = true) :
    validateScheme unicode scheme = .ok scheme := by
  obtain ⟨hne, hunits⟩ := mem_of_matchesScheme hscheme
  have htrimmed : IsTrimmed isSpace scheme.units :=
    isTrimmed_of_forall fun unit hunit =>
      isSpace_of_isSchemeUnit (hunits unit hunit)
  unfold validateScheme
  rw [normalizeNonEmpty_of_trimmed hne htrimmed]
  simp only [bind, Except.bind, toLowerCase_of_matches unicode hscheme,
    hscheme, if_true]

/-- An address that the validator returns. -/
def ValidAddress (address : Utf16) : Prop :=
  address.units ≠ [] ∧
    ∀ unit ∈ address.units, isInvalidAddressUnit unit = false

theorem validateAddress_eq_ok
    {address normalized : Utf16}
    (haddress : validateAddress address = .ok normalized) :
    normalized = trim address ∧ ValidAddress normalized := by
  obtain ⟨trimmed, htrimmed, hunits⟩ := bind_eq_ok_iff.mp haddress
  obtain ⟨rfl, hne⟩ := normalizeNonEmpty_eq_ok_iff.mp htrimmed
  split_ifs at hunits with hinvalid
  obtain rfl := Except.ok.inj hunits
  rw [Bool.not_eq_true, List.any_eq_false] at hinvalid
  refine ⟨rfl, isEmpty_eq_false_iff.mp hne, ?_⟩
  intro unit hunit
  exact Bool.eq_false_iff.mpr (hinvalid unit hunit)

theorem ValidAddress.isSpace_eq_false
    {address : Utf16} (haddress : ValidAddress address) :
    ∀ unit ∈ address.units, isSpace unit = false := by
  intro unit hunit
  have hvalid := haddress.2 unit hunit
  simp only [isInvalidAddressUnit, Bool.or_eq_false_iff] at hvalid
  exact hvalid.1.1

theorem validateAddress_of_valid
    {address : Utf16} (haddress : ValidAddress address) :
    validateAddress address = .ok address := by
  have hnone : address.units.any isInvalidAddressUnit = false := by
    rw [List.any_eq_false]
    intro unit hunit
    rw [haddress.2 unit hunit]
    exact Bool.false_ne_true
  unfold validateAddress
  rw [normalizeNonEmpty_of_trimmed haddress.1
    (isTrimmed_of_forall haddress.isSpace_eq_false)]
  simp only [bind, Except.bind, hnone, Bool.false_eq_true, if_false]

/-- The units of an amount. -/
theorem mem_of_isAmount
    {units : List UInt16} (hamount : isAmount units = true) :
    units ≠ [] ∧
      ∀ unit ∈ units, isDigit unit = true ∨ unit = decimalPoint := by
  simp only [isAmount, matchesAmount, Bool.and_eq_true] at hamount
  obtain ⟨⟨hwhole, hrest⟩, -⟩ := hamount
  have hsplit := List.takeWhile_append_dropWhile (p := isDigit) (l := units)
  constructor
  · rintro rfl
    cases hwhole
  · intro unit hunit
    rw [← hsplit, List.mem_append] at hunit
    rcases hunit with hunit | hunit
    · exact Or.inl (List.mem_takeWhile_imp hunit)
    · cases hdrop : units.dropWhile isDigit with
      | nil =>
          rw [hdrop] at hunit
          cases hunit
      | cons point fraction =>
          rw [hdrop] at hunit hrest
          simp only [Bool.and_eq_true, beq_iff_eq, List.all_eq_true]
            at hrest
          rcases List.mem_cons.mp hunit with rfl | hfraction
          · exact Or.inr hrest.1.1
          · exact Or.inl (hrest.2 unit hfraction)

theorem toNat_of_isAmount
    {units : List UInt16} (hamount : isAmount units = true) :
    ∀ unit ∈ units, 0x20 < unit.toNat ∧ unit.toNat < 0x80 := by
  intro unit hunit
  rcases (mem_of_isAmount hamount).2 unit hunit with hdigit | rfl
  · simp only [isDigit, Bool.and_eq_true, decide_eq_true_eq,
      UInt16.le_iff_toNat_le] at hdigit
    have hlow : (0x30 : UInt16).toNat = 0x30 := rfl
    have hhigh : (0x39 : UInt16).toNat = 0x39 := rfl
    omega
  · decide

theorem isTrimmed_of_isAmount
    {units : List UInt16} (hamount : isAmount units = true) :
    IsTrimmed isSpace units := by
  apply isTrimmed_of_forall
  intro unit hunit
  obtain ⟨hlow, hhigh⟩ := toNat_of_isAmount hamount unit hunit
  exact isSpace_eq_false_of hlow hhigh

theorem validateAmount_eq_ok
    {amount normalized : Utf16}
    (hamount : validateAmount amount = .ok normalized) :
    normalized = trim amount ∧ isAmount normalized.units = true := by
  obtain ⟨trimmed, htrimmed, hunits⟩ := bind_eq_ok_iff.mp hamount
  obtain ⟨rfl, -⟩ := normalizeNonEmpty_eq_ok_iff.mp htrimmed
  split_ifs at hunits with hvalid
  obtain rfl := Except.ok.inj hunits
  exact ⟨rfl, hvalid⟩

theorem validateAmount_of_isAmount
    {amount : Utf16} (hamount : isAmount amount.units = true) :
    validateAmount amount = .ok amount := by
  unfold validateAmount
  rw [normalizeNonEmpty_of_trimmed (mem_of_isAmount hamount).1
    (isTrimmed_of_isAmount hamount)]
  simp only [bind, Except.bind, hamount, if_true]

/-- A memo that is neither blank nor malformed, in its normal form. -/
structure ValidMemo (memo : Utf16) : Prop where
  nonempty : memo.units ≠ []
  trimmed : IsTrimmed isSpace memo.units
  wellFormed : memo.isWellFormed

theorem isWellFormed_trim
    {text : Utf16} (htext : text.isWellFormed) :
    (trim text).isWellFormed := by
  apply Utf16.isWellFormed_trimUnits
  · intro unit hunit
    simp only [Utf16.isHighSurrogate, Bool.and_eq_true, decide_eq_true_eq]
      at hunit
    exact isSpace_eq_false_of_surrogate (by omega) (by omega)
  · intro unit hunit
    simp only [Utf16.isLowSurrogate, Bool.and_eq_true, decide_eq_true_eq]
      at hunit
    exact isSpace_eq_false_of_surrogate (by omega) (by omega)
  · exact htext

theorem validMemo_of_normalizedMemo
    {memo normalized : Utf16} (hmemo : memo.isWellFormed)
    (hnormalized : normalizedMemo memo = some normalized) :
    ValidMemo normalized := by
  unfold normalizedMemo at hnormalized
  split_ifs at hnormalized with hblank
  obtain rfl := Option.some.inj hnormalized
  constructor
  · rw [Bool.not_eq_true] at hblank
    exact isEmpty_eq_false_iff.mp hblank
  · exact Utf16.isTrimmed_trimUnits isSpace memo.units
  · exact isWellFormed_trim hmemo

theorem ValidMemo.normalizedMemo_eq
    {memo : Utf16} (hmemo : ValidMemo memo) :
    normalizedMemo memo = some memo := by
  have hempty : ¬ memo.isEmpty = true := by
    rw [isEmpty_eq_false_iff.mpr hmemo.nonempty]
    exact Bool.false_ne_true
  rw [normalizedMemo, trim_eq_self hmemo.trimmed, if_neg hempty]

structure ParsedBip21Uri.Valid (parsed : ParsedBip21Uri) : Prop where
  scheme : matchesScheme parsed.scheme.units = true
  address : ValidAddress parsed.address
  amount : ∀ amount ∈ parsed.amount, isAmount amount.units = true
  memo : ∀ memo ∈ parsed.memo, ValidMemo memo

/-! ## Writing -/

/-- The URI with these fields. -/
def ParsedBip21Uri.text (parsed : ParsedBip21Uri) : Utf16 :=
  let query := (searchParams parsed.amount parsed.memo).toText
  if query.isEmpty then parsed.scheme ++ (":" : Utf16) ++ parsed.address
  else
    parsed.scheme ++ (":" : Utf16) ++ parsed.address ++ ("?" : Utf16) ++
      query

/-- What `generateBip21Uri` makes of its input. -/
def GenerateBip21UriInput.normalized (unicode : Utf16 → Utf16)
    (input : GenerateBip21UriInput) : ParsedBip21Uri where
  scheme := (trim (input.scheme.getD "bitcoin")).toLowerCase unicode
  address := trim input.address
  amount := input.amount.map trim
  memo := input.memo.bind normalizedMemo

def ParsedBip21Uri.input (parsed : ParsedBip21Uri) :
    GenerateBip21UriInput where
  address := parsed.address
  amount := parsed.amount
  memo := parsed.memo
  scheme := some parsed.scheme

theorem toText_isEmpty_iff {params : SearchParams} :
    params.toText.isEmpty = true ↔ params = [] := by
  rw [SearchParams.toText, Utf16.ofAscii, Utf16.isEmpty, List.isEmpty_iff,
    List.map_eq_nil_iff, FormUrlencoded.serialize_eq_nil_iff]

theorem searchParams_eq (amount memo : Option Utf16) :
    searchParams amount memo =
      (amount.toList.map fun amount => ("amount".toList, amount.toChars)) ++
        memo.toList.map fun memo => ("memo".toList, memo.toChars) := by
  cases amount with
  | none =>
      cases memo with
      | none => rfl
      | some memo => rfl
  | some amount =>
      cases memo with
      | none => rfl
      | some memo => rfl

theorem validateAmount?_eq_ok
    {amount normalized : Option Utf16}
    (hamount : validateAmount? amount = .ok normalized) :
    normalized = amount.map trim ∧
      ∀ valid ∈ normalized, isAmount valid.units = true := by
  cases amount with
  | none =>
      obtain rfl := Except.ok.inj hamount
      exact ⟨rfl, fun _ hnone => by cases hnone⟩
  | some amount =>
      unfold validateAmount? at hamount
      cases hvalidate : validateAmount amount with
      | error err =>
          simp only [hvalidate] at hamount
          cases hamount
      | ok valid =>
          simp only [hvalidate] at hamount
          obtain rfl := Except.ok.inj hamount
          obtain ⟨rfl, hvalid⟩ := validateAmount_eq_ok hvalidate
          refine ⟨rfl, fun other hother => ?_⟩
          obtain rfl := Option.some.inj hother
          exact hvalid

theorem validateAmount?_of_valid
    {amount : Option Utf16}
    (hamount : ∀ valid ∈ amount, isAmount valid.units = true) :
    validateAmount? amount = .ok amount := by
  cases amount with
  | none => rfl
  | some amount =>
      unfold validateAmount?
      simp only [validateAmount_of_isAmount (hamount amount rfl)]
      rfl

theorem bind_normalizedMemo_of_valid
    {memo : Option Utf16} (hmemo : ∀ valid ∈ memo, ValidMemo valid) :
    memo.bind normalizedMemo = memo := by
  cases memo with
  | none => rfl
  | some memo => exact (hmemo memo rfl).normalizedMemo_eq

/-- What is generated is the text of the normalized fields, and these are
valid. -/
theorem generateBip21Uri_eq_ok
    {unicode : Utf16 → Utf16} {input : GenerateBip21UriInput} {uri : Utf16}
    (hmemo : ∀ memo ∈ input.memo, memo.isWellFormed)
    (huri : generateBip21Uri unicode input = .ok uri) :
    (input.normalized unicode).Valid ∧
      uri = (input.normalized unicode).text := by
  obtain ⟨scheme, hscheme, huri⟩ := bind_eq_ok_iff.mp huri
  obtain ⟨address, haddress, huri⟩ := bind_eq_ok_iff.mp huri
  obtain ⟨amount, hamount, huri⟩ := bind_eq_ok_iff.mp huri
  obtain ⟨rfl, hschemeValid⟩ := validateScheme_eq_ok hscheme
  obtain ⟨rfl, haddressValid⟩ := validateAddress_eq_ok haddress
  obtain ⟨rfl, hamountValid⟩ := validateAmount?_eq_ok hamount
  refine ⟨⟨hschemeValid, haddressValid, hamountValid, ?_⟩, ?_⟩
  · intro memo hmem
    obtain ⟨original, horiginal, hnormalized⟩ :=
      Option.bind_eq_some_iff.mp hmem
    exact validMemo_of_normalizedMemo (hmemo original horiginal) hnormalized
  · unfold ParsedBip21Uri.text GenerateBip21UriInput.normalized
    simp only at huri ⊢
    split_ifs at huri ⊢ with hempty
    · exact (Except.ok.inj huri).symm
    · exact (Except.ok.inj huri).symm

/-- Valid fields are written as they are. -/
theorem generateBip21Uri_of_valid
    (unicode : Utf16 → Utf16) {parsed : ParsedBip21Uri}
    (hvalid : parsed.Valid) :
    generateBip21Uri unicode parsed.input = .ok parsed.text := by
  unfold generateBip21Uri ParsedBip21Uri.input ParsedBip21Uri.text
  simp only [Option.getD_some, bind, Except.bind,
    validateScheme_of_matches unicode hvalid.scheme,
    validateAddress_of_valid hvalid.address,
    validateAmount?_of_valid hvalid.amount,
    bind_normalizedMemo_of_valid hvalid.memo]
  split_ifs
  · rfl
  · rfl

/-! ## Reading -/

/-- The text is cut at the first occurrence of a unit. -/
theorem cut_append_cons
    {front : List UInt16} {unit : UInt16} (hfront : unit ∉ front)
    (back : List UInt16) :
    (front ++ unit :: back).idxOf? unit = some front.length ∧
      (front ++ unit :: back).take front.length = front ∧
      (front ++ unit :: back).drop (front.length + 1) = back := by
  refine ⟨?_, List.take_left, ?_⟩
  · rw [List.idxOf?_eq_some_iff]
    refine ⟨by simp, by simp, ?_⟩
    intro index hindex hsame
    rw [List.getElem_append_left hindex] at hsame
    exact hfront (hsame ▸ List.getElem_mem hindex)
  · rw [← List.drop_drop, List.drop_left]
    rfl

theorem exists_length_eq
    {units : List UInt16} (hunits : units ≠ []) :
    ∃ before, units.length = before + 1 :=
  Nat.exists_eq_succ_of_ne_zero
    (mt List.length_eq_zero_iff.mp hunits)

/-- The units of a query are printable, and none of them is a question
mark. -/
theorem mem_query
    {params : SearchParams} {unit : UInt16}
    (hunit : unit ∈ params.toText.units) :
    0x20 < unit.toNat ∧ unit.toNat < 0x80 ∧ unit ≠ questionMark := by
  obtain ⟨byte, hbyte, rfl⟩ := List.mem_map.mp hunit
  obtain ⟨hlow, hhigh, -, hmark⟩ :=
    FormUrlencoded.toNat_of_mem_serialize hbyte
  have hsame : byte.toUInt16.toNat = byte.toNat := by simp
  refine ⟨by omega, by omega, ?_⟩
  intro hquestion
  rw [← UInt16.toNat_inj, hsame] at hquestion
  exact hmark hquestion

theorem ofText_of_notMem
    {init : Utf16} (hinit : questionMark ∉ init.units) :
    SearchParams.ofText init =
      FormUrlencoded.parse (Utf8.encode init.toChars) := by
  obtain ⟨units⟩ := init
  cases units with
  | nil => rfl
  | cons first rest =>
      have hfirst : first ≠ questionMark := by
        rintro rfl
        exact hinit List.mem_cons_self
      unfold SearchParams.ofText
      simp only [if_neg hfirst]

/-- A query is read as the parameters that it was written from. -/
theorem ofText_toText (params : SearchParams) :
    SearchParams.ofText params.toText = params := by
  have hascii : ∀ byte ∈ serialize params, byte.toNat < 0x80 := by
    intro byte hbyte
    exact (FormUrlencoded.toNat_of_mem_serialize hbyte).2.1
  rw [ofText_of_notMem fun hmem => (mem_query hmem).2.2 rfl,
    SearchParams.toText, Utf16.toChars_ofAscii hascii,
    FormUrlencoded.parse_serialize]

theorem get_searchParams
    {amount memo : Option Utf16}
    (hamount : ∀ valid ∈ amount, valid.isWellFormed)
    (hmemo : ∀ valid ∈ memo, valid.isWellFormed) :
    (searchParams amount memo).get "amount" = amount ∧
      (searchParams amount memo).get "memo" = memo ∧
      (searchParams amount memo).get "message" = none := by
  have hread : ∀ text : Utf16, text.isWellFormed →
      Utf16.ofChars text.toChars = text := fun _ htext => htext
  rw [searchParams_eq]
  cases amount with
  | none =>
      cases memo with
      | none => exact ⟨rfl, rfl, rfl⟩
      | some memo =>
          refine ⟨rfl, ?_, rfl⟩
          exact congrArg some (hmemo memo rfl)
  | some amount =>
      cases memo with
      | none =>
          refine ⟨?_, rfl, rfl⟩
          exact congrArg some (hamount amount rfl)
      | some memo =>
          refine ⟨?_, ?_, rfl⟩
          · exact congrArg some (hamount amount rfl)
          · exact congrArg some (hmemo memo rfl)

theorem isWellFormed_of_isAmount
    {amount : Utf16} (hamount : isAmount amount.units = true) :
    amount.isWellFormed := by
  apply Utf16.isWellFormed_of_lt
  intro unit hunit
  have hlimit := (toNat_of_isAmount hamount unit hunit).2
  omega

/-- The units after the address. -/
def ParsedBip21Uri.tail (parsed : ParsedBip21Uri) : List UInt16 :=
  let query := (searchParams parsed.amount parsed.memo).toText
  if query.isEmpty then [] else questionMark :: query.units

theorem text_units (parsed : ParsedBip21Uri) :
    parsed.text.units =
      parsed.scheme.units ++ colon ::
        (parsed.address.units ++ parsed.tail) := by
  unfold ParsedBip21Uri.text ParsedBip21Uri.tail
  simp only
  split_ifs
  · show parsed.scheme.units ++ [colon] ++ parsed.address.units = _
    simp
  · show parsed.scheme.units ++ [colon] ++ parsed.address.units ++
      [questionMark] ++ _ = _
    simp

theorem tail_cases (parsed : ParsedBip21Uri) :
    (parsed.tail = [] ∧ parsed.amount = none ∧ parsed.memo = none) ∨
      parsed.tail = questionMark ::
        (searchParams parsed.amount parsed.memo).toText.units := by
  unfold ParsedBip21Uri.tail
  simp only
  split_ifs with hempty
  · rw [toText_isEmpty_iff, searchParams_eq, List.append_eq_nil_iff,
      List.map_eq_nil_iff, List.map_eq_nil_iff, Option.toList_eq_nil_iff,
      Option.toList_eq_nil_iff] at hempty
    exact Or.inl ⟨rfl, hempty⟩
  · exact Or.inr rfl

theorem isSpace_of_mem_tail
    {parsed : ParsedBip21Uri} :
    ∀ unit ∈ parsed.tail, isSpace unit = false := by
  intro unit hunit
  unfold ParsedBip21Uri.tail at hunit
  simp only at hunit
  split_ifs at hunit
  · cases hunit
  · rcases List.mem_cons.mp hunit with rfl | hquery
    · rfl
    · obtain ⟨hlow, hhigh, -⟩ := mem_query hquery
      exact isSpace_eq_false_of hlow hhigh

/-- The text of valid fields has no white space. -/
theorem ParsedBip21Uri.Valid.isSpace_eq_false
    {parsed : ParsedBip21Uri} (hvalid : parsed.Valid) :
    ∀ unit ∈ parsed.text.units, isSpace unit = false := by
  intro unit hunit
  rw [text_units, List.mem_append, List.mem_cons, List.mem_append] at hunit
  rcases hunit with hscheme | rfl | haddress | htail
  · exact isSpace_of_isSchemeUnit
      ((mem_of_matchesScheme hvalid.scheme).2 unit hscheme)
  · rfl
  · exact hvalid.address.isSpace_eq_false unit haddress
  · exact isSpace_of_mem_tail unit htail

theorem notMem_scheme_of_matches
    {scheme : Utf16} (hscheme : matchesScheme scheme.units = true) :
    colon ∉ scheme.units := by
  intro hmem
  have hunit := (mem_of_matchesScheme hscheme).2 colon hmem
  cases hunit

theorem ValidAddress.notMem
    {address : Utf16} (haddress : ValidAddress address) :
    questionMark ∉ address.units := by
  intro hmem
  have hunit := haddress.2 questionMark hmem
  cases hunit

/-- A valid text is cut at the colon into its scheme and the rest. -/
theorem ParsedBip21Uri.Valid.cut_text
    {parsed : ParsedBip21Uri} (hvalid : parsed.Valid) :
    ∃ before,
      parsed.text.units.idxOf? colon = some (before + 1) ∧
      parsed.text.units.take (before + 1) = parsed.scheme.units ∧
      parsed.text.units.drop (before + 2) =
        parsed.address.units ++ parsed.tail := by
  obtain ⟨before, hbefore⟩ :=
    exists_length_eq (mem_of_matchesScheme hvalid.scheme).1
  have hcut := cut_append_cons (notMem_scheme_of_matches hvalid.scheme)
    (parsed.address.units ++ parsed.tail)
  rw [← text_units, hbefore] at hcut
  exact ⟨before, hcut⟩

/-- The text of valid fields is read as these fields. -/
theorem parseBip21Uri_text
    (unicode : Utf16 → Utf16) {parsed : ParsedBip21Uri}
    (hvalid : parsed.Valid) :
    parseBip21Uri unicode parsed.text = .ok parsed := by
  have hnonempty : parsed.text.units ≠ [] := by
    rw [text_units]
    exact List.append_ne_nil_of_right_ne_nil _ (List.cons_ne_nil _ _)
  obtain ⟨before, hindex, hscheme, hpayload⟩ := hvalid.cut_text
  have hpayloadNonempty : parsed.address.units ++ parsed.tail ≠ [] :=
    List.append_ne_nil_of_left_ne_nil hvalid.address.1 _
  unfold parseBip21Uri
  rw [normalizeNonEmpty_of_trimmed hnonempty
    (isTrimmed_of_forall hvalid.isSpace_eq_false)]
  simp only [bind, Except.bind, hindex, hscheme, hpayload,
    validateScheme_of_matches unicode hvalid.scheme,
    if_neg hpayloadNonempty]
  rcases tail_cases parsed with ⟨htail, hamount, hmemo⟩ | htail
  · have hnone : parsed.address.units.idxOf? questionMark = none :=
      List.idxOf?_eq_none_iff.mpr hvalid.address.notMem
    rw [htail, List.append_nil, hnone]
    simp only [validateAddress_of_valid hvalid.address]
    exact congrArg Except.ok
      (ParsedBip21Uri.ext rfl rfl hamount.symm hmemo.symm)
  · obtain ⟨hmark, haddress, hquery⟩ :=
      cut_append_cons hvalid.address.notMem
        (searchParams parsed.amount parsed.memo).toText.units
    obtain ⟨hamount, hmemo, hmessage⟩ := get_searchParams
      (fun valid hmem => isWellFormed_of_isAmount (hvalid.amount valid hmem))
      fun valid hmem => (hvalid.memo valid hmem).wellFormed
    have hread : SearchParams.ofText
        ⟨(searchParams parsed.amount parsed.memo).toText.units⟩ =
          searchParams parsed.amount parsed.memo :=
      ofText_toText _
    rw [htail, hmark]
    simp only [haddress, hquery, hread,
      validateAddress_of_valid hvalid.address, hamount, hmemo, hmessage,
      Option.or_none, validateAmount?_of_valid hvalid.amount,
      bind_normalizedMemo_of_valid hvalid.memo]

/-- What is read from a query is well formed. -/
theorem isWellFormed_of_get
    {params : SearchParams} {name : String} {value : Utf16}
    (hvalue : params.get name = some value) : value.isWellFormed := by
  obtain ⟨pair, -, rfl⟩ := Option.map_eq_some_iff.mp hvalue
  exact Utf16.isWellFormed_ofChars pair.2

/-- What is read has valid fields. -/
theorem valid_of_parseBip21Uri
    {unicode : Utf16 → Utf16} {uri : Utf16} {parsed : ParsedBip21Uri}
    (hparse : parseBip21Uri unicode uri = .ok parsed) : parsed.Valid := by
  obtain ⟨normalized, -, hparse⟩ := bind_eq_ok_iff.mp hparse
  simp only at hparse
  split at hparse
  next => cases hparse
  next => cases hparse
  next before hindex =>
    obtain ⟨scheme, hscheme, hparse⟩ := bind_eq_ok_iff.mp hparse
    split_ifs at hparse with hempty
    split at hparse
    next =>
      obtain ⟨address, haddress, hparse⟩ := bind_eq_ok_iff.mp hparse
      obtain rfl := Except.ok.inj hparse
      constructor
      · exact (validateScheme_eq_ok hscheme).2
      · exact (validateAddress_eq_ok haddress).2
      · intro amount hamount
        cases hamount
      · intro memo hmemo
        cases hmemo
    next queryIndex hquery =>
      obtain ⟨address, haddress, hparse⟩ := bind_eq_ok_iff.mp hparse
      obtain ⟨amount, hamount, hparse⟩ := bind_eq_ok_iff.mp hparse
      obtain rfl := Except.ok.inj hparse
      constructor
      · exact (validateScheme_eq_ok hscheme).2
      · exact (validateAddress_eq_ok haddress).2
      · exact (validateAmount?_eq_ok hamount).2
      · intro memo hmemo
        obtain ⟨value, hvalue, hnormalized⟩ :=
          Option.bind_eq_some_iff.mp hmemo
        rcases Option.or_eq_some_iff.mp hvalue with hget | ⟨-, hget⟩
        · exact validMemo_of_normalizedMemo (isWellFormed_of_get hget)
            hnormalized
        · exact validMemo_of_normalizedMemo (isWellFormed_of_get hget)
            hnormalized

/-- A generated URI is read as the normalized input, and what is read of any
text is generated and read again. -/
theorem bip21_round_trip (unicode : Utf16 → Utf16) :
    (∀ (input : GenerateBip21UriInput) (uri : Utf16),
      (∀ memo ∈ input.memo, memo.isWellFormed) →
      generateBip21Uri unicode input = .ok uri →
      parseBip21Uri unicode uri = .ok (input.normalized unicode)) ∧
    ∀ (text : Utf16) (parsed : ParsedBip21Uri),
      parseBip21Uri unicode text = .ok parsed →
      ∃ uri, generateBip21Uri unicode parsed.input = .ok uri ∧
        parseBip21Uri unicode uri = .ok parsed := by
  constructor
  · intro input uri hmemo huri
    obtain ⟨hvalid, rfl⟩ := generateBip21Uri_eq_ok hmemo huri
    exact parseBip21Uri_text unicode hvalid
  · intro text parsed hparse
    have hvalid := valid_of_parseBip21Uri hparse
    exact ⟨parsed.text, generateBip21Uri_of_valid unicode hvalid,
      parseBip21Uri_text unicode hvalid⟩

theorem bip21_round_trip_of_separators :
    parseBip21Uri id "bitcoin:soulon1abc?memo=a%26b%3D%C3%BC" =
        .ok
          { scheme := "bitcoin"
            address := "soulon1abc"
            memo := some "a&b=ü" } ∧
      ∃ uri,
        generateBip21Uri id
            (ParsedBip21Uri.input
              { scheme := "bitcoin"
                address := "soulon1abc"
                memo := some "thanks" }) = .ok uri ∧
          parseBip21Uri id uri =
            .ok
              { scheme := "bitcoin"
                address := "soulon1abc"
                memo := some "thanks" } := by
  constructor
  · apply (bip21_round_trip id).1
      { address := " soulon1abc", memo := some "a&b=ü " }
    · intro memo hmemo
      obtain rfl := Option.some.inj hmemo
      decide +kernel
    · decide +kernel
  · apply (bip21_round_trip id).2 "Bitcoin:soulon1abc?message=thanks"
    decide +kernel

end SoulonWallet.Bip21
