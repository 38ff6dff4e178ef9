import SoulonWallet.Bip21Uri
import SoulonWallet.DappApproval

/-!
# Scanned payment URIs

The mobile wallet reads payment URIs on its own: `parseBip21` takes a scanned
text apart as it stands, decodes the query with `Uri.splitQueryString`, and
fills the transfer form.  It validates nothing but that the address is not
blank.

On what `generateBip21Uri` writes it finds the fields that `parseBip21Uri`
finds.  The two disagree about what is blank: the next line character U+0085
is white space in Dart and not in JavaScript.
-/

namespace SoulonWallet.Bip21

open FormUrlencoded
  (plus ampersand equals plusToSpace serialize serializePair serializeText)
open PercentCoding (percent unescape)
open Utf16 (isWhiteSpace IsTrimmed)

/-! ## Query strings -/

/-- `query` stands for the exceptions of `Uri.splitQueryString`. -/
inductive ScanFailure where
  | format (message : Utf16)
  | query
  deriving DecidableEq

def byteOrderMark : Char := '\ufeff'

/-- `utf8.decode`, which drops a leading byte order mark. -/
def utf8Decode (bytes : Utf8.Bytes) : Option (List Char) :=
  (Utf8.decodeStrict bytes).map fun chars =>
    if chars.head? = some byteOrderMark then chars.tail else chars

def needsDecoding (unit : UInt16) : Bool :=
  0x7F < unit || unit == percent.toUInt16 || unit == plus.toUInt16

/-- `Uri.decodeQueryComponent`. -/
def decodeQueryComponent (text : Utf16) : Except ScanFailure Utf16 :=
  if text.units.any needsDecoding then
    if text.units.any (0x7F < ·) then .error .query
    else
      let bytes := text.units.map UInt16.toUInt8
      match (unescape (plusToSpace bytes)).bind utf8Decode with
      | some chars => .ok (.ofChars chars)
      | none => .error .query
  else .ok text

abbrev QueryParameters := KeyedMap Utf16 Utf16

def addParameter (params : QueryParameters) (element : Utf16) :
    Except ScanFailure QueryParameters :=
  match element.units.idxOf? equals.toUInt16 with
  | none =>
      if element.isEmpty then .ok params
      else do
        let key ← decodeQueryComponent element
        .ok (params.insert key "")
  | some 0 => .ok params
  | some (before + 1) => do
      let key ← decodeQueryComponent ⟨element.units.take (before + 1)⟩
      let value ← decodeQueryComponent ⟨element.units.drop (before + 2)⟩
      .ok (params.insert key value)

/-- `Uri.splitQueryString`. -/
def splitQueryString (query : Utf16) : Except ScanFailure QueryParameters :=
  (query.split ampersand.toUInt16).foldlM addParameter ∅

/-! ## The store -/

structure BIP21ScanResult where
  scheme : Utf16
  address : Utf16
  amount : Option Utf16
  memo : Option Utf16
  deriving DecidableEq

structure TransferFormDraft where
  recipientAddress : Utf16
  amountText : Utf16
  memo : Utf16
  source : Utf16
  appliedAt : ℤ
  deriving DecidableEq

/-- The state, its scan result, and the draft of the bridge. -/
structure ScanStore where
  value : Dapp.DappInteropState
  scanResult : Option BIP21ScanResult
  draft : Option TransferFormDraft

def publishFromScan (recipientAddress amountText memo : Utf16) (now : ℤ) :
    TransferFormDraft where
  recipientAddress := recipientAddress
  amountText := amountText
  memo := memo
  source := "BIP-21 扫码"
  appliedAt := now

namespace ScanStore

def initial : ScanStore where
  value := (Dapp.DappInteropStore.initial Dapp.overdriveChain []).value
  scanResult := none
  draft := none

variable (store : ScanStore)

/-- The store after a scan that is accepted. -/
def publish (result : BIP21ScanResult) (now : ℤ) : ScanStore where
  value := { store.value with errorText := none }
  scanResult := some result
  draft := some (publishFromScan result.address (result.amount.getD "")
    (result.memo.getD "") now)

/-- A scan that is refused throws before it writes. -/
def accept (result : BIP21ScanResult) (now : ℤ) :
    Except ScanFailure ScanStore :=
  if result.address.trim.isEmpty then .error (.format "地址不能为空")
  else .ok (store.publish result now)

def parseBip21 (uri : Utf16) (now : ℤ) : Except ScanFailure ScanStore :=
  if uri.trim.isEmpty then .error (.format "扫码内容不能为空")
  else
    match uri.units.idxOf? colon with
    | none | some 0 => .error (.format "无效的 BIP-21 URI 格式")
    | some (before + 1) =>
        let scheme : Utf16 := ⟨uri.units.take (before + 1)⟩
        let rest := uri.units.drop (before + 2)
        match rest.idxOf? questionMark with
        | none =>
            store.accept
              { scheme, address := ⟨rest⟩, amount := none, memo := none } now
        | some questionIndex => do
            let params ← splitQueryString ⟨rest.drop (questionIndex + 1)⟩
            store.accept
              { scheme
                address := ⟨rest.take questionIndex⟩
                amount := params.lookup ("amount" : Utf16)
                memo := params.lookup ("memo" : Utf16) } now

end ScanStore

/-! ## Reading a query that was written -/

theorem utf8Decode_encode
    {text : List Char} (hmark : text.head? ≠ some byteOrderMark) :
    utf8Decode (Utf8.encode text) = some text := by
  unfold utf8Decode
  rw [Utf8.decodeStrict_encode, Option.map_some, if_neg hmark]

theorem lt_of_mem_serializeText
    {text : List Char} {byte : UInt8} (hbyte : byte ∈ serializeText text) :
    byte.toNat < 0x80 :=
  (FormUrlencoded.toNat_of_isWritten
    (FormUrlencoded.isWritten_of_mem hbyte)).2.1

/-- A text without escapes is read as it stands. -/
theorem ofAscii_serializeText
    {text : List Char} (hpercent : percent ∉ serializeText text)
    (hplus : plus ∉ serializeText text) :
    Utf16.ofAscii (serializeText text) = .ofChars text := by
  have hspaces : plusToSpace (serializeText text) = serializeText text := by
    apply (List.map_congr_left _).trans (List.map_id _)
    intro byte hbyte
    have hne : byte ≠ plus := ne_of_mem_of_not_mem hbyte hplus
    exact if_neg hne
  have hread := FormUrlencoded.unescape_serializeText text
  rw [hspaces, PercentCoding.unescape_eq_self hpercent] at hread
  have hsame : serializeText text = Utf8.encode text :=
    Option.some.inj hread
  rw [hsame]
  apply Utf16.ofAscii_encode
  rw [← hsame]
  exact fun byte hbyte => lt_of_mem_serializeText hbyte

theorem decodeQueryComponent_serializeText
    {text : List Char} (hmark : text.head? ≠ some byteOrderMark) :
    decodeQueryComponent (.ofAscii (serializeText text)) =
      .ok (.ofChars text) := by
  unfold decodeQueryComponent
  split_ifs with hneeds hbeyond
  · obtain ⟨unit, hunit, hlimit⟩ := List.any_eq_true.mp hbeyond
    obtain ⟨byte, hbyte, rfl⟩ := List.mem_map.mp hunit
    have hascii := lt_of_mem_serializeText hbyte
    rw [decide_eq_true_iff, UInt16.lt_iff_toNat_lt, UInt8.toNat_toUInt16]
      at hlimit
    have hvalue : (0x7F : UInt16).toNat = 0x7F := rfl
    omega
  · simp only [Utf16.toUInt8_ofAscii, FormUrlencoded.unescape_serializeText,
      Option.bind_some, utf8Decode_encode hmark]
  · have hplain : ∀ byte ∈ serializeText text,
        needsDecoding byte.toUInt16 = false := by
      intro byte hbyte
      rw [Bool.eq_false_iff]
      intro hneed
      exact hneeds (List.any_eq_true.mpr
        ⟨byte.toUInt16, List.mem_map_of_mem hbyte, hneed⟩)
    rw [ofAscii_serializeText]
    · intro hmem
      cases hplain percent hmem
    · intro hmem
      cases hplain plus hmem

theorem serializeText_ne_nil {text : List Char} (htext : text ≠ []) :
    serializeText text ≠ [] := by
  intro hnil
  apply htext
  rw [← FormUrlencoded.parseText_serializeText text, hnil]
  rfl

/-- A name with its value, as it is read again. -/
structure Readable (pair : List Char × List Char) : Prop where
  named : pair.1 ≠ []
  name : pair.1.head? ≠ some byteOrderMark
  value : pair.2.head? ≠ some byteOrderMark

theorem addParameter_serializePair
    (params : QueryParameters) {pair : List Char × List Char}
    (hpair : Readable pair) :
    addParameter params (.ofAscii (serializePair pair)) =
      .ok (params.insert (.ofChars pair.1) (.ofChars pair.2)) := by
  have hunits : (Utf16.ofAscii (serializePair pair)).units =
      (Utf16.ofAscii (serializeText pair.1)).units ++
        equals.toUInt16 :: (Utf16.ofAscii (serializeText pair.2)).units :=
    List.map_append
  have hname : equals.toUInt16 ∉
      (Utf16.ofAscii (serializeText pair.1)).units := by
    rw [Utf16.toUInt16_mem_ofAscii_iff]
    exact FormUrlencoded.notMem_serializeText pair.1 rfl
  have hne : (Utf16.ofAscii (serializeText pair.1)).units ≠ [] :=
    mt List.map_eq_nil_iff.mp (serializeText_ne_nil hpair.named)
  obtain ⟨before, hbefore⟩ := exists_length_eq hne
  obtain ⟨hindex, hkey, hvalue⟩ := cut_append_cons hname
    (Utf16.ofAscii (serializeText pair.2)).units
  rw [← hunits, hbefore] at hindex hkey hvalue
  unfold addParameter
  simp only [hindex, hkey, hvalue, bind, Except.bind,
    decodeQueryComponent_serializeText hpair.name,
    decodeQueryComponent_serializeText hpair.value]

/-- The parameters of a query that was written from some pairs. -/
def parametersOf (pairs : SearchParams) : QueryParameters :=
  pairs.foldl (fun params pair =>
    params.insert (.ofChars pair.1) (.ofChars pair.2)) ∅

theorem foldlM_addParameter
    {pairs : SearchParams} (hpairs : ∀ pair ∈ pairs, Readable pair)
    (params : QueryParameters) :
    (pairs.map fun pair => Utf16.ofAscii (serializePair pair)).foldlM
        addParameter params =
      .ok (pairs.foldl (fun params pair =>
        params.insert (.ofChars pair.1) (.ofChars pair.2)) params) := by
  induction pairs generalizing params with
  | nil => rfl
  | cons pair rest ih =>
      obtain ⟨hpair, hrest⟩ := List.forall_mem_cons.mp hpairs
      rw [List.map_cons, List.foldlM_cons,
        addParameter_serializePair params hpair]
      exact ih hrest _

theorem splitQueryString_toText
    {pairs : SearchParams} (hpairs : ∀ pair ∈ pairs, Readable pair) :
    splitQueryString pairs.toText = .ok (parametersOf pairs) := by
  by_cases hempty : pairs = []
  · rw [hempty]
    rfl
  · unfold splitQueryString SearchParams.toText
    rw [Utf16.split_ofAscii, FormUrlencoded.splitOn_serialize hempty,
      List.map_map]
    exact foldlM_addParameter hpairs ∅

/-! ## Agreement -/

def ParsedBip21Uri.scanResult (parsed : ParsedBip21Uri) :
    BIP21ScanResult where
  scheme := parsed.scheme
  address := parsed.address
  amount := parsed.amount
  memo := parsed.memo

/-- The byte order mark is white space, so no trimmed text begins with it. -/
theorem head?_ne_byteOrderMark
    {text : Utf16} (hformed : text.isWellFormed)
    (htrimmed : IsTrimmed isSpace text.units) :
    text.toChars.head? ≠ some byteOrderMark := by
  intro hmark
  obtain ⟨rest, hrest⟩ := List.head?_eq_some_iff.mp hmark
  have hunits : text.units = 0xFEFF :: (Utf16.ofChars rest).units := by
    have hsame := congrArg Utf16.units hformed
    rw [hrest] at hsame
    exact hsame.symm
  have hspace := htrimmed.head 0xFEFF (by rw [hunits]; rfl)
  cases hspace

theorem readable_of_mem
    {parsed : ParsedBip21Uri} (hvalid : parsed.Valid) :
    ∀ pair ∈ searchParams parsed.amount parsed.memo, Readable pair := by
  intro pair hpair
  rw [searchParams_eq, List.mem_append, List.mem_map, List.mem_map] at hpair
  rcases hpair with ⟨amount, hamount, rfl⟩ | ⟨memo, hmemo, rfl⟩
  · have hread := hvalid.amount amount (Option.mem_toList.mp hamount)
    refine ⟨List.cons_ne_nil _ _, ?_, ?_⟩
    · exact fun hsame => absurd (Option.some.inj hsame) (by decide)
    · exact head?_ne_byteOrderMark (isWellFormed_of_isAmount hread)
        (isTrimmed_of_isAmount hread)
  · have hread := hvalid.memo memo (Option.mem_toList.mp hmemo)
    refine ⟨List.cons_ne_nil _ _, ?_, ?_⟩
    · exact fun hsame => absurd (Option.some.inj hsame) (by decide)
    · exact head?_ne_byteOrderMark hread.wellFormed hread.trimmed

theorem lookup_parametersOf
    {amount memo : Option Utf16}
    (hamount : ∀ valid ∈ amount, valid.isWellFormed)
    (hmemo : ∀ valid ∈ memo, valid.isWellFormed) :
    (parametersOf (searchParams amount memo)).lookup ("amount" : Utf16) =
        amount ∧
      (parametersOf (searchParams amount memo)).lookup ("memo" : Utf16) =
        memo := by
  have hnames : ("amount" : Utf16) ≠ ("memo" : Utf16) := by decide
  cases amount with
  | none =>
      cases memo with
      | none => exact ⟨rfl, rfl⟩
      | some memo =>
          have hparams : parametersOf (searchParams none (some memo)) =
              (∅ : QueryParameters).insert ("memo" : Utf16) memo :=
            congrArg (AList.insert _ · ∅) (hmemo memo rfl)
          rw [hparams, KeyedMap.lookup_insert_eq, if_neg hnames,
            KeyedMap.lookup_insert_eq, if_pos rfl]
          exact ⟨rfl, rfl⟩
  | some amount =>
      have hfirst :
          (∅ : QueryParameters).insert ("amount" : Utf16)
              (.ofChars amount.toChars) =
            (∅ : QueryParameters).insert ("amount" : Utf16) amount :=
        congrArg (AList.insert _ · ∅) (hamount amount rfl)
      cases memo with
      | none =>
          have hparams : parametersOf (searchParams (some amount) none) =
              (∅ : QueryParameters).insert ("amount" : Utf16) amount :=
            hfirst
          rw [hparams, KeyedMap.lookup_insert_eq, if_pos rfl,
            KeyedMap.lookup_insert_eq, if_neg hnames.symm]
          exact ⟨rfl, rfl⟩
      | some memo =>
          have hparams :
              parametersOf (searchParams (some amount) (some memo)) =
                ((∅ : QueryParameters).insert ("amount" : Utf16)
                  amount).insert ("memo" : Utf16) memo := by
            rw [← hfirst]
            exact congrArg (AList.insert _ · _) (hmemo memo rfl)
          rw [hparams, KeyedMap.lookup_insert_eq, if_neg hnames,
            KeyedMap.lookup_insert_eq, if_pos rfl,
            KeyedMap.lookup_insert_eq, if_pos rfl]
          exact ⟨rfl, rfl⟩

theorem isWhiteSpace_iff {unit : UInt16} :
    isWhiteSpace unit = true ↔ isSpace unit = true ∨ unit = 0x85 := by
  unfold isSpace
  by_cases hnext : unit = 0x85
  · rw [hnext]
    decide
  · simp [hnext]

theorem not_isEmpty_trim_text
    {parsed : ParsedBip21Uri} (hvalid : parsed.Valid) :
    ¬ parsed.text.trim.isEmpty = true := by
  obtain ⟨hne, hunits⟩ := mem_of_matchesScheme hvalid.scheme
  obtain ⟨unit, hunit⟩ := List.exists_mem_of_ne_nil _ hne
  intro hempty
  have hspaces := Utf16.trimUnits_eq_nil_iff.mp (List.isEmpty_iff.mp hempty)
  have hspace : isWhiteSpace unit = true := by
    apply hspaces
    rw [text_units]
    exact List.mem_append_left _ hunit
  have hkept := isSpace_of_isSchemeUnit (hunits unit hunit)
  rcases isWhiteSpace_iff.mp hspace with hspace | rfl
  · rw [hkept] at hspace
    cases hspace
  · cases hunits 0x85 hunit

/-- On the text of valid fields the scanner finds these fields. -/
theorem parseBip21_text
    {parsed : ParsedBip21Uri} (hvalid : parsed.Valid) (store : ScanStore)
    (now : ℤ) :
    store.parseBip21 parsed.text now =
      store.accept parsed.scanResult now := by
  obtain ⟨before, hindex, hscheme, hrest⟩ := hvalid.cut_text
  unfold ScanStore.parseBip21
  simp only [if_neg (not_isEmpty_trim_text hvalid), hindex, hscheme, hrest]
  rcases tail_cases parsed with ⟨htail, hamount, hmemo⟩ | htail
  · have hnone : parsed.address.units.idxOf? questionMark = none :=
      List.idxOf?_eq_none_iff.mpr hvalid.address.notMem
    rw [htail, List.append_nil, hnone, ParsedBip21Uri.scanResult, hamount,
      hmemo]
  · obtain ⟨hmark, haddress, hquery⟩ :=
      cut_append_cons hvalid.address.notMem
        (searchParams parsed.amount parsed.memo).toText.units
    obtain ⟨hamount, hmemo⟩ := lookup_parametersOf
      (fun valid hmem => isWellFormed_of_isAmount (hvalid.amount valid hmem))
      fun valid hmem => (hvalid.memo valid hmem).wellFormed
    have hparams : splitQueryString
        ⟨(searchParams parsed.amount parsed.memo).toText.units⟩ =
          .ok (parametersOf (searchParams parsed.amount parsed.memo)) :=
      splitQueryString_toText (readable_of_mem hvalid)
    rw [htail, hmark]
    simp only [haddress, hquery, hparams, bind, Except.bind, hamount, hmemo,
      ParsedBip21Uri.scanResult]

/-- A valid address is blank to the scanner if it consists of U+0085. -/
theorem isEmpty_trim_address_iff
    {address : Utf16} (haddress : ValidAddress address) :
    address.trim.isEmpty = true ↔ ∀ unit ∈ address.units, unit = 0x85 := by
  have hblank : address.trim.isEmpty = true ↔
      ∀ unit ∈ address.units, isWhiteSpace unit = true :=
    List.isEmpty_iff.trans Utf16.trimUnits_eq_nil_iff
  rw [hblank]
  constructor
  · intro hall unit hunit
    rcases isWhiteSpace_iff.mp (hall unit hunit) with hspace | hnext
    · rw [haddress.isSpace_eq_false unit hunit] at hspace
      cases hspace
    · exact hnext
  · intro hall unit hunit
    exact isWhiteSpace_iff.mpr (Or.inr (hall unit hunit))

/-- A generated URI is read alike by both, unless its address consists of
the next line character U+0085: that one the scanner refuses. -/
theorem generated_uri_scanned
    (unicode : Utf16 → Utf16) (input : GenerateBip21UriInput) (uri : Utf16)
    (hmemo : ∀ memo ∈ input.memo, memo.isWellFormed)
    (huri : generateBip21Uri unicode input = .ok uri) :
    ∃ parsed, parseBip21Uri unicode uri = .ok parsed ∧
      ∀ (store : ScanStore) (now : ℤ),
        ((∃ unit ∈ parsed.address.units, unit ≠ 0x85) →
          store.parseBip21 uri now =
            .ok (store.publish parsed.scanResult now)) ∧
        ((∀ unit ∈ parsed.address.units, unit = 0x85) →
          store.parseBip21 uri now = .error (.format "地址不能为空")) := by
  obtain ⟨hvalid, rfl⟩ := generateBip21Uri_eq_ok hmemo huri
  refine ⟨input.normalized unicode, parseBip21Uri_text unicode hvalid, ?_⟩
  intro store now
  have hblank := isEmpty_trim_address_iff hvalid.address
  rw [parseBip21_text hvalid, ScanStore.accept]
  constructor
  · rintro ⟨unit, hunit, hne⟩
    exact if_neg fun hempty => hne (hblank.mp hempty unit hunit)
  · intro hall
    exact if_pos (hblank.mpr hall)

theorem generated_uri_scanned_of_memo :
    ScanStore.initial.parseBip21
        "soulon:soulon1abc?amount=3.60&memo=a%26b%3D%C3%BC+%2B" 7 =
      .ok (ScanStore.initial.publish
        { scheme := "soulon"
          address := "soulon1abc"
          amount := some "3.60"
          memo := some "a&b=ü +" } 7) := by
  obtain ⟨parsed, hparse, hscan⟩ := generated_uri_scanned id
    { scheme := some "Soulon"
      address := " soulon1abc"
      amount := some "3.60"
      memo := some "a&b=ü + " }
    "soulon:soulon1abc?amount=3.60&memo=a%26b%3D%C3%BC+%2B"
    (fun memo hmemo => by
      obtain rfl := Option.some.inj hmemo
      decide +kernel)
    (by decide +kernel)
  have hfields : parseBip21Uri id
      "soulon:soulon1abc?amount=3.60&memo=a%26b%3D%C3%BC+%2B" =
        .ok
          { scheme := "soulon"
            address := "soulon1abc"
            amount := some "3.60"
            memo := some "a&b=ü +" } := by decide +kernel
  obtain rfl := Except.ok.inj (hparse.symm.trans hfields)
  exact (hscan ScanStore.initial 7).1
    ⟨0x73, List.mem_cons_self, by decide⟩

/-- The one reader takes U+0085 for an address, the other for a blank. -/
theorem next_line_address_refused :
    ¬ ∀ (unicode : Utf16 → Utf16) (input : GenerateBip21UriInput)
      (uri : Utf16),
      (∀ memo ∈ input.memo, memo.isWellFormed) →
      generateBip21Uri unicode input = .ok uri →
      ∃ parsed, parseBip21Uri unicode uri = .ok parsed ∧
        ∀ (store : ScanStore) (now : ℤ),
          store.parseBip21 uri now =
            .ok (store.publish parsed.scanResult now) := by
  intro hagree
  obtain ⟨parsed, -, hscan⟩ := hagree id { address := "\u0085" }
    "bitcoin:\u0085" (fun memo hmemo => by cases hmemo) (by decide +kernel)
  have hrefused :
      (ScanStore.initial.parseBip21 "bitcoin:\u0085" 0).toBool = false := by
    decide +kernel
  rw [hscan ScanStore.initial 0] at hrefused
  cases hrefused

end SoulonWallet.Bip21
