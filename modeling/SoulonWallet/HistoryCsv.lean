import SoulonWallet.EventCsv
import SoulonWallet.MultisigTask
import SoulonWallet.ReorgTracking

/-!
# The CSV export of the history

The Flutter wallet takes the records of its history from the events of the
indexer, whose payloads may have any text in them, and joins their values by
commas and line feeds as they are.  A reader of RFC 4180 gets the values back
exactly when none of them has a quote, a comma or a line break.
-/

namespace SoulonWallet.Export

open Dapp (JsonValue JsonMap asMap)
open Multisig (DateTime)

/-! ## Records -/

structure Timestamp extends DateTime where
  isUtc : Bool

def Timestamp.toIso8601String (time : Timestamp) : Utf16 :=
  time.toDateTime.toIso8601String ++ if time.isUtc then ("Z" : Utf16) else ""

structure HistoryRecord where
  id : Utf16
  type : Utf16
  toAddress : Utf16
  amount : Utf16
  txHash : Utf16
  status : Utf16
  timestamp : Timestamp

/-- The library of Dart, as far as a record needs it: `display` is `toString`
of the values that are not texts, and `fixed` reads a number and writes it
with two decimals. -/
structure DartCore where
  display : JsonValue → Utf16
  jsonDecode : Utf16 → Option JsonValue
  tryParse : Utf16 → Option Timestamp
  microsecondsSinceEpoch : Timestamp → ℤ
  toLowerCase : Utf16 → Utf16
  toUpperCase : Utf16 → Utf16
  fixed : Utf16 → Utf16

def signatureDigest (seed : Utf16) : Utf16 :=
  let raw := seed.units.foldl
    (fun hash code => ((hash * 33) ^^^ code.toNat) &&& 0x7fffffff) 0
  (Utf16.ofNatHex raw).padLeft 16 48

section Records

variable (core : DartCore)

/-- `(value ?? fallback).toString()`. -/
def textOr (fallback : Utf16) : JsonValue → Utf16
  | .null => fallback
  | .string text => text
  | value => core.display value

def firstText (candidates : List JsonValue) : Option Utf16 :=
  (candidates.map (textOr core "")).find? fun text => !text.isEmpty

def parsePayload (rawPayload : JsonValue) : JsonMap :=
  let payload := textOr core "" rawPayload
  if payload.isEmpty then []
  else ((core.jsonDecode payload).map asMap).getD []

def displayType (rawType : Utf16) : Utf16 :=
  let value := core.toLowerCase rawType
  if value.includes "tx" then "链上交易"
  else if value.includes "ibc" then "IBC 事件"
  else if value.includes "block" then "区块事件"
  else rawType

def extractAddress (payload : JsonMap) : Utf16 :=
  (firstText core
    [payload.get "toAddress", payload.get "recipient", payload.get "to",
      payload.get "delegatorAddress",
      payload.get "delegator_address"]).getD "-"

def amountText (denomOf : JsonMap) (text : Utf16) : Utf16 :=
  text ++ " " ++ core.toUpperCase (textOr core "SOUL" (denomOf.get "denom"))

def extractAmount (payload : JsonMap) : Utf16 :=
  match payload.get "amount" with
  | .null =>
      match payload.get "reward" with
      | .list (first :: _) =>
          amountText core (asMap first)
            (core.fixed (textOr core "0" ((asMap first).get "amount")))
      | _ => "0.00 SOUL"
  | rawAmount => amountText core payload (textOr core "" rawAmount)

def extractTxHash (payload : JsonMap) (fallback : Utf16)
    (now : Timestamp) : Utf16 :=
  let seed := if fallback.isEmpty then now.toIso8601String else fallback
  (firstText core
    [payload.get "txHash", payload.get "txhash", payload.get "hash",
      payload.get "tx_hash"]).getD
        (((signatureDigest seed).padRight 64 48).take 64)

def extractStatus (payload : JsonMap) : Utf16 :=
  let status :=
    match payload.get "status" with
    | .null => textOr core "" (payload.get "result")
    | status => textOr core "" status
  if status.isEmpty then "已确认" else status

/-- What `fetchHistory` makes of one event of the indexer; `now` stands for
the readings of the clock. -/
def historyRecord (now : Timestamp) (item : JsonValue) : HistoryRecord :=
  let event := asMap item
  let payload := parsePayload core (event.get "payload")
  let rawTime := textOr core "" (event.get "producedAt")
  let timestamp := (core.tryParse rawTime).getD now
  let generated : Utf16 :=
    "event-" ++
      Utf16.ofString (toString (core.microsecondsSinceEpoch timestamp))
  { id := textOr core generated (event.get "id")
    type := displayType core (textOr core "链上事件" (event.get "type"))
    toAddress := extractAddress core payload
    amount := extractAmount core payload
    txHash :=
      extractTxHash core payload (textOr core "" (event.get "id")) now
    status := extractStatus core payload
    timestamp }

end Records

/-- No text is kept out of the history: the payload of an event may give it
as the status. -/
theorem historyRecord_status
    {core : DartCore} {item : JsonValue} {payload : JsonMap} {text : Utf16}
    (now : Timestamp) (htext : text.isEmpty = false)
    (hraw : (textOr core "" ((asMap item).get "payload")).isEmpty = false)
    (hdecode : core.jsonDecode (textOr core "" ((asMap item).get "payload")) =
      some (.map payload))
    (hstatus : payload.get "status" = .string text) :
    (historyRecord core now item).status = text := by
  have hpayload : parsePayload core ((asMap item).get "payload") =
      payload := by
    simp only [parsePayload, hraw, hdecode]
    rfl
  simp [historyRecord, hpayload, extractStatus, hstatus, textOr, htext]

/-! ## The export -/

def historyHeader : List Utf16 :=
  ["id", "type", "toAddress", "amount", "status", "txHash", "timestamp"]

namespace HistoryRecord

/-- The values that come from the indexer as texts. -/
def texts (record : HistoryRecord) : List Utf16 :=
  [record.id, record.type, record.toAddress, record.amount, record.status,
    record.txHash]

def values (record : HistoryRecord) : List Utf16 :=
  record.texts ++ [record.timestamp.toIso8601String]

/-- One line of the export. -/
def line (record : HistoryRecord) : Utf16 :=
  record.id ++ "," ++ record.type ++ "," ++ record.toAddress ++ "," ++
    record.amount ++ "," ++ record.status ++ "," ++ record.txHash ++ "," ++
    record.timestamp.toIso8601String

end HistoryRecord

/-- `_buildExportPayload` for the format `csv`. -/
def buildCsvPayload (history : List HistoryRecord) : Utf16 :=
  let header : Utf16 := "id,type,toAddress,amount,status,txHash,timestamp"
  let lines := join (history.map HistoryRecord.line) "\n"
  header ++ "\n" ++ lines

/-! ## Plain texts -/

/-- The text has neither a quote nor a comma nor a line break. -/
def IsPlainText (text : Utf16) : Prop :=
  ∀ unit ∈ text.units, unit ∉ ([0x22, 0x2C, 0x0D, 0x0A] : List UInt16)

instance (text : Utf16) : Decidable (IsPlainText text) :=
  List.decidableBAll _ text.units

theorem isPlain_units_iff (text : Utf16) :
    rfc4180.IsPlain text.units ↔ IsPlainText text := by
  have hunit : ∀ unit : UInt16, rfc4180.kind unit = .text ↔
      unit ∉ ([0x22, 0x2C, 0x0D, 0x0A] : List UInt16) := by
    intro unit
    simp only [Csv.Dialect.kind, rfc4180, List.mem_cons, List.not_mem_nil,
      or_false, not_or]
    by_cases hquote : unit = 0x22
    · simp [hquote]
    · by_cases hcomma : unit = 0x2C
      · simp [hcomma]
      · by_cases hreturn : unit = 0x0D
        · simp [hreturn]
        · by_cases hfeed : unit = 0x0A <;>
            simp [hquote, hcomma, hreturn, hfeed]
  exact forall₂_congr fun unit _ => hunit unit

theorem IsPlainText.append
    {left right : Utf16} (hleft : IsPlainText left)
    (hright : IsPlainText right) : IsPlainText (left ++ right) := by
  intro unit hmem
  rcases List.mem_append.mp hmem with hmem | hmem
  · exact hleft unit hmem
  · exact hright unit hmem

theorem IsPlainText.ite
    {condition : Prop} [Decidable condition] {left right : Utf16}
    (hleft : IsPlainText left) (hright : IsPlainText right) :
    IsPlainText (if condition then left else right) := by
  by_cases hcondition : condition
  · rwa [if_pos hcondition]
  · rwa [if_neg hcondition]

theorem isPlainText_ofNat (number : ℕ) : IsPlainText (Utf16.ofNat number) := by
  intro unit hmem
  obtain ⟨char, hchar, hunit⟩ := List.mem_flatMap.mp hmem
  rw [Nat.toString_eq_ofList_toDigits, String.toList_ofList] at hchar
  have hdigit : char.isDigit = true :=
    Nat.isDigit_of_mem_toDigits (by decide) (by decide) hchar
  have hlow : 48 ≤ char.toNat := (Char.isDigit_iff_toNat.mp hdigit).1
  have hhigh : char.toNat ≤ 57 := (Char.isDigit_iff_toNat.mp hdigit).2
  have hsmall : char.toNat < 0x10000 := by omega
  rw [Utf16.ofChar, if_pos hsmall, List.mem_singleton] at hunit
  have hnat : unit.toNat = char.toNat := by
    rw [hunit, Nat.toUInt16_eq, UInt16.toNat_ofNat']
    exact Nat.mod_eq_of_lt hsmall
  simp only [List.mem_cons, List.not_mem_nil, or_false, not_or,
    ← UInt16.toNat_inj, hnat]
  refine ⟨?_, ?_, ?_, ?_⟩ <;> simp <;> omega

theorem isPlainText_digits (number width : ℕ) :
    IsPlainText (DateTime.digits number width) := by
  intro unit hmem
  rcases List.mem_append.mp hmem with hpad | hdigit
  · rw [List.eq_of_mem_replicate hpad]
    decide
  · exact isPlainText_ofNat number unit hdigit

theorem isPlainText_yearText (year : ℤ) :
    IsPlainText (DateTime.yearText year) := by
  have hempty : IsPlainText "" := by decide
  have hminus : IsPlainText "-" := by decide
  have hplus : IsPlainText "+" := by decide
  unfold DateTime.yearText
  split_ifs
  · exact hminus.append (isPlainText_digits _ _)
  · exact hempty.append (isPlainText_digits _ _)
  · exact hminus.append (isPlainText_digits _ _)
  · exact hplus.append (isPlainText_digits _ _)

theorem isPlainText_toIso8601String (time : Timestamp) :
    IsPlainText time.toIso8601String := by
  have hempty : IsPlainText "" := by decide
  have hminus : IsPlainText "-" := by decide
  have hcolon : IsPlainText ":" := by decide
  have hpoint : IsPlainText "." := by decide
  have htime : IsPlainText "T" := by decide
  have hzone : IsPlainText "Z" := by decide
  have hmicros : IsPlainText
      (if time.microsecond = 0 then ("" : Utf16)
        else DateTime.digits time.microsecond 3) :=
    hempty.ite (isPlainText_digits _ _)
  have hutc : IsPlainText (if time.isUtc then ("Z" : Utf16) else "") :=
    hzone.ite hempty
  have hdate := (((isPlainText_yearText time.year).append hminus).append
    (isPlainText_digits time.month 2)).append hminus
  have hhour := ((hdate.append (isPlainText_digits time.day 2)).append
    htime).append (isPlainText_digits time.hour 2)
  have hsecond := (((hhour.append hcolon).append
    (isPlainText_digits time.minute 2)).append hcolon).append
      (isPlainText_digits time.second 2)
  exact (((hsecond.append hpoint).append
    (isPlainText_digits time.millisecond 3)).append hmicros).append hutc

/-! ## Reading the export -/

theorem units_append (left right : Utf16) :
    (left ++ right).units = left.units ++ right.units :=
  rfl

theorem units_line (record : HistoryRecord) :
    record.line.units = rfc4180.joinFields (record.values.map Utf16.units) := by
  have hcomma : (Utf16.ofString ",").units = [rfc4180.separator] := by decide
  simp [HistoryRecord.line, HistoryRecord.values, HistoryRecord.texts,
    Csv.Dialect.joinFields, List.intercalate_cons_cons, units_append, hcomma]

theorem units_buildCsvPayload
    {history : List HistoryRecord} (hsome : history ≠ []) :
    (buildCsvPayload history).units = rfc4180.joinRecords
      (units (historyHeader :: history.map HistoryRecord.values)) := by
  have hfeed : (Utf16.ofString "\n").units = [rfc4180.lineFeed] := by decide
  have hheader :
      (Utf16.ofString "id,type,toAddress,amount,status,txHash,timestamp").units =
        rfc4180.joinFields (historyHeader.map Utf16.units) := by
    decide
  obtain ⟨record, records, rfl⟩ := List.exists_cons_of_ne_nil hsome
  simp only [buildCsvPayload, units_append, hheader, hfeed, units,
    List.map_cons, Csv.Dialect.joinRecords_cons_cons, List.append_assoc,
    List.singleton_append]
  simp [join, Csv.Dialect.joinRecords, hfeed, units_line, Function.comp_def]

/-- The export of a history is read back as it was exactly when every text of
every record is plain. -/
theorem parseCsv_buildCsvPayload_iff
    {history : List HistoryRecord} (hsome : history ≠ []) :
    parseCsv (buildCsvPayload history) =
        some (historyHeader :: history.map HistoryRecord.values) ↔
      ∀ record ∈ history, ∀ text ∈ record.texts, IsPlainText text := by
  have hfilled : ∀ record ∈
      units (historyHeader :: history.map HistoryRecord.values),
      rfc4180.joinFields record ≠ [] := by
    intro record hmem
    simp only [units, List.map_cons, List.map_map, List.mem_cons,
      List.mem_map] at hmem
    rcases hmem with rfl | ⟨event, -, rfl⟩
    · exact Csv.Dialect.joinFields_ne_nil _ _ _
    · exact Csv.Dialect.joinFields_ne_nil _ _ _
  have hrecords :
      units (historyHeader :: history.map HistoryRecord.values) ≠ [] := by
    simp [units]
  rw [parseCsv_eq_some_iff, units_buildCsvPayload hsome,
    Csv.Dialect.parse_joinRecords_iff hrecords hfilled]
  have hheader : ∀ text ∈ historyHeader, IsPlainText text := by decide
  have hvalues : ∀ record : HistoryRecord,
      (∀ text ∈ record.values, IsPlainText text) ↔
        ∀ text ∈ record.texts, IsPlainText text := by
    intro record
    rw [HistoryRecord.values, List.forall_mem_append, List.forall_mem_singleton]
    exact and_iff_left (isPlainText_toIso8601String record.timestamp)
  simp only [units, List.map_cons, List.forall_mem_cons,
    List.forall_mem_map, isPlain_units_iff, hvalues]
  exact and_iff_right hheader

def transferRecord (status : Utf16) : HistoryRecord where
  id := "evt-1"
  type := "链上交易"
  toAddress := "soul1receiver"
  amount := "1 SOUL"
  txHash := "AB12"
  status := status
  timestamp :=
    { year := 2026
      month := 3
      day := 5
      hour := 8
      minute := 9
      second := 10
      millisecond := 0
      microsecond := 0
      isUtc := true }

theorem parseCsv_buildCsvPayload_transfer :
    parseCsv (buildCsvPayload [transferRecord "已确认"]) =
      some [historyHeader, (transferRecord "已确认").values] :=
  (parseCsv_buildCsvPayload_iff (by decide)).mpr (by decide)

set_option maxRecDepth 4000 in
/-- The comma of a status begins a field of its own. -/
theorem parseCsv_buildCsvPayload_comma :
    parseCsv (buildCsvPayload [transferRecord "ok,late"]) ≠
      some [historyHeader, (transferRecord "ok,late").values] := by
  decide

end SoulonWallet.Export
