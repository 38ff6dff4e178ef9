import SoulonWallet.Binary64
import SoulonWallet.Csv
import SoulonWallet.Utf16Text

/-!
# The CSV export of events

`serializeEventsToCsv` puts every value between quotes and doubles the quotes
inside, so that a reader of RFC 4180 gets back the values of any event.  The
digits that JavaScript writes for a number are a parameter.
-/

namespace SoulonWallet.Export

/-! ## The format -/

/-- The symbols of RFC 4180. -/
def rfc4180 : Csv.Dialect UInt16 where
  quote := 0x22
  separator := 0x2C
  carriageReturn := 0x0D
  lineFeed := 0x0A
  distinct := by decide

def units (records : List (List Utf16)) : List (List (List UInt16)) :=
  records.map fun record => record.map Utf16.units

def texts (records : List (List (List UInt16))) : List (List Utf16) :=
  records.map fun record => record.map Utf16.mk

def parseCsv (text : Utf16) : Option (List (List Utf16)) :=
  (rfc4180.parse text.units).map texts

def join (texts : List Utf16) (separator : Utf16) : Utf16 :=
  ⟨separator.units.intercalate (texts.map Utf16.units)⟩

theorem texts_units (records : List (List Utf16)) :
    texts (units records) = records := by
  simp [texts, units, Function.comp_def]

theorem units_texts (records : List (List (List UInt16))) :
    units (texts records) = records := by
  simp [texts, units, Function.comp_def]

theorem parseCsv_eq_some_iff (text : Utf16) (records : List (List Utf16)) :
    parseCsv text = some records ↔
      rfc4180.parse text.units = some (units records) := by
  rw [parseCsv, Option.map_eq_some_iff]
  constructor
  · rintro ⟨read, hread, rfl⟩
    rw [hread, units_texts]
  · intro hread
    exact ⟨units records, hread, texts_units records⟩

/-- Texts joined by commas, and then by line feeds. -/
theorem units_join_join (records : List (List Utf16)) :
    (join (records.map fun record => join record ",") "\n").units =
      rfc4180.joinRecords (units records) := by
  have hcomma : (Utf16.ofString ",").units = [rfc4180.separator] := by decide
  have hfeed : (Utf16.ofString "\n").units = [rfc4180.lineFeed] := by decide
  simp only [join, hcomma, hfeed, Csv.Dialect.joinRecords,
    Csv.Dialect.joinFields, units, List.map_map, Function.comp_def]

/-! ## The export -/

structure IndexerEvent where
  id : Utf16
  type : Utf16
  height : Binary64
  blockHash : Option Utf16
  payload : Utf16
  producedAt : Utf16

def csvHeader : List Utf16 :=
  ["id", "type", "height", "block_hash", "produced_at", "payload"]

/-- Every quote is doubled, and the result stands between quotes. -/
def escapeCsv (value : Utf16) : Utf16 :=
  let escaped := value.units.flatMap fun unit =>
    if unit = 0x22 then [0x22, 0x22] else [unit]
  ⟨0x22 :: (escaped ++ [0x22])⟩

theorem units_escapeCsv (value : Utf16) :
    (escapeCsv value).units = rfc4180.quoteField value.units := by
  rfl

section Export

variable (numberText : Binary64 → Utf16)

def IndexerEvent.values (event : IndexerEvent) : List Utf16 :=
  [event.id, event.type, numberText event.height,
    event.blockHash.getD "", event.producedAt, event.payload]

def serializeEventsToCsv (events : List IndexerEvent) : Utf16 :=
  let rows := events.map fun event =>
    join ((event.values numberText).map escapeCsv) ","
  join (join csvHeader "," :: rows) "\n"

theorem written_csvHeader :
    List.Forall₂ rfc4180.Written (csvHeader.map Utf16.units)
      (csvHeader.map Utf16.units) := by
  have hplain : ∀ field ∈ csvHeader.map Utf16.units,
      rfc4180.IsPlain field := by
    decide
  exact List.forall₂_same.mpr fun field hmem => .plain (hplain field hmem)

theorem written_escapeCsv (values : List Utf16) :
    List.Forall₂ rfc4180.Written ((values.map escapeCsv).map Utf16.units)
      (values.map Utf16.units) := by
  rw [List.map_map, List.forall₂_map_left_iff, List.forall₂_map_right_iff]
  exact List.forall₂_same.mpr fun value _ => .quoted value.units

/-- Reading the export gives the header and the values of every event. -/
theorem parseCsv_serializeEventsToCsv (events : List IndexerEvent) :
    parseCsv (serializeEventsToCsv numberText events) =
      some (csvHeader :: events.map (IndexerEvent.values numberText)) := by
  let rows := events.map fun event =>
    (event.values numberText).map escapeCsv
  have htext : (serializeEventsToCsv numberText events).units =
      rfc4180.joinRecords (units (csvHeader :: rows)) := by
    rw [← units_join_join, serializeEventsToCsv]
    simp [rows, Function.comp_def]
  have hrows : List.Forall₂ (List.Forall₂ rfc4180.Written) (units rows)
      (units (events.map (IndexerEvent.values numberText))) := by
    simp only [units, rows, List.map_map, List.forall₂_map_left_iff,
      List.forall₂_map_right_iff]
    exact List.forall₂_same.mpr fun event _ => written_escapeCsv _
  have hfilled : ∀ record ∈ units (csvHeader :: rows),
      rfc4180.joinFields record ≠ [] := by
    intro record hmem
    simp only [units, rows, List.map_cons, List.map_map,
      List.mem_cons, List.mem_map] at hmem
    rcases hmem with rfl | ⟨event, -, rfl⟩
    · exact Csv.Dialect.joinFields_ne_nil _ _ _
    · exact Csv.Dialect.joinFields_ne_nil _ _ _
  rw [parseCsv_eq_some_iff, htext]
  exact Csv.Dialect.parse_joinRecords (.cons written_csvHeader hrows)
    (by simp [units]) hfilled

end Export

end SoulonWallet.Export
