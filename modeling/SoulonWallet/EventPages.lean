import SoulonWallet.ExceptResults
import SoulonWallet.FileEventStore
import SoulonWallet.GoDecimals
import SoulonWallet.PageReading

/-!
# Pages of the event log

`handleIndexerEvents` reads the whole log for every request, keeps the events
that the query admits, and answers with one page of them and their number.

The parameters of a query reach the server as the client has written them.
An entry of the log carries its place, so that two equal events are told
apart; the client gets the events without it.  The events of a log can be
encoded, since they have been decoded before.
-/

namespace SoulonWallet.Api

open Chain (trimSpace)
open PageReading

/-! ## The query -/

inductive Order where
  | asc
  | desc
  deriving DecidableEq

/-- The parameters of the request, empty where there are none. -/
structure EventsRequest where
  limit : String
  offset : String
  order : String
  type : String
  minHeight : String
  maxHeight : String

structure EventQuery where
  limit : ℕ
  offset : ℕ
  order : Order
  eventType : String
  minHeight : Option ℤ
  maxHeight : Option ℤ

def parseLimit (raw : String) : Except String ℕ :=
  let limitQuery := trimSpace raw
  if limitQuery = "" then .ok 20
  else
    match atoi limitQuery with
    | none => .error ("invalid limit: " ++ limitQuery)
    | some parsed =>
        if parsed ≤ 0 ∨ 200 < parsed then
          .error ("limit out of range: " ++ toString parsed)
        else .ok parsed.toNat

def parseOffset (raw : String) : Except String ℕ :=
  let offsetQuery := trimSpace raw
  if offsetQuery = "" then .ok 0
  else
    match atoi offsetQuery with
    | none => .error ("invalid offset: " ++ offsetQuery)
    | some parsed =>
        if parsed < 0 then
          .error ("offset out of range: " ++ toString parsed)
        else .ok parsed.toNat

/-- `strings.ToLower`; beyond ASCII, `unicode` is the case mapping. -/
def toLower (unicode : Char → Char) (text : String) : String :=
  String.ofList (text.toList.map fun c =>
    if c.toNat < 0x80 then c.toLower else unicode c)

def parseOrder (unicode : Char → Char) (raw : String) :
    Except String Order :=
  let order := toLower unicode (trimSpace raw)
  if order = "" then .ok .desc
  else if order = "asc" then .ok .asc
  else if order = "desc" then .ok .desc
  else .error ("invalid order: " ++ order)

def parseHeight (name raw : String) : Except String (Option ℤ) :=
  let heightQuery := trimSpace raw
  if heightQuery = "" then .ok none
  else
    match atoi heightQuery with
    | none => .error ("invalid " ++ name ++ ": " ++ heightQuery)
    | some parsed => .ok (some parsed)

/-- Both bounds are there and exclude each other. -/
def crossed (minHeight maxHeight : Option ℤ) : Prop :=
  ∃ low ∈ minHeight, ∃ high ∈ maxHeight, high < low

instance (minHeight maxHeight : Option ℤ) :
    Decidable (crossed minHeight maxHeight) :=
  inferInstanceAs (Decidable (∃ low ∈ minHeight, ∃ high ∈ maxHeight, _))

def parseEventQuery (unicode : Char → Char) (request : EventsRequest) :
    Except String EventQuery := do
  let limit ← parseLimit request.limit
  let offset ← parseOffset request.offset
  let order ← parseOrder unicode request.order
  let minHeight ← parseHeight "minHeight" request.minHeight
  let maxHeight ← parseHeight "maxHeight" request.maxHeight
  if crossed minHeight maxHeight then
    .error "minHeight cannot be greater than maxHeight"
  else
    .ok
      { limit, offset, order
        eventType := trimSpace request.type
        minHeight, maxHeight }

/-! ## The answer -/

structure LogEntry where
  seq : ℕ
  event : Indexer.Event
  deriving DecidableEq

def logEntries (log : List Indexer.Event) : List LogEntry :=
  log.mapIdx LogEntry.mk

def EventQuery.admits (query : EventQuery) (event : Indexer.Event) : Bool :=
  (query.eventType == "" || event.type == query.eventType) &&
    (query.minHeight.all fun minHeight => minHeight ≤ event.height) &&
      query.maxHeight.all fun maxHeight => event.height ≤ maxHeight

def filterEvents (events : List LogEntry) (query : EventQuery) :
    List LogEntry :=
  events.filter fun entry => query.admits entry.event

/-- The page, and whether there are events after it. -/
def selectEvents (events : List LogEntry) (query : EventQuery) :
    List LogEntry × Bool :=
  let ordered :=
    match query.order with
    | .asc => events
    | .desc => events.reverse
  if ordered.length ≤ query.offset then ([], false)
  else
    let stop := min (query.offset + query.limit) ordered.length
    ((ordered.take stop).drop query.offset, stop < ordered.length)

inductive LoadFailure where
  | notExist
  | failed (message : String)

/-- Only the events and the total are there when there is no log. -/
structure EventsPage where
  events : List LogEntry
  total : ℕ
  offset : Option ℕ
  limit : Option ℕ
  hasMore : Option Bool

def handleIndexerEvents (unicode : Char → Char)
    (loaded : Except LoadFailure (List Indexer.Event)) (request : EventsRequest) :
    Except ApiError EventsPage :=
  match parseEventQuery unicode request with
  | .error message => .error (badRequest message)
  | .ok query =>
      match loaded with
      | .error .notExist => .ok ⟨[], 0, none, none, none⟩
      | .error (.failed message) =>
          .error (writeApiError 500 .internal message false)
      | .ok log =>
          let filtered := filterEvents (logEntries log) query
          let selected := selectEvents filtered query
          .ok
            { events := selected.1
              total := filtered.length
              offset := some query.offset
              limit := some query.limit
              hasMore := some selected.2 }

/-! ## Queries of the client -/

structure EventsFilter where
  order : Option Order := none
  type : Option String := none
  minHeight : Option ℤ := none
  maxHeight : Option ℤ := none

structure IndexerEventsQuery extends EventsFilter where
  limit : Option ℤ := none
  offset : Option ℤ := none

def Order.text : Order → String
  | .asc => "asc"
  | .desc => "desc"

def numberText (number : Option ℤ) : String :=
  (number.map toString).getD ""

/-- What `buildUrl` puts into the parameters. -/
def IndexerEventsQuery.request (query : IndexerEventsQuery) :
    EventsRequest where
  limit := numberText query.limit
  offset := numberText query.offset
  order := (query.order.map Order.text).getD ""
  type := query.type.getD ""
  minHeight := numberText query.minHeight
  maxHeight := numberText query.maxHeight

namespace EventsFilter

/-- The server does not refuse the bounds. -/
def Servable (filter : EventsFilter) : Prop :=
  (∀ height ∈ filter.minHeight, FitsInt64 height) ∧
    (∀ height ∈ filter.maxHeight, FitsInt64 height) ∧
      ¬ crossed filter.minHeight filter.maxHeight

instance (filter : EventsFilter) : Decidable filter.Servable :=
  inferInstanceAs (Decidable (_ ∧ _ ∧ _))

def admits (filter : EventsFilter) (event : Indexer.Event) : Bool :=
  let type := trimSpace (filter.type.getD "")
  (type == "" || event.type == type) &&
    (filter.minHeight.all fun minHeight => minHeight ≤ event.height) &&
      filter.maxHeight.all fun maxHeight => event.height ≤ maxHeight

/-- The entries that the filter is meant to select, in its order. -/
def matching (filter : EventsFilter) (log : List Indexer.Event) : List LogEntry :=
  let entries := (logEntries log).filter fun entry =>
    filter.admits entry.event
  match filter.order.getD .desc with
  | .asc => entries
  | .desc => entries.reverse

def eventQuery (filter : EventsFilter) (limit offset : ℕ) : EventQuery where
  limit := limit
  offset := offset
  order := filter.order.getD .desc
  eventType := trimSpace (filter.type.getD "")
  minHeight := filter.minHeight
  maxHeight := filter.maxHeight

def pageQuery (filter : EventsFilter) (limit offset : ℕ) :
    IndexerEventsQuery :=
  { filter with limit := some (limit : ℤ), offset := some (offset : ℤ) }

end EventsFilter

/-! ## The entries of a log -/

theorem logEntries_concat (log : List Indexer.Event)
    (event : Indexer.Event) :
    logEntries (log ++ [event]) =
      logEntries log ++ [⟨log.length, event⟩] :=
  List.mapIdx_concat

theorem seq_lt_of_mem
    {log : List Indexer.Event} {entry : LogEntry}
    (hentry : entry ∈ logEntries log) : entry.seq < log.length := by
  obtain ⟨seq, hseq, rfl⟩ := List.mem_mapIdx.mp hentry
  exact hseq

theorem notMem_logEntries
    (log : List Indexer.Event) (event : Indexer.Event) :
    (⟨log.length, event⟩ : LogEntry) ∉ logEntries log := by
  intro hentry
  exact Nat.lt_irrefl _ (seq_lt_of_mem hentry)

theorem nodup_logEntries (log : List Indexer.Event) :
    (logEntries log).Nodup := by
  induction log using List.reverseRecOn with
  | nil => exact List.nodup_nil
  | append_singleton log event ih =>
      rw [logEntries_concat, List.nodup_append]
      refine ⟨ih, List.nodup_singleton _, ?_⟩
      rintro entry hentry other hother rfl
      obtain rfl := List.mem_singleton.mp hother
      exact notMem_logEntries log event hentry

/-! ## What the server answers -/

theorem trimSpace_empty : trimSpace "" = "" := by
  decide

theorem numberText_some (number : ℤ) :
    numberText (some number) = toString number := rfl

theorem parseLimit_eq_ok_iff {limit parsed : ℕ} :
    parseLimit (numberText (some (limit : ℤ))) = .ok parsed ↔
      (1 ≤ limit ∧ limit ≤ 200) ∧ parsed = limit := by
  rw [numberText_some, parseLimit, trimSpace_toString]
  simp only [if_neg (toString_ne_empty _), atoi_toString]
  by_cases hrange : 1 ≤ limit ∧ limit ≤ 200
  · have hfits : FitsInt64 limit := by
      unfold FitsInt64
      omega
    have hin : ¬ ((limit : ℤ) ≤ 0 ∨ 200 < (limit : ℤ)) := by omega
    simp only [if_pos hfits, if_neg hin, hrange, Int.toNat_natCast,
      Except.ok.injEq, true_and, and_self]
    exact eq_comm
  · have hout : limit = 0 ∨ 200 < limit := by omega
    by_cases hfits : FitsInt64 limit
    · simp [hfits, hout, hrange]
    · simp [hfits, hrange]

theorem parseOffset_eq_ok_iff {offset parsed : ℕ} :
    parseOffset (numberText (some (offset : ℤ))) = .ok parsed ↔
      FitsInt64 offset ∧ parsed = offset := by
  rw [numberText_some, parseOffset, trimSpace_toString]
  simp only [if_neg (toString_ne_empty _), atoi_toString]
  by_cases hfits : FitsInt64 offset
  · have hpositive : ¬ (offset : ℤ) < 0 := by omega
    simp [hfits, hpositive, eq_comm]
  · simp [hfits]

theorem parseOrder_text (unicode : Char → Char) (order : Option Order) :
    parseOrder unicode ((order.map Order.text).getD "") =
      .ok (order.getD .desc) := by
  match order with
  | none => rfl
  | some .asc => rfl
  | some .desc => rfl

theorem parseHeight_eq_ok_iff
    (name : String) {height parsed : Option ℤ} :
    parseHeight name (numberText height) = .ok parsed ↔
      (∀ number ∈ height, FitsInt64 number) ∧ parsed = height := by
  cases height with
  | none =>
      rw [parseHeight, numberText, Option.map_none, Option.getD_none,
        trimSpace_empty]
      simp [eq_comm]
  | some number =>
      rw [numberText_some, parseHeight, trimSpace_toString]
      simp only [if_neg (toString_ne_empty _), atoi_toString]
      by_cases hfits : FitsInt64 number
      · simp [hfits, eq_comm]
      · simp [hfits]

theorem parseEventQuery_eq_ok_iff
    (unicode : Char → Char) {filter : EventsFilter} {limit offset : ℕ}
    {query : EventQuery} :
    parseEventQuery unicode (filter.pageQuery limit offset).request =
        .ok query ↔
      ((1 ≤ limit ∧ limit ≤ 200) ∧ FitsInt64 offset ∧ filter.Servable) ∧
        query = filter.eventQuery limit offset := by
  unfold parseEventQuery
  simp only [IndexerEventsQuery.request, EventsFilter.pageQuery,
    bind_eq_ok_iff, parseLimit_eq_ok_iff, parseOffset_eq_ok_iff,
    parseOrder_text, parseHeight_eq_ok_iff, Except.ok.injEq]
  unfold EventsFilter.Servable
  constructor
  · rintro ⟨_, ⟨hlimit, rfl⟩, _, ⟨hoffset, rfl⟩, _, rfl, _, ⟨hmin, rfl⟩, _,
      ⟨hmax, rfl⟩, hquery⟩
    split_ifs at hquery with hcrossed
    exact ⟨⟨hlimit, hoffset, hmin, hmax, hcrossed⟩,
      (Except.ok.inj hquery).symm⟩
  · rintro ⟨⟨hlimit, hoffset, hmin, hmax, hcrossed⟩, rfl⟩
    refine ⟨_, ⟨hlimit, rfl⟩, _, ⟨hoffset, rfl⟩, _, rfl, _, ⟨hmin, rfl⟩, _,
      ⟨hmax, rfl⟩, ?_⟩
    rw [if_neg hcrossed]
    rfl

theorem pageOf_eq (ordered : List LogEntry) (limit offset : ℕ) :
    (if ordered.length ≤ offset then ([], false)
      else
        let stop := min (offset + limit) ordered.length
        ((ordered.take stop).drop offset, decide (stop < ordered.length))) =
      page ordered limit offset := by
  split_ifs with hpast
  · exact (page_of_past hpast).symm
  · exact slice_eq_page ordered limit offset

theorem selectEvents_filterEvents
    (filter : EventsFilter) (log : List Indexer.Event)
    (limit offset : ℕ) :
    selectEvents
        (filterEvents (logEntries log) (filter.eventQuery limit offset))
        (filter.eventQuery limit offset) =
      (((filter.matching log).drop offset).take limit,
        decide (offset + limit < (filter.matching log).length)) :=
  pageOf_eq (filter.matching log) limit offset

theorem length_filterEvents
    (filter : EventsFilter) (log : List Indexer.Event)
    (limit offset : ℕ) :
    (filterEvents (logEntries log)
        (filter.eventQuery limit offset)).length =
      (filter.matching log).length := by
  unfold EventsFilter.matching
  cases filter.order.getD .desc with
  | asc => rfl
  | desc => exact List.length_reverse.symm

/-- The log that a handler has loaded; there is none after a failure. -/
def loadedLog : Except LoadFailure (List Indexer.Event) →
    List Indexer.Event
  | .ok log => log
  | .error _ => []

/-- The page of the matching entries that starts at `offset`. -/
structure EventsPage.Serves (page : EventsPage) (entries : List LogEntry)
    (limit offset : ℕ) : Prop where
  events : page.events = (entries.drop offset).take limit
  total : page.total = entries.length
  hasMore : page.hasMore.getD false =
    decide (offset + limit < entries.length)

variable {unicode : Char → Char} {filter : EventsFilter}
variable {limit offset : ℕ}

theorem matching_nil (filter : EventsFilter) : filter.matching [] = [] := by
  unfold EventsFilter.matching
  cases filter.order.getD .desc with
  | asc => rfl
  | desc => rfl

theorem length_matching_le
    (filter : EventsFilter) (log : List Indexer.Event) :
    (filter.matching log).length ≤ log.length := by
  have hentries : (logEntries log).length = log.length :=
    List.length_mapIdx
  rw [← length_filterEvents filter log 0 0, ← hentries]
  exact List.length_filter_le _ _

theorem serves_of_handle
    {loaded : Except LoadFailure (List Indexer.Event)} {page : EventsPage}
    (hhandle : handleIndexerEvents unicode loaded
      (filter.pageQuery limit offset).request = .ok page) :
    page.Serves (filter.matching (loadedLog loaded)) limit offset := by
  unfold handleIndexerEvents at hhandle
  split at hhandle
  next => cases hhandle
  next query hquery =>
    obtain ⟨-, rfl⟩ := (parseEventQuery_eq_ok_iff unicode).mp hquery
    cases loaded with
    | error failure =>
        cases failure with
        | failed message => cases hhandle
        | notExist =>
            obtain rfl := Except.ok.inj hhandle
            constructor
            · simp [loadedLog, matching_nil]
            · simp [loadedLog, matching_nil]
            · simp [loadedLog, matching_nil]
    | ok log =>
        obtain rfl := Except.ok.inj hhandle
        have hselected := selectEvents_filterEvents filter log limit offset
        constructor
        · exact congrArg Prod.fst hselected
        · exact length_filterEvents filter log limit offset
        · exact congrArg Prod.snd hselected

theorem exists_handle_eq_ok
    (unicode : Char → Char)
    {loaded : Except LoadFailure (List Indexer.Event)}
    (hlimit : 1 ≤ limit ∧ limit ≤ 200) (hoffset : FitsInt64 offset)
    (hfilter : filter.Servable)
    (hloaded : ∀ message, loaded ≠ .error (.failed message)) :
    ∃ page, handleIndexerEvents unicode loaded
      (filter.pageQuery limit offset).request = .ok page := by
  have hquery := (parseEventQuery_eq_ok_iff unicode).mpr
    ⟨⟨hlimit, hoffset, hfilter⟩, rfl⟩
  unfold handleIndexerEvents
  rw [hquery]
  cases loaded with
  | ok log => exact ⟨_, rfl⟩
  | error failure =>
      cases failure with
      | notExist => exact ⟨_, rfl⟩
      | failed message => exact absurd rfl (hloaded message)

theorem accepted_of_handle
    {loaded : Except LoadFailure (List Indexer.Event)} {page : EventsPage}
    (hhandle : handleIndexerEvents unicode loaded
      (filter.pageQuery limit offset).request = .ok page) :
    (1 ≤ limit ∧ limit ≤ 200) ∧ filter.Servable := by
  unfold handleIndexerEvents at hhandle
  split at hhandle
  next => cases hhandle
  next query hquery =>
    obtain ⟨⟨hlimit, -, hfilter⟩, -⟩ :=
      (parseEventQuery_eq_ok_iff unicode).mp hquery
    exact ⟨hlimit, hfilter⟩

/-! ## Reading all pages -/

/-- The event has the type and lies within the bounds that the query names. -/
def EventQuery.Matches (query : EventQuery) (event : Indexer.Event) : Prop :=
  (query.eventType ≠ "" → event.type = query.eventType) ∧
    (∀ minHeight ∈ query.minHeight, minHeight ≤ event.height) ∧
      ∀ maxHeight ∈ query.maxHeight, event.height ≤ maxHeight

instance (query : EventQuery) (event : Indexer.Event) :
    Decidable (query.Matches event) :=
  inferInstanceAs (Decidable ((_ → _) ∧ (∀ _ ∈ query.minHeight, _) ∧
    ∀ _ ∈ query.maxHeight, _))

/-- The entries that match, in the order of the query. -/
def EventQuery.selection (query : EventQuery) (log : List Indexer.Event) :
    List LogEntry :=
  let entries := (logEntries log).filter fun entry =>
    query.Matches entry.event
  match query.order with
  | .asc => entries
  | .desc => entries.reverse

/-- What the server selects for the query with this limit and offset. -/
def EventQuery.select (query : EventQuery) (log : List Indexer.Event)
    (limit offset : ℕ) : List LogEntry × Bool :=
  let paged : EventQuery := { query with limit, offset }
  selectEvents (filterEvents (logEntries log) paged) paged

theorem admits_iff
    {query : EventQuery} {event : Indexer.Event} :
    query.admits event = true ↔ query.Matches event := by
  have htype : (query.eventType == "" || event.type == query.eventType) =
      true ↔ (query.eventType ≠ "" → event.type = query.eventType) := by
    rw [Bool.or_eq_true, beq_iff_eq, beq_iff_eq]
    tauto
  simp only [EventQuery.admits, EventQuery.Matches, Bool.and_eq_true, htype,
    Option.all_eq_true, decide_eq_true_iff, Option.mem_def, and_assoc]

theorem select_eq_page
    (query : EventQuery) (log : List Indexer.Event) (limit offset : ℕ) :
    query.select log limit offset =
      page (query.selection log) limit offset := by
  have hfiltered :
      filterEvents (logEntries log) { query with limit, offset } =
        (logEntries log).filter fun entry => query.Matches entry.event := by
    apply List.filter_congr
    intro entry _
    rw [Bool.eq_iff_iff, decide_eq_true_iff]
    exact admits_iff
  rw [EventQuery.select, EventQuery.selection, hfiltered]
  exact pageOf_eq _ limit offset

theorem nodup_selection (query : EventQuery) (log : List Indexer.Event) :
    (query.selection log).Nodup := by
  have hnodup := (nodup_logEntries log).filter
    fun entry => query.Matches entry.event
  unfold EventQuery.selection
  cases query.order with
  | asc => exact hnodup
  | desc => exact List.nodup_reverse.mpr hnodup

/-- The pages of a query, read as long as there are more, are the matching
entries in its order, each once; past them the pages are empty. -/
theorem event_pages_partition
    (query : EventQuery) (log : List Indexer.Event)
    {limit : ℕ} (hlimit : 1 ≤ limit) :
    (∀ read,
      Reads (fun offset answer => query.select log limit offset = answer)
          limit 0 read ↔
        read = query.selection log) ∧
      (query.selection log).Nodup ∧
      ∀ offset, (query.selection log).length ≤ offset →
        query.select log limit offset = ([], false) := by
  refine ⟨?_, nodup_selection query log, ?_⟩
  · intro read
    apply reads_iff _ hlimit
    intro offset answer _
    simp only [select_eq_page]
    exact eq_comm
  · intro offset hpast
    rw [select_eq_page]
    exact page_of_past hpast

def fourEvents : List Indexer.Event :=
  [{ height := 1, type := "new_block", id := "e1" },
    { height := 2, type := "new_block", id := "e2" },
    { height := 3, type := "rollback", id := "e3" },
    { height := 4, type := "new_block", id := "e4" }]

def newBlocksFromTwo : EventQuery where
  limit := 20
  offset := 0
  order := .desc
  eventType := "new_block"
  minHeight := some 2
  maxHeight := none

theorem event_pages_partition_fourEvents :
    Reads (fun offset answer =>
        newBlocksFromTwo.select fourEvents 1 offset = answer) 1 0
      [⟨3, { height := 4, type := "new_block", id := "e4" }⟩,
        ⟨1, { height := 2, type := "new_block", id := "e2" }⟩] ∧
      newBlocksFromTwo.select fourEvents 1 2 = ([], false) := by
  obtain ⟨hreads, -, hpast⟩ :=
    event_pages_partition newBlocksFromTwo fourEvents le_rfl
  exact ⟨(hreads _).mpr (by decide), hpast 2 (by decide)⟩

end SoulonWallet.Api
