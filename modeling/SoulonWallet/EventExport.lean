import SoulonWallet.EventPages

/-!
# The export of all events

`collectAllEvents` fetches page after page until the server says that there
is no more, a page is empty, or the limit of pages is reached.  Too many
records make it throw.  The limit of pages does not: the loop is left, and
what has been collected is returned as if it were everything.
-/

namespace SoulonWallet.Api

/-! ## The model -/

structure CollectAllEventsOptions where
  pageSize : ℕ := 200
  maxPages : ℕ := 500
  maxRecords : ℕ := 10000

inductive ExportError where
  | thrown (message : String)
  | rejected (error : ApiError)

def exportCancelledError : ExportError := .thrown "EXPORT_CANCELLED"

def exportLimitExceededError : ExportError :=
  .thrown "EXPORT_LIMIT_EXCEEDED"

/-- The variables of the loop; `stopped` tells that it was left by `break`,
and `progress` has what `onProgress` was called with. -/
structure Collection where
  events : List LogEntry := []
  offset : ℕ := 0
  hasMore : Bool := true
  pageCount : ℕ := 0
  stopped : Bool := false
  progress : List (ℕ × ℕ) := []

abbrev FetchEventsPage :=
  IndexerEventsQuery → Except ApiError EventsPage

/-- `walletApi.getIndexerEvents`, answered by the server. -/
def getIndexerEvents (unicode : Char → Char)
    (loaded : Except LoadFailure (List Indexer.Event)) : FetchEventsPage :=
  fun query => handleIndexerEvents unicode loaded query.request

namespace Collection

def running (collection : Collection) : Bool :=
  collection.hasMore && !collection.stopped

/-- The loop body from the answer on. -/
def receive (options : CollectAllEventsOptions) (collection : Collection)
    (response : EventsPage) : Except ExportError Collection :=
  let events := collection.events ++ response.events
  let pageCount := collection.pageCount + 1
  if options.maxRecords < response.total then
    .error exportLimitExceededError
  else if options.maxRecords < events.length then
    .error exportLimitExceededError
  else if response.events = [] then
    .ok
      { collection with
        events
        hasMore := response.hasMore.getD false
        pageCount
        stopped := true }
  else
    .ok
      { collection with
        events
        offset := collection.offset + response.events.length
        hasMore := response.hasMore.getD false
        pageCount
        progress := collection.progress ++ [(pageCount, events.length)] }

/-- The loop body; `aborted` is what the signal says at its start. -/
def iterate (fetchPage : FetchEventsPage) (filter : EventsFilter)
    (options : CollectAllEventsOptions) (aborted : Bool)
    (collection : Collection) : Except ExportError Collection :=
  if aborted then .error exportCancelledError
  else
    match fetchPage
        (filter.pageQuery options.pageSize collection.offset) with
    | .error err => .error (.rejected err)
    | .ok response => collection.receive options response

/-- The loop with `left` pages to go until `maxPages`. -/
def loop (fetchPage : FetchEventsPage) (filter : EventsFilter)
    (options : CollectAllEventsOptions) (aborted : ℕ → Bool) :
    ℕ → Collection → Except ExportError Collection
  | 0, collection => .ok collection
  | left + 1, collection =>
      if collection.running then
        match collection.iterate fetchPage filter options
            (aborted collection.pageCount) with
        | .error err => .error err
        | .ok next => loop fetchPage filter options aborted left next
      else .ok collection

end Collection

/-- `aborted` has what the signal says at each check. -/
def collectAllEvents (fetchPage : FetchEventsPage) (filter : EventsFilter)
    (options : CollectAllEventsOptions) (aborted : ℕ → Bool) :
    Except ExportError (List LogEntry) :=
  match Collection.loop fetchPage filter options aborted options.maxPages
      {} with
  | .error err => .error err
  | .ok collection =>
      if aborted collection.pageCount then .error exportCancelledError
      else .ok collection.events

/-! ## One page -/

namespace Collection

variable {options : CollectAllEventsOptions} {entries : List LogEntry}
variable {collection next : Collection} {response : EventsPage}

/-- What has been collected is what comes first in `entries`. -/
structure Aligned (entries : List LogEntry) (collection : Collection) :
    Prop where
  events : collection.events = entries.take collection.offset
  offset : collection.offset ≤ entries.length

/-- What has been collected from `entries`, which do not change. -/
structure Gathers (options : CollectAllEventsOptions)
    (entries : List LogEntry) (collection : Collection) : Prop
    extends Aligned entries collection where
  running : collection.running = true →
    collection.offset = options.pageSize * collection.pageCount
  done : collection.running = false →
    entries.length ≤ collection.offset ∧
      entries.length ≤ options.pageSize * collection.pageCount

theorem initial_gathers
    (options : CollectAllEventsOptions) (entries : List LogEntry) :
    Gathers options entries {} := by
  refine ⟨⟨List.take_zero.symm, Nat.zero_le _⟩, ?_, ?_⟩
  · intro _
    exact (Nat.mul_zero _).symm
  · intro hdone
    cases hdone

/-- What one answer does to the loop variables. -/
theorem receive_eq_ok
    (hnext : collection.receive options response = .ok next) :
    response.total ≤ options.maxRecords ∧
      next.events = collection.events ++ response.events ∧
      next.offset = collection.offset + response.events.length ∧
      next.pageCount = collection.pageCount + 1 ∧
      (collection.running = true →
        (next.running = true ↔
          response.hasMore.getD false = true ∧ response.events ≠ [])) := by
  simp only [receive] at hnext
  split_ifs at hnext with htotal hlength hempty
  · obtain rfl := Except.ok.inj hnext
    refine ⟨Nat.le_of_not_lt htotal, rfl, ?_, rfl, fun _ => ?_⟩
    · rw [hempty]
      rfl
    · simp [running, hempty]
  · obtain rfl := Except.ok.inj hnext
    refine ⟨Nat.le_of_not_lt htotal, rfl, rfl, rfl, fun hrunning => ?_⟩
    simp only [running, Bool.and_eq_true, Bool.not_eq_true'] at hrunning ⊢
    simp [hrunning.2, hempty]

theorem exists_receive_eq_ok
    (htotal : response.total ≤ options.maxRecords)
    (hlength : (collection.events ++ response.events).length ≤
      options.maxRecords) :
    ∃ next, collection.receive options response = .ok next := by
  unfold receive
  simp only [if_neg (Nat.not_lt.mpr htotal),
    if_neg (Nat.not_lt.mpr hlength)]
  split_ifs
  · exact ⟨_, rfl⟩
  · exact ⟨_, rfl⟩

/-- What a page of `entries` does to the loop variables. -/
theorem receive_serves
    (hsize : 1 ≤ options.pageSize) (hrunning : collection.running = true)
    (hserves : response.Serves entries options.pageSize collection.offset)
    (hnext : collection.receive options response = .ok next) :
    next.events = collection.events ++
        (entries.drop collection.offset).take options.pageSize ∧
      next.offset = collection.offset +
        min options.pageSize (entries.length - collection.offset) ∧
      next.pageCount = collection.pageCount + 1 ∧
      (next.running = true ↔
        collection.offset + options.pageSize < entries.length) := by
  obtain ⟨-, hevents, hoffset, hcount, hgoes⟩ := receive_eq_ok hnext
  have hlength : response.events.length =
      min options.pageSize (entries.length - collection.offset) := by
    rw [hserves.events, List.length_take, List.length_drop]
  have hempty : response.events ≠ [] ↔
      collection.offset < entries.length := by
    rw [← List.length_pos_iff, hlength]
    omega
  refine ⟨hserves.events ▸ hevents, hlength ▸ hoffset, hcount, ?_⟩
  rw [hgoes hrunning, hserves.hasMore, decide_eq_true_iff, hempty]
  omega

theorem Aligned.receive
    (haligned : collection.Aligned entries)
    (hsize : 1 ≤ options.pageSize) (hrunning : collection.running = true)
    (hserves : response.Serves entries options.pageSize collection.offset)
    (hnext : collection.receive options response = .ok next) :
    next.Aligned entries := by
  obtain ⟨hevents, hoffset, -, -⟩ :=
    receive_serves hsize hrunning hserves hnext
  have hle := haligned.offset
  constructor
  · rw [hevents, haligned.events, ← List.take_add, hoffset,
      List.take_eq_take_iff]
    omega
  · rw [hoffset]
    omega

theorem Aligned.events_eq
    (haligned : collection.Aligned entries)
    (hall : entries.length ≤ collection.offset) :
    collection.events = entries := by
  rw [haligned.events, List.take_of_length_le hall]

theorem Gathers.receive
    (hgathers : collection.Gathers options entries)
    (hsize : 1 ≤ options.pageSize) (hrunning : collection.running = true)
    (hserves : response.Serves entries options.pageSize collection.offset)
    (hnext : collection.receive options response = .ok next) :
    next.Gathers options entries := by
  obtain ⟨-, hoffset, hcount, hmore⟩ :=
    receive_serves hsize hrunning hserves hnext
  have hpages := hgathers.running hrunning
  refine ⟨hgathers.toAligned.receive hsize hrunning hserves hnext, ?_, ?_⟩
  · intro hnextRunning
    have hlt := hmore.mp hnextRunning
    rw [hoffset, hcount, Nat.mul_succ]
    omega
  · intro hstop
    have hle : ¬ collection.offset + options.pageSize < entries.length := by
      rw [← hmore, hstop]
      exact Bool.false_ne_true
    rw [hoffset, hcount, Nat.mul_succ]
    omega

theorem iterate_eq_ok_iff
    {fetchPage : FetchEventsPage} {filter : EventsFilter} {aborted : Bool} :
    collection.iterate fetchPage filter options aborted = .ok next ↔
      aborted = false ∧
        ∃ response,
          fetchPage (filter.pageQuery options.pageSize collection.offset) =
            .ok response ∧
          collection.receive options response = .ok next := by
  unfold iterate
  cases aborted with
  | true => simp
  | false =>
      cases fetchPage
          (filter.pageQuery options.pageSize collection.offset) with
      | error err => simp
      | ok response => simp

/-! ## The loop -/

variable {unicode : Char → Char} {filter : EventsFilter}
variable {loaded : Except LoadFailure (List Indexer.Event)}
variable {aborted : ℕ → Bool} {left : ℕ}

/-- What the loop has collected when it is left: either it has stopped, or
it has run for all its pages without the signal being aborted. -/
theorem loop_gathers
    (hsize : 1 ≤ options.pageSize)
    (hgathers : collection.Gathers options
      (filter.matching (loadedLog loaded)))
    (hloop : loop (getIndexerEvents unicode loaded) filter options aborted
      left collection = .ok next) :
    next.Gathers options (filter.matching (loadedLog loaded)) ∧
      next.pageCount ≤ collection.pageCount + left ∧
      (next.running = true →
        next.pageCount = collection.pageCount + left ∧
          ∀ check, collection.pageCount ≤ check →
            check < next.pageCount → aborted check = false) := by
  induction left generalizing collection with
  | zero =>
      obtain rfl := Except.ok.inj hloop
      refine ⟨hgathers, Nat.le_refl _, fun _ => ⟨rfl, ?_⟩⟩
      intro check hfrom hto
      omega
  | succ left ih =>
      rw [loop] at hloop
      split_ifs at hloop with hrunning
      · split at hloop
        next => cases hloop
        next middle hmiddle =>
          obtain ⟨hsignal, response, hresponse, hreceive⟩ :=
            iterate_eq_ok_iff.mp hmiddle
          have hserves := serves_of_handle hresponse
          obtain ⟨-, -, -, hcount, -⟩ := receive_eq_ok hreceive
          obtain ⟨hnext, hbound, hchecks⟩ := ih
            (hgathers.receive hsize hrunning hserves hreceive) hloop
          refine ⟨hnext, by omega, fun hnextRunning => ?_⟩
          obtain ⟨hpages, hquiet⟩ := hchecks hnextRunning
          refine ⟨by omega, fun check hfrom hto => ?_⟩
          rcases Nat.eq_or_lt_of_le hfrom with rfl | hlater
          · exact hsignal
          · exact hquiet check (by omega) hto
      · obtain rfl := Except.ok.inj hloop
        exact ⟨hgathers, Nat.le_add_right _ _,
          fun hnextRunning => absurd hnextRunning hrunning⟩

/-- A loop that is left has collected everything, or has run for all its
pages without the signal being aborted. -/
theorem collected_or_cut
    (hsize : 1 ≤ options.pageSize)
    (hloop : loop (getIndexerEvents unicode loaded) filter options aborted
      options.maxPages {} = .ok next) :
    (next.events = filter.matching (loadedLog loaded) ∧
        (filter.matching (loadedLog loaded)).length ≤
          options.pageSize * options.maxPages) ∨
      (next.events = (filter.matching (loadedLog loaded)).take
          (options.pageSize * options.maxPages) ∧
        next.pageCount = options.maxPages ∧
        ∀ check < options.maxPages, aborted check = false) := by
  obtain ⟨hgathers, hbound, hgoes⟩ :=
    loop_gathers hsize (initial_gathers options _) hloop
  rw [Nat.zero_add] at hbound hgoes
  cases hrunning : next.running with
  | false =>
      obtain ⟨hall, hpages⟩ := hgathers.done hrunning
      have hproduct : options.pageSize * next.pageCount ≤
          options.pageSize * options.maxPages :=
        Nat.mul_le_mul_left _ hbound
      exact Or.inl ⟨hgathers.events_eq hall, hpages.trans hproduct⟩
  | true =>
      obtain ⟨hpageCount, hquiet⟩ := hgoes hrunning
      have hoffset := hgathers.running hrunning
      rw [hpageCount] at hoffset hquiet
      refine Or.inr ⟨?_, hpageCount, fun check => hquiet check (Nat.zero_le _)⟩
      rw [hgathers.events, hoffset]

/-- A loop that returns has got its first page. -/
theorem exists_first_page
    (hrunning : collection.running = true)
    (hloop : loop (getIndexerEvents unicode loaded) filter options aborted
      (left + 1) collection = .ok next) :
    filter.Servable ∧
      (filter.matching (loadedLog loaded)).length ≤ options.maxRecords := by
  rw [loop, if_pos hrunning] at hloop
  split at hloop
  next => cases hloop
  next middle hmiddle =>
    obtain ⟨-, response, hresponse, hreceive⟩ :=
      iterate_eq_ok_iff.mp hmiddle
    have htotal := (receive_eq_ok hreceive).1
    rw [(serves_of_handle hresponse).total] at htotal
    exact ⟨(accepted_of_handle hresponse).2, htotal⟩

/-- Unless the signal or the limit of records stops it, the loop returns. -/
theorem exists_loop_eq_ok
    (unicode : Char → Char)
    (hsize : 1 ≤ options.pageSize ∧ options.pageSize ≤ 200)
    (hfilter : filter.Servable)
    (hloaded : ∀ message, loaded ≠ .error (.failed message))
    (hfits : FitsInt64 (filter.matching (loadedLog loaded)).length)
    (hrecords : (filter.matching (loadedLog loaded)).length ≤
      options.maxRecords)
    (hquiet : ∀ check ≤ options.maxPages, aborted check = false)
    (hgathers : collection.Gathers options
      (filter.matching (loadedLog loaded)))
    (hleft : collection.pageCount + left = options.maxPages) :
    ∃ next, loop (getIndexerEvents unicode loaded) filter options aborted
      left collection = .ok next := by
  induction left generalizing collection with
  | zero => exact ⟨collection, rfl⟩
  | succ left ih =>
      rw [loop]
      split_ifs with hrunning
      · have hoffset := hgathers.offset
        have hoffsetFits : FitsInt64 collection.offset := by
          unfold FitsInt64 at hfits ⊢
          omega
        obtain ⟨page, hpage⟩ := exists_handle_eq_ok unicode hsize
          hoffsetFits hfilter hloaded
        have hserves := serves_of_handle hpage
        obtain ⟨middle, hmiddle⟩ :
            ∃ middle, collection.receive options page = .ok middle := by
          apply exists_receive_eq_ok
          · rw [hserves.total]
            exact hrecords
          · rw [hgathers.events, hserves.events, ← List.take_add]
            exact (List.length_take_le' _ _).trans hrecords
        have hcheck : aborted collection.pageCount = false :=
          hquiet collection.pageCount (by omega)
        have hiterate :
            collection.iterate (getIndexerEvents unicode loaded) filter
              options (aborted collection.pageCount) = .ok middle :=
          iterate_eq_ok_iff.mpr ⟨hcheck, page, hpage, hmiddle⟩
        rw [hiterate]
        have hcount := (receive_eq_ok hmiddle).2.2.2.1
        exact ih (hgathers.receive hsize.1 hrunning hserves hmiddle)
          (by omega)
      · exact ⟨collection, rfl⟩

end Collection

/-! ## The whole export -/

variable {unicode : Char → Char} {filter : EventsFilter}
variable {options : CollectAllEventsOptions} {aborted : ℕ → Bool}
variable {fetchPage : FetchEventsPage} {events : List LogEntry}

theorem collectAllEvents_eq_ok_iff :
    collectAllEvents fetchPage filter options aborted = .ok events ↔
      ∃ collection,
        Collection.loop fetchPage filter options aborted options.maxPages
          {} = .ok collection ∧
        aborted collection.pageCount = false ∧
        collection.events = events := by
  unfold collectAllEvents
  cases Collection.loop fetchPage filter options aborted options.maxPages
      {} with
  | error err => simp
  | ok collection => cases hsignal : aborted collection.pageCount <;>
      simp [hsignal]

/-- Where nothing makes it throw, an export that the limit of pages cuts off
returns too little. -/
theorem exists_short_export
    (unicode : Char → Char)
    {loaded : Except LoadFailure (List Indexer.Event)}
    (hsize : 1 ≤ options.pageSize ∧ options.pageSize ≤ 200)
    (hfits : FitsInt64 (loadedLog loaded).length)
    (hmore : options.pageSize * options.maxPages <
      (filter.matching (loadedLog loaded)).length)
    (hrecords : (filter.matching (loadedLog loaded)).length ≤
      options.maxRecords)
    (hquiet : ∀ check ≤ options.maxPages, aborted check = false)
    (hfilter : filter.Servable) :
    ∃ events,
      collectAllEvents (getIndexerEvents unicode loaded) filter options
        aborted = .ok events ∧
      events ≠ filter.matching (loadedLog loaded) := by
  have hloaded : ∀ message, loaded ≠ .error (.failed message) := by
    rintro message rfl
    rw [loadedLog, matching_nil] at hmore
    exact Nat.not_lt_zero _ hmore
  have hcount := length_matching_le filter (loadedLog loaded)
  have hfitsMatching :
      FitsInt64 (filter.matching (loadedLog loaded)).length := by
    unfold FitsInt64 at hfits ⊢
    omega
  obtain ⟨collection, hloop⟩ := Collection.exists_loop_eq_ok unicode hsize
    hfilter hloaded hfitsMatching hrecords hquiet
    (Collection.initial_gathers options _) (Nat.zero_add _)
  rcases Collection.collected_or_cut hsize.1 hloop with
    ⟨-, hfew⟩ | ⟨hevents, hpageCount, -⟩
  · omega
  · refine ⟨collection.events, ?_, ?_⟩
    · exact collectAllEvents_eq_ok_iff.mpr
        ⟨collection, hloop, hquiet _ hpageCount.le, rfl⟩
    · intro hall
      have hlength := congrArg List.length (hevents.symm.trans hall)
      rw [List.length_take] at hlength
      omega

/-- The exports that are complete whenever they return are those of no more
entries than all the pages hold, and those that cannot return with more:
there are more than `maxRecords`, the signal is aborted at one of the
checks, or the server refuses the filter.  The length of a log is an
`int`. -/
theorem event_export_complete_iff
    (unicode : Char → Char)
    (loaded : Except LoadFailure (List Indexer.Event))
    (filter : EventsFilter) (options : CollectAllEventsOptions)
    (aborted : ℕ → Bool)
    (hsize : 1 ≤ options.pageSize ∧ options.pageSize ≤ 200)
    (hpages : 1 ≤ options.maxPages)
    (hfits : FitsInt64 (loadedLog loaded).length) :
    (∀ events,
        collectAllEvents (getIndexerEvents unicode loaded) filter options
          aborted = .ok events →
        events = filter.matching (loadedLog loaded)) ↔
      (filter.matching (loadedLog loaded)).length ≤
          options.pageSize * options.maxPages ∨
        options.maxRecords < (filter.matching (loadedLog loaded)).length ∨
        (∃ check ≤ options.maxPages, aborted check = true) ∨
        ¬ filter.Servable := by
  constructor
  · intro hcomplete
    by_contra hnot
    simp only [not_or, not_exists, not_and, not_not, Nat.not_le,
      Bool.not_eq_true] at hnot
    obtain ⟨hmore, hrecords, hquiet, hfilter⟩ := hnot
    obtain ⟨events, hcollect, hshort⟩ := exists_short_export unicode hsize
      hfits hmore (Nat.not_lt.mp hrecords) hquiet hfilter
    exact hshort (hcomplete events hcollect)
  · intro hcondition events hcollect
    obtain ⟨collection, hloop, hsignal, rfl⟩ :=
      collectAllEvents_eq_ok_iff.mp hcollect
    rcases Collection.collected_or_cut hsize.1 hloop with
      ⟨hall, -⟩ | ⟨hevents, hpageCount, hquiet⟩
    · exact hall
    · obtain ⟨pages, hpagesEq⟩ := Nat.exists_eq_succ_of_ne_zero
        (Nat.one_le_iff_ne_zero.mp hpages)
      rw [hpagesEq] at hloop
      obtain ⟨hfilter, hrecords⟩ := Collection.exists_first_page rfl hloop
      rcases hcondition with hfew | hmany | ⟨check, hcheck, haborted⟩ |
        hrefused
      · rw [hevents, List.take_of_length_le hfew]
      · omega
      · rcases Nat.lt_or_eq_of_le hcheck with hlower | rfl
        · rw [hquiet check hlower] at haborted
          cases haborted
        · rw [← hpageCount, hsignal] at haborted
          cases haborted
      · exact absurd hfilter hrefused

def twoBlocks : List Indexer.Event :=
  [{ id := "a", height := 1, type := "new_block" },
    { id := "b", height := 2, type := "new_block" }]

theorem event_export_complete_of_twoBlocks :
    collectAllEvents (getIndexerEvents id (.ok twoBlocks)) {} {}
        (fun _ => false) =
      .ok [⟨1, { id := "b", height := 2, type := "new_block" }⟩,
        ⟨0, { id := "a", height := 1, type := "new_block" }⟩] ∧
      [⟨1, { id := "b", height := 2, type := "new_block" }⟩,
        ⟨0, { id := "a", height := 1, type := "new_block" }⟩] =
        EventsFilter.matching {} twoBlocks := by
  refine ⟨rfl, ?_⟩
  exact (event_export_complete_iff id (.ok twoBlocks) {} {} (fun _ => false)
    (by decide) (by decide) (by decide)).mpr (Or.inl (by decide)) _ rfl

theorem event_export_short :
    ¬ ∀ events,
      collectAllEvents (getIndexerEvents id (.ok twoBlocks)) {}
        { pageSize := 1, maxPages := 1 } (fun _ => false) = .ok events →
      events = EventsFilter.matching {} twoBlocks := by
  intro hall
  have hshort := hall
    [⟨1, { id := "b", height := 2, type := "new_block" }⟩] rfl
  exact absurd hshort (by decide)

end SoulonWallet.Api
