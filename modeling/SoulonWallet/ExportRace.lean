import SoulonWallet.EventExport
import SoulonWallet.LabelledRun

/-!
# An export while the indexer goes on

The pages of an export are fetched one after the other, and in between events
are appended to the log.  A page is an interval of the matching entries as
they are when it is served: in ascending order new entries come after what
has been collected, in descending order they come first and push entries that
have been collected into the next page.
-/

namespace SoulonWallet.Api

open LabelledRun

/-! ## The model -/

inductive ExportPhase where
  | collecting (collection : Collection)
  | resolved (collection : Collection)
  | rejected (error : ExportError)

/-- There is no log before its first event. -/
structure ExportRace where
  log : Option (List Indexer.Event)
  phase : ExportPhase

/-- `aborted` is what the signal says when the turn begins. -/
inductive ExportTurn where
  | append (event : Indexer.Event)
  | page (aborted : Bool)
  | settle (aborted : Bool)

namespace ExportRace

def start (log : Option (List Indexer.Event)) : ExportRace :=
  ⟨log, .collecting {}⟩

def events (race : ExportRace) : List Indexer.Event :=
  race.log.getD []

def loaded (race : ExportRace) : Except LoadFailure (List Indexer.Event) :=
  match race.log with
  | some log => .ok log
  | none => .error .notExist

/-- The condition of the loop. -/
def goesOn (options : CollectAllEventsOptions) (collection : Collection) :
    Bool :=
  collection.running && decide (collection.pageCount < options.maxPages)

def step (unicode : Char → Char) (filter : EventsFilter)
    (options : CollectAllEventsOptions) (race : ExportRace) :
    ExportTurn → Option ExportRace
  | .append event =>
      some { race with log := some (race.events ++ [event]) }
  | .page aborted =>
      match race.phase with
      | .collecting collection =>
          if goesOn options collection then
            match collection.iterate (getIndexerEvents unicode race.loaded)
                filter options aborted with
            | .ok next => some { race with phase := .collecting next }
            | .error err => some { race with phase := .rejected err }
          else none
      | _ => none
  | .settle aborted =>
      match race.phase with
      | .collecting collection =>
          if goesOn options collection then none
          else if aborted then
            some { race with phase := .rejected exportCancelledError }
          else some { race with phase := .resolved collection }
      | _ => none

/-- No entry twice, and every matching entry that was there at the start. -/
structure Exported (filter : EventsFilter) (log : List Indexer.Event)
    (collection : Collection) : Prop where
  nodup : collection.events.Nodup
  complete : ∀ entry ∈ logEntries log, filter.admits entry.event = true →
    entry ∈ collection.events

/-- An event that is appended comes after all others, does not match, or
does not come between the first page and the last one. -/
def Harmless (filter : EventsFilter) (race : ExportRace) :
    ExportTurn → Prop
  | .append event =>
      filter.order.getD .desc = .asc ∨ filter.admits event = false ∨
        ∀ collection, race.phase = .collecting collection →
          collection.pageCount = 0 ∨ collection.running = false
  | _ => True

end ExportRace

/-! ## The entries of a growing log -/

variable {filter : EventsFilter} {log : List Indexer.Event}
variable {event : Indexer.Event}

theorem mem_matching_iff {entry : LogEntry} :
    entry ∈ filter.matching log ↔
      entry ∈ logEntries log ∧ filter.admits entry.event = true := by
  unfold EventsFilter.matching
  cases filter.order.getD .desc with
  | asc => exact List.mem_filter
  | desc => exact List.mem_reverse.trans List.mem_filter

theorem nodup_matching (filter : EventsFilter) (log : List Indexer.Event) :
    (filter.matching log).Nodup := by
  have hnodup := (nodup_logEntries log).filter
    fun entry => filter.admits entry.event
  unfold EventsFilter.matching
  cases filter.order.getD .desc with
  | asc => exact hnodup
  | desc => exact List.nodup_reverse.mpr hnodup

theorem matching_concat_of_asc
    (horder : filter.order.getD .desc = .asc) :
    filter.matching log <+: filter.matching (log ++ [event]) := by
  unfold EventsFilter.matching
  rw [horder, logEntries_concat, List.filter_append]
  exact List.prefix_append _ _

theorem matching_concat_of_not
    (log : List Indexer.Event) (hadmits : filter.admits event = false) :
    filter.matching (log ++ [event]) = filter.matching log := by
  have hentries :
      (logEntries (log ++ [event])).filter
          (fun entry => filter.admits entry.event) =
        (logEntries log).filter fun entry => filter.admits entry.event := by
    simp [logEntries_concat, hadmits]
  unfold EventsFilter.matching
  rw [hentries]

theorem matching_concat_of_desc
    (log : List Indexer.Event)
    (horder : filter.order.getD .desc = .desc)
    (hadmits : filter.admits event = true) :
    filter.matching (log ++ [event]) =
      ⟨log.length, event⟩ :: filter.matching log := by
  unfold EventsFilter.matching
  rw [horder]
  simp [logEntries_concat, hadmits]

/-! ## One turn -/

namespace ExportRace

/-- The collection is what comes first in the matching entries. -/
structure Level (filter : EventsFilter) (log : List Indexer.Event)
    (collection : Collection) : Prop where
  aligned : collection.Aligned (filter.matching log)
  fetched : collection.offset = 0 ↔ collection.pageCount = 0

/-- The newest matching entry has been missed: the collection can only get
as long as the list of the matching entries by taking one of them twice. -/
structure Overtaken (filter : EventsFilter) (log : List Indexer.Event)
    (collection : Collection) : Prop where
  order : filter.order.getD .desc = .desc
  fetched : 0 < collection.offset
  offset : collection.offset ≤ (filter.matching log).length
  length : collection.events.length = collection.offset
  subset : collection.events ⊆ filter.matching log
  missed : ∃ newest older, filter.matching log = newest :: older ∧
    newest ∉ collection.events

def Good (filter : EventsFilter) (log : List Indexer.Event)
    (race : ExportRace) : Prop :=
  log <+: race.events ∧
    match race.phase with
    | .collecting collection =>
        if collection.running then Level filter race.events collection
        else Exported filter log collection
    | .resolved collection =>
        collection.running = false → Exported filter log collection
    | .rejected _ => True

def Spoilt (filter : EventsFilter) (race : ExportRace) : Prop :=
  match race.phase with
  | .collecting collection =>
      if collection.running then Overtaken filter race.events collection
      else ¬ collection.events.Nodup
  | .resolved collection =>
      collection.running = false → ¬ collection.events.Nodup
  | .rejected _ => True

variable {unicode : Char → Char} {options : CollectAllEventsOptions}
variable {race next : ExportRace} {turn : ExportTurn}
variable {collection after : Collection} {response : EventsPage}

/-- What a turn does. -/
inductive Moves (filter : EventsFilter) (options : CollectAllEventsOptions)
    (race : ExportRace) (turn : ExportTurn) (next : ExportRace) : Prop
  | appends (event : Indexer.Event) (hturn : turn = .append event)
      (hnext : next = { race with log := some (race.events ++ [event]) })
  | receives (collection after : Collection) (response : EventsPage)
      (hphase : race.phase = .collecting collection)
      (hrunning : collection.running = true)
      (hsize : 1 ≤ options.pageSize)
      (hserves : response.Serves (filter.matching race.events)
        options.pageSize collection.offset)
      (hafter : collection.receive options response = .ok after)
      (hnext : next = { race with phase := .collecting after })
      (hquiet : race.Harmless filter turn)
  | resolves (collection : Collection)
      (hphase : race.phase = .collecting collection)
      (hnext : next = { race with phase := .resolved collection })
      (hquiet : race.Harmless filter turn)
  | rejects (err : ExportError)
      (hnext : next = { race with phase := .rejected err })
      (hquiet : race.Harmless filter turn)

theorem loadedLog_loaded (race : ExportRace) :
    loadedLog race.loaded = race.events := by
  unfold loaded events
  cases race.log with
  | none => rfl
  | some log => rfl

theorem moves_of_step
    (hstep : race.step unicode filter options turn = some next) :
    race.Moves filter options turn next := by
  cases turn with
  | append event =>
      exact .appends event rfl (Option.some.inj hstep).symm
  | page aborted =>
      simp only [step] at hstep
      split at hstep
      next collection hphase =>
        split_ifs at hstep with hgoes
        split at hstep
        next after hiterate =>
          obtain ⟨-, response, hresponse, hreceive⟩ :=
            Collection.iterate_eq_ok_iff.mp hiterate
          have hserves := serves_of_handle hresponse
          rw [loadedLog_loaded] at hserves
          exact .receives collection after response hphase
            (Bool.and_eq_true_iff.mp hgoes).1
            (accepted_of_handle hresponse).1.1 hserves hreceive
            (Option.some.inj hstep).symm trivial
        next err hiterate =>
          exact .rejects err (Option.some.inj hstep).symm trivial
      next => cases hstep
  | settle aborted =>
      simp only [step] at hstep
      split at hstep
      next collection hphase =>
        split_ifs at hstep with hgoes haborted
        · exact .rejects _ (Option.some.inj hstep).symm trivial
        · exact .resolves collection hphase (Option.some.inj hstep).symm
            trivial
      next => cases hstep

/-! ## Appended events -/

theorem Level.append
    (hlevel : Level filter log collection)
    (hharmless : filter.order.getD .desc = .asc ∨
      filter.admits event = false ∨ collection.pageCount = 0) :
    Level filter (log ++ [event]) collection := by
  obtain ⟨hevents, hoffset⟩ := hlevel.aligned
  refine ⟨?_, hlevel.fetched⟩
  rcases hharmless with horder | hadmits | hfirst
  · obtain ⟨more, hmore⟩ := matching_concat_of_asc horder
    rw [← hmore]
    constructor
    · rw [List.take_append_of_le_length hoffset]
      exact hevents
    · rw [List.length_append]
      exact Nat.le_add_right_of_le hoffset
  · rw [matching_concat_of_not log hadmits]
    exact hlevel.aligned
  · have hzero := hlevel.fetched.mpr hfirst
    rw [hzero, List.take_zero] at hevents
    constructor
    · rw [hzero, List.take_zero]
      exact hevents
    · rw [hzero]
      exact Nat.zero_le _

theorem notMem_of_subset
    (event : Indexer.Event) {entries : List LogEntry}
    (hsubset : entries ⊆ filter.matching log) :
    (⟨log.length, event⟩ : LogEntry) ∉ entries := by
  intro hmem
  exact notMem_logEntries log event (mem_matching_iff.mp (hsubset hmem)).1

/-- An event that comes first is never collected once the first page has
been. -/
theorem Level.overtaken
    (hlevel : Level filter log collection)
    (horder : filter.order.getD .desc = .desc)
    (hadmits : filter.admits event = true)
    (hfetched : collection.pageCount ≠ 0) :
    Overtaken filter (log ++ [event]) collection := by
  obtain ⟨hevents, hoffset⟩ := hlevel.aligned
  have hmatching := matching_concat_of_desc log horder hadmits
  have hsubset : collection.events ⊆ filter.matching log := by
    rw [hevents]
    exact List.take_subset _ _
  constructor
  · exact horder
  · exact Nat.pos_of_ne_zero (hlevel.fetched.not.mpr hfetched)
  · rw [hmatching, List.length_cons]
    omega
  · rw [hevents, List.length_take]
    omega
  · rw [hmatching]
    exact List.subset_cons_of_subset _ hsubset
  · exact ⟨_, _, hmatching, notMem_of_subset event hsubset⟩

theorem Overtaken.append
    (hovertaken : Overtaken filter log collection)
    (event : Indexer.Event) :
    Overtaken filter (log ++ [event]) collection := by
  cases hadmits : filter.admits event with
  | false =>
      have hmatching := matching_concat_of_not log hadmits
      constructor
      · exact hovertaken.order
      · exact hovertaken.fetched
      · rw [hmatching]
        exact hovertaken.offset
      · exact hovertaken.length
      · rw [hmatching]
        exact hovertaken.subset
      · rw [hmatching]
        exact hovertaken.missed
  | true =>
      have hmatching := matching_concat_of_desc log hovertaken.order
        hadmits
      constructor
      · exact hovertaken.order
      · exact hovertaken.fetched
      · rw [hmatching, List.length_cons]
        exact Nat.le_succ_of_le hovertaken.offset
      · exact hovertaken.length
      · rw [hmatching]
        exact List.subset_cons_of_subset _ hovertaken.subset
      · exact ⟨_, _, hmatching,
          notMem_of_subset event hovertaken.subset⟩

/-! ## Pages -/

/-- A loop that has stopped has come to the end of the entries. -/
theorem exported_of_stop
    (haligned : after.Aligned (filter.matching race.events))
    (hall : (filter.matching race.events).length ≤ after.offset)
    (hlog : log <+: race.events) : Exported filter log after := by
  have hevents := haligned.events_eq hall
  constructor
  · rw [hevents]
    exact nodup_matching filter race.events
  · intro entry hentry hadmits
    obtain ⟨more, hmore⟩ := hlog
    rw [hevents, mem_matching_iff]
    refine ⟨?_, hadmits⟩
    have hlonger : logEntries log <+: logEntries race.events := by
      rw [← hmore, logEntries, logEntries, List.mapIdx_append]
      exact List.prefix_append _ _
    exact hlonger.subset hentry

theorem Level.receive
    (hlevel : Level filter race.events collection) (hlog : log <+: race.events)
    (hsize : 1 ≤ options.pageSize) (hrunning : collection.running = true)
    (hserves : response.Serves (filter.matching race.events)
      options.pageSize collection.offset)
    (hafter : collection.receive options response = .ok after) :
    Good filter log { race with phase := .collecting after } := by
  obtain ⟨-, hoffset, hcount, hmore⟩ :=
    Collection.receive_serves hsize hrunning hserves hafter
  have haligned :=
    hlevel.aligned.receive hsize hrunning hserves hafter
  refine ⟨hlog, ?_⟩
  simp only
  split_ifs with hgoes
  · have hlt := hmore.mp hgoes
    refine ⟨haligned, ?_⟩
    rw [hoffset, hcount]
    omega
  · rw [hmore] at hgoes
    have hle := hlevel.aligned.offset
    apply exported_of_stop haligned ?_ hlog
    rw [hoffset]
    omega

theorem Overtaken.receive
    (hovertaken : Overtaken filter race.events collection)
    (hsize : 1 ≤ options.pageSize) (hrunning : collection.running = true)
    (hserves : response.Serves (filter.matching race.events)
      options.pageSize collection.offset)
    (hafter : collection.receive options response = .ok after) :
    Spoilt filter { race with phase := .collecting after } := by
  obtain ⟨hevents, hoffset, -, hmore⟩ :=
    Collection.receive_serves hsize hrunning hserves hafter
  obtain ⟨newest, older, hmatching, hnewest⟩ := hovertaken.missed
  have hfetched := hovertaken.fetched
  have hle := hovertaken.offset
  have hdrop : (filter.matching race.events).drop collection.offset ⊆
      older := by
    obtain ⟨before, hbefore⟩ := Nat.exists_eq_succ_of_ne_zero hfetched.ne'
    rw [hmatching, hbefore, List.drop_succ_cons]
    exact List.drop_subset _ _
  have hpage :
      ((filter.matching race.events).drop collection.offset).take
        options.pageSize ⊆ older :=
    List.Subset.trans (List.take_subset _ _) hdrop
  have hnodup := nodup_matching filter race.events
  rw [hmatching, List.nodup_cons] at hnodup
  have hmissed : newest ∉ after.events := by
    rw [hevents, List.mem_append, not_or]
    exact ⟨hnewest, fun hmem => hnodup.1 (hpage hmem)⟩
  have hsubset : after.events ⊆ filter.matching race.events := by
    rw [hevents]
    apply List.append_subset.mpr
    refine ⟨hovertaken.subset, ?_⟩
    rw [hmatching]
    exact List.subset_cons_of_subset _ (hmatching ▸ hpage)
  have hlength : after.events.length = after.offset := by
    rw [hevents, hoffset, List.length_append, hovertaken.length,
      List.length_take, List.length_drop]
  unfold Spoilt
  simp only
  split_ifs with hgoes
  · refine ⟨hovertaken.order, ?_, ?_, hlength, hsubset, newest, older,
      hmatching, hmissed⟩
    · rw [hoffset]
      omega
    · show after.offset ≤ (filter.matching race.events).length
      rw [hoffset]
      omega
  · rw [hmore] at hgoes
    intro hafterNodup
    have holder : after.events ⊆ older := by
      intro entry hentry
      have hmem := hsubset hentry
      rw [hmatching, List.mem_cons] at hmem
      rcases hmem with rfl | hmem
      · exact absurd hentry hmissed
      · exact hmem
    have hshort := (hafterNodup.subperm holder).length_le
    have htotal := congrArg List.length hmatching
    rw [List.length_cons] at htotal
    omega

/-! ## Runs -/

theorem Good.step
    (hgood : Good filter log race) (hharmless : race.Harmless filter turn)
    (hstep : race.step unicode filter options turn = some next) :
    Good filter log next := by
  obtain ⟨hlog, hphase⟩ := hgood
  cases moves_of_step hstep with
  | appends event hturn hnext =>
      subst hturn hnext
      refine ⟨hlog.trans (List.prefix_append _ _), ?_⟩
      cases hrace : race.phase with
      | collecting collection =>
          simp only [hrace] at hphase ⊢
          split_ifs at hphase ⊢ with hrunning
          · apply hphase.append
            refine hharmless.imp_right (Or.imp_right fun hquiet => ?_)
            exact (hquiet collection hrace).resolve_right
              (by rw [hrunning]; exact Bool.noConfusion)
          · exact hphase
      | resolved collection =>
          simpa only [hrace] using hphase
      | rejected err => trivial
  | receives collection after response hrace hrunning hsize hserves hafter
      hnext =>
      simp only [hrace, hrunning, if_true] at hphase
      rw [hnext]
      exact hphase.receive hlog hsize hrunning hserves hafter
  | resolves collection hrace hnext =>
      rw [hnext]
      refine ⟨hlog, ?_⟩
      simp only [hrace] at hphase ⊢
      intro hstop
      rw [hstop] at hphase
      exact hphase
  | rejects err hnext =>
      rw [hnext]
      exact ⟨hlog, trivial⟩

theorem Good.spoilt
    (hgood : Good filter log race)
    (hharmful : ¬ race.Harmless filter turn)
    (hstep : race.step unicode filter options turn = some next) :
    Spoilt filter next := by
  cases moves_of_step hstep with
  | appends event hturn hnext =>
      subst hturn hnext
      simp only [Harmless, not_or, not_forall] at hharmful
      obtain ⟨horder, hadmits, collection, hrace, hpages, hrunning⟩ :=
        hharmful
      have hlevel := hgood.2
      simp only [hrace, Bool.not_eq_false] at hlevel hrunning
      rw [hrunning, if_pos rfl] at hlevel
      unfold Spoilt
      simp only [hrace, hrunning, if_true]
      apply hlevel.overtaken
      · cases hdesc : filter.order.getD .desc with
        | asc => exact absurd hdesc horder
        | desc => rfl
      · simpa using hadmits
      · exact hpages
  | receives collection after response hrace hrunning hsize hserves hafter
      hnext hquiet => exact absurd hquiet hharmful
  | resolves collection hrace hnext hquiet =>
      exact absurd hquiet hharmful
  | rejects err hnext hquiet => exact absurd hquiet hharmful

theorem Spoilt.step
    (hspoilt : Spoilt filter race)
    (hstep : race.step unicode filter options turn = some next) :
    Spoilt filter next := by
  cases moves_of_step hstep with
  | appends event hturn hnext =>
      rw [hnext]
      unfold Spoilt at hspoilt ⊢
      cases hrace : race.phase with
      | collecting collection =>
          simp only [hrace] at hspoilt ⊢
          split_ifs at hspoilt ⊢ with hrunning
          · exact hspoilt.append event
          · exact hspoilt
      | resolved collection =>
          simpa only [hrace] using hspoilt
      | rejected err => trivial
  | receives collection after response hrace hrunning hsize hserves hafter
      hnext =>
      unfold Spoilt at hspoilt
      simp only [hrace, hrunning, if_true] at hspoilt
      rw [hnext]
      exact hspoilt.receive hsize hrunning hserves hafter
  | resolves collection hrace hnext =>
      rw [hnext]
      unfold Spoilt at hspoilt ⊢
      simp only [hrace] at hspoilt ⊢
      intro hstop
      rw [hstop] at hspoilt
      exact hspoilt
  | rejects err hnext =>
      rw [hnext]
      trivial

theorem start_good (log : Option (List Indexer.Event)) :
    Good filter (log.getD []) (start log) :=
  ⟨List.prefix_rfl,
    ⟨⟨List.take_zero.symm, Nat.zero_le _⟩, Iff.rfl⟩⟩

/-- An export that comes to its end has every entry once exactly when no
event that comes first was appended between its first page and its last
one. -/
theorem export_under_appends_iff
    (unicode : Char → Char) (filter : EventsFilter)
    (options : CollectAllEventsOptions) (log : Option (List Indexer.Event))
    (turns : List ExportTurn) {final : ExportRace} {collection : Collection}
    (hrun : exec (step unicode filter options) (start log) turns =
      some final)
    (hresolved : final.phase = .resolved collection)
    (hlimits : collection.running = false) :
    Exported filter (log.getD []) collection ↔
      Guarded (step unicode filter options) (Harmless filter) (start log)
        turns := by
  have hends := guarded_or_spoilt
    (Good filter (log.getD [])) (Spoilt filter)
    (fun _ _ _ hgood hguard hstep => hgood.step hguard hstep)
    (fun _ _ _ hgood hguard hstep => hgood.spoilt hguard hstep)
    (fun _ _ _ hspoilt hstep => hspoilt.step hstep) (start_good log) hrun
  rcases hends with ⟨hguarded, -, hgood⟩ | ⟨hnot, hspoilt⟩
  · rw [hresolved] at hgood
    exact iff_of_true (hgood hlimits) hguarded
  · unfold Spoilt at hspoilt
    rw [hresolved] at hspoilt
    exact iff_of_false (fun hexported => hspoilt hlimits hexported.nodup)
      hnot

/-- The third block is appended between the first two pages. -/
def appendBetween : List ExportTurn :=
  [.page false,
    .append { id := "c", height := 3, type := "new_block" },
    .page false, .page false, .settle false]

theorem export_under_appends_of_asc :
    Exported { order := some .asc } twoBlocks
      { events :=
          [⟨0, { id := "a", height := 1, type := "new_block" }⟩,
            ⟨1, { id := "b", height := 2, type := "new_block" }⟩,
            ⟨2, { id := "c", height := 3, type := "new_block" }⟩]
        offset := 3
        hasMore := false
        pageCount := 3
        progress := [(1, 1), (2, 2), (3, 3)] } := by
  have hrun :
      exec (step id { order := some .asc } { pageSize := 1 })
          (start (some twoBlocks)) appendBetween =
        some ⟨_, .resolved _⟩ := rfl
  apply (export_under_appends_iff id { order := some .asc } { pageSize := 1 }
    (some twoBlocks) appendBetween hrun rfl rfl).mpr
  exact ⟨trivial, Or.inl rfl, trivial, trivial, trivial, trivial⟩

theorem export_under_appends_repeats :
    ¬ ∀ turns final collection,
      exec (step id {} { pageSize := 1 }) (start (some twoBlocks)) turns =
        some final →
      final.phase = .resolved collection → collection.running = false →
      Exported {} twoBlocks collection := by
  intro hall
  have hexported := hall appendBetween _ _ rfl rfl rfl
  have hnodup : [(1 : ℕ), 1, 0].Nodup :=
    hexported.nodup.map_on (f := LogEntry.seq) (by decide)
  exact absurd hnodup (by decide)

end ExportRace

end SoulonWallet.Api
