import SoulonWallet.EventStoreReplay

/-!
# The state served by the API

The API does not ask the store for its state.  `rebuildState` reads the log
and keeps only a map from heights to hashes, whose size is the total, while
the store counts the ids it has seen and carries its tip along.  The two
agree after every run, because the store is valid and each of its lines does
to the map of hashes what it does to the map of events.
-/

namespace SoulonWallet.Indexer

/-! ## The model -/

/-- The variables of the first loop of `rebuildState`. -/
structure Rebuild where
  byHeight : KeyedMap ℤ String
  reorgs : ℕ

def Rebuild.line (rebuild : Rebuild) (event : Event) : Rebuild :=
  if event.type = "rollback" then
    { byHeight :=
        if 0 < event.rollbackFrom then
          rebuild.byHeight.eraseKeys (event.rollbackFrom ≤ ·)
        else rebuild.byHeight
      reorgs := rebuild.reorgs + 1 }
  else if 0 < event.height ∧ event.blockHash ≠ "" then
    { rebuild with
      byHeight := rebuild.byHeight.insert event.height event.blockHash }
  else rebuild

def rebuildLines (events : List Event) : Rebuild :=
  events.foldl Rebuild.line ⟨∅, 0⟩

def rebuildState (events : List Event) : StoreState :=
  let rebuild := rebuildLines events
  let (tipHeight, tipHash) :=
    rebuild.byHeight.entries.foldl (KeyedMap.higher id) (0, "")
  { tipHeight
    tipHash
    total := rebuild.byHeight.entries.length
    reorgs := rebuild.reorgs }

def loadEventsFromFile (file : List Event) : List Event :=
  file.map Event.readBack

/-! ## The map of hashes mirrors the store -/

structure Rebuild.Mirrors (rebuild : Rebuild) (store : FileEventStore) :
    Prop where
  byHeight : ∀ height,
    rebuild.byHeight.lookup height =
      (store.eventsByHeight.lookup height).map Event.blockHash
  reorgs : rebuild.reorgs = store.reorgs

variable {rebuild : Rebuild} {store : FileEventStore}

theorem Rebuild.Mirrors.rollback
    (hmirrors : rebuild.Mirrors store) {event line : Event}
    (htype : event.type = "rollback") (hfrom : 1 ≤ line.rollbackFrom)
    (hsame : event.rollbackFrom = line.rollbackFrom) :
    (rebuild.line event).Mirrors (store.rollback line.rollbackFrom) := by
  have hpos : 0 < line.rollbackFrom := by omega
  unfold Rebuild.line
  rw [if_pos htype, hsame, if_pos hpos]
  constructor
  · intro height
    rw [FileEventStore.lookup_rollback store hfrom,
      KeyedMap.lookup_eraseKeys]
    split_ifs
    · rfl
    · exact hmirrors.byHeight height
  · exact congrArg (· + 1) hmirrors.reorgs

theorem Rebuild.Mirrors.applyBlock
    (hmirrors : rebuild.Mirrors store) {event line : Event}
    (htype : event.type ≠ "rollback") (hheight : 1 ≤ line.height)
    (hid : line.id ≠ "") (hhash : line.blockHash ≠ "")
    (hsameHeight : event.height = line.height)
    (hsameHash : event.blockHash = line.blockHash) :
    (rebuild.line event).Mirrors (store.applyBlock line) := by
  have hpos : 0 < line.height := by omega
  unfold Rebuild.line
  rw [if_neg htype, hsameHeight, hsameHash, if_pos ⟨hpos, hhash⟩,
    FileEventStore.applyBlock_named, FileEventStore.named_eq hid hhash]
  refine ⟨?_, hmirrors.reorgs⟩
  intro height
  by_cases heq : height = line.height
  · subst heq
    simp
  · simp only [AList.lookup_insert_ne heq]
    exact hmirrors.byHeight height

/-- The invariant of a run: the loop over the log mirrors the store. -/
def FileEventStore.Mirrored (store : FileEventStore) : Prop :=
  (rebuildLines (loadEventsFromFile store.log)).Mirrors store

theorem FileEventStore.Mirrored.record
    (hmirrored : store.Mirrored) {delivery : Delivery} {line : ℤ × Event}
    (hlogs : LogsFor delivery.event line.2) :
    (store.record line).Mirrored := by
  have hlogged :
      (rebuildLines (loadEventsFromFile store.log)).Mirrors
        (store.logLine line.1 line.2) :=
    ⟨hmirrored.byHeight, hmirrored.reorgs⟩
  have hlines :
      rebuildLines (loadEventsFromFile (store.record line).log) =
        (rebuildLines (loadEventsFromFile store.log)).line
          { line.2 with persistedAt := line.1 }.readBack := by
    rw [record_log]
    simp [rebuildLines, loadEventsFromFile]
  unfold Mirrored
  rw [hlines]
  rcases hlogs with ⟨htype, hfrom⟩ | ⟨hblock, hline⟩
  · have hrecord := record_rollback store line.1 htype
    rw [hrecord]
    exact hlogged.rollback htype hfrom rfl
  · have htype : line.2.type ≠ "rollback" := by
      rw [hline, withDefaults_type, ne_eq, withType_eq_rollback_iff]
      exact hblock
    have hheight : 1 ≤ line.2.height := by
      rw [hline, withDefaults_height, withType_height]
      exact delivery.height_pos.resolve_left hblock
    have hid : line.2.id ≠ "" := by
      rw [hline]
      exact withDefaults_id_ne _
    have hhash : line.2.blockHash ≠ "" := by
      rw [hline]
      exact withDefaults_blockHash_ne _
    have hrecord := record_block store line.1 htype
    rw [hrecord]
    exact hlogged.applyBlock htype hheight hid hhash rfl rfl

theorem FileEventStore.Mirrored.upsert
    (hmirrored : store.Mirrored) (io : Io) (delivery : Delivery) :
    (store.upsert io delivery.event).1.Mirrored := by
  obtain ⟨lines, hresult, hlogs⟩ := store.upsert_records io delivery.event
  rw [hresult]
  clear hresult
  induction lines generalizing store with
  | nil => exact hmirrored
  | cons line rest ih =>
      obtain ⟨hline, hrest⟩ := List.forall_mem_cons.mp hlogs
      exact ih (hmirrored.record hline) hrest

/-! ## The rebuilt state -/

theorem FileEventStore.Valid.rebuildState_eq
    (hvalid : store.Valid) (hmirrored : store.Mirrored) :
    rebuildState (loadEventsFromFile store.log) = store.state := by
  have hreads : ∀ height,
      ((rebuildLines (loadEventsFromFile store.log)).byHeight.lookup
          height).map id =
        (store.eventsByHeight.lookup height).map Event.blockHash := by
    intro height
    rw [Option.map_id]
    exact hmirrored.byHeight height
  have htip := KeyedMap.foldl_higher_congr hreads (0, "")
  have htotal := KeyedMap.length_entries_congr id Event.blockHash hreads
  have hcount := hvalid.consistent.count_eq
  unfold rebuildState state
  simp only [htip, hvalid.foldl_tip, htotal, hmirrored.reorgs, ← hcount]
  rfl

/-- After every run of calls, whatever appends failed, the API rebuilds from
the log the state that the store reports. -/
theorem rebuildState_after_run (calls : List (Io × Delivery)) :
    let store := FileEventStore.empty.afterCalls
      (calls.map fun call => (call.1, call.2.event))
    rebuildState (loadEventsFromFile store.log) = store.state := by
  have hrun : ∀ start : FileEventStore, start.Valid → start.Mirrored →
      let store :=
        start.afterCalls (calls.map fun call => (call.1, call.2.event))
      store.Valid ∧ store.Mirrored := by
    induction calls with
    | nil =>
        intro start hvalid hmirrored
        exact ⟨hvalid, hmirrored⟩
    | cons call rest ih =>
        intro start hvalid hmirrored
        exact ih _ (hvalid.upsert call.1 call.2).1
          (hmirrored.upsert call.1 call.2)
  have hempty : FileEventStore.empty.Mirrored := ⟨fun _ => rfl, rfl⟩
  obtain ⟨hvalid, hmirrored⟩ :=
    hrun FileEventStore.empty FileEventStore.empty_valid hempty
  exact hvalid.rebuildState_eq hmirrored

end SoulonWallet.Indexer
