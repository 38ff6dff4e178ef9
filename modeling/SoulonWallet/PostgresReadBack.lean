import SoulonWallet.PostgresInvariant

/-!
# Reading the log back

Every committed call appends its events to the log, in order and for good: no
rollback and no cleanup touches the log.  The API reads the log with a query
of its own, which asks for a column `id`.  The table calls it `event_id`, so
the database refuses the query.

A select list is resolved against the columns of the table before any row is
read, and a row is scanned cell by cell: NULL goes into `rollback_from` only.
-/

namespace SoulonWallet.Indexer

open LabelledRun

/-! ## The reader -/

abbrev LogColumn (Value : Type) := LogRow → Option Value

/-- The columns of `indexer_events_log`, by their type. -/
def textColumns : List (String × LogColumn String) :=
  [("event_id", fun entry => some entry.eventId),
    ("type", fun entry => some entry.row.type),
    ("block_hash", fun entry => entry.row.blockHash),
    ("parent_hash", fun entry => entry.row.parentHash),
    ("payload", fun entry => some entry.row.payload)]

def bigintColumns : List (String × LogColumn ℤ) :=
  [("seq", fun entry => some entry.seq),
    ("height", fun entry => some entry.row.height),
    ("rollback_from", fun entry => entry.row.rollbackFrom)]

def timestampColumns : List (String × LogColumn ℤ) :=
  [("produced_at", fun entry => some entry.row.producedAt),
    ("persisted_at", fun entry => some entry.row.persistedAt)]

def resolve {Value : Type} (columns : List (String × LogColumn Value))
    (name : String) : Except String (LogColumn Value) :=
  match columns.lookup name with
  | some column => .ok column
  | none => .error ("column \"" ++ name ++ "\" does not exist")

/-- The select list of the query, resolved. -/
structure EventColumns where
  id : LogColumn String
  height : LogColumn ℤ
  type : LogColumn String
  blockHash : LogColumn String
  parentHash : LogColumn String
  rollbackFrom : LogColumn ℤ
  payload : LogColumn String
  producedAt : LogColumn ℤ
  persistedAt : LogColumn ℤ

def selectEvents : Except String EventColumns := do
  let id ← resolve textColumns "id"
  let height ← resolve bigintColumns "height"
  let type ← resolve textColumns "type"
  let blockHash ← resolve textColumns "block_hash"
  let parentHash ← resolve textColumns "parent_hash"
  let rollbackFrom ← resolve bigintColumns "rollback_from"
  let payload ← resolve textColumns "payload"
  let producedAt ← resolve timestampColumns "produced_at"
  let persistedAt ← resolve timestampColumns "persisted_at"
  return ⟨id, height, type, blockHash, parentHash, rollbackFrom, payload,
    producedAt, persistedAt⟩

def scanCell {Value : Type} (index : ℕ) (name goType : String)
    (cell : Option Value) : Except String Value :=
  match cell with
  | some value => .ok value
  | none =>
      .error ("sql: Scan error on column index " ++ toString index ++
        ", name \"" ++ name ++ "\": converting NULL to " ++ goType ++
        " is unsupported")

def EventColumns.scanEvent (columns : EventColumns) (entry : LogRow) :
    Except String Event := do
  let id ← scanCell 0 "id" "string" (columns.id entry)
  let height ← scanCell 1 "height" "int64" (columns.height entry)
  let type ← scanCell 2 "type" "string" (columns.type entry)
  let blockHash ← scanCell 3 "block_hash" "string" (columns.blockHash entry)
  let parentHash ←
    scanCell 4 "parent_hash" "string" (columns.parentHash entry)
  let rollbackFrom := (columns.rollbackFrom entry).getD 0
  let payload ← scanCell 6 "payload" "string" (columns.payload entry)
  let producedAt ←
    scanCell 7 "produced_at" "time.Time" (columns.producedAt entry)
  let persistedAt ←
    scanCell 8 "persisted_at" "time.Time" (columns.persistedAt entry)
  return {
    id := id
    height := height
    type := type
    blockHash := blockHash
    parentHash := parentHash
    rollbackFrom := rollbackFrom
    payload := payload
    producedAt := producedAt
    persistedAt := persistedAt }

def loadEventsFromPostgres (postgresDSN : String) (db : Database) :
    Except String (List Event) :=
  if postgresDSN = "" then .error "postgres dsn is empty"
  else do
    let columns ← selectEvents
    (db.eventsLog.mergeSort fun left right => left.seq ≤ right.seq).mapM
      columns.scanEvent

/-- The fields of an event that the log keeps. -/
def Event.logFields (event : Event) :
    String × ℤ × String × String × String × ℤ × String :=
  (event.id, event.height, event.type, event.blockHash, event.parentHash,
    event.rollbackFrom, event.payload)

theorem loadEventsFromPostgres_eq
    (postgresDSN : String) (db : Database) :
    loadEventsFromPostgres postgresDSN db =
      .error (if postgresDSN = "" then "postgres dsn is empty"
        else "column \"id\" does not exist") := by
  unfold loadEventsFromPostgres
  split_ifs <;> rfl

/-! ## The log -/

/-- The row has the fields of the event. -/
def LogRow.Records (entry : LogRow) (event : Event) : Prop :=
  entry.eventId = event.id ∧ entry.row = event.row entry.row.persistedAt

namespace PostgresStore

variable {db next : Database} {appended : List Event} {retentionBlocks : ℤ}

/-- The events that the call appends when it commits. -/
def appendedBy (db : Database) (clock : PgClock) (event : Event) :
    List Event :=
  let event := event.withType.withProducedAt clock.now
  if event.type = "rollback" then
    [{ event with
      id := rollbackId event.rollbackFrom clock.unixNano
      height := event.rollbackFrom }]
  else
    let block := event.withDefaults
    if hasEvent db block.id then []
    else
      match db.requiresRollbackTx block with
      | none => [block]
      | some rollbackFrom =>
          [FileEventStore.forcedRollback block rollbackFrom clock.unixNano,
            block]

/-- The log has a row for each of the events, in order. -/
def Logs (db : Database) (appended : List Event) : Prop :=
  List.Forall₂ LogRow.Records db.eventsLog appended

theorem Logs.append
    (hlogs : Logs db appended) (persistedAt : ℤ) (event : Event) :
    Logs (db.appendEventTx persistedAt event) (appended ++ [event]) := by
  apply List.rel_append hlogs
  exact List.Forall₂.cons ⟨rfl, rfl⟩ List.Forall₂.nil

theorem Logs.of_eventsLog
    (hlogs : Logs db appended) (hsame : next.eventsLog = db.eventsLog) :
    Logs next appended := by
  unfold Logs
  rw [hsame]
  exact hlogs

theorem refresh_eventsLog
    (hrefresh : db.refreshStateTx = .ok next) :
    next.eventsLog = db.eventsLog := by
  rw [(Database.refreshStateTx_eq_ok hrefresh).1]

theorem countReorg_eventsLog (hcount : db.countReorg = .ok next) :
    next.eventsLog = db.eventsLog := by
  rw [Database.countReorg_eq_ok hcount]

theorem cleanup_eventsLog
    (hcleanup : db.cleanupOldBlocksTx retentionBlocks = .ok next) :
    next.eventsLog = db.eventsLog := by
  unfold Database.cleanupOldBlocksTx at hcleanup
  simp only at hcleanup
  split_ifs at hcleanup
  · rw [Except.ok.inj hcleanup]
  · rw [Except.ok.inj hcleanup]
  · rcases bind_eq_ok_iff.mp hcleanup with ⟨blocksArchive, _, hrest⟩
    rcases bind_eq_ok_iff.mp hrest with ⟨eventsArchive, _, hdone⟩
    rw [← Except.ok.inj hdone]

theorem retain_eventsLog
    (hretain : retain retentionBlocks db = .ok next) :
    next.eventsLog = db.eventsLog := by
  rcases bind_eq_ok_iff.mp hretain with ⟨cleaned, hcleanup, hrefresh⟩
  exact (refresh_eventsLog hrefresh).trans (cleanup_eventsLog hcleanup)

theorem Logs.upsertRollback
    (hlogs : Logs db appended) {clock : PgClock} {event : Event}
    {created : Bool}
    (hupsert : upsertRollback db clock event = .ok (created, next)) :
    Logs next (appended ++
      [{ event with
        id := rollbackId event.rollbackFrom clock.unixNano
        height := event.rollbackFrom }]) := by
  unfold PostgresStore.upsertRollback at hupsert
  split_ifs at hupsert
  rcases bind_eq_ok_iff.mp hupsert with ⟨counted, hcounted, hrest⟩
  rcases bind_eq_ok_iff.mp hrest with ⟨fresh, hrefresh, hdone⟩
  have hfresh := congrArg Prod.snd (Except.ok.inj hdone)
  simp only at hfresh
  subst hfresh
  have hcountedLog := countReorg_eventsLog hcounted
  apply (hlogs.append clock.eventPersistedAt _).of_eventsLog
  exact (refresh_eventsLog hrefresh).trans hcountedLog

theorem Logs.storeBlock
    (hlogs : Logs db appended) {clock : PgClock} {block : Event}
    (hstore : storeBlock db clock block = .ok next) :
    Logs next (appended ++
      match db.requiresRollbackTx block with
      | none => [block]
      | some rollbackFrom =>
          [FileEventStore.forcedRollback block rollbackFrom clock.unixNano,
            block]) := by
  rcases bind_eq_ok_iff.mp hstore with ⟨forced, hforced, hrest⟩
  rcases bind_eq_ok_iff.mp hrest with ⟨placed, hplaced, hrefresh⟩
  rcases Database.insertBlock_eq_ok hplaced with ⟨_, rfl⟩
  have hnext := refresh_eventsLog hrefresh
  unfold forceRollback at hforced
  cases hcheck : db.requiresRollbackTx block with
  | none =>
      rw [hcheck] at hforced
      have hsame := Except.ok.inj hforced
      subst hsame
      exact (hlogs.append clock.eventPersistedAt block).of_eventsLog hnext
  | some rollbackFrom =>
      rw [hcheck] at hforced
      simp only at hforced
      let line :=
        FileEventStore.forcedRollback block rollbackFrom clock.unixNano
      have hforcedLog := countReorg_eventsLog hforced
      have hrolled : Logs forced (appended ++ [line]) :=
        (hlogs.append clock.rollbackPersistedAt line).of_eventsLog hforcedLog
      have happended := hrolled.append clock.eventPersistedAt block
      rw [List.append_assoc] at happended
      exact happended.of_eventsLog hnext

theorem Logs.upsert
    (hlogs : Logs db appended) {clock : PgClock} {event : Event}
    {created : Bool}
    (hupsert : upsert retentionBlocks db clock event =
      .ok (created, next)) :
    Logs next (appended ++ appendedBy db clock event) := by
  unfold PostgresStore.upsert at hupsert
  unfold appendedBy
  simp only at hupsert ⊢
  by_cases htype :
      (event.withType.withProducedAt clock.now).type = "rollback"
  · rw [if_pos htype] at hupsert ⊢
    exact hlogs.upsertRollback hupsert
  · rw [if_neg htype] at hupsert ⊢
    rcases upsertBlock_eq_ok hupsert with
      ⟨hseen, _, rfl⟩ | ⟨hnew, _, stored, hstored, hretain⟩
    · rw [if_pos hseen, List.append_nil]
      exact hlogs
    · rw [if_neg (by simp [hnew])]
      exact (hlogs.storeBlock hstored).of_eventsLog
        (retain_eventsLog hretain)

/-! ## Runs -/

/-- A committed call, with the events appended so far. -/
def ledgerStep (retentionBlocks : ℤ) (ledger : Database × List Event)
    (call : PgClock × Event) : Option (Database × List Event) :=
  match upsert retentionBlocks ledger.1 call.1 call.2 with
  | .ok (_, next) =>
      some (next, ledger.2 ++ appendedBy ledger.1 call.1 call.2)
  | .error _ => none

theorem Logs.ledgerStep
    {ledger after : Database × List Event} {call : PgClock × Event}
    (hlogs : Logs ledger.1 ledger.2)
    (hstep : ledgerStep retentionBlocks ledger call = some after) :
    Logs after.1 after.2 := by
  unfold PostgresStore.ledgerStep at hstep
  cases hupsert :
      PostgresStore.upsert retentionBlocks ledger.1 call.1 call.2 with
  | error err =>
      rw [hupsert] at hstep
      contradiction
  | ok result =>
      rcases result with ⟨created, next⟩
      rw [hupsert, Option.some.injEq] at hstep
      rw [← hstep]
      exact hlogs.upsert hupsert

/-- The reader returns the events with the fields that the log has. -/
def ReadsBack (postgresDSN : String) (db : Database)
    (appended : List Event) : Prop :=
  ∃ events, loadEventsFromPostgres postgresDSN db = .ok events ∧
    events.map Event.logFields = appended.map Event.logFields

/-- The log has all events of a run in the order in which they were appended,
and the reader never returns them. -/
theorem run_not_readsBack
    (postgresDSN : String) (calls : List (PgClock × Event))
    (hrun : exec (ledgerStep retentionBlocks) (Database.initSchema, [])
      calls = some (db, appended)) :
    Logs db appended ∧ ¬ ReadsBack postgresDSN db appended := by
  constructor
  · have hinit : Logs Database.initSchema [] := List.Forall₂.nil
    apply invariant_of_step
      (fun ledger : Database × List Event => Logs ledger.1 ledger.2) _
      hinit hrun
    intro ledger call after hlogs hstep
    exact hlogs.ledgerStep hstep
  · rintro ⟨events, hload, _⟩
    rw [loadEventsFromPostgres_eq] at hload
    contradiction

end PostgresStore

theorem run_not_readsBack_secondBlock :
    ∃ db appended,
      exec (PostgresStore.ledgerStep 0) (Database.initSchema, [])
          [({}, firstBlock.event), ({}, secondBlock.event)] =
        some (db, appended) ∧
      appended.map Event.id = ["h1-a", "h2-a"] ∧
      PostgresStore.Logs db appended ∧
      ¬ PostgresStore.ReadsBack "host=localhost" db appended := by
  have hrun :=
    PostgresStore.run_not_readsBack "host=localhost"
      [({}, firstBlock.event), ({}, secondBlock.event)]
      (rfl : exec (PostgresStore.ledgerStep 0) _ _ = some (_, _))
  exact ⟨_, _, rfl, by decide, hrun.1, hrun.2⟩

/-- One block is ingested, and the query for it is refused. -/
theorem loadEventsFromPostgres_firstBlock :
    ∃ db appended,
      exec (PostgresStore.ledgerStep 0) (Database.initSchema, [])
          [({}, firstBlock.event)] = some (db, appended) ∧
      appended.map Event.id = ["h1-a"] ∧
      loadEventsFromPostgres "host=localhost" db =
        .error "column \"id\" does not exist" ∧
      ¬ PostgresStore.ReadsBack "host=localhost" db appended := by
  refine ⟨_, _, rfl, by decide, rfl, ?_⟩
  rintro ⟨events, hload, _⟩
  cases hload

end SoulonWallet.Indexer
