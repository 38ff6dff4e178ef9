import SoulonWallet.FileEventStore
import SoulonWallet.SqlTable

/-!
# The Postgres store of the indexer

The tables that `initSchema` creates, the statements of the store on them and
its two transactions.  Transactions run one at a time.  One that fails is
rolled back, so a call returns its error or the database that it commits.
The columns `total` and `reorgs` are four byte integers, and writing a larger
value fails.  Heights and the retention are integers: the differences that the
code takes leave the range of eight bytes only at the lowest negative heights.

`PgClock` is what one call reads from the clock.  Times are counted from the
zero time, at which an event counts as not dated.
-/

namespace SoulonWallet.Indexer

structure EventRow where
  height : ℤ
  type : String
  blockHash : Option String
  parentHash : Option String
  rollbackFrom : Option ℤ
  payload : String
  producedAt : ℤ
  persistedAt : ℤ
  deriving DecidableEq

/-- A row of the log, which has its own key. -/
structure LogRow where
  seq : ℕ
  eventId : String
  row : EventRow
  deriving DecidableEq

structure BlockRow where
  eventId : String
  blockHash : String
  parentHash : String
  payload : String
  producedAt : ℤ
  persistedAt : ℤ
  deriving DecidableEq

structure Database where
  events : SqlTable String EventRow
  eventsLog : List LogRow
  blocks : SqlTable ℤ BlockRow
  blocksArchive : SqlTable ℤ BlockRow
  eventsArchive : SqlTable String EventRow
  state : StoreState

structure PgClock where
  now : ℤ := 1
  unixNano : ℤ := 0
  rollbackPersistedAt : ℤ := 0
  eventPersistedAt : ℤ := 0
  blockPersistedAt : ℤ := 0

def nullString (value : String) : Option String :=
  if value = "" then none else some value

def nullInt64 (value : ℤ) : Option ℤ :=
  if value = 0 then none else some value

def maxInt4 : ℕ := 2147483647

def Event.withProducedAt (event : Event) (now : ℤ) : Event :=
  if event.producedAt = 0 then { event with producedAt := now } else event

/-- The columns under which an event is written to the event tables. -/
def Event.row (event : Event) (persistedAt : ℤ) : EventRow where
  height := event.height
  type := event.type
  blockHash := nullString event.blockHash
  parentHash := nullString event.parentHash
  rollbackFrom := nullInt64 event.rollbackFrom
  payload := event.payload
  producedAt := event.producedAt
  persistedAt := persistedAt

def Event.blockRow (event : Event) (persistedAt : ℤ) : BlockRow where
  eventId := event.id
  blockHash := event.blockHash
  parentHash := event.parentHash
  payload := event.payload
  producedAt := event.producedAt
  persistedAt := persistedAt

def blocksUnique : List (UniqueColumn BlockRow) :=
  [⟨"indexer_blocks_event_id_key", BlockRow.eventId⟩,
    ⟨"indexer_blocks_block_hash_key", BlockRow.blockHash⟩]

def blocksArchiveUnique : List (UniqueColumn BlockRow) :=
  [⟨"indexer_blocks_archive_event_id_key", BlockRow.eventId⟩,
    ⟨"indexer_blocks_archive_block_hash_key", BlockRow.blockHash⟩]

namespace Database

def initSchema : Database where
  events := ∅
  eventsLog := []
  blocks := ∅
  blocksArchive := ∅
  eventsArchive := ∅
  state := ⟨0, "", 0, 0⟩

def appendEventTx (db : Database) (persistedAt : ℤ) (event : Event) :
    Database :=
  { db with
    events :=
      match db.events.lookup event.id with
      | some _ => db.events
      | none => db.events.insert event.id (event.row persistedAt)
    eventsLog := db.eventsLog ++
      [⟨db.eventsLog.length + 1, event.id, event.row persistedAt⟩] }

def applyRollbackTx (db : Database) (rollbackFrom : ℤ) : Database :=
  let eventIds :=
    (db.blocks.entries.filter fun entry => rollbackFrom ≤ entry.1).map
      fun entry => entry.2.eventId
  { db with
    blocks := KeyedMap.eraseKeys (rollbackFrom ≤ ·) db.blocks
    events := eventIds.foldl (fun events id => events.erase id) db.events }

/-- The height to roll back from before the block is stored, if any. -/
def requiresRollbackTx (db : Database) (event : Event) : Option ℤ :=
  match db.blocks.lookup event.height with
  | some existing =>
      if existing.blockHash ≠ event.blockHash then some event.height
      else belowTip
  | none => belowTip
where
  belowTip : Option ℤ :=
    if 0 < db.state.tipHeight ∧ event.height ≤ db.state.tipHeight then
      some event.height
    else if db.state.tipHash ≠ "" ∧ event.parentHash ≠ "" ∧
        db.state.tipHash ≠ event.parentHash then
      let rollbackFrom := event.height - 1
      if rollbackFrom ≤ 0 then some 1 else some rollbackFrom
    else none

/-- `UPDATE indexer_state SET reorgs = reorgs + 1`. -/
def countReorg (db : Database) : Except String Database :=
  if db.state.reorgs + 1 ≤ maxInt4 then
    .ok { db with state := { db.state with reorgs := db.state.reorgs + 1 } }
  else .error "integer out of range"

def refreshStateTx (db : Database) : Except String Database :=
  let (tipHeight, tipHash) :=
    match db.blocks.last? with
    | some entry => (entry.1, entry.2.blockHash)
    | none => (0, "")
  let total := db.blocks.entries.length
  if total ≤ maxInt4 then
    .ok { db with state := { db.state with tipHeight, tipHash, total } }
  else .error "integer out of range"

def insertBlock (db : Database) (persistedAt : ℤ) (event : Event) :
    Except String Database := do
  let blocks ←
    db.blocks.insertOrUpdate blocksUnique event.height
      (event.blockRow persistedAt)
  return { db with blocks }

/-- The events below `keepFrom` whose block is in the archive. -/
def archivableEvents (db : Database) (blocksArchive : SqlTable ℤ BlockRow)
    (keepFrom : ℤ) : List (Sigma fun _ : String => EventRow) :=
  db.events.entries.filter fun entry =>
    decide (entry.2.height < keepFrom) &&
      blocksArchive.entries.any fun block => block.2.eventId = entry.1

def cleanupOldBlocksTx (db : Database) (retentionBlocks : ℤ) :
    Except String Database :=
  if retentionBlocks ≤ 0 then .ok db
  else
    let keepFrom := db.state.tipHeight - retentionBlocks + 1
    if keepFrom ≤ 1 then .ok db
    else do
      let blocksArchive ←
        db.blocksArchive.insertAllMissing blocksArchiveUnique
          (db.blocks.entries.filter fun entry => entry.1 < keepFrom)
      let eventsArchive ←
        db.eventsArchive.insertAllMissing []
          (db.archivableEvents blocksArchive keepFrom)
      return { db with
        blocksArchive
        eventsArchive
        events :=
          (db.events.entries.filter fun entry =>
              entry.2.height < keepFrom).foldl
            (fun events entry => events.erase entry.1) db.events
        blocks := KeyedMap.eraseKeys (· < keepFrom) db.blocks }

end Database

namespace PostgresStore

def upsertRollback (db : Database) (clock : PgClock) (event : Event) :
    Except String (Bool × Database) :=
  if event.rollbackFrom ≤ 0 then
    .error ("invalid rollback height: " ++ toString event.rollbackFrom)
  else
    let event :=
      { event with
        id := rollbackId event.rollbackFrom clock.unixNano
        height := event.rollbackFrom }
    do
      let db := db.appendEventTx clock.eventPersistedAt event
      let db ← (db.applyRollbackTx event.rollbackFrom).countReorg
      let db ← db.refreshStateTx
      return (true, db)

/-- The rollback that a forked block forces before it is stored. -/
def forceRollback (db : Database) (clock : PgClock) (event : Event) :
    Except String Database :=
  match db.requiresRollbackTx event with
  | none => .ok db
  | some rollbackFrom =>
      let db := db.appendEventTx clock.rollbackPersistedAt
        (FileEventStore.forcedRollback event rollbackFrom clock.unixNano)
      (db.applyRollbackTx rollbackFrom).countReorg

/-- A new block up to the first refresh of the state row. -/
def storeBlock (db : Database) (clock : PgClock) (event : Event) :
    Except String Database := do
  let db ← forceRollback db clock event
  let db := db.appendEventTx clock.eventPersistedAt event
  let db ← db.insertBlock clock.blockPersistedAt event
  db.refreshStateTx

/-- The retention cleanup and the refresh after it. -/
def retain (retentionBlocks : ℤ) (db : Database) : Except String Database := do
  let db ← db.cleanupOldBlocksTx retentionBlocks
  db.refreshStateTx

def hasEvent (db : Database) (id : String) : Bool :=
  db.blocks.entries.any fun entry => entry.2.eventId = id

def upsertBlock (retentionBlocks : ℤ) (db : Database) (clock : PgClock)
    (event : Event) : Except String (Bool × Database) :=
  let event := event.withDefaults
  if hasEvent db event.id then .ok (false, db)
  else do
    let db ← storeBlock db clock event
    let db ← retain retentionBlocks db
    return (true, db)

def upsert (retentionBlocks : ℤ) (db : Database) (clock : PgClock)
    (event : Event) : Except String (Bool × Database) :=
  let event := event.withType.withProducedAt clock.now
  if event.type = "rollback" then upsertRollback db clock event
  else upsertBlock retentionBlocks db clock event

def runMaintenance (retentionBlocks : ℤ) (db : Database) :
    Except String Database := do
  let db ← db.refreshStateTx
  retain retentionBlocks db

end PostgresStore

end SoulonWallet.Indexer
