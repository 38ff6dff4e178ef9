import Mathlib.Data.Finset.Card
import SoulonWallet.KeyedMap

/-!
# The file event store of the indexer

The store keeps the blocks of the indexed chain by height, the set of their
ids, and the height and hash of the tip.  Every change is first appended to a
log file.  The file is part of the state here: `log` lists its lines.  Heights
are only compared and, when positive, lowered by one, so they are integers.

`Io` is what one call of `Upsert` gets from outside: the clock reading in a
rollback id and the outcome of its at most two appends, each all or nothing.
-/

namespace SoulonWallet.Indexer

structure Event where
  id : String := ""
  height : ℤ := 0
  type : String := ""
  blockHash : String := ""
  parentHash : String := ""
  rollbackFrom : ℤ := 0
  payload : String := ""
  producedAt : ℤ := 0
  persistedAt : ℤ := 0
  partition : ℤ := 0
  offset : ℤ := 0
  deriving DecidableEq

namespace Event

def withType (event : Event) : Event :=
  if event.type = "" then { event with type := "new_block" } else event

def withId (event : Event) : Event :=
  if event.id = "" then
    if event.blockHash ≠ "" then { event with id := event.blockHash }
    else { event with id := "block-" ++ toString event.height }
  else event

def withBlockHash (event : Event) : Event :=
  if event.blockHash = "" then { event with blockHash := event.id }
  else event

/-- A block event under the id and hash it is stored with. -/
def withDefaults (event : Event) : Event :=
  event.withId.withBlockHash

end Event

structure FileEventStore where
  seen : Finset String
  eventsByHeight : KeyedMap ℤ Event
  tipHeight : ℤ
  tipHash : String
  reorgs : ℕ
  log : List Event

def FileEventStore.empty : FileEventStore where
  seen := ∅
  eventsByHeight := ∅
  tipHeight := 0
  tipHash := ""
  reorgs := 0
  log := []

/-- An append either writes its line at some time or fails. -/
abbrev Append := Except String ℤ

structure Io where
  unixNano : ℤ
  firstAppend : Append
  secondAppend : Append

structure StoreState where
  tipHeight : ℤ
  tipHash : String
  total : ℕ
  reorgs : ℕ
  deriving DecidableEq

namespace FileEventStore

def count (store : FileEventStore) : ℕ :=
  store.seen.card

def state (store : FileEventStore) : StoreState where
  tipHeight := store.tipHeight
  tipHash := store.tipHash
  total := store.seen.card
  reorgs := store.reorgs

def logLine (store : FileEventStore) (persistedAt : ℤ) (event : Event) :
    FileEventStore :=
  { store with log := store.log ++ [{ event with persistedAt }] }

def appendEvent (store : FileEventStore) (append : Append) (event : Event) :
    Except String FileEventStore :=
  match append with
  | .error err => .error err
  | .ok persistedAt => .ok (store.logLine persistedAt event)

def higherTip (tip : ℤ × String) (entry : Sigma fun _ : ℤ => Event) :
    ℤ × String :=
  if tip.1 ≤ entry.1 then (entry.1, entry.2.blockHash) else tip

def recalculateTip (store : FileEventStore) : FileEventStore :=
  let (tipHeight, tipHash) :=
    store.eventsByHeight.entries.foldl higherTip (0, "")
  { store with tipHeight, tipHash }

def dropFrom (fromHeight : ℤ) (store : FileEventStore)
    (entry : Sigma fun _ : ℤ => Event) : FileEventStore :=
  if fromHeight ≤ entry.1 then
    { store with
      eventsByHeight := store.eventsByHeight.erase entry.1
      seen :=
        if entry.2.id ≠ "" then store.seen.erase entry.2.id
        else store.seen }
  else store

def applyRollback (store : FileEventStore) (fromHeight : ℤ) :
    FileEventStore :=
  if fromHeight ≤ 0 then store
  else
    (store.eventsByHeight.entries.foldl (dropFrom fromHeight)
      store).recalculateTip

def applyBlock (store : FileEventStore) (event : Event) : FileEventStore :=
  let named :=
    if event.id = "" then
      { event with id := "block-" ++ toString event.height }
    else event
  let event := named.withBlockHash
  let stored :=
    { store with
      eventsByHeight := store.eventsByHeight.insert event.height event
      seen := insert event.id store.seen }
  if store.tipHeight ≤ event.height then
    { stored with
      tipHeight := event.height
      tipHash := event.blockHash }
  else stored

/-- The height to roll back from before the block is stored, if any. -/
def requiresRollback (store : FileEventStore) (event : Event) : Option ℤ :=
  if event.height ≤ 0 then none
  else
    match store.eventsByHeight.lookup event.height with
    | some current =>
        if current.blockHash ≠ "" ∧ current.blockHash ≠ event.blockHash then
          some event.height
        else belowTip
    | none => belowTip
where
  belowTip : Option ℤ :=
    if store.tipHeight = 0 then none
    else if event.height ≤ store.tipHeight then some event.height
    else if store.tipHash ≠ "" ∧ event.parentHash ≠ "" ∧
        event.parentHash ≠ store.tipHash then
      let rollbackFrom := event.height - 1
      if rollbackFrom ≤ 0 then some 1 else some rollbackFrom
    else none

end FileEventStore

def rollbackId (fromHeight unixNano : ℤ) : String :=
  "rollback-" ++ toString fromHeight ++ "-" ++ toString unixNano

namespace FileEventStore

def forcedRollback (event : Event) (rollbackFrom unixNano : ℤ) : Event where
  id := rollbackId rollbackFrom unixNano
  height := rollbackFrom
  type := "rollback"
  rollbackFrom := rollbackFrom
  payload := "\x7b\"rollbackFrom\":" ++ toString rollbackFrom ++ "\x7d"
  producedAt := event.producedAt

def rollback (store : FileEventStore) (fromHeight : ℤ) : FileEventStore :=
  { store.applyRollback fromHeight with reorgs := store.reorgs + 1 }

def upsertRollback (store : FileEventStore) (io : Io) (event : Event) :
    FileEventStore × Except String Bool :=
  if event.rollbackFrom ≤ 0 then
    (store,
      .error ("invalid rollback height: " ++ toString event.rollbackFrom))
  else
    let event :=
      { event with
        id := rollbackId event.rollbackFrom io.unixNano
        height := event.rollbackFrom }
    match store.appendEvent io.firstAppend event with
    | .error err => (store, .error err)
    | .ok logged => (logged.rollback event.rollbackFrom, .ok true)

def storeBlock (store : FileEventStore) (append : Append) (event : Event) :
    FileEventStore × Except String Bool :=
  match store.appendEvent append event with
  | .error err => (store, .error err)
  | .ok logged => (logged.applyBlock event, .ok true)

def upsertBlock (store : FileEventStore) (io : Io) (event : Event) :
    FileEventStore × Except String Bool :=
  let event := event.withDefaults
  if event.id ∈ store.seen then (store, .ok false)
  else
    match store.requiresRollback event with
    | none => store.storeBlock io.firstAppend event
    | some rollbackFrom =>
        match store.appendEvent io.firstAppend
            (forcedRollback event rollbackFrom io.unixNano) with
        | .error err => (store, .error err)
        | .ok logged =>
            (logged.rollback rollbackFrom).storeBlock io.secondAppend event

def upsert (store : FileEventStore) (io : Io) (event : Event) :
    FileEventStore × Except String Bool :=
  let event := event.withType
  if event.type = "rollback" then store.upsertRollback io event
  else store.upsertBlock io event

end FileEventStore

end SoulonWallet.Indexer
