import SoulonWallet.EventStoreInvariant

/-!
# Opening the file event store on its log

`loadSeen` reads the log from the start and applies each line without the
duplicate and fork checks of `Upsert`.  Whatever the live store did between
two states was one of these lines, logged first and applied second, so a
store opened on the log agrees with the live one.  Partition and offset are
not part of a line, and the live store never sees the time that a line was
written, so two stores agree when they hold the same id, block hash and
parent hash at each height.
-/

namespace SoulonWallet.Indexer

/-! ## The model of a restart -/

/-- An event as it is decoded from its line in the log. -/
def Event.readBack (event : Event) : Event :=
  { event with partition := 0, offset := 0 }

namespace FileEventStore

/-- One turn of the loop of `loadSeen`. -/
def replay (store : FileEventStore) (event : Event) : FileEventStore :=
  if event.type = "rollback" then store.rollback event.rollbackFrom
  else store.applyBlock event

def loadSeen (store : FileEventStore) (file : List Event) : FileEventStore :=
  (file.map Event.readBack).foldl replay store

def newFileEventStore (file : List Event) : FileEventStore :=
  { empty with log := file }.loadSeen file

/-- The store after a sequence of calls. -/
def afterCalls (store : FileEventStore) (calls : List (Io × Event)) :
    FileEventStore :=
  calls.foldl (fun reached call => (reached.upsert call.1 call.2).1) store

/-- What a sequence of calls returns. -/
def answers (store : FileEventStore) :
    List (Io × Event) → List (Except String Bool)
  | [] => []
  | call :: rest =>
      (store.upsert call.1 call.2).2 ::
        (store.upsert call.1 call.2).1.answers rest

end FileEventStore

/-! ## Agreement -/

structure StoredBlock where
  id : String
  blockHash : String
  parentHash : String
  deriving DecidableEq

def Event.storedBlock (event : Event) : StoredBlock where
  id := event.id
  blockHash := event.blockHash
  parentHash := event.parentHash

namespace FileEventStore

def storedAt (store : FileEventStore) (height : ℤ) : Option StoredBlock :=
  (store.eventsByHeight.lookup height).map Event.storedBlock

structure Agrees (left right : FileEventStore) : Prop where
  seen : left.seen = right.seen
  stored : ∀ height, left.storedAt height = right.storedAt height
  tipHeight : left.tipHeight = right.tipHeight
  tipHash : left.tipHash = right.tipHash
  reorgs : left.reorgs = right.reorgs

variable {left right : FileEventStore}

theorem Agrees.refl (store : FileEventStore) : store.Agrees store :=
  ⟨rfl, fun _ => rfl, rfl, rfl, rfl⟩

theorem Agrees.symm (hagrees : left.Agrees right) : right.Agrees left :=
  ⟨hagrees.seen.symm, fun height => (hagrees.stored height).symm,
    hagrees.tipHeight.symm, hagrees.tipHash.symm, hagrees.reorgs.symm⟩

theorem Agrees.trans
    {middle : FileEventStore} (hleft : left.Agrees middle)
    (hright : middle.Agrees right) : left.Agrees right :=
  ⟨hleft.seen.trans hright.seen,
    fun height => (hleft.stored height).trans (hright.stored height),
    hleft.tipHeight.trans hright.tipHeight,
    hleft.tipHash.trans hright.tipHash, hleft.reorgs.trans hright.reorgs⟩

theorem agrees_logLine
    (store : FileEventStore) (time : ℤ) (line : Event) :
    (store.logLine time line).Agrees store :=
  ⟨rfl, fun _ => rfl, rfl, rfl, rfl⟩

theorem recalculateTip_congr
    (hstored : ∀ height, left.storedAt height = right.storedAt height) :
    left.recalculateTip.tipHeight = right.recalculateTip.tipHeight ∧
      left.recalculateTip.tipHash = right.recalculateTip.tipHash := by
  have hloop :
      left.eventsByHeight.entries.foldl higherTip (0, "") =
        right.eventsByHeight.entries.foldl higherTip (0, "") := by
    apply KeyedMap.foldl_higher_congr
    intro height
    have hhash :=
      congrArg (Option.map StoredBlock.blockHash) (hstored height)
    simpa [storedAt, Function.comp_def, Event.storedBlock] using hhash
  exact ⟨congrArg Prod.fst hloop, congrArg Prod.snd hloop⟩

theorem recalculateTip_rollback
    (store : FileEventStore) {fromHeight : ℤ} (hfrom : 1 ≤ fromHeight) :
    (store.rollback fromHeight).recalculateTip =
      store.rollback fromHeight := by
  rw [rollback_eq store hfrom]
  rfl

theorem mem_seen_rollback
    (store : FileEventStore) {fromHeight : ℤ} (hfrom : 1 ≤ fromHeight)
    (id : String) :
    id ∈ (store.rollback fromHeight).seen ↔
      id ∈ store.seen ∧
        ∀ height block, store.storedAt height = some block →
          fromHeight ≤ height → block.id ≠ "" → id ≠ block.id := by
  have hfold :=
    mem_seen_foldl_dropFrom fromHeight id store.eventsByHeight.entries store
  have hseen :
      (store.rollback fromHeight).seen =
        (store.eventsByHeight.entries.foldl (dropFrom fromHeight)
          store).seen := by
    rw [rollback_eq store hfrom]
    rfl
  rw [hseen, hfold]
  apply and_congr_right
  intro _
  constructor
  · intro hdropped height block hblock
    obtain ⟨event, hevent, rfl⟩ := Option.map_eq_some_iff.mp hblock
    exact hdropped ⟨height, event⟩ (KeyedMap.mem_entries_iff.mpr hevent)
  · intro hkept entry hentry
    apply hkept entry.1 entry.2.storedBlock
    unfold storedAt
    rw [KeyedMap.mem_entries_iff.mp hentry]
    rfl

theorem storedAt_rollback
    (store : FileEventStore) {fromHeight : ℤ} (hfrom : 1 ≤ fromHeight)
    (height : ℤ) :
    (store.rollback fromHeight).storedAt height =
      if fromHeight ≤ height then none else store.storedAt height := by
  unfold storedAt
  rw [lookup_rollback store hfrom]
  split_ifs <;> rfl

theorem Agrees.rollback
    (hagrees : left.Agrees right) (fromHeight : ℤ) :
    (left.rollback fromHeight).Agrees (right.rollback fromHeight) := by
  by_cases hfrom : 1 ≤ fromHeight
  · have hstored : ∀ height,
        (left.rollback fromHeight).storedAt height =
          (right.rollback fromHeight).storedAt height := by
      intro height
      rw [storedAt_rollback left hfrom, storedAt_rollback right hfrom,
        hagrees.stored]
    have htip := recalculateTip_congr hstored
    rw [recalculateTip_rollback left hfrom,
      recalculateTip_rollback right hfrom] at htip
    refine ⟨?_, hstored, htip.1, htip.2, ?_⟩
    · ext id
      rw [mem_seen_rollback left hfrom, mem_seen_rollback right hfrom]
      simp only [hagrees.seen, hagrees.stored]
    · exact congrArg (· + 1) hagrees.reorgs
  · have hnothing : ∀ store : FileEventStore,
        store.rollback fromHeight =
          { store with reorgs := store.reorgs + 1 } := by
      intro store
      have hle : fromHeight ≤ 0 := by omega
      simp [FileEventStore.rollback, applyRollback, hle]
    rw [hnothing, hnothing]
    exact ⟨hagrees.seen, hagrees.stored, hagrees.tipHeight, hagrees.tipHash,
      congrArg (· + 1) hagrees.reorgs⟩

/-- The event as `applyBlock` stores it. -/
def named (event : Event) : Event :=
  Event.withBlockHash
    (if event.id = "" then
      { event with id := "block-" ++ toString event.height }
    else event)

theorem named_height (event : Event) : (named event).height = event.height := by
  unfold named Event.withBlockHash
  split_ifs <;> rfl

theorem named_storedBlock_congr
    {event event' : Event} (hheight : event'.height = event.height)
    (hblock : event'.storedBlock = event.storedBlock) :
    (named event').storedBlock = (named event).storedBlock := by
  have hid : event'.id = event.id := congrArg StoredBlock.id hblock
  have hhash : event'.blockHash = event.blockHash :=
    congrArg StoredBlock.blockHash hblock
  have hparent : event'.parentHash = event.parentHash :=
    congrArg StoredBlock.parentHash hblock
  unfold named Event.withBlockHash
  split_ifs <;> simp_all [Event.storedBlock]

theorem named_eq
    {event : Event} (hid : event.id ≠ "") (hhash : event.blockHash ≠ "") :
    named event = event := by
  unfold named Event.withBlockHash
  rw [if_neg hid, if_neg hhash]

theorem applyBlock_named (store : FileEventStore) (event : Event) :
    store.applyBlock event =
      { store with
        eventsByHeight :=
          store.eventsByHeight.insert event.height (named event)
        seen := insert (named event).id store.seen
        tipHeight :=
          if store.tipHeight ≤ event.height then event.height
          else store.tipHeight
        tipHash :=
          if store.tipHeight ≤ event.height then (named event).blockHash
          else store.tipHash } := by
  have hstored :
      store.applyBlock event =
        let stored :=
          { store with
            eventsByHeight :=
              store.eventsByHeight.insert (named event).height (named event)
            seen := insert (named event).id store.seen }
        if store.tipHeight ≤ (named event).height then
          { stored with
            tipHeight := (named event).height
            tipHash := (named event).blockHash }
        else stored := rfl
  rw [hstored, named_height]
  by_cases habove : store.tipHeight ≤ event.height
  · simp [habove]
  · simp [habove]

theorem storedAt_applyBlock
    (store : FileEventStore) (event : Event) (height : ℤ) :
    (store.applyBlock event).storedAt height =
      if height = event.height then some (named event).storedBlock
      else store.storedAt height := by
  unfold storedAt
  rw [applyBlock_named]
  simp only [KeyedMap.lookup_insert_eq]
  split_ifs <;> rfl

/-- Storing two events that are the same block keeps the agreement. -/
theorem Agrees.applyBlock
    (hagrees : left.Agrees right) {event event' : Event}
    (hheight : event'.height = event.height)
    (hblock : event'.storedBlock = event.storedBlock) :
    (left.applyBlock event).Agrees (right.applyBlock event') := by
  have hnamed := named_storedBlock_congr hheight hblock
  have hid : (named event').id = (named event).id :=
    congrArg StoredBlock.id hnamed
  have hhash : (named event').blockHash = (named event).blockHash :=
    congrArg StoredBlock.blockHash hnamed
  have hstored : ∀ height,
      (left.applyBlock event).storedAt height =
        (right.applyBlock event').storedAt height := by
    intro height
    rw [storedAt_applyBlock, storedAt_applyBlock, hheight, hnamed,
      hagrees.stored]
  refine ⟨?_, hstored, ?_, ?_, ?_⟩
  · simp only [applyBlock_named, hid, hagrees.seen]
  · simp only [applyBlock_named, hheight, hagrees.tipHeight]
  · simp only [applyBlock_named, hheight, hhash, hagrees.tipHeight,
      hagrees.tipHash]
  · simp only [applyBlock_named, hagrees.reorgs]

theorem Agrees.requiresRollback
    (hagrees : left.Agrees right) (event : Event) :
    left.requiresRollback event = right.requiresRollback event := by
  have hbelow :
      requiresRollback.belowTip left event =
        requiresRollback.belowTip right event := by
    unfold requiresRollback.belowTip
    rw [hagrees.tipHeight, hagrees.tipHash]
  have hstored := hagrees.stored event.height
  unfold storedAt at hstored
  unfold FileEventStore.requiresRollback
  rw [hbelow]
  cases hleft : left.eventsByHeight.lookup event.height with
  | none =>
      rw [hleft, eq_comm, Option.map_none, Option.map_eq_none_iff] at hstored
      rw [hstored]
  | some current =>
      rw [hleft, eq_comm, Option.map_some, Option.map_eq_some_iff] at hstored
      obtain ⟨current', hright, hblock⟩ := hstored
      have hhash : current'.blockHash = current.blockHash :=
        congrArg StoredBlock.blockHash hblock
      rw [hright]
      simp only [hhash]

/-! ## Every change is a line of the log -/

/-- A line is logged and then applied, as it will be on a restart. -/
def record (store : FileEventStore) (line : ℤ × Event) : FileEventStore :=
  (store.logLine line.1 line.2).replay line.2

theorem withDefaults_type (event : Event) :
    event.withDefaults.type = event.type := by
  unfold Event.withDefaults Event.withBlockHash Event.withId
  split_ifs <;> rfl

/-- What `Upsert` may log: a rollback from a positive height, or the block
that it was called with under its defaults. -/
def LogsFor (event line : Event) : Prop :=
  (line.type = "rollback" ∧ 1 ≤ line.rollbackFrom) ∨
    (event.type ≠ "rollback" ∧ line = event.withType.withDefaults)

theorem record_block
    (store : FileEventStore) (time : ℤ) {line : Event}
    (htype : line.type ≠ "rollback") :
    store.record (time, line) = (store.logLine time line).applyBlock line :=
  if_neg htype

theorem record_rollback
    (store : FileEventStore) (time : ℤ) {line : Event}
    (htype : line.type = "rollback") :
    store.record (time, line) =
      (store.logLine time line).rollback line.rollbackFrom :=
  if_pos htype

theorem upsertRollback_cases
    (store : FileEventStore) (io : Io) (event : Event) :
    (∃ err, store.upsertRollback io event = (store, .error err)) ∨
    (1 ≤ event.rollbackFrom ∧
      ∃ time line, line.type = event.type ∧
        line.rollbackFrom = event.rollbackFrom ∧
        store.upsertRollback io event =
          ((store.logLine time line).rollback event.rollbackFrom,
            .ok true)) := by
  unfold upsertRollback
  by_cases hfrom : event.rollbackFrom ≤ 0
  · left
    exact ⟨_, if_pos hfrom⟩
  · rw [if_neg hfrom]
    cases hfirst : io.firstAppend with
    | error err =>
        left
        exact ⟨err, rfl⟩
    | ok time =>
        right
        exact ⟨by omega, time,
          { event with
            id := rollbackId event.rollbackFrom io.unixNano
            height := event.rollbackFrom }, rfl, rfl, rfl⟩

/-- Every call changes the store by recording the lines that it logs, also
when it fails half way. -/
theorem upsert_records
    (store : FileEventStore) (io : Io) (event : Event) :
    ∃ lines : List (ℤ × Event),
      (store.upsert io event).1 = lines.foldl record store ∧
        ∀ line ∈ lines, LogsFor event line.2 := by
  by_cases htype : event.type = "rollback"
  · rw [upsert_of_rollback store io htype]
    have hrollback := (withType_eq_rollback_iff event).mpr htype
    rcases store.upsertRollback_cases io event.withType with
      ⟨err, hresult⟩ | ⟨hfrom, time, line, hline, hlineFrom, hresult⟩
    · exact ⟨[], by rw [hresult]; rfl, by simp⟩
    · refine ⟨[(time, line)], ?_, ?_⟩
      · rw [hresult, List.foldl_cons, List.foldl_nil,
          record_rollback store time (hline.trans hrollback), hlineFrom]
      · simp only [List.mem_singleton, forall_eq]
        exact Or.inl ⟨hline.trans hrollback, hlineFrom ▸ hfrom⟩
  · rw [upsert_of_block store io htype]
    have hblock : event.withType.withDefaults.type ≠ "rollback" := by
      rw [withDefaults_type, ne_eq, withType_eq_rollback_iff]
      exact htype
    have hlogs : LogsFor event event.withType.withDefaults :=
      Or.inr ⟨htype, rfl⟩
    have hforced : ∀ rollbackFrom,
        store.requiresRollback event.withType.withDefaults =
            some rollbackFrom →
          LogsFor event (forcedRollback event.withType.withDefaults
            rollbackFrom io.unixNano) := by
      intro rollbackFrom hsome
      exact Or.inl ⟨rfl, (bounds_of_requiresRollback_some hsome).1⟩
    rcases store.upsertBlock_cases io event.withType with
      ⟨_, hresult⟩ | ⟨_, err, hresult⟩ | ⟨_, _, time, hresult⟩ |
      ⟨_, rollbackFrom, time, err, hsome, hresult⟩ |
      ⟨_, rollbackFrom, time, time', hsome, hresult⟩
    · exact ⟨[], by rw [hresult]; rfl, by simp⟩
    · exact ⟨[], by rw [hresult]; rfl, by simp⟩
    · refine ⟨[(time, event.withType.withDefaults)], ?_, by simpa⟩
      rw [hresult, List.foldl_cons, List.foldl_nil,
        record_block store time hblock]
    · refine ⟨[(time, forcedRollback event.withType.withDefaults
        rollbackFrom io.unixNano)], ?_, by simpa using hforced _ hsome⟩
      rw [hresult, List.foldl_cons, List.foldl_nil,
        record_rollback store time rfl]
      rfl
    · refine ⟨[(time, forcedRollback event.withType.withDefaults
        rollbackFrom io.unixNano), (time', event.withType.withDefaults)],
        ?_, ?_⟩
      · rw [hresult, List.foldl_cons, List.foldl_cons, List.foldl_nil,
          record_rollback store time rfl, record_block _ time' hblock]
        rfl
      · intro line hline
        rcases List.mem_pair.mp hline with rfl | rfl
        · exact hforced _ hsome
        · exact hlogs

/-! ## Restart -/

theorem foldl_dropFrom_log
    (fromHeight : ℤ) (entries : List (Sigma fun _ : ℤ => Event))
    (store : FileEventStore) :
    (entries.foldl (dropFrom fromHeight) store).log = store.log := by
  induction entries generalizing store with
  | nil => rfl
  | cons entry rest ih =>
      rw [List.foldl_cons, ih]
      unfold dropFrom
      split_ifs <;> rfl

theorem replay_log (store : FileEventStore) (event : Event) :
    (store.replay event).log = store.log := by
  unfold replay
  split_ifs with htype
  · unfold rollback applyRollback
    split_ifs with hfrom
    · rfl
    · exact foldl_dropFrom_log _ _ _
  · rw [applyBlock_named]

theorem record_log (store : FileEventStore) (line : ℤ × Event) :
    (store.record line).log =
      store.log ++ [{ line.2 with persistedAt := line.1 }] :=
  replay_log _ _

theorem Agrees.replay
    (hagrees : left.Agrees right) {event event' : Event}
    (htype : event'.type = event.type)
    (hfrom : event'.rollbackFrom = event.rollbackFrom)
    (hheight : event'.height = event.height)
    (hblock : event'.storedBlock = event.storedBlock) :
    (left.replay event).Agrees (right.replay event') := by
  unfold FileEventStore.replay
  rw [htype, hfrom]
  split_ifs
  · exact hagrees.rollback event.rollbackFrom
  · exact hagrees.applyBlock hheight hblock

theorem Agrees.loadSeen
    (hagrees : left.Agrees right) (file : List Event) :
    (left.loadSeen file).Agrees (right.loadSeen file) := by
  induction file generalizing left right with
  | nil => exact hagrees
  | cons line rest ih => exact ih (hagrees.replay rfl rfl rfl rfl)

/-- One more line in the file is one more turn of the loop of `loadSeen`. -/
theorem newFileEventStore_concat (file : List Event) (line : Event) :
    (newFileEventStore (file ++ [line])).Agrees
      ((newFileEventStore file).replay line.readBack) := by
  have hstart :
      { FileEventStore.empty with log := file ++ [line] }.Agrees
        { FileEventStore.empty with log := file } :=
    ⟨rfl, fun _ => rfl, rfl, rfl, rfl⟩
  have hload := (hstart.loadSeen file).replay rfl rfl rfl
    (rfl : line.readBack.storedBlock = line.readBack.storedBlock)
  simpa [newFileEventStore, FileEventStore.loadSeen] using hload

/-- A store that agrees with its own log. -/
def Restartable (store : FileEventStore) : Prop :=
  store.Agrees (newFileEventStore store.log)

theorem Restartable.record
    {store : FileEventStore} (hrestart : store.Restartable)
    (line : ℤ × Event) : (store.record line).Restartable := by
  unfold Restartable
  rw [record_log]
  have hlogged : (store.logLine line.1 line.2).Agrees
      (newFileEventStore store.log) :=
    (agrees_logLine store line.1 line.2).trans hrestart
  have hconcat :=
    newFileEventStore_concat store.log { line.2 with persistedAt := line.1 }
  apply Agrees.trans _ hconcat.symm
  exact hlogged.replay rfl rfl rfl rfl

theorem Restartable.upsert
    {store : FileEventStore} (hrestart : store.Restartable) (io : Io)
    (event : Event) : (store.upsert io event).1.Restartable := by
  obtain ⟨lines, hresult, hlogs⟩ := store.upsert_records io event
  rw [hresult]
  clear hresult hlogs
  induction lines generalizing store with
  | nil => exact hrestart
  | cons line rest ih => exact ih (hrestart.record line)

theorem Restartable.afterCalls
    {store : FileEventStore} (hrestart : store.Restartable)
    (calls : List (Io × Event)) : (store.afterCalls calls).Restartable := by
  induction calls generalizing store with
  | nil => exact hrestart
  | cons call rest ih => exact ih (hrestart.upsert call.1 call.2)

theorem loadSeen_log (store : FileEventStore) (file : List Event) :
    (store.loadSeen file).log = store.log := by
  induction file generalizing store with
  | nil => rfl
  | cons line rest ih =>
      exact (ih (store.replay line.readBack)).trans (replay_log _ _)

theorem newFileEventStore_restartable (file : List Event) :
    (newFileEventStore file).Restartable := by
  unfold Restartable
  have hlog : (newFileEventStore file).log = file := loadSeen_log _ _
  rw [hlog]
  exact Agrees.refl _

/-! ## Later calls -/

end FileEventStore

/-- Which appends succeed, without the times of their lines. -/
def Io.outcomes (io : Io) : Except String Unit × Except String Unit :=
  (io.firstAppend.map fun _ => (), io.secondAppend.map fun _ => ())

/-- The same event meets the same append failures, at any time. -/
def SameCall (call call' : Io × Event) : Prop :=
  call.1.outcomes = call'.1.outcomes ∧ call.2 = call'.2

namespace FileEventStore

/-- Equal answers and stores that agree. -/
def SameEffect (effect effect' : FileEventStore × Except String Bool) :
    Prop :=
  effect.2 = effect'.2 ∧ effect.1.Agrees effect'.1

variable {left right : FileEventStore}

/-- Two appends with the same outcome, each followed by what keeps the
agreement. -/
theorem Agrees.appended
    (hagrees : left.Agrees right) {append append' : Append}
    (hsame : append.map (fun _ => ()) = append'.map fun _ => ())
    (line line' : Event)
    {next next' : FileEventStore → FileEventStore × Except String Bool}
    (hnext : ∀ logged logged' : FileEventStore, logged.Agrees logged' →
      SameEffect (next logged) (next' logged')) :
    SameEffect
      (match left.appendEvent append line with
        | .error err => (left, .error err)
        | .ok logged => next logged)
      (match right.appendEvent append' line' with
        | .error err => (right, .error err)
        | .ok logged => next' logged) := by
  cases append with
  | error err =>
      cases append' with
      | error err' =>
          obtain rfl : err = err' := by simpa [Except.map] using hsame
          exact ⟨rfl, hagrees⟩
      | ok time' => simp [Except.map] at hsame
  | ok time =>
      cases append' with
      | error err' => simp [Except.map] at hsame
      | ok time' =>
          apply hnext
          exact ((agrees_logLine left time line).trans hagrees).trans
            (agrees_logLine right time' line').symm

theorem Agrees.storeBlock
    (hagrees : left.Agrees right) {append append' : Append}
    (hsame : append.map (fun _ => ()) = append'.map fun _ => ())
    (event : Event) :
    SameEffect (left.storeBlock append event)
      (right.storeBlock append' event) := by
  apply hagrees.appended hsame
  intro logged logged' hlogged
  exact ⟨rfl, hlogged.applyBlock rfl rfl⟩

theorem Agrees.upsertRollback
    (hagrees : left.Agrees right) {io io' : Io}
    (hsame : io.outcomes = io'.outcomes) (event : Event) :
    SameEffect (left.upsertRollback io event)
      (right.upsertRollback io' event) := by
  unfold FileEventStore.upsertRollback
  split_ifs with hfrom
  · exact ⟨rfl, hagrees⟩
  · apply hagrees.appended (congrArg Prod.fst hsame)
    intro logged logged' hlogged
    exact ⟨rfl, hlogged.rollback event.rollbackFrom⟩

theorem Agrees.upsertBlock
    (hagrees : left.Agrees right) {io io' : Io}
    (hsame : io.outcomes = io'.outcomes) (event : Event) :
    SameEffect (left.upsertBlock io event) (right.upsertBlock io' event) := by
  unfold FileEventStore.upsertBlock
  simp only [hagrees.seen, hagrees.requiresRollback]
  split_ifs with hseen
  · exact ⟨rfl, hagrees⟩
  · cases right.requiresRollback event.withDefaults with
    | none => exact hagrees.storeBlock (congrArg Prod.fst hsame) _
    | some rollbackFrom =>
        apply hagrees.appended (congrArg Prod.fst hsame)
        intro logged logged' hlogged
        exact (hlogged.rollback rollbackFrom).storeBlock
          (congrArg Prod.snd hsame) _

theorem Agrees.upsert
    (hagrees : left.Agrees right) {io io' : Io}
    (hsame : io.outcomes = io'.outcomes) (event : Event) :
    SameEffect (left.upsert io event) (right.upsert io' event) := by
  unfold FileEventStore.upsert
  simp only
  split_ifs with htype
  · exact hagrees.upsertRollback hsame event.withType
  · exact hagrees.upsertBlock hsame event.withType

theorem Agrees.answers
    (hagrees : left.Agrees right) {calls calls' : List (Io × Event)}
    (hsame : List.Forall₂ SameCall calls calls') :
    left.answers calls = right.answers calls' := by
  induction hsame generalizing left right with
  | nil => rfl
  | @cons call call' rest rest' hcall _ ih =>
      obtain ⟨houtcomes, hevent⟩ := hcall
      have heffect := hagrees.upsert houtcomes call.2
      unfold FileEventStore.answers
      rw [← hevent, heffect.1, ih heffect.2]

/-- A store opened on the log of a live store, which was itself opened on any
file, holds the same as the live one and answers later calls alike. -/
theorem restart_agrees
    (file : List Event) (calls later later' : List (Io × Event))
    (hsame : List.Forall₂ SameCall later later') :
    let live := (newFileEventStore file).afterCalls calls
    let restarted := newFileEventStore live.log
    live.Agrees restarted ∧ live.answers later = restarted.answers later' := by
  intro live restarted
  have hagrees : live.Agrees restarted :=
    (newFileEventStore_restartable file).afterCalls calls
  exact ⟨hagrees, hagrees.answers hsame⟩

end FileEventStore

/-- The rollback line of a fork is written and the block is not. -/
def halfWrittenIo : Io := ⟨1, .ok 1, .error "disk full"⟩

def forkBlock : Event :=
  { id := "h2-b", height := 2, blockHash := "h2-b", parentHash := "h1-b" }

theorem restart_agrees_halfWritten :
    let live := (FileEventStore.newFileEventStore []).afterCalls
      [(steadyIo, firstBlock.event), (steadyIo, secondBlock.event),
        (halfWrittenIo, forkBlock)]
    let restarted := FileEventStore.newFileEventStore live.log
    live.tipHeight = 1 ∧ live.reorgs = 1 ∧ live.Agrees restarted ∧
      live.answers [(⟨2, .ok 2, .ok 3⟩, forkBlock)] =
        restarted.answers [(⟨7, .ok 8, .ok 9⟩, forkBlock)] := by
  have hagrees :=
    FileEventStore.restart_agrees []
      [(steadyIo, firstBlock.event), (steadyIo, secondBlock.event),
        (halfWrittenIo, forkBlock)]
      [(⟨2, .ok 2, .ok 3⟩, forkBlock)] [(⟨7, .ok 8, .ok 9⟩, forkBlock)]
      (.cons ⟨rfl, rfl⟩ .nil)
  exact ⟨by decide, by decide, hagrees⟩

end SoulonWallet.Indexer
