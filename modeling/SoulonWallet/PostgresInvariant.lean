import SoulonWallet.EventStoreInvariant
import SoulonWallet.ExceptResults
import SoulonWallet.PostgresStore

/-!
# The state row and the retention window

The state row repeats what the table of blocks says, and it is recomputed at
several points of a transaction.  This file states what each statement does
to the tables, and proves that after every commit the row is exact and that
the blocks lie in a window below the tip that the cleanup never empties.
-/

namespace SoulonWallet.Indexer

open LabelledRun

namespace Database

variable {db next : Database}

/-! ## Statements -/

theorem countReorg_eq_ok
    (hcount : db.countReorg = .ok next) :
    next =
      { db with state := { db.state with reorgs := db.state.reorgs + 1 } } := by
  unfold countReorg at hcount
  split_ifs at hcount
  exact (Except.ok.inj hcount).symm

/-- The state row repeats the greatest height, its hash and the number of
rows. -/
structure StateExact (db : Database) : Prop where
  tip :
    (db.state.tipHeight = 0 ∧ db.state.tipHash = "" ∧
      ∀ height, db.blocks.lookup height = none) ∨
    ∃ row,
      db.blocks.lookup db.state.tipHeight = some row ∧
        db.state.tipHash = row.blockHash ∧
        ∀ height other, db.blocks.lookup height = some other →
          height ≤ db.state.tipHeight
  total : db.state.total = db.blocks.entries.length

theorem refreshStateTx_eq_ok
    (hrefresh : db.refreshStateTx = .ok next) :
    next = { db with state := next.state } ∧
      next.state.reorgs = db.state.reorgs ∧ next.StateExact := by
  unfold refreshStateTx at hrefresh
  simp only at hrefresh
  split_ifs at hrefresh
  have hnext := Except.ok.inj hrefresh
  subst hnext
  refine ⟨rfl, rfl, ?_, rfl⟩
  cases hlast : db.blocks.last? with
  | none =>
      left
      exact ⟨rfl, rfl, SqlTable.last?_eq_none_iff.mp hlast⟩
  | some entry =>
      right
      rcases SqlTable.last?_spec hlast with ⟨hlookup, hgreatest⟩
      exact ⟨entry.2, hlookup, rfl, hgreatest⟩

theorem insertBlock_eq_ok
    {persistedAt : ℤ} {event : Event}
    (hinsert : db.insertBlock persistedAt event = .ok next) :
    db.blocks.Fits blocksUnique event.height (event.blockRow persistedAt) ∧
      next = { db with
        blocks :=
          db.blocks.insert event.height (event.blockRow persistedAt) } := by
  rcases bind_eq_ok_iff.mp hinsert with ⟨blocks, hblocks, hnext⟩
  rcases SqlTable.insertOrUpdate_eq_ok_iff.mp hblocks with ⟨hfits, rfl⟩
  exact ⟨hfits, (Except.ok.inj hnext).symm⟩

theorem lookup_applyRollbackTx
    (db : Database) (rollbackFrom height : ℤ) :
    (db.applyRollbackTx rollbackFrom).blocks.lookup height =
      if rollbackFrom ≤ height then none else db.blocks.lookup height :=
  KeyedMap.lookup_eraseKeys _ _ _

/-- The cleanup does nothing, or it deletes all rows below `keepFrom` and
archives those whose height is free in the archive. -/
theorem cleanupOldBlocksTx_eq_ok
    {retentionBlocks : ℤ}
    (hcleanup : db.cleanupOldBlocksTx retentionBlocks = .ok next) :
    let keepFrom := db.state.tipHeight - retentionBlocks + 1
    (next = db ∧ (retentionBlocks ≤ 0 ∨ keepFrom ≤ 1)) ∨
    (0 < retentionBlocks ∧ 1 < keepFrom ∧ next.state = db.state ∧
      (∀ height, next.blocks.lookup height =
        if height < keepFrom then none else db.blocks.lookup height) ∧
      ∀ height, next.blocksArchive.lookup height =
        (db.blocksArchive.lookup height).or
          (if height < keepFrom then db.blocks.lookup height else none)) := by
  intro keepFrom
  unfold cleanupOldBlocksTx at hcleanup
  by_cases hretention : retentionBlocks ≤ 0
  · left
    rw [if_pos hretention] at hcleanup
    exact ⟨(Except.ok.inj hcleanup).symm, Or.inl hretention⟩
  · rw [if_neg hretention] at hcleanup
    simp only at hcleanup
    by_cases hkeep : keepFrom ≤ 1
    · left
      rw [if_pos hkeep] at hcleanup
      exact ⟨(Except.ok.inj hcleanup).symm, Or.inr hkeep⟩
    · right
      rw [if_neg hkeep] at hcleanup
      rcases bind_eq_ok_iff.mp hcleanup with ⟨blocksArchive, harchive, hrest⟩
      rcases bind_eq_ok_iff.mp hrest with ⟨eventsArchive, _, hnext⟩
      have hdone := Except.ok.inj hnext
      subst hdone
      refine ⟨by omega, by omega, rfl, ?_, ?_⟩
      · intro height
        exact KeyedMap.lookup_eraseKeys _ _ _
      · intro height
        have hlookup := SqlTable.lookup_insertAllMissing harchive height
        rw [SqlTable.dlookup_filter (· < keepFrom)] at hlookup
        exact hlookup

/-! ## The tip -/

theorem StateExact.le_tip
    (hexact : db.StateExact) {height : ℤ} {row : BlockRow}
    (hrow : db.blocks.lookup height = some row) :
    height ≤ db.state.tipHeight := by
  rcases hexact.tip with ⟨_, _, hnone⟩ | ⟨_, _, _, hgreatest⟩
  · rw [hnone] at hrow
    contradiction
  · exact hgreatest height row hrow

theorem StateExact.exists_tip
    (hexact : db.StateExact) {height : ℤ} {row : BlockRow}
    (hrow : db.blocks.lookup height = some row) :
    ∃ top, db.blocks.lookup db.state.tipHeight = some top := by
  rcases hexact.tip with ⟨_, _, hnone⟩ | ⟨top, htop, _⟩
  · rw [hnone] at hrow
    contradiction
  · exact ⟨top, htop⟩

/-- All heights in the table are positive. -/
def Positive (db : Database) : Prop :=
  ∀ height row, db.blocks.lookup height = some row → 1 ≤ height

end Database

/-! ## Transactions -/

namespace PostgresStore

variable {db next : Database}

theorem forceRollback_eq_ok
    {clock : PgClock} {event : Event}
    (hforce : forceRollback db clock event = .ok next) :
    (db.requiresRollbackTx event = none ∧ next = db) ∨
    ∃ rollbackFrom,
      db.requiresRollbackTx event = some rollbackFrom ∧
        (∀ height, next.blocks.lookup height =
          if rollbackFrom ≤ height then none else db.blocks.lookup height) ∧
        next.blocksArchive = db.blocksArchive ∧
        next.state = { db.state with reorgs := db.state.reorgs + 1 } := by
  unfold forceRollback at hforce
  cases hcheck : db.requiresRollbackTx event with
  | none =>
      left
      rw [hcheck] at hforce
      exact ⟨rfl, (Except.ok.inj hforce).symm⟩
  | some rollbackFrom =>
      right
      rw [hcheck] at hforce
      have hnext := Database.countReorg_eq_ok hforce
      subst hnext
      refine ⟨rollbackFrom, rfl, ?_, rfl, rfl⟩
      intro height
      exact Database.lookup_applyRollbackTx _ rollbackFrom height

theorem forceRollback_subset
    {clock : PgClock} {event : Event}
    (hforce : forceRollback db clock event = .ok next) {height : ℤ}
    {row : BlockRow} (hrow : next.blocks.lookup height = some row) :
    db.blocks.lookup height = some row := by
  rcases forceRollback_eq_ok hforce with ⟨_, rfl⟩ | ⟨_, _, hkept, _⟩
  · exact hrow
  · rw [hkept] at hrow
    split_ifs at hrow
    exact hrow

/-- A new block is written over what the forced rollback has left. -/
theorem storeBlock_eq_ok
    {clock : PgClock} {event : Event}
    (hstore : storeBlock db clock event = .ok next) :
    ∃ forced, forceRollback db clock event = .ok forced ∧
      forced.blocks.Fits blocksUnique event.height
        (event.blockRow clock.blockPersistedAt) ∧
      next.StateExact ∧ next.blocksArchive = db.blocksArchive ∧
      next.state.reorgs = forced.state.reorgs ∧
      ∀ height, next.blocks.lookup height =
        if height = event.height then
          some (event.blockRow clock.blockPersistedAt)
        else forced.blocks.lookup height := by
  rcases bind_eq_ok_iff.mp hstore with ⟨forced, hforced, hrest⟩
  rcases bind_eq_ok_iff.mp hrest with ⟨stored, hstored, hrefresh⟩
  rcases Database.insertBlock_eq_ok hstored with ⟨hfits, rfl⟩
  rcases Database.refreshStateTx_eq_ok hrefresh with
    ⟨hnext, hreorgs, hexact⟩
  refine ⟨forced, hforced, hfits, hexact, ?_, hreorgs, ?_⟩
  · rw [hnext]
    rcases forceRollback_eq_ok hforced with
      ⟨_, rfl⟩ | ⟨_, _, _, harchive, _⟩
    · rfl
    · exact harchive
  · intro height
    rw [hnext]
    exact KeyedMap.lookup_insert_eq _ _ _ _

theorem storeBlock_exact
    {clock : PgClock} {event : Event}
    (hpositive : db.Positive) (hheight : 1 ≤ event.height)
    (hstore : storeBlock db clock event = .ok next) :
    next.StateExact ∧ next.Positive := by
  rcases storeBlock_eq_ok hstore with
    ⟨forced, hforced, _, hexact, _, _, hlookup⟩
  refine ⟨hexact, ?_⟩
  intro height row hrow
  rw [hlookup] at hrow
  split_ifs at hrow with heq
  · omega
  · exact hpositive height row (forceRollback_subset hforced hrow)

theorem hasEvent_iff {id : String} :
    hasEvent db id = true ↔
      ∃ height row, db.blocks.lookup height = some row ∧
        row.eventId = id := by
  unfold hasEvent
  rw [List.any_eq_true]
  constructor
  · rintro ⟨entry, hentry, hid⟩
    exact ⟨entry.1, entry.2, KeyedMap.mem_entries_iff.mp hentry,
      of_decide_eq_true hid⟩
  · rintro ⟨height, row, hrow, hid⟩
    exact ⟨⟨height, row⟩, KeyedMap.mem_entries_iff.mpr hrow,
      decide_eq_true hid⟩

theorem hasEvent_forceRollback
    {clock : PgClock} {event : Event} {id : String}
    (hforce : forceRollback db clock event = .ok next)
    (hnew : hasEvent db id = false) : hasEvent next id = false := by
  rw [Bool.eq_false_iff] at hnew ⊢
  intro hseen
  rcases hasEvent_iff.mp hseen with ⟨height, row, hrow, hid⟩
  exact hnew (hasEvent_iff.mpr
    ⟨height, row, forceRollback_subset hforce hrow, hid⟩)

/-- A rollback event deletes the rows from its height on. -/
theorem upsertRollback_eq_ok
    {clock : PgClock} {event : Event} {created : Bool}
    (hupsert : upsertRollback db clock event = .ok (created, next)) :
    0 < event.rollbackFrom ∧ created = true ∧ next.StateExact ∧
      next.blocksArchive = db.blocksArchive ∧
      next.state.reorgs = db.state.reorgs + 1 ∧
      ∀ height, next.blocks.lookup height =
        if event.rollbackFrom ≤ height then none
        else db.blocks.lookup height := by
  unfold upsertRollback at hupsert
  split_ifs at hupsert with hfrom
  rcases bind_eq_ok_iff.mp hupsert with ⟨counted, hcounted, hrest⟩
  rcases bind_eq_ok_iff.mp hrest with ⟨fresh, hrefresh, hdone⟩
  have hcreated := Except.ok.inj hdone
  simp only [Prod.mk.injEq] at hcreated
  rcases hcreated with ⟨rfl, rfl⟩
  have hrolled := Database.countReorg_eq_ok hcounted
  subst hrolled
  rcases Database.refreshStateTx_eq_ok hrefresh with
    ⟨hnext, hreorgs, hexact⟩
  refine ⟨by omega, rfl, hexact, ?_, hreorgs, ?_⟩
  · rw [hnext]
    rfl
  · intro height
    rw [hnext]
    exact Database.lookup_applyRollbackTx _ event.rollbackFrom height

theorem upsertRollback_subset
    {clock : PgClock} {event : Event} {created : Bool}
    (hupsert : upsertRollback db clock event = .ok (created, next))
    {height : ℤ} {row : BlockRow}
    (hrow : next.blocks.lookup height = some row) :
    db.blocks.lookup height = some row := by
  rcases upsertRollback_eq_ok hupsert with ⟨_, _, _, _, _, hblocks⟩
  rw [hblocks] at hrow
  split_ifs at hrow
  exact hrow

/-- A block event does nothing, or its block is stored and the retention
runs. -/
theorem upsertBlock_eq_ok
    {retentionBlocks : ℤ} {clock : PgClock} {event : Event} {created : Bool}
    (hupsert :
      upsertBlock retentionBlocks db clock event = .ok (created, next)) :
    (hasEvent db event.withDefaults.id = true ∧ created = false ∧
      next = db) ∨
    (hasEvent db event.withDefaults.id = false ∧ created = true ∧
      ∃ stored, storeBlock db clock event.withDefaults = .ok stored ∧
        retain retentionBlocks stored = .ok next) := by
  unfold upsertBlock at hupsert
  simp only at hupsert
  split_ifs at hupsert with hseen
  · left
    have hsame := Except.ok.inj hupsert
    simp only [Prod.mk.injEq] at hsame
    exact ⟨hseen, hsame.1.symm, hsame.2.symm⟩
  · right
    rcases bind_eq_ok_iff.mp hupsert with ⟨stored, hstored, hrest⟩
    rcases bind_eq_ok_iff.mp hrest with ⟨kept, hkept, hdone⟩
    have hcreated := Except.ok.inj hdone
    simp only [Prod.mk.injEq] at hcreated
    rcases hcreated with ⟨rfl, rfl⟩
    exact ⟨by simpa using hseen, rfl, stored, hstored, hkept⟩

/-! ## The window -/

/-- The state row is exact, and the blocks lie at positive heights within
`retentionBlocks` of the tip. -/
structure Retained (retentionBlocks : ℤ) (db : Database) : Prop where
  exact : db.StateExact
  positive : db.Positive
  window : ∀ height row, db.blocks.lookup height = some row →
    db.state.tipHeight - retentionBlocks < height

variable {retentionBlocks : ℤ}

/-- The cleanup keeps the rows from the one at the tip down to the end of the
window. -/
theorem lookup_cleanup_tip
    (hexact : db.StateExact) (hretention : 0 < retentionBlocks)
    (hcleanup : db.cleanupOldBlocksTx retentionBlocks = .ok next) :
    next.state = db.state ∧
      next.blocks.lookup db.state.tipHeight =
        db.blocks.lookup db.state.tipHeight ∧
      (∀ height row, next.blocks.lookup height = some row →
        db.blocks.lookup height = some row) := by
  rcases Database.cleanupOldBlocksTx_eq_ok hcleanup with
    ⟨rfl, _⟩ | ⟨_, _, hstate, hblocks, _⟩
  · exact ⟨rfl, rfl, fun _ _ hrow => hrow⟩
  · refine ⟨hstate, ?_, ?_⟩
    · rw [hblocks, if_neg (by omega)]
    · intro height row hrow
      rw [hblocks] at hrow
      split_ifs at hrow
      exact hrow

theorem retain_retained
    (hexact : db.StateExact) (hpositive : db.Positive)
    (hretention : 0 < retentionBlocks)
    (hretain : retain retentionBlocks db = .ok next) :
    Retained retentionBlocks next := by
  rcases bind_eq_ok_iff.mp hretain with ⟨cleaned, hcleanup, hrefresh⟩
  rcases lookup_cleanup_tip hexact hretention hcleanup with
    ⟨_, htipRow, hsubset⟩
  rcases Database.refreshStateTx_eq_ok hrefresh with ⟨hnext, _, hnextExact⟩
  have hblocks : next.blocks = cleaned.blocks := by
    rw [hnext]
  have hkept : ∀ height row, next.blocks.lookup height = some row →
      db.blocks.lookup height = some row := by
    intro height row hrow
    rw [hblocks] at hrow
    exact hsubset height row hrow
  refine ⟨hnextExact, fun height row hrow =>
    hpositive height row (hkept height row hrow), ?_⟩
  intro height row hrow
  have htip : next.state.tipHeight = db.state.tipHeight := by
    rcases hnextExact.exists_tip hrow with ⟨top, htop⟩
    have hle := hexact.le_tip (hkept _ top htop)
    rcases hexact.exists_tip (hkept height row hrow) with ⟨old, hold⟩
    rw [← htipRow, ← hblocks] at hold
    have hge := hnextExact.le_tip hold
    omega
  rw [htip]
  rw [hblocks] at hrow
  rcases Database.cleanupOldBlocksTx_eq_ok hcleanup with
    ⟨rfl, hshort⟩ | ⟨_, _, _, hcleaned, _⟩
  · have := hpositive height row hrow
    omega
  · rw [hcleaned] at hrow
    split_ifs at hrow with hlow
    omega

theorem Retained.upsertRollback
    (hretained : Retained retentionBlocks db) {clock : PgClock}
    {event : Event} {created : Bool}
    (hupsert : upsertRollback db clock event = .ok (created, next)) :
    Retained retentionBlocks next := by
  rcases upsertRollback_eq_ok hupsert with ⟨_, _, hnextExact, _⟩
  refine ⟨hnextExact, fun height row hrow =>
    hretained.positive height row (upsertRollback_subset hupsert hrow), ?_⟩
  intro height row hrow
  rcases hnextExact.exists_tip hrow with ⟨top, htop⟩
  have hle := hretained.exact.le_tip (upsertRollback_subset hupsert htop)
  have hwindow :=
    hretained.window height row (upsertRollback_subset hupsert hrow)
  omega

theorem Retained.upsertBlock
    (hretained : Retained retentionBlocks db)
    (hretention : 0 < retentionBlocks) {clock : PgClock} {event : Event}
    {created : Bool} (hheight : 1 ≤ event.height)
    (hupsert :
      upsertBlock retentionBlocks db clock event = .ok (created, next)) :
    Retained retentionBlocks next := by
  rcases upsertBlock_eq_ok hupsert with
    ⟨_, _, rfl⟩ | ⟨_, _, stored, hstored, hkept⟩
  · exact hretained
  · have hpos : 1 ≤ event.withDefaults.height := by
      rw [FileEventStore.withDefaults_height]
      exact hheight
    rcases storeBlock_exact hretained.positive hpos hstored with
      ⟨hexact, hpositive⟩
    exact retain_retained hexact hpositive hretention hkept

end PostgresStore

/-! ## Runs -/

/-- A call of the store by the worker or by the maintenance loop. -/
inductive PgCall (Input : Type) where
  | upsert (clock : PgClock) (input : Input)
  | runMaintenance

def PgCall.map {Input Output : Type} (read : Input → Output) :
    PgCall Input → PgCall Output
  | .upsert clock input => .upsert clock (read input)
  | .runMaintenance => .runMaintenance

namespace PostgresStore

/-- The database that the call commits, if it does. -/
def step (retentionBlocks : ℤ) (db : Database) :
    PgCall Event → Option Database
  | .upsert clock event =>
      match upsert retentionBlocks db clock event with
      | .ok (_, next) => some next
      | .error _ => none
  | .runMaintenance =>
      match runMaintenance retentionBlocks db with
      | .ok next => some next
      | .error _ => none

/-- The database on which the call runs its cleanup, if it comes to that. -/
def beforeCleanup (db : Database) : PgCall Event → Option Database
  | .upsert clock event =>
      let event := event.withType.withProducedAt clock.now
      if event.type = "rollback" ∨ hasEvent db event.withDefaults.id then none
      else (storeBlock db clock event.withDefaults).toOption
  | .runMaintenance => db.refreshStateTx.toOption

variable {db next : Database} {retentionBlocks : ℤ}

theorem withProducedAt_eq (event : Event) (now : ℤ) :
    event.withProducedAt now =
      { event with
        producedAt :=
          if event.producedAt = 0 then now else event.producedAt } := by
  unfold Event.withProducedAt
  split_ifs <;> rfl

theorem withDefaults_withProducedAt (event : Event) (now : ℤ) :
    (event.withProducedAt now).withDefaults =
      event.withDefaults.withProducedAt now := by
  rw [withProducedAt_eq, withProducedAt_eq]
  unfold Event.withDefaults Event.withBlockHash Event.withId
  split_ifs <;> simp_all

theorem dated_type (event : Event) (now : ℤ) :
    (event.withType.withProducedAt now).type = "rollback" ↔
      event.type = "rollback" := by
  rw [withProducedAt_eq]
  exact FileEventStore.withType_eq_rollback_iff event

theorem dated_height (event : Event) (now : ℤ) :
    (event.withType.withProducedAt now).height = event.height := by
  rw [withProducedAt_eq]
  exact FileEventStore.withType_height event

theorem dated_id (event : Event) (now : ℤ) :
    (event.withType.withProducedAt now).withDefaults.id =
      event.withType.withDefaults.id := by
  rw [withDefaults_withProducedAt, withProducedAt_eq]

theorem upsert_of_rollback
    (retentionBlocks : ℤ) (db : Database) (clock : PgClock) {event : Event}
    (htype : event.type = "rollback") :
    upsert retentionBlocks db clock event =
      upsertRollback db clock (event.withType.withProducedAt clock.now) :=
  if_pos ((dated_type event clock.now).mpr htype)

theorem upsert_of_block
    (retentionBlocks : ℤ) (db : Database) (clock : PgClock) {event : Event}
    (htype : event.type ≠ "rollback") :
    upsert retentionBlocks db clock event =
      upsertBlock retentionBlocks db clock
        (event.withType.withProducedAt clock.now) :=
  if_neg ((dated_type event clock.now).not.mpr htype)

/-- What a committed call of `Upsert` was. -/
theorem step_upsert_cases
    {clock : PgClock} {event : Event}
    (hstep : step retentionBlocks db (.upsert clock event) = some next) :
    let dated := event.withType.withProducedAt clock.now
    (event.type = "rollback" ∧
      ∃ created, upsertRollback db clock dated = .ok (created, next)) ∨
    (event.type ≠ "rollback" ∧
      ∃ created,
        upsertBlock retentionBlocks db clock dated = .ok (created, next)) := by
  intro dated
  have hcommits : ∃ created,
      upsert retentionBlocks db clock event = .ok (created, next) := by
    unfold step at hstep
    simp only at hstep
    cases hupsert : upsert retentionBlocks db clock event with
    | error err =>
        rw [hupsert] at hstep
        contradiction
    | ok result =>
        rw [hupsert, Option.some.injEq] at hstep
        exact ⟨result.1, by rw [← hstep]⟩
  rcases hcommits with ⟨created, hcommit⟩
  by_cases htype : event.type = "rollback"
  · left
    rw [upsert_of_rollback _ _ _ htype] at hcommit
    exact ⟨htype, created, hcommit⟩
  · right
    rw [upsert_of_block _ _ _ htype] at hcommit
    exact ⟨htype, created, hcommit⟩

theorem step_runMaintenance
    (hstep : step retentionBlocks db .runMaintenance = some next) :
    ∃ fresh, db.refreshStateTx = .ok fresh ∧
      retain retentionBlocks fresh = .ok next := by
  unfold step at hstep
  simp only at hstep
  cases hrun : runMaintenance retentionBlocks db with
  | error err =>
      rw [hrun] at hstep
      contradiction
  | ok result =>
      rw [hrun, Option.some.injEq] at hstep
      subst hstep
      exact bind_eq_ok_iff.mp hrun

theorem positive_of_refresh
    (hpositive : db.Positive) (hrefresh : db.refreshStateTx = .ok next) :
    next.Positive := by
  intro height row hrow
  rw [(Database.refreshStateTx_eq_ok hrefresh).1] at hrow
  exact hpositive height row hrow

/-- The step of a call whose blocks have positive heights. -/
def deliveryStep (retentionBlocks : ℤ) (db : Database)
    (call : PgCall Delivery) : Option Database :=
  step retentionBlocks db (call.map Delivery.event)

theorem Retained.step
    (hretained : Retained retentionBlocks db)
    (hretention : 0 < retentionBlocks) {call : PgCall Delivery}
    (hstep : deliveryStep retentionBlocks db call = some next) :
    Retained retentionBlocks next := by
  cases call with
  | upsert clock delivery =>
      rcases step_upsert_cases hstep with
        ⟨_, created, hupsert⟩ | ⟨hblock, created, hupsert⟩
      · exact hretained.upsertRollback hupsert
      · have hheight :
            1 ≤ (delivery.event.withType.withProducedAt clock.now).height := by
          rw [dated_height]
          exact delivery.height_pos.resolve_left hblock
        exact hretained.upsertBlock hretention hheight hupsert
  | runMaintenance =>
      rcases step_runMaintenance hstep with ⟨fresh, hrefresh, hretain⟩
      have hexact := (Database.refreshStateTx_eq_ok hrefresh).2.2
      exact retain_retained hexact
        (positive_of_refresh hretained.positive hrefresh) hretention hretain

theorem initSchema_retained (retentionBlocks : ℤ) :
    Retained retentionBlocks Database.initSchema where
  exact := ⟨Or.inl ⟨rfl, rfl, fun _ => rfl⟩, rfl⟩
  positive := by
    intro height row hrow
    simp [Database.initSchema] at hrow
  window := by
    intro height row hrow
    simp [Database.initSchema] at hrow

/-- Where a cleanup comes from. -/
theorem beforeCleanup_cases
    {call : PgCall Event} {middle : Database}
    (hmiddle : beforeCleanup db call = some middle) :
    (∃ clock event, call = .upsert clock event ∧ event.type ≠ "rollback" ∧
      hasEvent db
          (event.withType.withProducedAt clock.now).withDefaults.id = false ∧
      storeBlock db clock
          (event.withType.withProducedAt clock.now).withDefaults =
        .ok middle) ∨
    (call = .runMaintenance ∧ db.refreshStateTx = .ok middle) := by
  have hok : ∀ result : Except String Database,
      result.toOption = some middle → result = .ok middle := by
    intro result hresult
    cases result with
    | error err => simp [Except.toOption] at hresult
    | ok value =>
        simp only [Except.toOption, Option.some.injEq] at hresult
        rw [hresult]
  cases call with
  | upsert clock event =>
      left
      unfold beforeCleanup at hmiddle
      simp only at hmiddle
      split_ifs at hmiddle with hskip
      push Not at hskip
      refine ⟨clock, event, rfl, ?_, by simpa using hskip.2, hok _ hmiddle⟩
      intro hrollback
      exact hskip.1 ((dated_type event clock.now).mpr hrollback)
  | runMaintenance =>
      right
      exact ⟨rfl, hok _ hmiddle⟩

/-- A committed call only deletes rows, or it ends with a cleanup. -/
theorem step_cleanup_cases
    {call : PgCall Event}
    (hstep : step retentionBlocks db call = some next) :
    ((∀ height row, next.blocks.lookup height = some row →
        db.blocks.lookup height = some row) ∧
      next.blocksArchive = db.blocksArchive) ∨
    ∃ middle, beforeCleanup db call = some middle ∧
      retain retentionBlocks middle = .ok next := by
  cases call with
  | upsert clock event =>
      rcases step_upsert_cases hstep with
        ⟨_, created, hupsert⟩ | ⟨hblock, created, hupsert⟩
      · left
        rcases upsertRollback_eq_ok hupsert with ⟨_, _, _, harchive, _⟩
        exact ⟨fun _ _ hrow => upsertRollback_subset hupsert hrow, harchive⟩
      · rcases upsertBlock_eq_ok hupsert with
          ⟨_, _, rfl⟩ | ⟨hnew, _, stored, hstored, hretain⟩
        · left
          exact ⟨fun _ _ hrow => hrow, rfl⟩
        · right
          refine ⟨stored, ?_, hretain⟩
          have hnotRollback := (dated_type event clock.now).not.mpr hblock
          simp [beforeCleanup, hnotRollback, hnew, hstored, Except.toOption]
  | runMaintenance =>
      right
      rcases step_runMaintenance hstep with ⟨fresh, hrefresh, hretain⟩
      refine ⟨fresh, ?_, hretain⟩
      simp [beforeCleanup, hrefresh, Except.toOption]

theorem beforeCleanup_exact
    {call : PgCall Event} {middle : Database}
    (hmiddle : beforeCleanup db call = some middle) : middle.StateExact := by
  rcases beforeCleanup_cases hmiddle with
    ⟨clock, event, _, _, _, hstore⟩ | ⟨_, hrefresh⟩
  · rcases storeBlock_eq_ok hstore with ⟨_, _, _, hexact, _⟩
    exact hexact
  · exact (Database.refreshStateTx_eq_ok hrefresh).2.2

/-- After every commit the state row is exact and the blocks lie in the
window below the tip, and no cleanup deletes the row of the tip. -/
theorem run_retained
    (hretention : 0 < retentionBlocks) (calls : List (PgCall Delivery))
    (hrun : exec (deliveryStep retentionBlocks) Database.initSchema calls =
      some db) :
    db.StateExact ∧
      (∀ height row, db.blocks.lookup height = some row →
        db.state.tipHeight - retentionBlocks < height ∧
          height ≤ db.state.tipHeight) ∧
      ∀ (call : PgCall Delivery) middle cleaned top,
        beforeCleanup db (call.map Delivery.event) = some middle →
        middle.cleanupOldBlocksTx retentionBlocks = .ok cleaned →
        middle.blocks.last? = some top →
        cleaned.blocks.lookup top.1 = some top.2 := by
  have hretained : Retained retentionBlocks db := by
    apply invariant_of_step (Retained retentionBlocks) _
      (initSchema_retained retentionBlocks) hrun
    intro reached call committed hreached hstep
    exact hreached.step hretention hstep
  refine ⟨hretained.exact, ?_, ?_⟩
  · intro height row hrow
    exact ⟨hretained.window height row hrow, hretained.exact.le_tip hrow⟩
  · intro call middle cleaned top hmiddle hcleanup hlast
    have hexact := beforeCleanup_exact hmiddle
    rcases SqlTable.last?_spec hlast with ⟨htop, hgreatest⟩
    rcases hexact.exists_tip htop with ⟨row, hrow⟩
    have htip : top.1 = middle.state.tipHeight :=
      le_antisymm (hexact.le_tip htop) (hgreatest _ row hrow)
    rw [htip, (lookup_cleanup_tip hexact hretention hcleanup).2.1, ← htip]
    exact htop

end PostgresStore

theorem run_retained_secondBlock :
    ∃ db,
      exec (PostgresStore.deliveryStep 1) Database.initSchema
          [.upsert {} firstBlock, .upsert {} secondBlock,
            .runMaintenance] = some db ∧
        db.state.tipHeight = 2 ∧ db.state.total = 1 ∧ db.StateExact := by
  have hrun :=
    PostgresStore.run_retained (by decide : (0 : ℤ) < 1)
      [.upsert {} firstBlock, .upsert {} secondBlock,
        .runMaintenance] rfl
  exact ⟨_, rfl, by decide, by decide, hrun.1⟩

end SoulonWallet.Indexer
