import SoulonWallet.MigrationRun
import SoulonWallet.PostgresStore

/-!
# The migrations of the indexer's database

`ensureInitialized` of a store pings the database and runs `initSchema` once:
it creates the table of versions and then goes through ten migrations, which
create the tables and indexes of the store and its row of state.  Stores that
are started at the same time do this side by side.  A store whose
initialization has failed keeps the error until its process is restarted, and
one whose initialization has succeeded updates the row of state.

Relations are kept with their columns, which an index and the insert of the
row refer to.
-/

namespace SoulonWallet.Indexer.Schema

open LabelledRun MigrationRun

structure Column where
  name : String
  declaration : String
  deriving DecidableEq

inductive Relation where
  | table (columns : List Column)
  | index (table : String) (columns : List String)
  deriving DecidableEq

/-- The relations of the database, and the row of `indexer_state`. -/
structure Contents where
  relations : KeyedMap String Relation
  state : Option StoreState

/-- The statements of the migrations, each with its clause for what is there
already. -/
inductive Statement where
  | createTable (name : String) (columns : List Column)
  | createIndex (name table : String) (columns : List String)
  | insertState (columns : List String) (row : StoreState)

def Contents.create (contents : Contents) (name : String)
    (relation : Relation) : Contents :=
  match contents.relations.lookup name with
  | some _ => contents
  | none =>
      { contents with relations := contents.relations.insert name relation }

/-- The table that a statement names has to be there with its columns. -/
def Contents.require (contents : Contents) (table : String)
    (columns : List String) : Except String Unit :=
  match contents.relations.lookup table with
  | none => .error ("relation \"" ++ table ++ "\" does not exist")
  | some (.index _ _) => .error ("\"" ++ table ++ "\" is not a table")
  | some (.table present) =>
      match columns.find? fun column => column ∉ present.map Column.name with
      | some column => .error ("column \"" ++ column ++ "\" does not exist")
      | none => .ok ()

def Statement.run (contents : Contents) : Statement → Except String Contents
  | .createTable name columns => .ok (contents.create name (.table columns))
  | .createIndex name table columns =>
      match contents.relations.lookup name with
      | some _ => .ok contents
      | none =>
          match contents.require table columns with
          | .error reason => .error reason
          | .ok _ => .ok (contents.create name (.index table columns))
  | .insertState columns row =>
      match contents.require "indexer_state" columns with
      | .error reason => .error reason
      | .ok _ => .ok { contents with state := some (contents.state.getD row) }

/-- The columns that the event tables share. -/
def eventColumns : List Column :=
  [⟨"height", "BIGINT NOT NULL"⟩, ⟨"type", "TEXT NOT NULL"⟩,
    ⟨"block_hash", "TEXT"⟩, ⟨"parent_hash", "TEXT"⟩,
    ⟨"rollback_from", "BIGINT"⟩, ⟨"payload", "TEXT NOT NULL"⟩,
    ⟨"produced_at", "TIMESTAMPTZ NOT NULL"⟩,
    ⟨"persisted_at", "TIMESTAMPTZ NOT NULL"⟩]

def blockColumns : List Column :=
  [⟨"height", "BIGINT PRIMARY KEY"⟩, ⟨"event_id", "TEXT UNIQUE NOT NULL"⟩,
    ⟨"block_hash", "TEXT UNIQUE NOT NULL"⟩, ⟨"parent_hash", "TEXT"⟩,
    ⟨"payload", "TEXT NOT NULL"⟩, ⟨"produced_at", "TIMESTAMPTZ NOT NULL"⟩,
    ⟨"persisted_at", "TIMESTAMPTZ NOT NULL"⟩]

def stateColumns : List Column :=
  [⟨"id", "INT PRIMARY KEY"⟩, ⟨"tip_height", "BIGINT NOT NULL DEFAULT 0"⟩,
    ⟨"tip_hash", "TEXT NOT NULL DEFAULT ''"⟩,
    ⟨"total", "INT NOT NULL DEFAULT 0"⟩, ⟨"reorgs", "INT NOT NULL DEFAULT 0"⟩]

def archivedAt : Column := ⟨"archived_at", "TIMESTAMPTZ NOT NULL"⟩

/-- The list of `initSchema`. -/
def migrations : List (ℤ × Statement) :=
  [(1, .createTable "indexer_events"
      (⟨"id", "TEXT PRIMARY KEY"⟩ :: eventColumns)),
    (2, .createTable "indexer_events_log"
      (⟨"seq", "BIGSERIAL PRIMARY KEY"⟩ :: ⟨"event_id", "TEXT NOT NULL"⟩ ::
        eventColumns)),
    (3, .createTable "indexer_blocks" blockColumns),
    (4, .createTable "indexer_state" stateColumns),
    (5, .insertState ["id", "tip_height", "tip_hash", "total", "reorgs"]
      ⟨0, "", 0, 0⟩),
    (6, .createIndex "idx_indexer_events_height" "indexer_events" ["height"]),
    (7, .createIndex "idx_indexer_events_log_height_seq" "indexer_events_log"
      ["height", "seq"]),
    (8, .createIndex "idx_indexer_blocks_parent_hash" "indexer_blocks"
      ["parent_hash"]),
    (9, .createTable "indexer_events_archive"
      (⟨"id", "TEXT PRIMARY KEY"⟩ :: eventColumns ++ [archivedAt])),
    (10, .createTable "indexer_blocks_archive"
      (blockColumns ++ [archivedAt]))]

/-- `UPDATE indexer_state SET ... WHERE id = 1`. -/
def updateState (row : StoreState) (contents : Contents) : Contents :=
  { contents with state := contents.state.map fun _ => row }

/-! ## What a statement achieves -/

def Statement.creates : Statement → Option (String × Relation)
  | .createTable name columns => some (name, .table columns)
  | .createIndex name table columns => some (name, .index table columns)
  | .insertState _ _ => none

def Statement.needs : Statement → Option (String × List String)
  | .createTable _ _ => none
  | .createIndex _ table columns => some (table, columns)
  | .insertState columns _ => some ("indexer_state", columns)

/-- No other relation has the name that the statement is about to use. -/
def Statement.Free (statement : Statement) (contents : Contents) : Prop :=
  ∀ name relation, statement.creates = some (name, relation) →
    contents.relations.lookup name = none ∨
      contents.relations.lookup name = some relation

/-- The table that a statement refers to is there. -/
def Statement.Supplied (statement : Statement) (contents : Contents) : Prop :=
  ∀ table columns, statement.needs = some (table, columns) →
    contents.require table columns = .ok ()

/-- The relation or the row of the statement is there. -/
structure Statement.Done (statement : Statement) (contents : Contents) :
    Prop where
  created : ∀ name relation, statement.creates = some (name, relation) →
    contents.relations.lookup name = some relation
  supplied : statement.Supplied contents
  hasRow : statement.creates = none → contents.state.isSome

/-- Relations and the row stay when there are more of them. -/
structure Contents.Extends (contents next : Contents) : Prop where
  relations : ∀ name relation, contents.relations.lookup name = some relation →
    next.relations.lookup name = some relation
  state : contents.state.isSome → next.state.isSome

variable {contents next : Contents} {statement : Statement}

theorem Contents.Extends.refl (contents : Contents) :
    contents.Extends contents :=
  ⟨fun _ _ hlookup => hlookup, fun hstate => hstate⟩

theorem Contents.Extends.require
    (hextends : contents.Extends next) {table : String}
    {columns : List String} (hrequire : contents.require table columns = .ok ()) :
    next.require table columns = .ok () := by
  unfold Contents.require at hrequire ⊢
  cases hlookup : contents.relations.lookup table with
  | none => simp [hlookup] at hrequire
  | some relation =>
      rw [hextends.relations table relation hlookup]
      rw [hlookup] at hrequire
      exact hrequire

theorem Statement.Done.extends
    (hdone : statement.Done contents) (hextends : contents.Extends next) :
    statement.Done next where
  created := fun name relation hcreates =>
    hextends.relations name relation (hdone.created name relation hcreates)
  supplied := fun table columns hneeds =>
    hextends.require (hdone.supplied table columns hneeds)
  hasRow := fun hcreates => hextends.state (hdone.hasRow hcreates)

theorem Contents.create_extends
    (contents : Contents) (name : String) (relation : Relation) :
    contents.Extends (contents.create name relation) := by
  unfold Contents.create
  cases hlookup : contents.relations.lookup name with
  | some _ => exact Contents.Extends.refl contents
  | none =>
      refine ⟨?_, fun hstate => hstate⟩
      intro other found hfound
      have hne : other ≠ name := by
        rintro rfl
        rw [hlookup] at hfound
        cases hfound
      simpa [KeyedMap.lookup_insert_eq, hne] using hfound

theorem Contents.lookup_create_of_ne
    (contents : Contents) {name other : String} (relation : Relation)
    (hne : other ≠ name) :
    (contents.create name relation).relations.lookup other =
      contents.relations.lookup other := by
  unfold Contents.create
  cases contents.relations.lookup name with
  | some _ => rfl
  | none => simp [hne]

theorem Contents.lookup_create_self
    {name : String} {relation : Relation}
    (hfree : contents.relations.lookup name = none ∨
      contents.relations.lookup name = some relation) :
    (contents.create name relation).relations.lookup name =
      some relation := by
  unfold Contents.create
  rcases hfree with hnone | hsame
  · simp [hnone]
  · simp [hsame]

/-- What a statement does when its name is free and its table there. -/
theorem Statement.run_of_supplied
    (hfree : statement.Free contents)
    (hsupplied : statement.Supplied contents) :
    ∃ next, statement.run contents = .ok next ∧ contents.Extends next ∧
      statement.Done next ∧
      ∀ name, (∀ relation, statement.creates ≠ some (name, relation)) →
        next.relations.lookup name = contents.relations.lookup name := by
  cases statement with
  | createTable name columns =>
      have hextends := contents.create_extends name (.table columns)
      refine ⟨_, rfl, hextends, ⟨?_, ?_, ?_⟩, ?_⟩
      · rintro _ _ ⟨⟩
        exact Contents.lookup_create_self (hfree name _ rfl)
      · rintro _ _ ⟨⟩
      · rintro ⟨⟩
      · intro other hother
        apply Contents.lookup_create_of_ne
        rintro rfl
        exact hother _ rfl
  | createIndex name table columns =>
      have hextends := contents.create_extends name (.index table columns)
      have hrequire := hsupplied table columns rfl
      have hrun : (Statement.createIndex name table columns).run contents =
          .ok (contents.create name (.index table columns)) := by
        cases hlookup : contents.relations.lookup name with
        | some _ => simp [Statement.run, Contents.create, hlookup]
        | none => simp [Statement.run, hlookup, hrequire]
      refine ⟨_, hrun, hextends, ⟨?_, ?_, ?_⟩, ?_⟩
      · rintro _ _ ⟨⟩
        exact Contents.lookup_create_self (hfree name _ rfl)
      · rintro _ _ ⟨⟩
        exact hextends.require hrequire
      · rintro ⟨⟩
      · intro other hother
        apply Contents.lookup_create_of_ne
        rintro rfl
        exact hother _ rfl
  | insertState columns row =>
      have hrequire := hsupplied "indexer_state" columns rfl
      have hextends : contents.Extends
          { contents with state := some (contents.state.getD row) } :=
        ⟨fun _ _ hlookup => hlookup, fun _ => rfl⟩
      refine ⟨_, by simp [Statement.run, hrequire], hextends, ⟨?_, ?_, ?_⟩,
        fun _ _ => rfl⟩
      · rintro _ _ ⟨⟩
      · rintro _ _ ⟨⟩
        exact hextends.require hrequire
      · intro _
        rfl

theorem Statement.run_of_done
    (hdone : statement.Done contents) :
    statement.run contents = .ok contents := by
  cases statement with
  | createTable name columns =>
      simp [Statement.run, Contents.create, hdone.created name _ rfl]
  | createIndex name table columns =>
      simp [Statement.run, hdone.created name _ rfl]
  | insertState columns row =>
      have hrequire := hdone.supplied "indexer_state" columns rfl
      have hrow := hdone.hasRow rfl
      have hsame : some (contents.state.getD row) = contents.state := by
        obtain ⟨present, hpresent⟩ := Option.isSome_iff_exists.mp hrow
        rw [hpresent, Option.getD_some]
      simp only [Statement.run, hrequire, hsame]

/-! ## The order of the migrations -/

/-- The statement creates a table with the columns. -/
def Statement.Provides (statement : Statement) (table : String)
    (columns : List String) : Prop :=
  ∃ present, statement.creates = some (table, .table present) ∧
    ∀ column ∈ columns, column ∈ present.map Column.name

/-- Each statement finds its table among those created before it. -/
def Supplies : List Statement → List Statement → Prop
  | _, [] => True
  | past, statement :: rest =>
      (∀ table columns, statement.needs = some (table, columns) →
        ∃ earlier ∈ past, earlier.Provides table columns) ∧
      Supplies (past ++ [statement]) rest

theorem Supplies.split
    {past front back : List Statement} {statement : Statement}
    (hsupplies : Supplies past (front ++ statement :: back))
    {table : String} {columns : List String}
    (hneeds : statement.needs = some (table, columns)) :
    ∃ earlier ∈ past ++ front, earlier.Provides table columns := by
  induction front generalizing past with
  | nil =>
      rw [List.append_nil]
      exact hsupplies.1 table columns hneeds
  | cons first front ih =>
      obtain ⟨earlier, hearlier, hprovides⟩ := ih hsupplies.2
      exact ⟨earlier, by simpa using hearlier, hprovides⟩

theorem Statement.Provides.require
    {table : String} {columns : List String}
    (hprovides : statement.Provides table columns)
    (hdone : statement.Done contents) :
    contents.require table columns = .ok () := by
  obtain ⟨present, hcreates, hpresent⟩ := hprovides
  have hlookup := hdone.created table _ hcreates
  have hfind : (columns.find? fun column =>
      column ∉ present.map Column.name) = none := by
    simpa using hpresent
  simp only [Contents.require, hlookup, hfind]

theorem provides_createTable
    {table : String} {present : List Column} {columns : List String}
    (hpresent : ∀ column ∈ columns, column ∈ present.map Column.name) :
    (Statement.createTable table present).Provides table columns :=
  ⟨present, rfl, hpresent⟩

theorem migrations_supplies :
    Supplies [] (migrations.map Prod.snd) := by
  refine ⟨nofun, nofun, nofun, nofun, ?_, ?_, ?_, ?_, nofun, nofun, trivial⟩
  · rintro _ _ ⟨⟩
    exact ⟨_, List.mem_of_getElem? (i := 3) rfl,
      provides_createTable (by decide)⟩
  · rintro _ _ ⟨⟩
    exact ⟨_, List.mem_of_getElem? (i := 0) rfl,
      provides_createTable (by decide)⟩
  · rintro _ _ ⟨⟩
    exact ⟨_, List.mem_of_getElem? (i := 1) rfl,
      provides_createTable (by decide)⟩
  · rintro _ _ ⟨⟩
    exact ⟨_, List.mem_of_getElem? (i := 2) rfl,
      provides_createTable (by decide)⟩

theorem migrations_names_distinct :
    ((migrations.filterMap fun entry => entry.2.creates).map
      Prod.fst).Nodup := by
  decide

theorem creates_eq_of_name
    {first second : ℤ × Statement} (hfirst : first ∈ migrations)
    (hsecond : second ∈ migrations) {name : String}
    {relation other : Relation}
    (hcreates : first.2.creates = some (name, relation))
    (hother : second.2.creates = some (name, other)) :
    relation = other := by
  have hpair := List.inj_on_of_nodup_map migrations_names_distinct
    (List.mem_filterMap.mpr ⟨first, hfirst, hcreates⟩)
    (List.mem_filterMap.mpr ⟨second, hsecond, hother⟩) rfl
  exact congrArg Prod.snd hpair

/-! ## The plan -/

def migrationOf (entry : ℤ × Statement) : Migration Contents where
  version := entry.1
  apply := entry.2.run

/-- No name of a migration is taken by something else. -/
def Contents.Fits (contents : Contents) : Prop :=
  ∀ entry ∈ migrations, entry.2.Free contents

def Done (migration : Migration Contents) (contents : Contents) : Prop :=
  ∀ entry ∈ migrations, entry.1 = migration.version → entry.2.Done contents

theorem versions_distinct :
    (migrations.map Prod.fst).Nodup := by
  decide

theorem done_migrationOf_iff
    {entry : ℤ × Statement} (hentry : entry ∈ migrations) :
    Done (migrationOf entry) contents ↔ entry.2.Done contents := by
  constructor
  · intro hdone
    exact hdone entry hentry rfl
  · intro hdone other hother hversion
    rw [List.inj_on_of_nodup_map versions_distinct hother hentry hversion]
    exact hdone

theorem Done.extends
    {migration : Migration Contents} (hdone : Done migration contents)
    (hextends : contents.Extends next) :
    Done migration next :=
  fun entry hentry hversion => (hdone entry hentry hversion).extends hextends

theorem exists_migrationOf
    {migration : Migration Contents}
    (hmem : migration ∈ migrations.map migrationOf) :
    ∃ entry ∈ migrations, migrationOf entry = migration :=
  List.mem_map.mp hmem

/-- The statement of a migration finds what it needs when the migrations
before it have been applied. -/
theorem supplied_of_past
    {past rest : List (ℤ × Statement)} {entry : ℤ × Statement}
    (hsplit : migrations = past ++ entry :: rest)
    (hpast : ∀ earlier ∈ past, earlier.2.Done contents) :
    entry.2.Supplied contents := by
  intro table columns hneeds
  have hsupplies := migrations_supplies
  rw [hsplit, List.map_append, List.map_cons] at hsupplies
  obtain ⟨_, hearlier, hprovides⟩ := hsupplies.split hneeds
  rw [List.nil_append] at hearlier
  obtain ⟨earlier, hmem, rfl⟩ := List.mem_map.mp hearlier
  exact hprovides.require (hpast earlier hmem)

theorem applies_migrationOf
    {past rest : List (ℤ × Statement)} {entry : ℤ × Statement}
    (hsplit : migrations = past ++ entry :: rest) (hfits : contents.Fits)
    (hpast : ∀ earlier ∈ past, earlier.2.Done contents) :
    ∃ next, entry.2.run contents = .ok next ∧ next.Fits ∧
      contents.Extends next ∧ entry.2.Done next := by
  have hentry : entry ∈ migrations := by
    rw [hsplit]
    simp
  obtain ⟨next, hrun, hextends, hdone, hframe⟩ :=
    Statement.run_of_supplied (hfits entry hentry)
      (supplied_of_past hsplit hpast)
  refine ⟨next, hrun, ?_, hextends, hdone⟩
  intro other hother name relation hcreates
  by_cases hname : ∃ created, entry.2.creates = some (name, created)
  · obtain ⟨created, hcreated⟩ := hname
    rw [creates_eq_of_name hother hentry hcreates hcreated]
    exact Or.inr (hdone.created name created hcreated)
  · rw [hframe name (fun created hcreated => hname ⟨created, hcreated⟩)]
    exact hfits other hother name relation hcreates

theorem updateState_extends
    (row : StoreState) (contents : Contents) :
    contents.Extends (updateState row contents) where
  relations := fun _ _ hlookup => hlookup
  state := fun hstate => by simpa [updateState] using hstate

/-- `initSchema`, with what its migrations achieve. -/
def initSchema : Plan Contents StoreState where
  migrations := migrations.map migrationOf
  run := updateState
  Fits := Contents.Fits
  Done := Done
  distinct := by
    rw [List.map_map]
    exact versions_distinct
  applies := by
    intro past migration rest contents hsplit hfits hpast
    obtain ⟨front, back, hmigrations, rfl, htail⟩ :=
      List.map_eq_append_iff.mp hsplit
    obtain ⟨entry, later, rfl, rfl, rfl⟩ := List.map_eq_cons_iff.mp htail
    have hentry : entry ∈ migrations := by
      rw [hmigrations]
      simp
    have hearlier : ∀ earlier ∈ front, earlier.2.Done contents := by
      intro earlier hmem
      have hin : earlier ∈ migrations := by
        rw [hmigrations]
        simp [hmem]
      exact (done_migrationOf_iff hin).mp
        (hpast _ (List.mem_map_of_mem hmem))
    obtain ⟨next, hrun, hnext, hextends, hdone⟩ :=
      applies_migrationOf hmigrations hfits hearlier
    exact ⟨next, hrun, hnext, (done_migrationOf_iff hentry).mpr hdone,
      fun _ _ hother => hother.extends hextends⟩
  works := by
    intro row contents hfits
    exact ⟨hfits, fun _ _ hdone =>
      hdone.extends (updateState_extends row contents)⟩
  settled := by
    intro migration hmem contents hdone
    obtain ⟨entry, hentry, rfl⟩ := exists_migrationOf hmem
    exact Statement.run_of_done ((done_migrationOf_iff hentry).mp hdone)

/-! ## The row of state -/

def firstRow : StoreState := ⟨0, "", 0, 0⟩

/-- The row as the stores that were done last wrote it. -/
def rowAfter (row : StoreState) : List (MigrationRun.Action StoreState) → StoreState
  | [] => row
  | .work _ written :: rest => rowAfter written rest
  | .start _ :: rest | .restart _ :: rest | .statement _ _ :: rest =>
      rowAfter row rest

/-- The row of the database, which a migration creates. -/
def HoldsRow (row : StoreState) (contents : Contents) : Prop :=
  contents.state = some row ∨ contents.state = none ∧ row = firstRow

theorem inserted_eq_firstRow
    {entry : ℤ × Statement} (hentry : entry ∈ migrations)
    {columns : List String} {inserted : StoreState}
    (hstatement : entry.2 = .insertState columns inserted) :
    inserted = firstRow := by
  have hchecked : ∀ entry ∈ migrations,
      match entry.2 with
      | .insertState _ inserted => inserted = firstRow
      | _ => True := by
    simp [migrations, firstRow]
  have hhere := hchecked entry hentry
  rw [hstatement] at hhere
  exact hhere

theorem HoldsRow.run
    {row : StoreState} {entry : ℤ × Statement}
    (hentry : entry ∈ migrations) (hrow : HoldsRow row contents)
    (hrun : entry.2.run contents = .ok next) :
    HoldsRow row next := by
  have hcreate : ∀ name relation,
      HoldsRow row (contents.create name relation) := by
    intro name relation
    unfold Contents.create
    split
    · exact hrow
    · exact hrow
  cases hstatement : entry.2 with
  | createTable name columns =>
      rw [hstatement] at hrun
      cases hrun
      exact hcreate name _
  | createIndex name table columns =>
      simp only [hstatement, Statement.run] at hrun
      split at hrun
      · cases hrun
        exact hrow
      · split at hrun
        · cases hrun
        · cases hrun
          exact hcreate name _
  | insertState columns inserted =>
      simp only [hstatement, Statement.run] at hrun
      split at hrun
      · cases hrun
      · cases hrun
        left
        rcases hrow with hsome | ⟨hnone, hfirst⟩
        · simp [hsome]
        · simp [hnone, hfirst, inserted_eq_firstRow hentry hstatement]

abbrev Databases := System Contents

def step (databases : Databases) (action : MigrationRun.Action StoreState) :
    Option Databases :=
  System.step initSchema.migrations initSchema.run databases action

theorem done_of_all_recorded
    {ledger : Ledger Contents} (hinOrder : initSchema.InOrder ledger)
    (hall : initSchema.Before ledger []) :
    ledger.recorded = some (migrations.map Prod.fst) ∧
      ∀ entry ∈ migrations, entry.2.Done ledger.contents := by
  obtain ⟨hrecorded, hdone⟩ := hinOrder.all_recorded hall
  refine ⟨?_, ?_⟩
  · rw [hrecorded]
    exact congrArg some (List.map_map ..)
  · intro entry hentry
    exact (done_migrationOf_iff hentry).mp
      (hdone _ (List.mem_map_of_mem hentry))

theorem exists_row_of_done
    (hdone : ∀ entry ∈ migrations, entry.2.Done contents) :
    ∃ row, contents.state = some row := by
  have hinsert := hdone
    (5, .insertState ["id", "tip_height", "tip_hash", "total", "reorgs"]
      firstRow) (List.mem_of_getElem? (show migrations[4]? = some _ from rfl))
  exact Option.isSome_iff_exists.mp (hinsert.hasRow rfl)

theorem rowAfter_of_exec
    {actions : List (MigrationRun.Action StoreState)} {start finish : Databases}
    {row : StoreState} (hsound : initSchema.Sound start)
    (hrow : HoldsRow row start.ledger.contents)
    (hexec : exec step start actions = some finish) :
    HoldsRow (rowAfter row actions) finish.ledger.contents := by
  induction actions generalizing start row with
  | nil =>
      rw [exec_nil, Option.some.injEq] at hexec
      exact hexec ▸ hrow
  | cons action rest ih =>
      obtain ⟨middle, hstep, hrest⟩ := exec_cons_eq_some.mp hexec
      have hmiddle : initSchema.Sound middle := hsound.step hstep
      rcases hsound.contents_of_step hstep with
        ⟨hquiet, hcontents⟩ | ⟨id, written, rfl, hdone, hcontents⟩
      · have hrowMiddle : HoldsRow row middle.ledger.contents := by
          rcases hcontents with hsame | ⟨migration, hmem, happly⟩
          · rw [hsame]
            exact hrow
          · obtain ⟨entry, hentry, rfl⟩ := exists_migrationOf hmem
            exact hrow.run hentry happly
        have hlater := ih hmiddle hrowMiddle hrest
        cases action with
        | start id => exact hlater
        | statement id reply => exact hlater
        | restart id => exact hlater
        | work id written => exact absurd rfl (hquiet id written)
      · refine ih hmiddle ?_ hrest
        have hknows := hsound.knows id
        rw [hdone] at hknows
        obtain ⟨present, hstate⟩ := exists_row_of_done
          (done_of_all_recorded hsound.inOrder hknows).2
        left
        rw [hcontents]
        show (updateState written start.ledger.contents).state = some written
        simp [updateState, hstate]

/-- However many stores are started, in whatever order their statements reach
the database, and whichever of these fail or lose their answer: the recorded
versions are the first ones of the list and what they stand for is there; a
store whose initialization returns no error finds everything, and the row as
it was last written; one that returns an error has lost its connection or was
beaten to a version by another store; and any store that is started again and
left alone goes through, without a change when there is nothing to do. -/
theorem stores_initialize_together
    {contents : Contents} (hfits : contents.Fits)
    {actions : List (MigrationRun.Action StoreState)} {databases : Databases}
    (hexec : exec step (System.initial contents) actions = some databases) :
    (∀ versions, databases.ledger.recorded = some versions →
      ∃ applied, applied <+: migrations ∧
        versions = applied.map Prod.fst ∧
        ∀ entry ∈ applied, entry.2.Done databases.ledger.contents) ∧
    (∀ id, databases.stage id = .returned none →
      databases.ledger.recorded = some (migrations.map Prod.fst) ∧
        (∀ entry ∈ migrations, entry.2.Done databases.ledger.contents) ∧
        databases.ledger.contents.state =
          some (rowAfter (contents.state.getD firstRow) actions)) ∧
    (∀ id failure, databases.stage id = .returned (some failure) →
      (∃ reason, failure = .connection reason) ∨
        ∃ version versions, failure = .duplicate version ∧
          databases.ledger.recorded = some versions ∧ version ∈ versions) ∧
    ∀ id, ∃ turns finish, turns ≤ 32 ∧
      exec step databases (.restart id :: .start id ::
        List.replicate turns (.statement id .answered)) = some finish ∧
      System.Completed id databases finish ∧
      (databases.ledger.recorded = some (migrations.map Prod.fst) →
        finish.ledger = databases.ledger) := by
  have hsound : initSchema.Sound databases :=
    initSchema.sound_of_exec hfits hexec
  refine ⟨?_, ?_, ?_, ?_⟩
  · intro versions hversions
    obtain ⟨past, rest, hsplit, hpast, hdone⟩ :=
      hsound.inOrder.recorded versions hversions
    obtain ⟨applied, later, hmigrations, rfl, -⟩ :=
      List.map_eq_append_iff.mp hsplit
    refine ⟨applied, ⟨later, hmigrations.symm⟩, ?_, ?_⟩
    · rw [hpast, List.map_map]
      rfl
    · intro entry hentry
      have hin : entry ∈ migrations := by
        rw [hmigrations]
        exact List.mem_append_left later hentry
      exact (done_migrationOf_iff hin).mp
        (hdone _ (List.mem_map_of_mem hentry))
  · intro id hreturned
    have hknows := hsound.knows id
    rw [hreturned] at hknows
    obtain ⟨hrecorded, hdone⟩ := done_of_all_recorded hsound.inOrder hknows
    refine ⟨hrecorded, hdone, ?_⟩
    have hstart : HoldsRow (contents.state.getD firstRow) contents := by
      cases hstate : contents.state with
      | none => exact Or.inr ⟨hstate, rfl⟩
      | some row => exact Or.inl hstate
    rcases rowAfter_of_exec (initSchema.initial_sound hfits) hstart hexec with
      hrow | ⟨hnone, -⟩
    · exact hrow
    · obtain ⟨row, hrow⟩ := exists_row_of_done hdone
      rw [hrow] at hnone
      cases hnone
  · intro id failure hreturned
    have hknows := hsound.knows id
    rw [hreturned] at hknows
    cases failure with
    | connection reason => exact Or.inl ⟨reason, rfl⟩
    | statement reason => exact hknows.elim
    | noTable => exact hknows.elim
    | duplicate version =>
        obtain ⟨versions, hversions, hmem⟩ := hknows
        exact Or.inr ⟨version, versions, rfl, hversions, hmem⟩
  · intro id
    obtain ⟨turns, finish, hturns, hfinish, hcompleted, hsame⟩ :=
      hsound.completes id
    refine ⟨turns, finish, hturns, hfinish, hcompleted, ?_⟩
    intro hrecorded
    apply hsame
    refine ⟨initSchema.migrations, _, by simp, hrecorded, ?_⟩
    intro migration hmem
    obtain ⟨entry, hentry, rfl⟩ := exists_migrationOf hmem
    exact List.mem_map_of_mem hentry

/-- Two stores ask for the first version before either has recorded it. -/
def raceActions : List (MigrationRun.Action StoreState) :=
  [.start 0, .start 1] ++ List.replicate 4 (.statement 0 .answered) ++
    List.replicate 4 (.statement 1 .answered) ++
    [.statement 0 .answered, .statement 1 .answered]

theorem empty_fits : Contents.Fits ⟨∅, none⟩ :=
  fun _ _ _ _ _ => Or.inl rfl

theorem stores_initialize_together_race :
    ∃ databases : Databases,
      exec step (System.initial ⟨∅, none⟩) raceActions = some databases ∧
        databases.stage 1 = .returned (some (.duplicate 1)) ∧
        databases.ledger.recorded = some [1] ∧
        (∃ applied, applied <+: migrations ∧ [1] = applied.map Prod.fst ∧
          ∀ entry ∈ applied, entry.2.Done databases.ledger.contents) ∧
        ∃ turns finish, turns ≤ 32 ∧
          exec step databases (.restart 1 :: .start 1 ::
            List.replicate turns (.statement 1 .answered)) = some finish ∧
          finish.stage 1 = .returned none := by
  have hexec : exec step (System.initial ⟨∅, none⟩) raceActions =
      some ((exec step (System.initial ⟨∅, none⟩) raceActions).get rfl) := rfl
  have hresult := stores_initialize_together empty_fits hexec
  obtain ⟨turns, finish, hturns, hfinish, hcompleted, -⟩ := hresult.2.2.2 1
  exact ⟨_, hexec, rfl, rfl, hresult.1 [1] rfl, turns, finish, hturns, hfinish,
    hcompleted.returned⟩

end SoulonWallet.Indexer.Schema
