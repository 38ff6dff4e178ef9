import SoulonWallet.PostgresInvariant

/-!
# Archived blocks

The cleanup copies old rows to the archive and deletes them.  The copy does
nothing at a height that the archive has already, and the delete does not
ask.  The duplicate check of `Upsert` only looks at the rows that are left.
So a branch that grows through archived heights is lost, and an archived
block that is delivered again is new.
-/

namespace SoulonWallet.Indexer

open LabelledRun

namespace BlockRow

def SameBlock (left right : BlockRow) : Prop :=
  left.eventId = right.eventId ∧ left.blockHash = right.blockHash

instance (left right : BlockRow) : Decidable (left.SameBlock right) :=
  inferInstanceAs (Decidable (_ ∧ _))

end BlockRow

/-! ## Nothing is lost -/

namespace Database

/-- A block and the archived row at its height are the same block. -/
def ArchiveMatches (db : Database) : Prop :=
  ∀ height row archived, db.blocks.lookup height = some row →
    db.blocksArchive.lookup height = some archived → archived.SameBlock row

/-- Every row that is gone has a copy in the archive. -/
def Archives (db cleaned : Database) : Prop :=
  ∀ height row, db.blocks.lookup height = some row →
    cleaned.blocks.lookup height = none →
    ∃ archived, cleaned.blocksArchive.lookup height = some archived ∧
      archived.SameBlock row

variable {db cleaned : Database} {retentionBlocks : ℤ}

theorem ArchiveMatches.archives
    (hmatches : db.ArchiveMatches)
    (hcleanup : db.cleanupOldBlocksTx retentionBlocks = .ok cleaned) :
    db.Archives cleaned := by
  intro height row hrow hgone
  rcases cleanupOldBlocksTx_eq_ok hcleanup with
    ⟨rfl, _⟩ | ⟨_, _, _, hblocks, harchive⟩
  · rw [hrow] at hgone
    contradiction
  · rw [hblocks] at hgone
    split_ifs at hgone with hlow
    · rw [harchive, if_pos hlow, hrow]
      cases harchived : db.blocksArchive.lookup height with
      | none => exact ⟨row, rfl, rfl, rfl⟩
      | some archived =>
          exact ⟨archived, rfl, hmatches height row archived hrow harchived⟩
    · rw [hrow] at hgone
      contradiction

theorem ArchiveMatches.cleanup
    (hmatches : db.ArchiveMatches)
    (hcleanup : db.cleanupOldBlocksTx retentionBlocks = .ok cleaned) :
    cleaned.ArchiveMatches := by
  intro height row archived hrow harchived
  rcases cleanupOldBlocksTx_eq_ok hcleanup with
    ⟨rfl, _⟩ | ⟨_, _, _, hblocks, harchive⟩
  · exact hmatches height row archived hrow harchived
  · rw [hblocks] at hrow
    split_ifs at hrow with hlow
    rw [harchive, if_neg hlow, Option.or_none] at harchived
    exact hmatches height row archived hrow harchived

/-- Rows may go and the state row may change. -/
theorem ArchiveMatches.of_subset
    {next : Database} (hmatches : db.ArchiveMatches)
    (hrows : ∀ height row, next.blocks.lookup height = some row →
      db.blocks.lookup height = some row)
    (harchive : next.blocksArchive = db.blocksArchive) :
    next.ArchiveMatches := by
  intro height row archived hrow harchived
  rw [harchive] at harchived
  exact hmatches height row archived (hrows height row hrow) harchived

end Database

namespace PostgresStore

variable {db next : Database} {retentionBlocks : ℤ}

/-- A new block does not go to a height at which another block is
archived. -/
def MatchesArchive (db : Database) : PgCall Event → Prop
  | .upsert clock event =>
      let block := (event.withType.withProducedAt clock.now).withDefaults
      event.type ≠ "rollback" → hasEvent db block.id = false →
        ∀ archived ∈ db.blocksArchive.lookup block.height,
          archived.eventId = block.id ∧ archived.blockHash = block.blockHash
  | .runMaintenance => True

instance (db : Database) (call : PgCall Event) :
    Decidable (MatchesArchive db call) :=
  match call with
  | .upsert _ _ => inferInstanceAs (Decidable (_ → _ → _))
  | .runMaintenance => inferInstanceAs (Decidable True)

theorem archiveMatches_storeBlock
    {clock : PgClock} {block : Event} (hmatches : db.ArchiveMatches)
    (harchived : ∀ archived ∈ db.blocksArchive.lookup block.height,
      archived.eventId = block.id ∧ archived.blockHash = block.blockHash)
    (hstore : storeBlock db clock block = .ok next) :
    next.ArchiveMatches := by
  rcases storeBlock_eq_ok hstore with
    ⟨forced, hforced, _, _, harchive, _, hlookup⟩
  intro height row archived hrow hold
  rw [harchive] at hold
  rw [hlookup] at hrow
  split_ifs at hrow with heq
  · rw [Option.some.injEq] at hrow
    subst hrow
    rw [heq] at hold
    exact harchived archived hold
  · exact hmatches height row archived
      (forceRollback_subset hforced hrow) hold

theorem archiveMatches_refresh
    (hmatches : db.ArchiveMatches) (hrefresh : db.refreshStateTx = .ok next) :
    next.ArchiveMatches := by
  have hnext := (Database.refreshStateTx_eq_ok hrefresh).1
  apply hmatches.of_subset
  · intro height row hrow
    rw [hnext] at hrow
    exact hrow
  · rw [hnext]

/-- The cleanup of a call that respects the archive starts from tables that
match. -/
theorem archiveMatches_beforeCleanup
    (hmatches : db.ArchiveMatches) {call : PgCall Event}
    (hcall : MatchesArchive db call) {middle : Database}
    (hmiddle : beforeCleanup db call = some middle) :
    middle.ArchiveMatches := by
  rcases beforeCleanup_cases hmiddle with
    ⟨clock, event, rfl, hblock, hnew, hstore⟩ | ⟨rfl, hrefresh⟩
  · exact archiveMatches_storeBlock hmatches (hcall hblock hnew) hstore
  · exact archiveMatches_refresh hmatches hrefresh

theorem archiveMatches_step
    (hmatches : db.ArchiveMatches) {call : PgCall Event}
    (hcall : MatchesArchive db call)
    (hstep : step retentionBlocks db call = some next) :
    next.ArchiveMatches := by
  rcases step_cleanup_cases hstep with
    ⟨hrows, harchive⟩ | ⟨middle, hmiddle, hretain⟩
  · exact hmatches.of_subset hrows harchive
  · rcases bind_eq_ok_iff.mp hretain with ⟨cleaned, hcleanup, hrefresh⟩
    have hmiddleMatches := archiveMatches_beforeCleanup hmatches hcall hmiddle
    exact archiveMatches_refresh (hmiddleMatches.cleanup hcleanup) hrefresh

/-- In a run that stores no block over another archived one, every cleanup
leaves a copy of each row that it deletes in the archive. -/
theorem run_archives
    (calls : List (PgCall Event)) (call : PgCall Event)
    {middle cleaned : Database}
    (hguarded : Guarded (step retentionBlocks) MatchesArchive
      Database.initSchema (calls ++ [call]))
    (hrun : exec (step retentionBlocks) Database.initSchema calls = some db)
    (hstep : step retentionBlocks db call = some next)
    (hmiddle : beforeCleanup db call = some middle)
    (hcleanup : middle.cleanupOldBlocksTx retentionBlocks = .ok cleaned) :
    middle.Archives cleaned := by
  rcases hguarded.split hrun with ⟨hbefore, hlast⟩
  have hcall := ((guarded_cons_of_step hstep).mp hlast).1
  have hmatches : db.ArchiveMatches := by
    apply invariant_of_guarded Database.ArchiveMatches _ _ hbefore hrun
    · intro reached taken committed hreached htaken hcommits
      exact archiveMatches_step hreached htaken hcommits
    · intro height row archived hrow
      simp [Database.initSchema] at hrow
  exact (archiveMatches_beforeCleanup hmatches hcall hmiddle).archives
    hcleanup

end PostgresStore

/-- A sibling of the first block, and the block over it. -/
def otherFirstBlock : Event :=
  { id := "h1-b", height := 1, blockHash := "h1-b" }

def otherSecondBlock : Event :=
  { id := "h2-b", height := 2, blockHash := "h2-b", parentHash := "h1-b" }

theorem run_archives_firstBlock :
    ∃ db middle cleaned,
      exec (PostgresStore.step 1) Database.initSchema
          [.upsert {} firstBlock.event] = some db ∧
        PostgresStore.beforeCleanup db (.upsert {} secondBlock.event) =
          some middle ∧
        middle.cleanupOldBlocksTx 1 = .ok cleaned ∧
        middle.blocks.lookup 1 ≠ none ∧ cleaned.blocks.lookup 1 = none ∧
        middle.Archives cleaned := by
  have hguarded :
      Guarded (PostgresStore.step 1) PostgresStore.MatchesArchive
        Database.initSchema
        ([.upsert {} firstBlock.event] ++
          [.upsert {} secondBlock.event]) := by
    decide
  exact ⟨_, _, _, rfl, rfl, rfl, by decide, by decide,
    PostgresStore.run_archives _ _ hguarded rfl rfl rfl rfl⟩

/-- The second branch grows through the height of the archived block, and
its first block is deleted without a copy. -/
theorem run_regrown_lost :
    ∃ db next middle cleaned,
      exec (PostgresStore.step 1) Database.initSchema
          [.upsert {} firstBlock.event, .upsert {} secondBlock.event,
            .upsert {} otherFirstBlock] = some db ∧
        PostgresStore.step 1 db (.upsert {} otherSecondBlock) = some next ∧
        PostgresStore.beforeCleanup db (.upsert {} otherSecondBlock) =
          some middle ∧
        middle.cleanupOldBlocksTx 1 = .ok cleaned ∧
        (middle.blocks.lookup 1).map BlockRow.eventId = some "h1-b" ∧
        cleaned.blocks.lookup 1 = none ∧
        (cleaned.blocksArchive.lookup 1).map BlockRow.eventId =
          some "h1-a" ∧
        ¬ middle.Archives cleaned := by
  refine ⟨_, _, _, _, rfl, rfl, rfl, rfl, by decide, by decide, by decide, ?_⟩
  intro harchives
  rcases harchives 1 _ rfl (by decide) with ⟨archived, harchived, hid, _⟩
  have hcopy := Option.some.inj harchived
  rw [← hcopy] at hid
  exact absurd hid (by decide)

/-! ## Redelivery -/

namespace PostgresStore

/-- The call answers that nothing was created and leaves the blocks and the
state row. -/
def Ignores (retentionBlocks : ℤ) (db : Database) (clock : PgClock)
    (event : Event) : Prop :=
  ∃ next, upsert retentionBlocks db clock event = .ok (false, next) ∧
    next.blocks = db.blocks ∧ next.state = db.state

/-- A block event is ignored exactly when its block is not deleted yet.  The
archive is not asked. -/
theorem ignores_iff
    (retentionBlocks : ℤ) (db : Database) (clock : PgClock) (event : Event)
    (hblock : event.type ≠ "rollback") :
    Ignores retentionBlocks db clock event ↔
      ∃ height row, db.blocks.lookup height = some row ∧
        row.eventId = event.withType.withDefaults.id := by
  rw [← dated_id event clock.now, ← hasEvent_iff]
  unfold Ignores
  rw [upsert_of_block _ _ _ hblock]
  constructor
  · rintro ⟨next, hignored, _, _⟩
    rcases upsertBlock_eq_ok hignored with
      ⟨hseen, _⟩ | ⟨_, hcreated, _⟩
    · exact hseen
    · contradiction
  · intro hseen
    refine ⟨db, ?_, rfl, rfl⟩
    unfold upsertBlock
    exact if_pos hseen

end PostgresStore

/-- The first block is archived when the second one comes. -/
def firstArchived : List (PgCall Event) :=
  [.upsert {} firstBlock.event, .upsert {} secondBlock.event]

theorem ignores_secondBlock :
    ∃ db,
      exec (PostgresStore.step 1) Database.initSchema firstArchived =
          some db ∧
        PostgresStore.Ignores 1 db {} secondBlock.event :=
  ⟨_, rfl,
    (PostgresStore.ignores_iff 1 _ {} secondBlock.event (by decide)).mpr
      ⟨2, _, rfl, by decide⟩⟩

/-- The first block is delivered again after it was archived.  It counts as a
fork below the tip and takes the second block out. -/
theorem not_ignores_archived :
    ∃ db next,
      exec (PostgresStore.step 1) Database.initSchema firstArchived =
          some db ∧
        (db.blocksArchive.lookup 1).map BlockRow.eventId = some "h1-a" ∧
        db.state = ⟨2, "h2-a", 1, 0⟩ ∧
        PostgresStore.upsert 1 db {} firstBlock.event = .ok (true, next) ∧
        next.state = ⟨1, "h1-a", 1, 1⟩ ∧
        ¬ PostgresStore.Ignores 1 db {} firstBlock.event := by
  refine ⟨_, _, rfl, by decide, by decide, rfl, by decide, ?_⟩
  rintro ⟨next, hignored, _⟩
  cases hignored

end SoulonWallet.Indexer
