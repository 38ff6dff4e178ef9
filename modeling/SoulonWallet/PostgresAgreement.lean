import SoulonWallet.EventBlockPile
import SoulonWallet.PostgresInvariant

/-!
# The two stores agree

Without retention the tables of the Postgres store hold the blocks that the
file store holds, and the state row is what `State` of the file store
returns.  The fork check reads the row at the height first and the file store
compares with the tip, but a row is never above the tip, so they answer the
same.  The unique columns never refuse a block as long as a block hash belongs
to one id.
-/

namespace SoulonWallet.Indexer

open LabelledRun

def BlockRow.storedBlock (row : BlockRow) : StoredBlock where
  id := row.eventId
  blockHash := row.blockHash
  parentHash := row.parentHash

/-- Blocks at positive heights, with one id and height for a block hash and
one block hash for an id. -/
structure NamedBlocks (events : List Event) : Prop where
  height_pos : ∀ event ∈ events, event.type ≠ "rollback" → 1 ≤ event.height
  hash_unique : ∀ event ∈ events, ∀ other ∈ events,
    event.type ≠ "rollback" → other.type ≠ "rollback" →
    event.placed.2.blockHash = other.placed.2.blockHash →
    event.placed.2.id = other.placed.2.id ∧ event.height = other.height
  id_unique : ∀ event ∈ events, ∀ other ∈ events,
    event.type ≠ "rollback" → other.type ≠ "rollback" →
    event.placed.2.id = other.placed.2.id →
    event.placed.2.blockHash = other.placed.2.blockHash

/-! ## The same blocks -/

/-- The table has the blocks of the store, all from the events of the
pool, and both have counted the same reorgs. -/
structure SameTables (pool : List Event) (db : Database)
    (store : FileEventStore) : Prop where
  blocks : ∀ height,
    (db.blocks.lookup height).map BlockRow.storedBlock =
      store.storedAt height
  reorgs : db.state.reorgs = store.reorgs
  drawn : ∀ height row, db.blocks.lookup height = some row →
    ∃ event ∈ pool, event.type ≠ "rollback" ∧
      row.storedBlock = event.placed.2

namespace SameTables

variable {pool : List Event} {db next : Database} {store : FileEventStore}

theorem length_entries
    (hsame : SameTables pool db store) (hvalid : store.Valid) :
    db.blocks.entries.length = store.count := by
  rw [hvalid.consistent.count_eq]
  exact KeyedMap.length_entries_congr _ _ hsame.blocks

theorem lookup_eq_none_iff
    (hsame : SameTables pool db store) (height : ℤ) :
    db.blocks.lookup height = none ↔
      store.eventsByHeight.lookup height = none := by
  have hblocks := hsame.blocks height
  unfold FileEventStore.storedAt at hblocks
  rw [← Option.map_eq_none_iff (f := BlockRow.storedBlock), hblocks,
    Option.map_eq_none_iff]

theorem hasEvent_iff
    (hsame : SameTables pool db store) (hvalid : store.Valid)
    (id : String) :
    PostgresStore.hasEvent db id = true ↔ id ∈ store.seen := by
  rw [PostgresStore.hasEvent_iff, hvalid.mem_seen_iff]
  constructor
  · rintro ⟨height, row, hrow, hid⟩
    refine ⟨(height, row.storedBlock), ?_, hid⟩
    change store.storedAt height = some row.storedBlock
    rw [← hsame.blocks, hrow]
    rfl
  · rintro ⟨placed, hplaced, hid⟩
    have hstored : store.storedAt placed.1 = some placed.2 := hplaced
    rw [← hsame.blocks] at hstored
    obtain ⟨row, hrow, hblock⟩ := Option.map_eq_some_iff.mp hstored
    refine ⟨placed.1, row, hrow, ?_⟩
    rw [← hid, ← hblock]
    rfl

theorem rollback
    (hsame : SameTables pool db store) {rollbackFrom : ℤ}
    (hfrom : 1 ≤ rollbackFrom)
    (hblocks : ∀ height, next.blocks.lookup height =
      if rollbackFrom ≤ height then none else db.blocks.lookup height)
    (hreorgs : next.state.reorgs = db.state.reorgs + 1) :
    SameTables pool next (store.rollback rollbackFrom) where
  blocks := by
    intro height
    rw [hblocks, FileEventStore.storedAt_rollback store hfrom]
    split_ifs
    · rfl
    · exact hsame.blocks height
  reorgs := by
    rw [hreorgs, hsame.reorgs]
    rfl
  drawn := by
    intro height row hrow
    rw [hblocks] at hrow
    split_ifs at hrow
    exact hsame.drawn height row hrow

theorem applyBlock
    (hsame : SameTables pool db store) {event block : Event} {row : BlockRow}
    (hevent : event ∈ pool) (htype : event.type ≠ "rollback")
    (hblock : block = event.withType.withDefaults)
    (hrow : row.storedBlock = block.storedBlock)
    (hblocks : ∀ height, next.blocks.lookup height =
      if height = block.height then some row
      else db.blocks.lookup height)
    (hreorgs : next.state.reorgs = db.state.reorgs) :
    SameTables pool next (store.applyBlock block) where
  blocks := by
    intro height
    rw [hblocks, FileEventStore.storedAt_applyBlock]
    split_ifs
    · rw [FileEventStore.named_eq
        (hblock ▸ FileEventStore.withDefaults_id_ne _)
        (hblock ▸ FileEventStore.withDefaults_blockHash_ne _), ← hrow]
      rfl
    · exact hsame.blocks height
  reorgs := by
    rw [hreorgs, hsame.reorgs, FileEventStore.applyBlock_named]
  drawn := by
    intro height stored hstored
    rw [hblocks] at hstored
    split_ifs at hstored
    · rw [Option.some.injEq] at hstored
      subst hstored
      exact ⟨event, hevent, htype, by rw [hrow, hblock]; rfl⟩
    · exact hsame.drawn height stored hstored

/-- No unique column refuses a new block of the pool. -/
theorem fits
    (hsame : SameTables pool db store) (hpool : NamedBlocks pool)
    {event : Event} {height : ℤ} {row : BlockRow} (hevent : event ∈ pool)
    (htype : event.type ≠ "rollback")
    (hrow : row.storedBlock = event.placed.2)
    (hnew : PostgresStore.hasEvent db row.eventId = false) :
    db.blocks.Fits blocksUnique height row := by
  have hid : ∀ other stored, db.blocks.lookup other = some stored →
      stored.eventId ≠ row.eventId := by
    intro other stored hstored hsameId
    have hseen := PostgresStore.hasEvent_iff.mpr
      ⟨other, stored, hstored, hsameId⟩
    rw [hnew] at hseen
    contradiction
  intro column hcolumn other stored hstored _ hclash
  simp only [blocksUnique, List.mem_cons, List.not_mem_nil, or_false]
    at hcolumn
  rcases hcolumn with rfl | rfl
  · exact hid other stored hstored hclash
  · obtain ⟨source, hsource, hsourceType, hstoredBlock⟩ :=
      hsame.drawn other stored hstored
    have hhash :
        source.placed.2.blockHash = event.placed.2.blockHash := by
      rw [← hstoredBlock, ← hrow]
      exact hclash
    have hsameId :=
      (hpool.hash_unique source hsource event hevent hsourceType htype
        hhash).1
    rw [← hstoredBlock, ← hrow] at hsameId
    exact hid other stored hstored hsameId

/-- The insert of a new block of the pool succeeds, and the file store has
it after `applyBlock`. -/
theorem insertBlock
    (hsame : SameTables pool db store) (hpool : NamedBlocks pool)
    (persistedAt : ℤ) {event dated : Event} (hevent : event ∈ pool)
    (htype : event.type ≠ "rollback")
    (hdated : dated.height = event.height)
    (hblock : dated.storedBlock = event.placed.2)
    (hnew : PostgresStore.hasEvent db dated.id = false) :
    ∃ placed, db.insertBlock persistedAt dated = .ok placed ∧
      SameTables pool placed
        (store.applyBlock event.withType.withDefaults) := by
  have hheight : event.withType.withDefaults.height = event.height := by
    rw [FileEventStore.withDefaults_height, FileEventStore.withType_height]
  have hfits : db.blocks.Fits blocksUnique dated.height
      (dated.blockRow persistedAt) :=
    hsame.fits hpool hevent htype hblock hnew
  refine ⟨{ db with
    blocks := db.blocks.insert dated.height (dated.blockRow persistedAt) },
    ?_, ?_⟩
  · exact bind_eq_ok_iff.mpr
      ⟨_, SqlTable.insertOrUpdate_eq_ok_iff.mpr ⟨hfits, rfl⟩, rfl⟩
  · have hrow :
        (dated.blockRow persistedAt).storedBlock =
          event.withType.withDefaults.storedBlock := hblock
    refine hsame.applyBlock hevent htype rfl hrow ?_ rfl
    intro height
    rw [hheight, ← hdated]
    exact KeyedMap.lookup_insert_eq _ _ _ _

end SameTables

/-! ## The same state -/

/-- Between two calls the tables have the blocks of a valid store and the
state row is exact. -/
structure Mirrors (pool : List Event) (db : Database)
    (store : FileEventStore) : Prop extends SameTables pool db store where
  exact : db.StateExact
  valid : store.Valid

namespace Mirrors

variable {pool : List Event} {db next : Database} {store : FileEventStore}

theorem tip_eq (hmirrors : Mirrors pool db store) :
    db.state.tipHeight = store.tipHeight ∧
      db.state.tipHash = store.tipHash := by
  rcases hmirrors.valid.tip with
    ⟨hheight, hhash, hnone⟩ | ⟨event, hevent, hhash, hgreatest⟩
  · rcases hmirrors.exact.tip with ⟨hheight', hhash', _⟩ | ⟨row, hrow, _⟩
    · rw [hheight, hhash, hheight', hhash']
      exact ⟨rfl, rfl⟩
    · have hgone :=
        (hmirrors.lookup_eq_none_iff _).mpr (hnone db.state.tipHeight)
      rw [hrow] at hgone
      contradiction
  · rcases hmirrors.exact.tip with
      ⟨_, _, hnone'⟩ | ⟨row, hrow, hhash', hgreatest'⟩
    · have hgone :=
        (hmirrors.lookup_eq_none_iff _).mp (hnone' store.tipHeight)
      rw [hevent] at hgone
      contradiction
    · have hheight : db.state.tipHeight = store.tipHeight := by
        apply le_antisymm
        · by_contra hlow
          have hgone := hmirrors.valid.lookup_of_tip_lt (not_le.mp hlow)
          rw [← hmirrors.lookup_eq_none_iff, hrow] at hgone
          contradiction
        · cases hother : db.blocks.lookup store.tipHeight with
          | none =>
              rw [hmirrors.lookup_eq_none_iff, hevent] at hother
              contradiction
          | some other => exact hgreatest' _ other hother
      refine ⟨hheight, ?_⟩
      have hblock := hmirrors.blocks store.tipHeight
      unfold FileEventStore.storedAt at hblock
      rw [hevent, ← hheight, hrow] at hblock
      rw [hhash, hhash']
      exact congrArg StoredBlock.blockHash (Option.some.inj hblock)

theorem state_eq (hmirrors : Mirrors pool db store) :
    db.state = store.state := by
  obtain ⟨hheight, hhash⟩ := hmirrors.tip_eq
  have htotal : db.state.total = store.count := by
    rw [hmirrors.exact.total]
    exact hmirrors.length_entries hmirrors.valid
  have hreorgs := hmirrors.reorgs
  cases hstate : db.state with
  | mk tipHeight tipHash total reorgs =>
      rw [hstate] at hheight hhash htotal hreorgs
      simp only at hheight hhash htotal hreorgs
      rw [hheight, hhash, htotal, hreorgs]
      rfl

/-- The two fork checks answer the same. -/
theorem requiresRollback_eq
    (hmirrors : Mirrors pool db store) {block dated : Event}
    (hheight : 1 ≤ block.height) (hdated : dated.height = block.height)
    (hparent : dated.parentHash = block.parentHash) :
    db.requiresRollbackTx dated = store.requiresRollback block := by
  obtain ⟨htip, htipHash⟩ := hmirrors.tip_eq
  have hbelow :
      Database.requiresRollbackTx.belowTip db dated =
        store.requiresRollback block := by
    rw [hmirrors.valid.requiresRollback_eq hheight]
    unfold Database.requiresRollbackTx.belowTip
    rw [htip, htipHash, hdated, hparent]
    rcases hmirrors.valid.tip with ⟨hzero, hempty, _⟩ | ⟨event, hevent, hhash, _⟩
    · have hpos : ¬ block.height ≤ 0 := by omega
      simp [hzero, hempty, hpos]
    · obtain ⟨hpos, _, _, hne⟩ := hmirrors.valid.stored _ event hevent
      rw [← hhash] at hne
      have hnonzero : store.tipHeight ≠ 0 := by omega
      have hpositive : 0 < store.tipHeight := by omega
      by_cases hle : block.height ≤ store.tipHeight
      · simp [hle, hpositive]
      · have hfrom : ¬ block.height - 1 ≤ 0 := by omega
        have hswap :
            store.tipHash = block.parentHash ↔
              block.parentHash = store.tipHash := eq_comm
        simp [hle, hnonzero, hne, hfrom, hswap]
  unfold Database.requiresRollbackTx
  cases hrow : db.blocks.lookup dated.height with
  | none => exact hbelow
  | some existing =>
      have hle : block.height ≤ store.tipHeight := by
        rw [← htip, ← hdated]
        exact hmirrors.exact.le_tip hrow
      simp only
      rw [hbelow, hmirrors.valid.requiresRollback_eq hheight, if_pos hle,
        hdated, ite_self]

end Mirrors

/-! ## Statements that succeed -/

namespace SameTables

variable {pool : List Event} {db : Database} {store other : FileEventStore}

theorem of_contents
    (hsame : SameTables pool db store)
    (hcontents : other.contents = store.contents) :
    SameTables pool db other where
  blocks := by
    intro height
    rw [hsame.blocks]
    change store.contents.storedAt height = other.contents.storedAt height
    rw [hcontents]
  reorgs := by
    rw [hsame.reorgs]
    change store.contents.reorgs = other.contents.reorgs
    rw [hcontents]
  drawn := hsame.drawn

/-- The refresh makes the state row exact again. -/
theorem refresh
    (hsame : SameTables pool db store) (hvalid : store.Valid)
    (htotal : store.count ≤ maxInt4) :
    ∃ next, db.refreshStateTx = .ok next ∧ Mirrors pool next store := by
  rw [← hsame.length_entries hvalid] at htotal
  have hsucceeds : ∃ next, db.refreshStateTx = .ok next := by
    unfold Database.refreshStateTx
    exact ⟨_, if_pos htotal⟩
  obtain ⟨next, hnext⟩ := hsucceeds
  obtain ⟨hframe, hreorgs, hexact⟩ := Database.refreshStateTx_eq_ok hnext
  have hblocks : next.blocks = db.blocks := by
    rw [hframe]
  refine ⟨next, hnext, ⟨?_, ?_, ?_⟩, hexact, hvalid⟩
  · rw [hblocks]
    exact hsame.blocks
  · rw [hreorgs]
    exact hsame.reorgs
  · rw [hblocks]
    exact hsame.drawn

end SameTables

/-- The store after the rollback that the fork check asks for. -/
def FileEventStore.cleared (store : FileEventStore) (block : Event) :
    FileEventStore :=
  match store.requiresRollback block with
  | none => store
  | some rollbackFrom => store.rollback rollbackFrom

theorem FileEventStore.withBlock_eq
    (store : FileEventStore) (block : Event) :
    store.withBlock block = (store.cleared block).applyBlock block := by
  unfold withBlock cleared
  cases store.requiresRollback block with
  | none => rfl
  | some rollbackFrom => rfl

namespace Mirrors

variable {pool : List Event} {db : Database} {store : FileEventStore}

theorem retain
    {retentionBlocks : ℤ} (hmirrors : Mirrors pool db store)
    (hretention : retentionBlocks ≤ 0) (htotal : store.count ≤ maxInt4) :
    ∃ next, PostgresStore.retain retentionBlocks db = .ok next ∧
      Mirrors pool next store := by
  obtain ⟨next, hnext, hlater⟩ :=
    hmirrors.refresh hmirrors.valid htotal
  refine ⟨next, bind_eq_ok_iff.mpr ⟨db, ?_, hnext⟩, hlater⟩
  exact if_pos hretention

theorem forceRollback
    (hmirrors : Mirrors pool db store) (clock : PgClock)
    {block dated : Event} (hheight : 1 ≤ block.height)
    (hdated : dated.height = block.height)
    (hparent : dated.parentHash = block.parentHash)
    (hreorgs : (store.cleared block).reorgs ≤ maxInt4) :
    ∃ forced, PostgresStore.forceRollback db clock dated = .ok forced ∧
      SameTables pool forced (store.cleared block) := by
  have hcheck := hmirrors.requiresRollback_eq hheight hdated hparent
  unfold FileEventStore.cleared at hreorgs ⊢
  cases hrequired : store.requiresRollback block with
  | none =>
      rw [hrequired] at hcheck
      refine ⟨db, ?_, hmirrors.toSameTables⟩
      unfold PostgresStore.forceRollback
      rw [hcheck]
  | some rollbackFrom =>
      rw [hrequired] at hcheck hreorgs
      obtain ⟨hfrom, _⟩ :=
        FileEventStore.bounds_of_requiresRollback_some hrequired
      have hcount : db.state.reorgs + 1 ≤ maxInt4 := by
        rw [hmirrors.reorgs]
        exact hreorgs
      have hsucceeds : ∃ forced,
          PostgresStore.forceRollback db clock dated = .ok forced := by
        unfold PostgresStore.forceRollback
        rw [hcheck]
        exact ⟨_, if_pos hcount⟩
      obtain ⟨forced, hforced⟩ := hsucceeds
      refine ⟨forced, hforced, ?_⟩
      rcases PostgresStore.forceRollback_eq_ok hforced with
        ⟨hnone, _⟩ | ⟨rollbackFrom', hsome, hblocks, _, hstate⟩
      · rw [hcheck] at hnone
        contradiction
      · rw [hcheck, Option.some.injEq] at hsome
        subst hsome
        exact hmirrors.rollback hfrom hblocks (by rw [hstate])

theorem upsertRollback
    (hmirrors : Mirrors pool db store) (clock : PgClock) {event : Event}
    (hfrom : 1 ≤ event.rollbackFrom)
    (htotal : (store.rollback event.rollbackFrom).count ≤ maxInt4)
    (hreorgs : store.reorgs + 1 ≤ maxInt4) :
    ∃ next, PostgresStore.upsertRollback db clock event = .ok (true, next) ∧
      Mirrors pool next (store.rollback event.rollbackFrom) := by
  let rolled :=
    (db.appendEventTx clock.eventPersistedAt
      { event with
        id := rollbackId event.rollbackFrom clock.unixNano
        height := event.rollbackFrom }).applyRollbackTx event.rollbackFrom
  have hcount : rolled.state.reorgs + 1 ≤ maxInt4 := by
    change db.state.reorgs + 1 ≤ maxInt4
    rw [hmirrors.reorgs]
    exact hreorgs
  let counted :=
    { rolled with
      state := { rolled.state with reorgs := rolled.state.reorgs + 1 } }
  have hsame : SameTables pool counted (store.rollback event.rollbackFrom) :=
    hmirrors.rollback hfrom
      (db.lookup_applyRollbackTx event.rollbackFrom) rfl
  obtain ⟨next, hnext, hlater⟩ :=
    hsame.refresh (hmirrors.valid.rollback hfrom) htotal
  refine ⟨next, ?_, hlater⟩
  unfold PostgresStore.upsertRollback
  rw [if_neg (by omega)]
  exact bind_eq_ok_iff.mpr
    ⟨counted, if_pos hcount, bind_eq_ok_iff.mpr ⟨next, hnext, rfl⟩⟩

/-- A new block is stored, and the store that mirrors the database
afterwards is any one with the same contents. -/
theorem storeBlock
    (hmirrors : Mirrors pool db store) (hpool : NamedBlocks pool)
    (clock : PgClock) {event dated : Event} {after : FileEventStore}
    (hevent : event ∈ pool) (htype : event.type ≠ "rollback")
    (hdated : dated.height = event.height)
    (hblock : dated.storedBlock = event.placed.2)
    (hnew : PostgresStore.hasEvent db dated.id = false)
    (hafter : after.contents =
      (store.withBlock event.withType.withDefaults).contents)
    (hvalid : after.Valid) (htotal : after.count ≤ maxInt4)
    (hreorgs : after.reorgs ≤ maxInt4) :
    ∃ next, PostgresStore.storeBlock db clock dated = .ok next ∧
      Mirrors pool next after := by
  have hheight : event.withType.withDefaults.height = event.height := by
    rw [FileEventStore.withDefaults_height, FileEventStore.withType_height]
  rw [FileEventStore.withBlock_eq] at hafter
  have hcleared :
      (store.cleared event.withType.withDefaults).reorgs ≤ maxInt4 := by
    have hsameReorgs := congrArg FileEventStore.reorgs hafter
    rw [FileEventStore.applyBlock_named] at hsameReorgs
    exact hsameReorgs ▸ hreorgs
  obtain ⟨forced, hforced, hsame⟩ :=
    hmirrors.forceRollback clock
      (hheight ▸ hpool.height_pos event hevent htype)
      (hdated.trans hheight.symm) (congrArg StoredBlock.parentHash hblock)
      hcleared
  have hlogged : SameTables pool
      (forced.appendEventTx clock.eventPersistedAt dated)
      (store.cleared event.withType.withDefaults) :=
    ⟨hsame.blocks, hsame.reorgs, hsame.drawn⟩
  have hstillNew := PostgresStore.hasEvent_forceRollback hforced hnew
  obtain ⟨placed, hplaced, hplacedSame⟩ :=
    hlogged.insertBlock hpool clock.blockPersistedAt hevent htype hdated
      hblock hstillNew
  obtain ⟨next, hnext, hlater⟩ :=
    (hplacedSame.of_contents hafter).refresh hvalid htotal
  refine ⟨next, ?_, hlater⟩
  exact bind_eq_ok_iff.mpr
    ⟨forced, hforced, bind_eq_ok_iff.mpr ⟨placed, hplaced, hnext⟩⟩

end Mirrors

/-! ## Calls -/

/-- One event and what each of the two stores reads from its clock. -/
structure PairedCall where
  io : CleanIo
  clock : PgClock
  event : Event

/-- What a caller sees: the answer of `Upsert`, if it is not an error, and
the `State` after it. -/
abbrev Observed := Option Bool × StoreState

def FileEventStore.observe (store : FileEventStore) (call : PairedCall) :
    Observed × FileEventStore :=
  let result := store.upsert call.io.toIo call.event
  ((result.2.toOption, result.1.state), result.1)

def PostgresStore.observe (retentionBlocks : ℤ) (db : Database)
    (call : PairedCall) : Observed × Database :=
  match upsert retentionBlocks db call.clock call.event with
  | .ok (created, next) => ((some created, next.state), next)
  | .error _ => ((none, db.state), db)

/-- The numbers of blocks and reorgs fit their columns. -/
def Observed.FitsColumns (observed : Observed) : Prop :=
  observed.2.total ≤ maxInt4 ∧ observed.2.reorgs ≤ maxInt4

instance (observed : Observed) : Decidable observed.FitsColumns :=
  inferInstanceAs (Decidable (_ ∧ _))

theorem FileEventStore.upsertBlock_clean
    (store : FileEventStore) (io : CleanIo) {event : Event}
    (hnew : event.withDefaults.id ∉ store.seen) :
    (store.upsertBlock io.toIo event).2 = .ok true := by
  rw [upsertBlock_of_new store io.toIo hnew]
  cases store.requiresRollback event.withDefaults with
  | none => rfl
  | some rollbackFrom => rfl

theorem FileEventStore.upsertRollback_clean
    (store : FileEventStore) (io : CleanIo) {event : Event}
    (hfrom : 1 ≤ event.rollbackFrom) :
    (store.upsertRollback io.toIo event).2 = .ok true := by
  unfold upsertRollback
  rw [if_neg (by omega)]
  rfl

namespace Mirrors

variable {pool : List Event} {db : Database} {store : FileEventStore}
variable {retentionBlocks : ℤ}

theorem of_contents
    (hmirrors : Mirrors pool db store) {other : FileEventStore}
    (hvalid : other.Valid) (hcontents : other.contents = store.contents) :
    Mirrors pool db other :=
  ⟨hmirrors.toSameTables.of_contents hcontents, hmirrors.exact, hvalid⟩

theorem observed_eq
    {call : PairedCall} {created : Bool} {next : Database}
    (hanswer : (store.upsert call.io.toIo call.event).2 = .ok created)
    (hupsert : PostgresStore.upsert retentionBlocks db call.clock
      call.event = .ok (created, next))
    (hnext : Mirrors pool next (store.upsert call.io.toIo call.event).1) :
    (PostgresStore.observe retentionBlocks db call).1 =
        (store.observe call).1 ∧
      Mirrors pool (PostgresStore.observe retentionBlocks db call).2
        (store.observe call).2 := by
  unfold PostgresStore.observe FileEventStore.observe
  rw [hupsert]
  simp only
  rw [hanswer]
  exact ⟨congrArg (Prod.mk (some created)) hnext.state_eq, hnext⟩

theorem observe_rollback
    (hmirrors : Mirrors pool db store) {call : PairedCall}
    (htype : call.event.type = "rollback")
    (hfits : (store.observe call).1.FitsColumns) :
    (PostgresStore.observe retentionBlocks db call).1 =
        (store.observe call).1 ∧
      Mirrors pool (PostgresStore.observe retentionBlocks db call).2
        (store.observe call).2 := by
  have hfile := store.upsert_of_rollback call.io.toIo htype
  have hpostgres :=
    PostgresStore.upsert_of_rollback retentionBlocks db call.clock htype
  have hdated :
      (call.event.withType.withProducedAt call.clock.now).rollbackFrom =
        call.event.withType.rollbackFrom := by
    rw [PostgresStore.withProducedAt_eq]
  by_cases hfrom : call.event.withType.rollbackFrom ≤ 0
  · have hfileError :
        store.upsert call.io.toIo call.event =
          (store, .error ("invalid rollback height: " ++
            toString call.event.withType.rollbackFrom)) := by
      rw [hfile]
      exact if_pos hfrom
    have hpostgresError :
        PostgresStore.upsert retentionBlocks db call.clock call.event =
          .error ("invalid rollback height: " ++
            toString call.event.withType.rollbackFrom) := by
      rw [hpostgres, ← hdated]
      exact if_pos (hdated ▸ hfrom)
    unfold PostgresStore.observe FileEventStore.observe
    rw [hpostgresError, hfileError]
    exact ⟨congrArg (Prod.mk none) hmirrors.state_eq, hmirrors⟩
  · have hpos : 1 ≤ call.event.withType.rollbackFrom := by omega
    have hanswer := store.upsertRollback_clean call.io hpos
    have hafter := FileEventStore.upsertRollback_contents_of_ok hanswer
    rw [← FileEventStore.contents_rollback, ← hfile] at hafter
    rw [← hfile] at hanswer
    have hvalid :=
      (hmirrors.valid.upsert call.io.toIo ⟨call.event, Or.inl htype⟩).1
    rw [← hdated] at hpos hafter
    have hreorgs : store.reorgs + 1 ≤ maxInt4 := by
      have hcounted :
          (store.upsert call.io.toIo call.event).1.reorgs =
            store.reorgs + 1 :=
        congrArg FileEventStore.reorgs hafter
      rw [← hcounted]
      exact hfits.2
    obtain ⟨next, hnext, hnextMirrors⟩ :=
      hmirrors.upsertRollback call.clock hpos
        (congrArg FileEventStore.count hafter ▸ hfits.1) hreorgs
    exact observed_eq hanswer (hpostgres.trans hnext)
      (hnextMirrors.of_contents hvalid hafter)

theorem observe_known
    (hmirrors : Mirrors pool db store) {call : PairedCall}
    (htype : call.event.type ≠ "rollback")
    (hseen : call.event.withType.withDefaults.id ∈ store.seen) :
    (PostgresStore.observe retentionBlocks db call).1 =
        (store.observe call).1 ∧
      Mirrors pool (PostgresStore.observe retentionBlocks db call).2
        (store.observe call).2 := by
  have hfile : store.upsert call.io.toIo call.event = (store, .ok false) := by
    rw [store.upsert_of_block call.io.toIo htype]
    exact if_pos hseen
  have hpostgres : PostgresStore.upsert retentionBlocks db call.clock
      call.event = .ok (false, db) := by
    rw [PostgresStore.upsert_of_block retentionBlocks db call.clock htype]
    apply if_pos
    rw [PostgresStore.dated_id]
    exact (hmirrors.hasEvent_iff hmirrors.valid _).mpr hseen
  apply observed_eq (congrArg Prod.snd hfile) hpostgres
  rw [hfile]
  exact hmirrors

theorem observe_new
    (hmirrors : Mirrors pool db store) (hpool : NamedBlocks pool)
    (hretention : retentionBlocks ≤ 0) {call : PairedCall}
    (hevent : call.event ∈ pool) (htype : call.event.type ≠ "rollback")
    (hunseen : call.event.withType.withDefaults.id ∉ store.seen)
    (hfits : (store.observe call).1.FitsColumns) :
    (PostgresStore.observe retentionBlocks db call).1 =
        (store.observe call).1 ∧
      Mirrors pool (PostgresStore.observe retentionBlocks db call).2
        (store.observe call).2 := by
  have hheight := hpool.height_pos call.event hevent htype
  have hvalid :=
    (hmirrors.valid.upsert call.io.toIo ⟨call.event, Or.inr hheight⟩).1
  have hanswer := store.upsertBlock_clean call.io hunseen
  have hafter := FileEventStore.upsertBlock_contents_of_ok hunseen hanswer
  rw [← FileEventStore.contents_withBlock,
    ← store.upsert_of_block call.io.toIo htype] at hafter
  rw [← store.upsert_of_block call.io.toIo htype] at hanswer
  have hblock :
      (call.event.withType.withProducedAt
        call.clock.now).withDefaults.storedBlock = call.event.placed.2 := by
    rw [PostgresStore.withDefaults_withProducedAt,
      PostgresStore.withProducedAt_eq]
    rfl
  have hdated :
      (call.event.withType.withProducedAt
        call.clock.now).withDefaults.height = call.event.height := by
    rw [FileEventStore.withDefaults_height, PostgresStore.dated_height]
  have hnew : PostgresStore.hasEvent db
      (call.event.withType.withProducedAt
        call.clock.now).withDefaults.id = false := by
    rw [PostgresStore.dated_id, Bool.eq_false_iff, Ne,
      hmirrors.hasEvent_iff hmirrors.valid]
    exact hunseen
  obtain ⟨stored, hstored, hstoredMirrors⟩ :=
    hmirrors.storeBlock hpool call.clock hevent htype hdated hblock hnew
      hafter hvalid hfits.1 hfits.2
  obtain ⟨next, hnext, hnextMirrors⟩ :=
    hstoredMirrors.retain hretention hfits.1
  apply observed_eq hanswer _ hnextMirrors
  rw [PostgresStore.upsert_of_block _ _ _ htype]
  unfold PostgresStore.upsertBlock
  simp only
  rw [if_neg (by simp [hnew])]
  exact bind_eq_ok_iff.mpr
    ⟨stored, hstored, bind_eq_ok_iff.mpr ⟨next, hnext, rfl⟩⟩

theorem observe
    (hmirrors : Mirrors pool db store) (hpool : NamedBlocks pool)
    (hretention : retentionBlocks ≤ 0) {call : PairedCall}
    (hevent : call.event ∈ pool)
    (hfits : (store.observe call).1.FitsColumns) :
    (PostgresStore.observe retentionBlocks db call).1 =
        (store.observe call).1 ∧
      Mirrors pool (PostgresStore.observe retentionBlocks db call).2
        (store.observe call).2 := by
  by_cases htype : call.event.type = "rollback"
  · exact hmirrors.observe_rollback htype hfits
  · by_cases hseen : call.event.withType.withDefaults.id ∈ store.seen
    · exact hmirrors.observe_known htype hseen
    · exact hmirrors.observe_new hpool hretention hevent htype hseen hfits

end Mirrors

/-! ## Runs -/

theorem initSchema_mirrors (pool : List Event) :
    Mirrors pool Database.initSchema FileEventStore.empty where
  blocks := fun _ => rfl
  reorgs := rfl
  drawn := by
    intro height row hrow
    simp [Database.initSchema] at hrow
  exact := (PostgresStore.initSchema_retained 0).exact
  valid := FileEventStore.empty_valid

/-- Without retention the two stores look the same after every event, as
long as the counters fit the columns of the state row. -/
theorem PostgresStore.observations_eq
    {retentionBlocks : ℤ} (hretention : retentionBlocks ≤ 0)
    (calls : List PairedCall)
    (hpool : NamedBlocks (calls.map PairedCall.event))
    (hfits : ∀ observed ∈
      observations FileEventStore.observe FileEventStore.empty calls,
      observed.FitsColumns) :
    observations (PostgresStore.observe retentionBlocks)
        Database.initSchema calls =
      observations FileEventStore.observe FileEventStore.empty calls := by
  apply observations_eq_of_lockstep
    (Mirrors (calls.map PairedCall.event)) (· ∈ calls)
    Observed.FitsColumns _ (initSchema_mirrors _) _ hfits
  · intro db store call hmirrors hcall hshown
    exact hmirrors.observe hpool hretention (List.mem_map_of_mem hcall)
      hshown
  · intro call hcall
    exact hcall

def pairedCall (event : Event) : PairedCall :=
  ⟨⟨0, 0, 0⟩, {}, event⟩

def forkedCalls : List PairedCall :=
  [pairedCall firstBlock.event, pairedCall secondBlock.event,
    pairedCall siblingBlock, pairedCall { type := "rollback" }]

theorem observations_eq_forked :
    observations (PostgresStore.observe 0) Database.initSchema forkedCalls =
      [(some true, ⟨1, "h1-a", 1, 0⟩), (some true, ⟨2, "h2-a", 2, 0⟩),
        (some true, ⟨2, "h2-b", 2, 1⟩), (none, ⟨2, "h2-b", 2, 1⟩)] := by
  have hpool : NamedBlocks (forkedCalls.map PairedCall.event) :=
    ⟨by decide, by decide, by decide⟩
  have hfits : ∀ observed ∈
      observations FileEventStore.observe FileEventStore.empty forkedCalls,
      observed.FitsColumns := by
    decide
  rw [PostgresStore.observations_eq le_rfl forkedCalls hpool hfits]
  decide

/-! ## A full column -/

theorem PostgresStore.upsertRollback_of_full
    {db : Database} {event : Event} (clock : PgClock)
    (hfrom : 1 ≤ event.rollbackFrom) (hfull : maxInt4 ≤ db.state.reorgs) :
    upsertRollback db clock event = .error "integer out of range" := by
  have hcount : ∀ rolled : Database, rolled.state = db.state →
      rolled.countReorg = .error "integer out of range" := by
    intro rolled hstate
    unfold Database.countReorg
    rw [hstate, if_neg (by omega)]
  unfold upsertRollback
  rw [if_neg (by omega)]
  simp only
  rw [hcount]
  · rfl
  · rfl

def rollbackCall : PairedCall :=
  pairedCall { type := "rollback", rollbackFrom := 1 }

theorem FileEventStore.answers_rollbacks
    (store : FileEventStore) (count : ℕ) :
    ∀ observed ∈ observations FileEventStore.observe store
      (List.replicate count rollbackCall), observed.1 = some true := by
  induction count generalizing store with
  | zero => simp [observations]
  | succ count ih =>
      rw [List.replicate_succ]
      unfold observations
      rw [List.forall_mem_cons]
      refine ⟨?_, ih _⟩
      have hanswer :
          (store.upsert rollbackCall.io.toIo rollbackCall.event).2 =
            .ok true := by
        rw [store.upsert_of_rollback _ rfl]
        exact store.upsertRollback_clean rollbackCall.io (by decide)
      unfold FileEventStore.observe
      simp only
      rw [hanswer]
      rfl

theorem PostgresStore.reorgs_of_answers_rollbacks
    {retentionBlocks : ℤ} {db : Database} {count : ℕ}
    (hfits : db.state.reorgs ≤ maxInt4)
    (hanswers : ∀ observed ∈
      observations (PostgresStore.observe retentionBlocks) db
        (List.replicate count rollbackCall), observed.1 = some true) :
    db.state.reorgs + count ≤ maxInt4 := by
  induction count generalizing db with
  | zero => exact hfits
  | succ count ih =>
      rw [List.replicate_succ] at hanswers
      unfold observations at hanswers
      rw [List.forall_mem_cons] at hanswers
      obtain ⟨hfirst, hrest⟩ := hanswers
      let dated := rollbackCall.event.withType.withProducedAt
        rollbackCall.clock.now
      have hupsert : upsert retentionBlocks db rollbackCall.clock
          rollbackCall.event = upsertRollback db rollbackCall.clock dated :=
        rfl
      have hroom : db.state.reorgs < maxInt4 := by
        by_contra hfull
        unfold PostgresStore.observe at hfirst
        rw [hupsert, upsertRollback_of_full rollbackCall.clock (by decide)
          (not_lt.mp hfull)] at hfirst
        contradiction
      cases hcommit : upsertRollback db rollbackCall.clock dated with
      | error err =>
          unfold PostgresStore.observe at hfirst
          rw [hupsert, hcommit] at hfirst
          contradiction
      | ok result =>
          rcases result with ⟨created, next⟩
          obtain ⟨_, _, _, _, hreorgs, _⟩ := upsertRollback_eq_ok hcommit
          have hmoved :
              (PostgresStore.observe retentionBlocks db rollbackCall).2 =
                next := by
            unfold PostgresStore.observe
            rw [hupsert, hcommit]
          rw [hmoved] at hrest
          have hlater := ih (by omega) hrest
          omega

/-- After `2 ^ 31 - 1` rollbacks the column `reorgs` is full, and the next
one is an error of the Postgres store only. -/
theorem observations_ne_rollbacks :
    NamedBlocks ((List.replicate (maxInt4 + 1) rollbackCall).map
        PairedCall.event) ∧
      observations (PostgresStore.observe 0) Database.initSchema
          (List.replicate (maxInt4 + 1) rollbackCall) ≠
        observations FileEventStore.observe FileEventStore.empty
          (List.replicate (maxInt4 + 1) rollbackCall) := by
  constructor
  · have hrollback : ∀ event ∈
        (List.replicate (maxInt4 + 1) rollbackCall).map PairedCall.event,
        event.type = "rollback" := by
      intro event hevent
      rw [List.map_replicate] at hevent
      rw [List.eq_of_mem_replicate hevent]
      rfl
    constructor
    · intro event hevent hblock
      exact absurd (hrollback event hevent) hblock
    · intro event hevent other _ hblock
      exact absurd (hrollback event hevent) hblock
    · intro event hevent other _ hblock
      exact absurd (hrollback event hevent) hblock
  · intro heq
    have hanswers :=
      FileEventStore.empty.answers_rollbacks (maxInt4 + 1)
    rw [← heq] at hanswers
    have hfull :=
      PostgresStore.reorgs_of_answers_rollbacks (Nat.zero_le _) hanswers
    omega

end SoulonWallet.Indexer
