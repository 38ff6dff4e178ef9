import SoulonWallet.EventChainLinks
import SoulonWallet.EventStoreRetry
import SoulonWallet.ReorgPile

/-!
# The file event store as a pile of blocks

Without append failures a store is the pile of the blocks that it holds.  A
call with a block event delivers the block to the pile, provided that its id
is not the id of another block: the seen set then says whether the block is
in the pile, and the fork check removes what a reorganization removes.
-/

namespace SoulonWallet.Indexer

/-- A block and the height it is at. -/
abbrev PlacedBlock := ℤ × StoredBlock

/-- The block names the other one as its parent, or no parent at all. -/
def PlacedBlock.Follows (new block : PlacedBlock) : Prop :=
  new.2.parentHash = "" ∨ new.2.parentHash = block.2.blockHash

def Event.placed (event : Event) : PlacedBlock :=
  (event.height, event.withType.withDefaults.storedBlock)

abbrev PlacedBlock.deliver := ReorgPile.deliver Prod.fst PlacedBlock.Follows

abbrev PlacedBlock.deliverAll :=
  ReorgPile.deliverAll Prod.fst PlacedBlock.Follows

namespace FileEventStore

def pile (store : FileEventStore) : Set PlacedBlock :=
  { block | store.storedAt block.1 = some block.2 }

variable {store : FileEventStore} {block : Event} {placed : PlacedBlock}

theorem injOn_pile (store : FileEventStore) :
    Set.InjOn Prod.fst store.pile := by
  intro left hleft right hright heq
  have hsame : some left.2 = some right.2 := by
    rw [← (hleft : store.storedAt left.1 = some left.2),
      ← (hright : store.storedAt right.1 = some right.2), heq]
  exact Prod.ext heq (Option.some.inj hsame)

theorem storedAt_eq_of_pile_eq
    {other : FileEventStore} (hpile : store.pile = other.pile) (height : ℤ) :
    store.storedAt height = other.storedAt height := by
  ext stored
  exact Set.ext_iff.mp hpile (height, stored)

theorem pile_contents (store : FileEventStore) :
    store.contents.pile = store.pile := rfl

theorem mem_pile_rollback
    {fromHeight : ℤ} (hfrom : 1 ≤ fromHeight) :
    placed ∈ (store.rollback fromHeight).pile ↔
      placed ∈ store.pile ∧ placed.1 < fromHeight := by
  unfold pile
  simp only [Set.mem_ofPred_eq]
  rw [storedAt_rollback store hfrom]
  split_ifs with hle
  · simp only [false_iff, not_and]
    intro _
    omega
  · have hlt : placed.1 < fromHeight := by omega
    simp [hlt]

/-! ## Piles of valid stores -/

theorem Valid.le_tip_of_mem_pile
    (hvalid : store.Valid) (hmem : placed ∈ store.pile) :
    1 ≤ placed.1 ∧ placed.1 ≤ store.tipHeight := by
  obtain ⟨event, hlookup, _⟩ := Option.map_eq_some_iff.mp hmem
  exact ⟨(hvalid.stored _ _ hlookup).1, hvalid.le_tip hlookup⟩

theorem Valid.exists_tip
    (hvalid : store.Valid) (htip : store.tipHeight ≠ 0) :
    ∃ stored : StoredBlock, (store.tipHeight, stored) ∈ store.pile ∧
      stored.blockHash = store.tipHash := by
  rcases hvalid.tip with ⟨hzero, _⟩ | ⟨event, hlookup, hhash, _⟩
  · exact absurd hzero htip
  · refine ⟨event.storedBlock, ?_, hhash.symm⟩
    exact Option.map_eq_some_iff.mpr ⟨event, hlookup, rfl⟩

theorem Valid.hash_of_mem_tip
    (hvalid : store.Valid) (hmem : placed ∈ store.pile)
    (htip : placed.1 = store.tipHeight) :
    placed.2.blockHash = store.tipHash := by
  have hpos := (hvalid.le_tip_of_mem_pile hmem).1
  obtain ⟨stored, hstored, hhash⟩ := hvalid.exists_tip (by omega)
  have hsame := injOn_pile store hmem hstored htip
  rw [hsame]
  exact hhash

theorem Valid.mem_seen_iff
    (hvalid : store.Valid) (id : String) :
    id ∈ store.seen ↔ ∃ placed ∈ store.pile, placed.2.id = id := by
  rw [hvalid.seen_iff]
  constructor
  · intro h
    rcases h with ⟨height, event, hlookup, hid⟩
    exact ⟨(height, event.storedBlock),
      Option.map_eq_some_iff.mpr ⟨event, hlookup, rfl⟩, hid⟩
  · intro h
    rcases h with ⟨placed, hmem, hid⟩
    obtain ⟨event, hlookup, hstored⟩ := Option.map_eq_some_iff.mp hmem
    refine ⟨placed.1, event, hlookup, ?_⟩
    rw [← hid, ← hstored]
    rfl

/-- Two valid stores with the same blocks have the same tip and count. -/
theorem Valid.state_eq_of_storedAt
    {other : FileEventStore} (hvalid : store.Valid) (hother : other.Valid)
    (hstored : ∀ height, store.storedAt height = other.storedAt height) :
    store.tipHeight = other.tipHeight ∧ store.tipHash = other.tipHash ∧
      store.count = other.count := by
  have hreads : ∀ height,
      (store.eventsByHeight.lookup height).map Event.blockHash =
        (other.eventsByHeight.lookup height).map Event.blockHash := by
    intro height
    have hhash :=
      congrArg (Option.map StoredBlock.blockHash) (hstored height)
    simpa [storedAt, Function.comp_def, Event.storedBlock] using hhash
  have htip := KeyedMap.foldl_higher_congr hreads (0, "")
  rw [hvalid.foldl_tip, hother.foldl_tip] at htip
  refine ⟨congrArg Prod.fst htip, congrArg Prod.snd htip, ?_⟩
  rw [hvalid.consistent.count_eq, hother.consistent.count_eq]
  exact KeyedMap.length_entries_congr _ _ hreads

/-! ## A block event is a delivery -/

theorem mem_pile_applyBlock
    (hvalid : store.Valid) (hid : block.id ≠ "") (hhash : block.blockHash ≠ "")
    (habove : store.tipHeight < block.height) :
    placed ∈ (store.applyBlock block).pile ↔
      placed = (block.height, block.storedBlock) ∨ placed ∈ store.pile := by
  have hnamed : named block = block := by
    simp [named, Event.withBlockHash, hid, hhash]
  unfold pile
  simp only [Set.mem_ofPred_eq]
  rw [storedAt_applyBlock, hnamed]
  by_cases hheight : placed.1 = block.height
  · have hfree : store.storedAt placed.1 = none := by
      unfold storedAt
      rw [hvalid.lookup_of_tip_lt (by omega)]
      rfl
    rw [if_pos hheight, hfree]
    simp only [Option.some.injEq, reduceCtorEq, or_false]
    constructor
    · intro heq
      exact Prod.ext hheight heq.symm
    · intro heq
      rw [heq]
  · rw [if_neg hheight]
    constructor
    · exact Or.inr
    · intro h
      rcases h with heq | hmem
      · exact absurd (congrArg Prod.fst heq) hheight
      · exact hmem

/-- The block right below a new block that is above the tip is the tip. -/
theorem Valid.stays_next_iff
    (hvalid : store.Valid) (habove : store.tipHeight < block.height)
    (hmem : placed ∈ store.pile) (hnext : placed.1 + 1 = block.height) :
    ReorgPile.Stays Prod.fst PlacedBlock.Follows store.pile
        (block.height, block.storedBlock) placed ↔
      block.parentHash = "" ∨ block.parentHash = store.tipHash := by
  have hle := (hvalid.le_tip_of_mem_pile hmem).2
  have htipHash := hvalid.hash_of_mem_tip hmem (by omega)
  constructor
  · intro hstays
    rcases hstays.2 hnext with hfollows | ⟨other, hother, hlt⟩
    · rw [← htipHash]
      exact hfollows
    · have hotherLe := (hvalid.le_tip_of_mem_pile hother).2
      omega
  · intro hparent
    refine ⟨by change placed.1 < block.height; omega, ?_⟩
    intro _
    rw [← htipHash] at hparent
    exact Or.inl hparent

theorem Valid.stays_far
    (hvalid : store.Valid) (habove : store.tipHeight < block.height)
    (hmem : placed ∈ store.pile) (hfar : placed.1 + 1 ≠ block.height) :
    ReorgPile.Stays Prod.fst PlacedBlock.Follows store.pile
      (block.height, block.storedBlock) placed := by
  have hle := (hvalid.le_tip_of_mem_pile hmem).2
  refine ⟨by change placed.1 < block.height; omega, ?_⟩
  intro hnext
  exact absurd hnext hfar

theorem Valid.stays_below_tip_iff
    (hvalid : store.Valid) (hpos : 1 ≤ block.height)
    (hlow : block.height ≤ store.tipHeight) :
    ReorgPile.Stays Prod.fst PlacedBlock.Follows store.pile
        (block.height, block.storedBlock) placed ↔
      placed.1 < block.height := by
  obtain ⟨tip, htip, _⟩ := hvalid.exists_tip (by omega)
  constructor
  · intro hstays
    exact hstays.1
  · intro hlt
    refine ⟨hlt, ?_⟩
    intro _
    exact Or.inr ⟨_, htip, lt_of_lt_of_le hlt hlow⟩

/-- The fork check and the rollback that it asks for remove from a valid
store what the delivery removes from its pile. -/
theorem Valid.pile_withBlock
    (hvalid : store.Valid) (hheight : 1 ≤ block.height)
    (hid : block.id ≠ "") (hhash : block.blockHash ≠ "")
    (hnew : (block.height, block.storedBlock) ∉ store.pile) :
    (store.withBlock block).pile =
      PlacedBlock.deliver store.pile (block.height, block.storedBlock) := by
  ext placed
  rw [ReorgPile.mem_deliver_of_new hnew]
  unfold withBlock
  rw [hvalid.requiresRollback_eq hheight]
  by_cases hlow : block.height ≤ store.tipHeight
  · rw [if_pos hlow]
    simp only
    rw [mem_pile_applyBlock (hvalid.rollback hheight) hid hhash
      (hvalid.rollback_tip_lt hheight), mem_pile_rollback hheight,
      hvalid.stays_below_tip_iff hheight hlow]
  · rw [if_neg hlow]
    have habove : store.tipHeight < block.height := by omega
    by_cases hfork : store.tipHeight ≠ 0 ∧ block.parentHash ≠ "" ∧
        block.parentHash ≠ store.tipHash
    · have hpos := hvalid.tip_eq_zero_or.resolve_left hfork.1
      have hfrom : 1 ≤ block.height - 1 := by omega
      have hrolled := hvalid.rollback_tip_lt hfrom
      rw [if_pos hfork]
      simp only
      rw [mem_pile_applyBlock (hvalid.rollback hfrom) hid hhash (by omega),
        mem_pile_rollback hfrom]
      apply or_congr_right
      apply and_congr_right
      intro hmem
      have hle := (hvalid.le_tip_of_mem_pile hmem).2
      by_cases hnext : placed.1 + 1 = block.height
      · have hnot : ¬ placed.1 < block.height - 1 := by omega
        simp [hvalid.stays_next_iff habove hmem hnext, hnot, hfork]
      · have hlt : placed.1 < block.height - 1 := by omega
        simp [hvalid.stays_far habove hmem hnext, hlt]
    · rw [if_neg hfork]
      simp only
      rw [mem_pile_applyBlock hvalid hid hhash habove]
      apply or_congr_right
      constructor
      · intro hmem
        refine ⟨hmem, ?_⟩
        by_cases hnext : placed.1 + 1 = block.height
        · rw [hvalid.stays_next_iff habove hmem hnext]
          have hpos := hvalid.le_tip_of_mem_pile hmem
          by_contra hparent
          push Not at hparent
          exact hfork ⟨by omega, hparent⟩
        · exact hvalid.stays_far habove hmem hnext
      · intro hkept
        exact hkept.1

theorem Valid.pile_upsert
    (hvalid : store.Valid) (io : CleanIo) {event : Event}
    (htype : event.type ≠ "rollback") (hheight : 1 ≤ event.height)
    (hids : ∀ placed ∈ store.pile, placed.2.id = event.placed.2.id →
      placed = event.placed) :
    (store.upsert io.toIo event).1.pile =
      PlacedBlock.deliver store.pile event.placed := by
  rw [upsert_of_block store io.toIo htype]
  by_cases hseen : event.withType.withDefaults.id ∈ store.seen
  · obtain ⟨placed, hmem, hid⟩ := (hvalid.mem_seen_iff _).mp hseen
    rw [hids placed hmem hid] at hmem
    rw [PlacedBlock.deliver, ReorgPile.deliver_of_mem hmem]
    unfold FileEventStore.upsertBlock
    rw [if_pos hseen]
  · have hblock :
        (event.withType.withDefaults.height,
          event.withType.withDefaults.storedBlock) = event.placed := by
      rw [withDefaults_height, withType_height]
      rfl
    have hnew : event.placed ∉ store.pile := by
      intro hmem
      exact hseen ((hvalid.mem_seen_iff _).mpr ⟨event.placed, hmem, rfl⟩)
    cases hanswer : (store.upsertBlock io.toIo event.withType).2 with
    | error err =>
        exact absurd hanswer (upsertBlock_ne_error store _ _ _ _ err)
    | ok created =>
        have hcontents := upsertBlock_contents_of_ok hseen hanswer
        rw [← contents_withBlock] at hcontents
        have hpile := congrArg FileEventStore.pile hcontents
        rw [pile_contents, pile_contents] at hpile
        have hpos : 1 ≤ event.withType.withDefaults.height := by
          rw [withDefaults_height, withType_height]
          exact hheight
        rw [hpile, hvalid.pile_withBlock hpos (withDefaults_id_ne _)
          (withDefaults_blockHash_ne _) (hblock ▸ hnew), hblock]

end FileEventStore

/-! ## Runs -/

/-- Block events at positive heights among which an id names one block. -/
structure BlockPool (events : List Event) : Prop where
  blocks : ∀ event ∈ events, event.type ≠ "rollback" ∧ 1 ≤ event.height
  id_unique : ∀ event ∈ events, ∀ other ∈ events,
    event.placed.2.id = other.placed.2.id → event.placed = other.placed

namespace FileEventStore

/-- The store after a sequence of calls whose appends all succeed. -/
def afterClean (store : FileEventStore) (calls : List (CleanIo × Event)) :
    FileEventStore :=
  store.afterCalls (calls.map fun call => (call.1.toIo, call.2))

theorem pile_empty : FileEventStore.empty.pile = ∅ := by
  ext placed
  simp [pile, storedAt, FileEventStore.empty]

/-- Every block of the pile comes from an event of the pool. -/
def DrawnFrom (store : FileEventStore) (pool : List Event) : Prop :=
  ∀ placed ∈ store.pile, ∃ event ∈ pool, placed = event.placed

theorem empty_drawnFrom (pool : List Event) :
    FileEventStore.empty.DrawnFrom pool := by
  simp [DrawnFrom, pile_empty]

/-- A run over the events of a pool is a delivery of their blocks. -/
theorem Valid.pile_afterClean
    {pool : List Event} (hpool : BlockPool pool)
    {store : FileEventStore} (hvalid : store.Valid)
    (hpile : store.DrawnFrom pool)
    {calls : List (CleanIo × Event)} (hcalls : ∀ call ∈ calls, call.2 ∈ pool) :
    (store.afterClean calls).Valid ∧
      (store.afterClean calls).DrawnFrom pool ∧
      (store.afterClean calls).pile =
        PlacedBlock.deliverAll store.pile
          (calls.map fun call => call.2.placed) := by
  induction calls generalizing store with
  | nil => exact ⟨hvalid, hpile, rfl⟩
  | cons call rest ih =>
      obtain ⟨hcall, hrest⟩ := List.forall_mem_cons.mp hcalls
      obtain ⟨htype, hheight⟩ := hpool.blocks call.2 hcall
      have hids : ∀ placed ∈ store.pile,
          placed.2.id = call.2.placed.2.id → placed = call.2.placed := by
        intro placed hmem hid
        obtain ⟨event, hevent, rfl⟩ := hpile placed hmem
        exact hpool.id_unique event hevent call.2 hcall hid
      have hnext := hvalid.pile_upsert call.1 htype hheight hids
      have hnextValid :=
        (hvalid.upsert call.1.toIo ⟨call.2, Or.inr hheight⟩).1
      have hnextPile : (store.upsert call.1.toIo call.2).1.DrawnFrom pool := by
        intro placed hmem
        rw [hnext] at hmem
        rcases ReorgPile.mem_or_eq_of_mem_deliver hmem with rfl | hold
        · exact ⟨call.2, hcall, rfl⟩
        · exact hpile placed hold
      obtain ⟨hlastValid, hlastPile, hlast⟩ := ih hnextValid hnextPile hrest
      rw [hnext] at hlast
      exact ⟨hlastValid, hlastPile, hlast⟩

end FileEventStore

end SoulonWallet.Indexer
