import SoulonWallet.EventBlockPile

/-!
# Redelivery and delivery order

An at-least-once queue delivers a suffix of its events again after a restart,
and partitions deliver a chain in any order.  Both are words of deliveries to
a pile.  The seen set only knows the blocks that are stored now, so a block
that a reorganization has removed is new when it comes again; it stays when
nothing is stored at its height.  A block that arrives after a higher one
removes it for good.
-/

namespace SoulonWallet.Indexer

/-! ## Redelivery of a suffix -/

/-- Events of one tree of blocks, each after the event of its parent.  The id
of an event is the hash of its block, which names one block. -/
structure BlockTree (events : List Event) : Prop where
  blocks : ∀ event ∈ events, event.type ≠ "rollback" ∧ 1 ≤ event.height
  named : ∀ event ∈ events,
    event.id = event.blockHash ∧ event.blockHash ≠ ""
  hash_unique : ∀ event ∈ events, ∀ other ∈ events,
    event.blockHash = other.blockHash →
      event.height = other.height ∧ event.parentHash = other.parentHash
  parent : ∀ child : Fin events.length,
    (events.get child).height = 1 ∧ (events.get child).parentHash = "" ∨
      ∃ parent < child,
        (events.get parent).height + 1 = (events.get child).height ∧
          (events.get parent).blockHash = (events.get child).parentHash

theorem placed_of_named
    {event : Event} (hid : event.id ≠ "") (hhash : event.blockHash ≠ "") :
    event.placed = (event.height, event.storedBlock) := by
  unfold Event.placed Event.withType
  split_ifs <;>
    simp [Event.withDefaults, Event.withId, Event.withBlockHash, hid, hhash,
      Event.storedBlock]

theorem BlockTree.pool {events : List Event} (htree : BlockTree events) :
    BlockPool events := by
  have hplaced : ∀ event ∈ events,
      event.placed = (event.height, event.storedBlock) := by
    intro event hevent
    obtain ⟨hid, hhash⟩ := htree.named event hevent
    exact placed_of_named (hid ▸ hhash) hhash
  refine ⟨htree.blocks, ?_⟩
  intro event hevent other hother hid
  rw [hplaced event hevent, hplaced other hother] at hid ⊢
  change event.id = other.id at hid
  have hhash : event.blockHash = other.blockHash := by
    rw [← (htree.named event hevent).1, ← (htree.named other hother).1, hid]
  obtain ⟨hheight, hparent⟩ := htree.hash_unique event hevent other hother hhash
  simp [Event.storedBlock, hheight, hid, hhash, hparent]

namespace FileEventStore

/-- The same blocks at the same heights, the same tip and the same total. -/
structure SameBlocks (left right : FileEventStore) : Prop where
  stored : ∀ height, left.storedAt height = right.storedAt height
  tipHeight : left.tipHeight = right.tipHeight
  tipHash : left.tipHash = right.tipHash
  total : left.count = right.count

theorem Valid.sameBlocks
    {left right : FileEventStore} (hleft : left.Valid) (hright : right.Valid)
    (hpile : left.pile = right.pile) : left.SameBlocks right := by
  have hstored := storedAt_eq_of_pile_eq hpile
  obtain ⟨htip, hhash, hcount⟩ := hleft.state_eq_of_storedAt hright hstored
  exact ⟨hstored, htip, hhash, hcount⟩

/-- A redelivered suffix changes nothing when each of its events finds some
block at its height. -/
theorem redelivered_sameBlocks
    (delivered again : List (CleanIo × Event))
    (htree : BlockTree (delivered.map Prod.snd))
    (hsuffix : again.map Prod.snd <:+ delivered.map Prod.snd)
    (hheights : ∀ call ∈ again,
      (FileEventStore.empty.afterClean delivered).storedAt call.2.height ≠
        none) :
    ((FileEventStore.empty.afterClean delivered).afterClean again).SameBlocks
      (FileEventStore.empty.afterClean delivered) := by
  have hpool := htree.pool
  have hcalls : ∀ call ∈ delivered, call.2 ∈ delivered.map Prod.snd :=
    fun call hcall => List.mem_map_of_mem hcall
  have hcallsAgain : ∀ call ∈ again, call.2 ∈ delivered.map Prod.snd :=
    fun call hcall => hsuffix.subset (List.mem_map_of_mem hcall)
  obtain ⟨honce, hdrawn, hpile⟩ :=
    empty_valid.pile_afterClean hpool (empty_drawnFrom _) hcalls
  obtain ⟨htwice, _, hpileAgain⟩ :=
    honce.pile_afterClean hpool hdrawn hcallsAgain
  obtain ⟨front, hsplit⟩ := hsuffix
  have hwords :
      (delivered.map fun call => call.2.placed) =
        front.map Event.placed ++ again.map fun call => call.2.placed := by
    have hmap := congrArg (List.map Event.placed) hsplit.symm
    simpa [List.map_append, List.map_map, Function.comp_def] using hmap
  rw [hwords, PlacedBlock.deliverAll, ReorgPile.deliverAll_append] at hpile
  apply htwice.sameBlocks honce
  rw [hpileAgain, hpile]
  apply ReorgPile.deliverAll_again
  · apply ReorgPile.injOn_deliverAll
    exact injOn_pile FileEventStore.empty
  · intro placed hplaced
    obtain ⟨call, hcall, rfl⟩ := List.mem_map.mp hplaced
    obtain ⟨stored, hstored⟩ :=
      Option.ne_none_iff_exists'.mp (hheights call hcall)
    have hmem : (call.2.height, stored) ∈
        (FileEventStore.empty.afterClean delivered).pile := hstored
    rw [hpile] at hmem
    exact ⟨_, hmem, rfl⟩

end FileEventStore

def treeBlock (hash : String) (height : ℤ) (parentHash : String) : Event :=
  { id := hash, height, blockHash := hash, parentHash }

/-- A chain of four blocks and then a second block at height two. -/
def forkedTree : List Event :=
  [treeBlock "a1" 1 "", treeBlock "a2" 2 "a1", treeBlock "a3" 3 "a2",
    treeBlock "a4" 4 "a3", treeBlock "b2" 2 "a1"]

theorem forkedTree_blockTree : BlockTree forkedTree :=
  ⟨by decide, by decide, by decide, by decide⟩

def cleanCalls (events : List Event) : List (CleanIo × Event) :=
  events.map fun event => (⟨0, 0, 0⟩, event)

/-- The fork has removed three blocks.  The last of them comes again before
the fork and finds nothing at its height or right below it, so that the fork,
which is stored, does not remove it a second time. -/
theorem redelivered_orphan_stays :
    let delivered := cleanCalls forkedTree
    let again := cleanCalls [treeBlock "a4" 4 "a3", treeBlock "b2" 2 "a1"]
    let once := FileEventStore.empty.afterClean delivered
    let twice := once.afterClean again
    BlockTree (delivered.map Prod.snd) ∧
      again.map Prod.snd <:+ delivered.map Prod.snd ∧
      once.state = ⟨2, "b2", 2, 1⟩ ∧ twice.state = ⟨4, "a4", 3, 2⟩ ∧
      ¬ twice.SameBlocks once := by
  refine ⟨forkedTree_blockTree, by decide, by decide, by decide, ?_⟩
  intro hsame
  exact absurd hsame.tipHeight (by decide)

/-- Two siblings, both redelivered: the height they share stays occupied. -/
def siblingTree : List Event :=
  [treeBlock "a1" 1 "", treeBlock "a2" 2 "a1", treeBlock "b2" 2 "a1"]

theorem redelivered_siblings_sameBlocks :
    ((FileEventStore.empty.afterClean (cleanCalls siblingTree)).afterClean
        (cleanCalls [treeBlock "a2" 2 "a1", treeBlock "b2" 2 "a1"])).SameBlocks
      (FileEventStore.empty.afterClean (cleanCalls siblingTree)) :=
  FileEventStore.redelivered_sameBlocks (cleanCalls siblingTree)
    (cleanCalls [treeBlock "a2" 2 "a1", treeBlock "b2" 2 "a1"])
    ⟨by decide, by decide, by decide, by decide⟩ (by decide) (by decide)

/-! ## A chain in any order -/

/-- The events of the blocks `1..n` of one chain. -/
structure LinearChain (chain : ℕ → Event) (n : ℕ) : Prop where
  blocks : ∀ i, 1 ≤ i → i ≤ n →
    (chain i).type ≠ "rollback" ∧ (chain i).height = i ∧
      (chain i).blockHash ≠ ""
  linked : ∀ i, 1 ≤ i → i < n →
    (chain (i + 1)).parentHash = (chain i).blockHash
  id_unique : ∀ i j, 1 ≤ i → i ≤ n → 1 ≤ j → j ≤ n →
    (chain i).placed.2.id = (chain j).placed.2.id → i = j

variable {chain : ℕ → Event} {n : ℕ}

theorem LinearChain.pool (hchain : LinearChain chain n) :
    BlockPool ((List.range' 1 n).map chain) := by
  constructor
  · intro event hevent
    obtain ⟨i, hi, rfl⟩ := List.mem_map.mp hevent
    rw [List.mem_range'_1] at hi
    obtain ⟨htype, hheight, _⟩ := hchain.blocks i hi.1 (by omega)
    exact ⟨htype, by omega⟩
  · intro event hevent other hother hid
    obtain ⟨i, hi, rfl⟩ := List.mem_map.mp hevent
    obtain ⟨j, hj, rfl⟩ := List.mem_map.mp hother
    rw [List.mem_range'_1] at hi hj
    rw [hchain.id_unique i j hi.1 (by omega) hj.1 (by omega) hid]

theorem placed_blockHash
    {event : Event} (hhash : event.blockHash ≠ "") :
    event.placed.2.blockHash = event.blockHash := by
  unfold Event.placed Event.withType Event.withDefaults Event.withBlockHash
    Event.withId
  split_ifs <;> simp_all [Event.storedBlock]

theorem placed_parentHash (event : Event) :
    event.placed.2.parentHash = event.parentHash := by
  unfold Event.placed Event.withType Event.withDefaults Event.withBlockHash
    Event.withId
  split_ifs <;> rfl

theorem LinearChain.placed_height
    (hchain : LinearChain chain n) {i : ℕ} (hpos : 1 ≤ i) (hle : i ≤ n) :
    (chain i).placed.1 = i :=
  (hchain.blocks i hpos hle).2.1

/-- The first `m` blocks of the chain. -/
def chainBlocks (chain : ℕ → Event) (m : ℕ) : Set PlacedBlock :=
  { placed | ∃ i, 1 ≤ i ∧ i ≤ m ∧ placed = (chain i).placed }

theorem chainBlocks_succ (chain : ℕ → Event) (m : ℕ) :
    chainBlocks chain (m + 1) =
      insert (chain (m + 1)).placed (chainBlocks chain m) := by
  ext placed
  constructor
  · rintro ⟨i, hpos, hle, rfl⟩
    rcases Nat.eq_or_lt_of_le hle with rfl | hlt
    · exact Set.mem_insert _ _
    · exact Set.mem_insert_of_mem _ ⟨i, hpos, by omega, rfl⟩
  · rintro (rfl | ⟨i, hpos, hle, rfl⟩)
    · exact ⟨m + 1, by omega, le_rfl, rfl⟩
    · exact ⟨i, hpos, by omega, rfl⟩

/-- In order, each block is put on the one before it. -/
theorem LinearChain.deliver_ascending
    (hchain : LinearChain chain n) {m : ℕ} (hm : m ≤ n) :
    PlacedBlock.deliverAll ∅
        ((List.range' 1 m).map fun i => (chain i).placed) =
      chainBlocks chain m := by
  induction m with
  | zero =>
      ext placed
      constructor
      · intro hmem
        exact absurd hmem (Set.notMem_empty placed)
      · rintro ⟨i, hpos, hle, _⟩
        omega
  | succ m ih =>
      have hheight := hchain.placed_height (by omega) hm
      rw [List.range'_1_concat, List.map_append, PlacedBlock.deliverAll,
        ReorgPile.deliverAll_append]
      change ReorgPile.deliver _ _ (PlacedBlock.deliverAll _ _) _ = _
      rw [ih (by omega), add_comm 1 m, chainBlocks_succ,
        ReorgPile.deliver_eq_insert]
      · rintro placed ⟨i, hpos, hle, rfl⟩
        have hlower := hchain.placed_height hpos (by omega)
        rw [hlower, hheight]
        exact_mod_cast Nat.lt_succ_of_le hle
      · rintro placed ⟨i, hpos, hle, rfl⟩ hnext
        have hlower := hchain.placed_height hpos (by omega)
        rw [hlower, hheight] at hnext
        obtain rfl : i = m := by omega
        right
        rw [placed_parentHash, hchain.linked i hpos (by omega),
          placed_blockHash (hchain.blocks i hpos (by omega)).2.2]

namespace FileEventStore

/-- The store holds all blocks of the chain and its tip is the last one. -/
def HoldsChain (store : FileEventStore) (chain : ℕ → Event) (n : ℕ) : Prop :=
  (∀ i : ℕ, 1 ≤ i → i ≤ n →
    store.storedAt i = some (chain i).placed.2) ∧
    store.tipHeight = n

theorem Valid.holdsChain_of_pile
    {store : FileEventStore} (hvalid : store.Valid)
    (hchain : LinearChain chain n) (hpile : store.pile = chainBlocks chain n) :
    store.HoldsChain chain n := by
  have hmem : ∀ i : ℕ, 1 ≤ i → i ≤ n →
      ((i : ℤ), (chain i).placed.2) ∈ store.pile := by
    intro i hpos hle
    rw [hpile, ← hchain.placed_height hpos hle]
    exact ⟨i, hpos, hle, rfl⟩
  refine ⟨hmem, ?_⟩
  by_cases hzero : store.tipHeight = 0
  · by_contra hne
    have hn : 1 ≤ n := by omega
    have hle := (hvalid.le_tip_of_mem_pile (hmem n hn le_rfl)).2
    omega
  · obtain ⟨stored, hstored, _⟩ := hvalid.exists_tip hzero
    rw [hpile] at hstored
    obtain ⟨i, hpos, hle, heq⟩ := hstored
    have htip : store.tipHeight = i :=
      (congrArg Prod.fst heq).trans (hchain.placed_height hpos hle)
    have hn := (hvalid.le_tip_of_mem_pile (hmem n (by omega) le_rfl)).2
    omega

/-- Delivered once each, the blocks of a chain are all stored exactly when
they arrive in the order of their heights. -/
theorem holdsChain_iff_ascending
    (hchain : LinearChain chain n) (io : ℕ → CleanIo) (order : List ℕ)
    (horder : order.Perm (List.range' 1 n)) :
    (FileEventStore.empty.afterClean
        (order.map fun i => (io i, chain i))).HoldsChain chain n ↔
      order = List.range' 1 n := by
  have hbounds : ∀ i ∈ order, 1 ≤ i ∧ i ≤ n := by
    intro i hi
    have hrange := horder.mem_iff.mp hi
    rw [List.mem_range'_1] at hrange
    omega
  have hcalls : ∀ call ∈ order.map fun i => (io i, chain i),
      call.2 ∈ (List.range' 1 n).map chain := by
    intro call hcall
    obtain ⟨i, hi, rfl⟩ := List.mem_map.mp hcall
    exact List.mem_map_of_mem (horder.mem_iff.mp hi)
  obtain ⟨hvalid, _, hpile⟩ :=
    empty_valid.pile_afterClean hchain.pool (empty_drawnFrom _) hcalls
  rw [pile_empty, List.map_map] at hpile
  change _ = PlacedBlock.deliverAll ∅
    (order.map fun i => (chain i).placed) at hpile
  constructor
  · intro hholds
    have hall : ∀ placed ∈ order.map fun i => (chain i).placed,
        placed ∈ PlacedBlock.deliverAll ∅
          (order.map fun i => (chain i).placed) := by
      intro placed hplaced
      obtain ⟨i, hi, rfl⟩ := List.mem_map.mp hplaced
      obtain ⟨hpos, hle⟩ := hbounds i hi
      rw [← hpile]
      change storedAt _ (chain i).placed.1 = _
      rw [hchain.placed_height hpos hle]
      exact hholds.1 i hpos hle
    have hnodup : (order.map fun i => (chain i).placed).Nodup := by
      apply List.Nodup.map_on _ (horder.nodup_iff.mpr (List.nodup_range' 1))
      intro i hi j hj heq
      obtain ⟨hpos, hle⟩ := hbounds i hi
      obtain ⟨hpos', hle'⟩ := hbounds j hj
      have hheights := congrArg Prod.fst heq
      rw [hchain.placed_height hpos hle,
        hchain.placed_height hpos' hle'] at hheights
      exact_mod_cast hheights
    have hascending :=
      ReorgPile.ascending_of_forall_mem hnodup
        (fun placed _ => Set.notMem_empty placed) hall
    have hsorted : order.Pairwise (· < ·) := by
      apply (List.pairwise_map.mp hascending).imp_of_mem
      intro i j hi hj hlt
      obtain ⟨hpos, hle⟩ := hbounds i hi
      obtain ⟨hpos', hle'⟩ := hbounds j hj
      rw [hchain.placed_height hpos hle,
        hchain.placed_height hpos' hle'] at hlt
      exact_mod_cast hlt
    apply horder.eq_of_pairwise _ hsorted (List.pairwise_lt_range' 1)
    intro i j _ _ hlt hgt
    omega
  · intro hsorted
    rw [hsorted, hchain.deliver_ascending le_rfl] at hpile
    rw [hsorted]
    rw [hsorted] at hvalid
    exact hvalid.holdsChain_of_pile hchain hpile

end FileEventStore

def linkedPair : ℕ → Event
  | 1 => treeBlock "a1" 1 ""
  | _ => treeBlock "a2" 2 "a1"

theorem linkedPair_linearChain : LinearChain linkedPair 2 where
  blocks := by
    intro i hpos hle
    interval_cases i <;> decide
  linked := by
    intro i hpos hlt
    interval_cases i
    decide
  id_unique := by
    intro i j hpos hle hpos' hle'
    interval_cases i <;> interval_cases j <;> decide

theorem holdsChain_linkedPair :
    (FileEventStore.empty.afterClean
      ([1, 2].map fun i => (⟨0, 0, 0⟩, linkedPair i))).HoldsChain
        linkedPair 2 :=
  (FileEventStore.holdsChain_iff_ascending linkedPair_linearChain
    (fun _ => ⟨0, 0, 0⟩) [1, 2] (by decide)).mpr rfl

/-- The first block arrives late, is taken for a fork and removes the second
one, which will not come again. -/
theorem not_holdsChain_reversed :
    LinearChain linkedPair 2 ∧ [2, 1].Perm (List.range' 1 2) ∧
      ¬ (FileEventStore.empty.afterClean
        ([2, 1].map fun i => (⟨0, 0, 0⟩, linkedPair i))).HoldsChain
          linkedPair 2 := by
  refine ⟨linkedPair_linearChain, by decide, ?_⟩
  intro hholds
  exact absurd hholds.2 (by decide)

end SoulonWallet.Indexer
