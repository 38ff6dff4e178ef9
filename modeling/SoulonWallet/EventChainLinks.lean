import SoulonWallet.EventStoreInvariant

/-!
# Hash links of the indexed chain

A block above the tip is compared with the tip, and a parent that is not the
tip is rolled back.  A block at or below the tip replaces what is stored from
its height on, but its parent hash is not compared with the block that stays
below it.  The runs that keep the stored chain linked are therefore exactly
those in which every such block names the block below it.
-/

namespace SoulonWallet.Indexer

open LabelledRun

namespace FileEventStore

/-- A stored block that names a parent names the block stored below it. -/
def Linked (store : FileEventStore) : Prop :=
  ∀ height block child,
    store.eventsByHeight.lookup height = some block →
    store.eventsByHeight.lookup (height + 1) = some child →
    child.parentHash ≠ "" → child.parentHash = block.blockHash

/-- The block, if it names a parent, names the one stored below it. -/
def NamesParent (store : FileEventStore) (block : Event) : Prop :=
  ∀ parent, store.eventsByHeight.lookup (block.height - 1) = some parent →
    block.parentHash ≠ "" → block.parentHash = parent.blockHash

theorem Linked.rollback
    {store : FileEventStore} (hlinked : store.Linked)
    {fromHeight : ℤ} (hfrom : 1 ≤ fromHeight) :
    (store.rollback fromHeight).Linked := by
  intro height block child hblock hchild
  rw [lookup_rollback store hfrom] at hblock hchild
  split_ifs at hblock hchild
  exact hlinked height block child hblock hchild

theorem Valid.linked_applyBlock_iff
    {store : FileEventStore} (hvalid : store.Valid)
    (hlinked : store.Linked) {block : Event} (hid : block.id ≠ "")
    (hhash : block.blockHash ≠ "")
    (habove : store.tipHeight < block.height) :
    (store.applyBlock block).Linked ↔ store.NamesParent block := by
  rw [applyBlock_eq hid hhash habove]
  have hlookup :=
    (store.eventsByHeight.lookup_insert_eq block.height · block)
  constructor
  · intro hnext parent hparent hne
    apply hnext (block.height - 1) parent block _ _ hne
    · simp only [hlookup]
      rw [if_neg (by omega)]
      exact hparent
    · simp only [hlookup]
      rw [if_pos (by omega)]
  · intro hnames height parent child hparent hchild hne
    simp only [hlookup] at hparent hchild
    by_cases htop : height + 1 = block.height
    · rw [if_pos htop, Option.some.injEq] at hchild
      rw [if_neg (by omega)] at hparent
      subst hchild
      apply hnames parent _ hne
      rw [← htop, add_sub_cancel_right]
      exact hparent
    · rw [if_neg htop] at hchild
      by_cases hself : height = block.height
      · have hlow := hvalid.le_tip hchild
        omega
      · rw [if_neg hself] at hparent
        exact hlinked height parent child hparent hchild hne

theorem upsertBlock_ne_error
    (store : FileEventStore) (unixNano time time' : ℤ) (event : Event)
    (err : String) :
    (store.upsertBlock ⟨unixNano, .ok time, .ok time'⟩ event).2 ≠
      .error err := by
  unfold upsertBlock
  by_cases hseen : event.withDefaults.id ∈ store.seen
  · simp [hseen]
  · simp only [hseen, if_false]
    cases store.requiresRollback event.withDefaults with
    | none => simp [storeBlock, appendEvent]
    | some rollbackFrom => simp [storeBlock, appendEvent]

/-- A block that is not known and not above the tip names its parent. -/
def ChecksParent (store : FileEventStore) (block : Event) : Prop :=
  block.id ∉ store.seen → block.height ≤ store.tipHeight →
    store.NamesParent block

/-- Above the tip the fork check leaves only a parent that is named. -/
theorem Valid.namesParent_of_requiresRollback_none
    {store : FileEventStore} (hvalid : store.Valid) {block : Event}
    (hheight : 1 ≤ block.height)
    (hnone : store.requiresRollback block = none) :
    store.NamesParent block := by
  intro parent hparent hne
  have habove := hvalid.tip_lt_of_requiresRollback_none hheight hnone
  have hlow := hvalid.le_tip hparent
  have htip : block.height - 1 = store.tipHeight := by omega
  have hpos := (hvalid.stored _ _ hparent).1
  have hhash : store.tipHash = parent.blockHash := by
    rcases hvalid.tip with ⟨hzero, _⟩ | ⟨stored, hstored, hhash, _⟩
    · omega
    · rw [← htip, hparent, Option.some.injEq] at hstored
      rw [hhash, hstored]
  rw [hvalid.requiresRollback_eq hheight] at hnone
  split_ifs at hnone with hle hmismatch
  by_contra hdiffers
  exact hmismatch ⟨by omega, hne, by rw [hhash]; exact hdiffers⟩

/-- After the rollback for a new block its parent is the one stored before,
unless the rollback has dropped it. -/
theorem Valid.namesParent_rollback_iff
    {store : FileEventStore} (hvalid : store.Valid) {block : Event}
    {rollbackFrom : ℤ} (logged : FileEventStore)
    (hlogged : logged.eventsByHeight = store.eventsByHeight)
    (hheight : 1 ≤ block.height) (hnew : block.id ∉ store.seen)
    (hsome : store.requiresRollback block = some rollbackFrom) :
    (logged.rollback rollbackFrom).NamesParent block ↔
      store.ChecksParent block := by
  obtain ⟨hfrom, -⟩ := bounds_of_requiresRollback_some hsome
  have hparent :
      ∀ parent,
        (logged.rollback rollbackFrom).eventsByHeight.lookup
              (block.height - 1) = some parent ↔
          (block.height - 1 < rollbackFrom ∧
            store.eventsByHeight.lookup (block.height - 1) =
              some parent) := by
    intro parent
    rw [lookup_rollback _ hfrom]
    split_ifs with hge
    · simp only [false_iff, not_and]
      omega
    · have hlt : block.height - 1 < rollbackFrom := by omega
      simp only [hlt, true_and, hlogged]
  rw [hvalid.requiresRollback_eq hheight] at hsome
  split_ifs at hsome with hbelow hmismatch
  · rw [Option.some.injEq] at hsome
    subst hsome
    constructor
    · intro hnames _ _ parent hstored
      exact hnames parent ((hparent parent).mpr ⟨by omega, hstored⟩)
    · intro hchecks parent hstored
      exact hchecks hnew hbelow parent ((hparent parent).mp hstored).2
  · rw [Option.some.injEq] at hsome
    subst hsome
    constructor
    · intro _ _ hle
      exact absurd hle hbelow
    · intro _ parent hstored
      exact absurd ((hparent parent).mp hstored).1 (lt_irrefl _)

theorem Valid.upsertBlock_linked_iff
    {store : FileEventStore} (hvalid : store.Valid)
    (hlinked : store.Linked) (unixNano time time' : ℤ) {event : Event}
    (hheight : 1 ≤ event.height) :
    (store.upsertBlock ⟨unixNano, .ok time, .ok time'⟩ event).1.Linked ↔
      store.ChecksParent event.withDefaults := by
  have hblock : 1 ≤ event.withDefaults.height := by
    rw [withDefaults_height]
    exact hheight
  have hid := withDefaults_id_ne event
  have hhash := withDefaults_blockHash_ne event
  have hclean := store.upsertBlock_ne_error unixNano time time' event
  rcases store.upsertBlock_cases ⟨unixNano, .ok time, .ok time'⟩ event with
    ⟨hseen, hresult⟩ | ⟨_, err, hresult⟩ | ⟨hnew, hnone, logged, hresult⟩ |
    ⟨_, rollbackFrom, logged, err, _, hresult⟩ |
    ⟨hnew, rollbackFrom, logged, logged', hsome, hresult⟩
  · rw [hresult]
    simp [ChecksParent, hseen, hlinked]
  · exact absurd (congrArg Prod.snd hresult) (hclean err)
  · rw [hresult]
    have habove := hvalid.tip_lt_of_requiresRollback_none hblock hnone
    have hlower : ¬ event.withDefaults.height ≤ store.tipHeight := by omega
    have hchecks : store.ChecksParent event.withDefaults := by
      intro _ hle
      exact absurd hle hlower
    have happly :=
      (hvalid.logLine logged event.withDefaults).linked_applyBlock_iff
        hlinked hid hhash habove
    simp only [hchecks, iff_true]
    exact happly.mpr (hvalid.namesParent_of_requiresRollback_none hblock hnone)
  · exact absurd (congrArg Prod.snd hresult) (hclean err)
  · rw [hresult]
    generalize forcedRollback event.withDefaults rollbackFrom unixNano = line
    obtain ⟨hfrom, hle⟩ := bounds_of_requiresRollback_some hsome
    have hrolled := (hvalid.logLine logged line).rollback hfrom
    have hlow := (hvalid.logLine logged line).rollback_tip_lt hfrom
    have hloggedLinked : (store.logLine logged line).Linked := hlinked
    have hrolledLinked : ((store.logLine logged line).rollback
        rollbackFrom).Linked :=
      hloggedLinked.rollback hfrom
    have happly :=
      (hrolled.logLine logged' event.withDefaults).linked_applyBlock_iff
        hrolledLinked hid hhash (lt_of_lt_of_le hlow hle)
    rw [happly]
    exact hvalid.namesParent_rollback_iff (store.logLine logged line) rfl
      hblock hnew hsome

end FileEventStore

/-! ## Runs without append failures -/

structure CleanIo where
  unixNano : ℤ
  firstTime : ℤ
  secondTime : ℤ

def CleanIo.toIo (io : CleanIo) : Io :=
  ⟨io.unixNano, .ok io.firstTime, .ok io.secondTime⟩

def FileEventStore.cleanStep (store : FileEventStore)
    (call : CleanIo × Delivery) : Option FileEventStore :=
  store.step (call.1.toIo, call.2)

/-- The call is not a new block at or below the tip that names another
parent than the block stored below it. -/
def FileEventStore.KeepsLinks (store : FileEventStore)
    (call : CleanIo × Delivery) : Prop :=
  call.2.event.type ≠ "rollback" →
    store.ChecksParent call.2.event.withType.withDefaults

theorem FileEventStore.Valid.step_linked_iff
    {store next : FileEventStore} (hvalid : store.Valid)
    (hlinked : store.Linked) {call : CleanIo × Delivery}
    (hstep : store.cleanStep call = some next) :
    next.Linked ↔ store.KeepsLinks call := by
  rcases call with ⟨io, event, hheight⟩
  have hnext : next = (store.upsert io.toIo event).1 :=
    (Option.some.inj hstep).symm
  rw [hnext]
  by_cases htype : event.type = "rollback"
  · have hkeeps : store.KeepsLinks (io, ⟨event, hheight⟩) := by
      intro hblock
      exact absurd htype hblock
    simp only [hkeeps, iff_true]
    rw [upsert_of_rollback store io.toIo htype]
    unfold FileEventStore.upsertRollback
    by_cases hfrom : event.withType.rollbackFrom ≤ 0
    · simp [hfrom, hlinked]
    · simp only [hfrom, if_false, appendEvent, CleanIo.toIo]
      apply Linked.rollback _ (by omega)
      exact hlinked
  · have hkeeps :
        store.KeepsLinks (io, ⟨event, hheight⟩) ↔
          store.ChecksParent event.withType.withDefaults := by
      simp [KeepsLinks, htype]
    rw [hkeeps, upsert_of_block store io.toIo htype]
    apply hvalid.upsertBlock_linked_iff hlinked
    rw [withType_height]
    exact hheight.resolve_left htype

/-- The stored chain is linked in every state of a run exactly when every
new block that arrives at or below the tip names the block stored below
it. -/
theorem FileEventStore.run_linked_iff
    (calls : List (CleanIo × Delivery)) :
    (∀ store,
        Visits FileEventStore.cleanStep FileEventStore.empty calls store →
        store.Linked) ↔
      Guarded FileEventStore.cleanStep FileEventStore.KeepsLinks
        FileEventStore.empty calls := by
  apply forall_visits_iff_guarded FileEventStore.Valid FileEventStore.Linked
  · intro store call next hvalid hstep
    have hnext := (Option.some.inj hstep).symm
    subst hnext
    exact (hvalid.upsert call.1.toIo call.2).1
  · intro store call next hvalid hlinked hstep
    exact hvalid.step_linked_iff hlinked hstep
  · exact FileEventStore.empty_valid
  · intro height block child hblock
    simp [FileEventStore.empty] at hblock

def strayBlock : Delivery where
  event :=
    { id := "h2-b", height := 2, blockHash := "h2-b",
      parentHash := "elsewhere" }
  height_pos := Or.inr (by decide)

theorem run_not_linked :
    ¬ ∀ (calls : List (CleanIo × Delivery)) (store : FileEventStore),
      exec FileEventStore.cleanStep FileEventStore.empty calls =
        some store → store.Linked := by
  intro hall
  let calls : List (CleanIo × Delivery) :=
    [(⟨0, 0, 0⟩, firstBlock), (⟨0, 0, 0⟩, secondBlock),
      (⟨0, 0, 0⟩, strayBlock)]
  have hlinked := hall calls _ rfl
  have hparent := hlinked 1 firstBlock.event.withType.withDefaults
    strayBlock.event.withType.withDefaults (by decide) (by decide)
    (by decide)
  exact absurd hparent (by decide)

end SoulonWallet.Indexer
