import SoulonWallet.EventStoreReplay

/-!
# Retrying a failed upsert

A forked block costs two appends.  When the second one fails, the rollback
has already happened, and the retry runs the fork check again on what the
rollback has left.  The retry repeats the clean call exactly when that second
check finds nothing to roll back.
-/

namespace SoulonWallet.Indexer

namespace FileEventStore

/-! ## The store without its log -/

/-- The stored blocks, the seen set, the tip and the number of reorgs. -/
def contents (store : FileEventStore) : FileEventStore :=
  { store with log := [] }

theorem contents_logLine
    (store : FileEventStore) (time : ℤ) (line : Event) :
    (store.logLine time line).contents = store.contents := rfl

theorem foldl_dropFrom_contents
    (fromHeight : ℤ) (entries : List (Sigma fun _ : ℤ => Event))
    (store : FileEventStore) :
    (entries.foldl (dropFrom fromHeight) store).contents =
      entries.foldl (dropFrom fromHeight) store.contents := by
  induction entries generalizing store with
  | nil => rfl
  | cons entry rest ih =>
      have hdrop :
          (dropFrom fromHeight store entry).contents =
            dropFrom fromHeight store.contents entry := by
        unfold dropFrom
        split_ifs <;> rfl
      rw [List.foldl_cons, List.foldl_cons, ih, hdrop]

theorem contents_rollback (store : FileEventStore) (fromHeight : ℤ) :
    (store.rollback fromHeight).contents =
      store.contents.rollback fromHeight := by
  unfold rollback applyRollback
  split_ifs with hfrom
  · rfl
  · have hfold :=
      foldl_dropFrom_contents fromHeight store.eventsByHeight.entries store
    have hcontents :
        store.contents.eventsByHeight.entries =
          store.eventsByHeight.entries := rfl
    rw [hcontents, ← hfold]
    rfl

theorem contents_applyBlock (store : FileEventStore) (event : Event) :
    (store.applyBlock event).contents =
      store.contents.applyBlock event := by
  rw [applyBlock_named, applyBlock_named]
  rfl

/-! ## The fork check after the rollback -/

theorem rollback_tip_cases
    (store : FileEventStore) {fromHeight : ℤ} (hfrom : 1 ≤ fromHeight) :
    let rolled := store.rollback fromHeight
    (rolled.tipHeight = 0 ∧
      ∀ height, 0 ≤ height → height < fromHeight →
        store.eventsByHeight.lookup height = none) ∨
    ∃ height current, 0 ≤ height ∧ height < fromHeight ∧
      store.eventsByHeight.lookup height = some current ∧
      rolled.tipHeight = height ∧ rolled.tipHash = current.blockHash ∧
      ∀ other, height < other → other < fromHeight →
        store.eventsByHeight.lookup other = none := by
  intro rolled
  have hlookup := lookup_rollback store hfrom
  have hkept : ∀ height event, height < fromHeight →
      store.eventsByHeight.lookup height = some event →
      ⟨height, event⟩ ∈ rolled.eventsByHeight.entries := by
    intro height event hlow hevent
    rw [KeyedMap.mem_entries_iff, hlookup, if_neg (by omega)]
    exact hevent
  have htip : (rolled.tipHeight, rolled.tipHash) =
      rolled.eventsByHeight.entries.foldl
        (KeyedMap.higher Event.blockHash) (0, "") := by
    have hrecalculated : rolled.recalculateTip = rolled :=
      recalculateTip_rollback store hfrom
    rw [← hrecalculated]
    rfl
  rcases KeyedMap.foldl_higher Event.blockHash rolled.eventsByHeight.entries
    (0, "") with ⟨hresult, hbelow⟩ | ⟨best, hmem, hresult, hstart, hbest⟩
  · left
    rw [hresult] at htip
    refine ⟨congrArg Prod.fst htip, ?_⟩
    intro height hpos hlow
    cases hevent : store.eventsByHeight.lookup height with
    | none => rfl
    | some event =>
        have hneg := hbelow ⟨height, event⟩ (hkept height event hlow hevent)
        simp only at hneg
        omega
  · right
    rw [hresult] at htip
    have hevent := KeyedMap.mem_entries_iff.mp hmem
    rw [hlookup] at hevent
    split_ifs at hevent with hhigh
    refine ⟨best.1, best.2, hstart, by omega, hevent,
      congrArg Prod.fst htip, congrArg Prod.snd htip, ?_⟩
    intro other habove hlow
    cases hother : store.eventsByHeight.lookup other with
    | none => rfl
    | some event =>
        have hle := hbest ⟨other, event⟩ (hkept other event hlow hother)
        simp only at hle
        omega

/-- The highest block below `fromHeight` is not the parent that the block
names. -/
def ForksBelow (store : FileEventStore) (fromHeight : ℤ) (block : Event) :
    Prop :=
  ∃ height current, 1 ≤ height ∧ height < fromHeight ∧
    store.eventsByHeight.lookup height = some current ∧
    (∀ other, height < other → other < fromHeight →
      store.eventsByHeight.lookup other = none) ∧
    current.blockHash ≠ "" ∧ block.parentHash ≠ "" ∧
    block.parentHash ≠ current.blockHash

theorem requiresRollback_rollback
    (store : FileEventStore) {fromHeight : ℤ} {block : Event}
    (hfrom : 1 ≤ fromHeight) (hle : fromHeight ≤ block.height) :
    (store.rollback fromHeight).requiresRollback block ≠ none ↔
      store.ForksBelow fromHeight block := by
  have hpos : ¬ block.height ≤ 0 := by omega
  have hgone :
      (store.rollback fromHeight).eventsByHeight.lookup block.height =
        none := by
    rw [lookup_rollback store hfrom, if_pos hle]
  unfold requiresRollback requiresRollback.belowTip
  simp only [hpos, if_false, hgone]
  rcases store.rollback_tip_cases hfrom with
    ⟨hzero, hnone⟩ | ⟨height, current, hstart, hlow, hcurrent, htip, hhash,
      hhighest⟩
  · constructor
    · intro h
      simp [hzero] at h
    · intro hforks
      rcases hforks with ⟨height, current, hheight, hlow, hcurrent, _⟩
      rw [hnone height (by omega) hlow] at hcurrent
      contradiction
  · have hsame : ∀ height' current', 1 ≤ height' → height' < fromHeight →
        store.eventsByHeight.lookup height' = some current' →
        (∀ other, height' < other → other < fromHeight →
          store.eventsByHeight.lookup other = none) →
        height' = height ∧ current' = current := by
      intro height' current' _ hlow' hcurrent' hhighest'
      have hheight : height' = height := by
        rcases lt_trichotomy height' height with hlt | heq | hlt
        · rw [hhighest' height hlt hlow] at hcurrent
          contradiction
        · exact heq
        · rw [hhighest height' hlt hlow'] at hcurrent'
          contradiction
      rw [hheight, hcurrent, Option.some.injEq] at hcurrent'
      exact ⟨hheight, hcurrent'.symm⟩
    have hnotBelow : ¬ block.height ≤ height := by omega
    rw [htip, hhash]
    by_cases hbottom : height = 0
    · constructor
      · intro h
        simp [hbottom] at h
      · intro hforks
        rcases hforks with
          ⟨height', current', hheight', hlow', hcurrent', hhighest', _⟩
        obtain ⟨rfl, _⟩ :=
          hsame height' current' hheight' hlow' hcurrent' hhighest'
        omega
    · simp only [hbottom, if_false, hnotBelow]
      constructor
      · intro h
        split_ifs at h with hforks hfirst
        · exact ⟨height, current, by omega, hlow, hcurrent, hhighest, hforks⟩
        · exact ⟨height, current, by omega, hlow, hcurrent, hhighest, hforks⟩
        · contradiction
      · intro hforks
        rcases hforks with
          ⟨height', current', hheight', hlow', hcurrent', hhighest', hnames⟩
        obtain ⟨rfl, rfl⟩ :=
          hsame height' current' hheight' hlow' hcurrent' hhighest'
        rw [if_pos hnames]
        split_ifs <;> simp

/-! ## Failed and successful calls -/

/-- The store after a new block has been stored without a failure. -/
def withBlock (store : FileEventStore) (block : Event) : FileEventStore :=
  match store.requiresRollback block with
  | none => store.applyBlock block
  | some rollbackFrom => (store.rollback rollbackFrom).applyBlock block

theorem contents_withBlock (store : FileEventStore) (block : Event) :
    (store.withBlock block).contents = store.contents.withBlock block := by
  have hcheck :
      store.contents.requiresRollback block =
        store.requiresRollback block := rfl
  unfold withBlock
  rw [hcheck]
  cases store.requiresRollback block with
  | none => exact contents_applyBlock store block
  | some rollbackFrom =>
      simp only
      rw [contents_applyBlock, contents_rollback]

theorem upsertBlock_contents_of_ok
    {store : FileEventStore} {io : Io} {event : Event} {created : Bool}
    (hnew : event.withDefaults.id ∉ store.seen)
    (hok : (store.upsertBlock io event).2 = .ok created) :
    (store.upsertBlock io event).1.contents =
      store.contents.withBlock event.withDefaults := by
  rw [← contents_withBlock]
  unfold withBlock
  rcases store.upsertBlock_cases io event with
    ⟨hseen, _⟩ | ⟨_, err, hresult⟩ | ⟨_, hnone, time, hresult⟩ |
    ⟨_, rollbackFrom, time, err, _, hresult⟩ |
    ⟨_, rollbackFrom, time, time', hsome, hresult⟩
  · exact absurd hseen hnew
  · simp [hresult] at hok
  · rw [hresult, hnone]
    simp only
    rw [contents_applyBlock, contents_applyBlock, contents_logLine]
  · simp [hresult] at hok
  · rw [hresult, hsome]
    simp only
    rw [contents_applyBlock, contents_applyBlock, contents_logLine,
      contents_rollback, contents_rollback, contents_logLine]

/-- A failed call for a block has changed nothing, or its rollback has been
logged and done. -/
theorem upsertBlock_cases_of_error
    {store : FileEventStore} {io : Io} {event : Event} {err : String}
    (herr : (store.upsertBlock io event).2 = .error err) :
    event.withDefaults.id ∉ store.seen ∧
      (((∃ cause, io.firstAppend = .error cause) ∧
          (store.upsertBlock io event).1 = store) ∨
        ((∃ time, io.firstAppend = .ok time) ∧
          ∃ rollbackFrom,
            store.requiresRollback event.withDefaults = some rollbackFrom ∧
            (store.upsertBlock io event).1.contents =
              store.contents.rollback rollbackFrom)) := by
  have hnew : event.withDefaults.id ∉ store.seen := by
    intro hseen
    simp [upsertBlock, hseen] at herr
  refine ⟨hnew, ?_⟩
  rw [upsertBlock_of_new store io hnew] at herr ⊢
  cases hrollback : store.requiresRollback event.withDefaults with
  | none =>
      rw [hrollback] at herr
      cases hfirst : io.firstAppend with
      | error cause =>
          left
          exact ⟨⟨cause, rfl⟩, by simp [storeBlock, appendEvent]⟩
      | ok time => simp [storeBlock, appendEvent, hfirst] at herr
  | some rollbackFrom =>
      rw [hrollback] at herr
      cases hfirst : io.firstAppend with
      | error cause =>
          left
          exact ⟨⟨cause, rfl⟩, by simp [appendEvent]⟩
      | ok time =>
          right
          refine ⟨⟨time, rfl⟩, rollbackFrom, rfl, ?_⟩
          cases hsecond : io.secondAppend with
          | error cause =>
              simp only [appendEvent, storeBlock]
              rw [contents_rollback, contents_logLine]
          | ok time' =>
              simp [appendEvent, storeBlock, hfirst, hsecond] at herr

theorem withBlock_reorgs (store : FileEventStore) (block : Event) :
    (store.withBlock block).reorgs =
      if store.requiresRollback block = none then store.reorgs
      else store.reorgs + 1 := by
  unfold withBlock
  cases store.requiresRollback block with
  | none =>
      simp only [applyBlock_named]
      rfl
  | some rollbackFrom =>
      simp only [applyBlock_named]
      rfl

/-- Storing the block again after its rollback gives the same store, unless
the fork check finds something else to roll back. -/
theorem withBlock_rollback_iff
    (store : FileEventStore) {block : Event} {rollbackFrom : ℤ}
    (hsome : store.requiresRollback block = some rollbackFrom) :
    (store.rollback rollbackFrom).withBlock block = store.withBlock block ↔
      ¬ store.ForksBelow rollbackFrom block := by
  obtain ⟨hfrom, hle⟩ := bounds_of_requiresRollback_some hsome
  have hclean :
      store.withBlock block =
        (store.rollback rollbackFrom).applyBlock block := by
    unfold withBlock
    rw [hsome]
  rw [← requiresRollback_rollback store hfrom hle, not_not]
  constructor
  · intro heq
    by_contra hagain
    have hreorgs := congrArg FileEventStore.reorgs heq
    rw [withBlock_reorgs, withBlock_reorgs, hsome, if_neg hagain] at hreorgs
    change store.reorgs + 1 + 1 = store.reorgs + 1 at hreorgs
    omega
  · intro hnone
    rw [hclean]
    unfold withBlock
    rw [hnone]

/-! ## The retry -/

/-- The failed call gets past its rollback, and below the height it rolls
back from the store holds another block than the parent of the new one. -/
def Reforks (store : FileEventStore) (failing : Io) (event : Event) : Prop :=
  event.type ≠ "rollback" ∧
    (∃ time, failing.firstAppend = .ok time) ∧
    ∃ rollbackFrom,
      store.requiresRollback event.withType.withDefaults =
          some rollbackFrom ∧
        store.ForksBelow rollbackFrom event.withType.withDefaults

theorem upsertRollback_contents_of_ok
    {store : FileEventStore} {io : Io} {event : Event} {created : Bool}
    (hok : (store.upsertRollback io event).2 = .ok created) :
    (store.upsertRollback io event).1.contents =
      store.contents.rollback event.rollbackFrom := by
  rcases store.upsertRollback_cases io event with
    ⟨err, hresult⟩ | ⟨_, time, line, _, _, hresult⟩
  · simp [hresult] at hok
  · rw [hresult]
    simp only
    rw [contents_rollback, contents_logLine]

/-- A failed call followed by a successful retry leaves what a clean call
leaves, exactly when the fork check would not find a second rollback. -/
theorem retried_upsert_eq_clean_iff
    (store : FileEventStore) (event : Event) (failing retry clean : Io)
    {err : String} {created created' : Bool}
    (hfails : (store.upsert failing event).2 = .error err)
    (hretry :
      ((store.upsert failing event).1.upsert retry event).2 = .ok created)
    (hclean : (store.upsert clean event).2 = .ok created') :
    ((store.upsert failing event).1.upsert retry event).1.contents =
        (store.upsert clean event).1.contents ↔
      ¬ store.Reforks failing event := by
  by_cases htype : event.type = "rollback"
  · have hnotReforks : ¬ store.Reforks failing event := by
      intro hreforks
      exact hreforks.1 htype
    simp only [upsert_of_rollback _ _ htype] at hfails hretry hclean ⊢
    have hunchanged :
        (store.upsertRollback failing event.withType).1 = store := by
      rcases store.upsertRollback_cases failing event.withType with
        ⟨cause, hresult⟩ | ⟨_, time, line, _, _, hresult⟩
      · rw [hresult]
      · simp [hresult] at hfails
    rw [hunchanged] at hretry ⊢
    rw [upsertRollback_contents_of_ok hretry,
      upsertRollback_contents_of_ok hclean]
    simp [hnotReforks]
  · simp only [upsert_of_block _ _ htype] at hfails hretry hclean ⊢
    obtain ⟨hnew, hcases⟩ := upsertBlock_cases_of_error hfails
    rw [upsertBlock_contents_of_ok hnew hclean]
    rcases hcases with
      ⟨⟨cause, hfirst⟩, hunchanged⟩ |
      ⟨hfirst, rollbackFrom, hsome, hrolled⟩
    · have hnotReforks : ¬ store.Reforks failing event := by
        intro hreforks
        rcases hreforks.2.1 with ⟨time, htime⟩
        rw [hfirst] at htime
        contradiction
      rw [hunchanged] at hretry ⊢
      rw [upsertBlock_contents_of_ok hnew hretry]
      simp [hnotReforks]
    · obtain ⟨hfrom, hle⟩ := bounds_of_requiresRollback_some hsome
      have hstillNew :
          event.withType.withDefaults.id ∉
            (store.upsertBlock failing event.withType).1.seen := by
        change event.withType.withDefaults.id ∉
          (store.upsertBlock failing event.withType).1.contents.seen
        rw [hrolled, mem_seen_rollback store.contents hfrom]
        intro hmem
        exact hnew hmem.1
      have hreforks :
          store.Reforks failing event ↔
            store.ForksBelow rollbackFrom event.withType.withDefaults := by
        constructor
        · intro h
          rcases h.2.2 with ⟨rollbackFrom', hsome', hforks⟩
          rw [hsome, Option.some.injEq] at hsome'
          exact hsome' ▸ hforks
        · intro hforks
          exact ⟨htype, hfirst, rollbackFrom, hsome, hforks⟩
      rw [upsertBlock_contents_of_ok hstillNew hretry, hrolled, hreforks]
      exact store.contents.withBlock_rollback_iff hsome

end FileEventStore

/-- The store after two linked blocks. -/
def twoBlocks : FileEventStore :=
  (FileEventStore.newFileEventStore []).afterCalls
    [(steadyIo, firstBlock.event), (steadyIo, secondBlock.event)]

def siblingBlock : Event :=
  { id := "h2-b", height := 2, blockHash := "h2-b", parentHash := "h1-a" }

theorem retried_sibling_eq_clean :
    ((twoBlocks.upsert halfWrittenIo siblingBlock).1.upsert steadyIo
        siblingBlock).1.contents =
      (twoBlocks.upsert steadyIo siblingBlock).1.contents := by
  have hiff :=
    twoBlocks.retried_upsert_eq_clean_iff siblingBlock halfWrittenIo steadyIo
      steadyIo
      (by decide : (twoBlocks.upsert halfWrittenIo siblingBlock).2 =
        .error "disk full")
      (by decide : ((twoBlocks.upsert halfWrittenIo siblingBlock).1.upsert
        steadyIo siblingBlock).2 = .ok true)
      (by decide : (twoBlocks.upsert steadyIo siblingBlock).2 = .ok true)
  rw [hiff]
  intro hreforks
  rcases hreforks with ⟨_, _, rollbackFrom, hsome, height, current, hpos,
    hlow, hcurrent, _, _, _, hforeign⟩
  obtain rfl : 2 = rollbackFrom := Option.some.inj hsome
  obtain rfl : height = 1 := by omega
  obtain rfl : firstBlock.event.withType = current := Option.some.inj hcurrent
  exact hforeign rfl

/-- The retry of a half written fork rolls back a second time and drops the
block below, which a clean call keeps. -/
theorem retried_fork_ne_clean :
    (twoBlocks.upsert halfWrittenIo forkBlock).2 = .error "disk full" ∧
      ((twoBlocks.upsert halfWrittenIo forkBlock).1.upsert steadyIo
        forkBlock).2 = .ok true ∧
      (twoBlocks.upsert steadyIo forkBlock).2 = .ok true ∧
      ((twoBlocks.upsert halfWrittenIo forkBlock).1.upsert steadyIo
          forkBlock).1.contents ≠
        (twoBlocks.upsert steadyIo forkBlock).1.contents := by
  refine ⟨by decide, by decide, by decide, ?_⟩
  intro heq
  have hretried :
      ((twoBlocks.upsert halfWrittenIo forkBlock).1.upsert steadyIo
        forkBlock).1.contents.state = ⟨2, "h2-b", 1, 2⟩ := by
    decide
  have hclean :
      (twoBlocks.upsert steadyIo forkBlock).1.contents.state =
        ⟨2, "h2-b", 2, 1⟩ := by
    decide
  rw [heq, hclean] at hretried
  contradiction

end SoulonWallet.Indexer
