import SoulonWallet.FileEventStore
import SoulonWallet.LabelledRun

/-!
# Representation invariant of the file event store

The map by height, the seen set and the tip are redundant.  This file proves
that rollbacks and stored blocks keep them in agreement, in particular when
the second of two appends fails and only the forced rollback has happened.
-/

namespace SoulonWallet.Indexer

open LabelledRun

namespace FileEventStore

/-! ## Rollback -/

theorem lookup_dropFrom
    (fromHeight height : ℤ) (store : FileEventStore)
    (entry : Sigma fun _ : ℤ => Event) :
    (dropFrom fromHeight store entry).eventsByHeight.lookup height =
      if fromHeight ≤ height ∧ height = entry.1 then none
      else store.eventsByHeight.lookup height := by
  unfold dropFrom
  by_cases hfrom : fromHeight ≤ entry.1
  · by_cases hheight : height = entry.1
    · subst hheight
      simp [hfrom]
    · simp [hfrom, hheight, AList.lookup_erase_ne hheight]
  · have hnot : ¬ (fromHeight ≤ height ∧ height = entry.1) := by
      intro h
      exact hfrom (h.2 ▸ h.1)
    simp [hfrom, hnot]

theorem lookup_foldl_dropFrom
    (fromHeight height : ℤ) (entries : List (Sigma fun _ : ℤ => Event))
    (store : FileEventStore) :
    (entries.foldl (dropFrom fromHeight) store).eventsByHeight.lookup
        height =
      if fromHeight ≤ height ∧ height ∈ entries.map Sigma.fst then none
      else store.eventsByHeight.lookup height := by
  induction entries generalizing store with
  | nil => simp
  | cons entry rest ih =>
      rw [List.foldl_cons, ih, lookup_dropFrom]
      by_cases hfrom : fromHeight ≤ height
      · simp only [hfrom, true_and, List.map_cons, List.mem_cons]
        split_ifs <;> first | rfl | tauto
      · simp [hfrom]

theorem mem_seen_foldl_dropFrom
    (fromHeight : ℤ) (id : String)
    (entries : List (Sigma fun _ : ℤ => Event)) (store : FileEventStore) :
    id ∈ (entries.foldl (dropFrom fromHeight) store).seen ↔
      id ∈ store.seen ∧
        ∀ entry ∈ entries, fromHeight ≤ entry.1 → entry.2.id ≠ "" →
          id ≠ entry.2.id := by
  induction entries generalizing store with
  | nil => simp
  | cons entry rest ih =>
      rw [List.foldl_cons, ih]
      have hseen :
          id ∈ (dropFrom fromHeight store entry).seen ↔
            id ∈ store.seen ∧
              (fromHeight ≤ entry.1 → entry.2.id ≠ "" →
                id ≠ entry.2.id) := by
        unfold dropFrom
        by_cases hfrom : fromHeight ≤ entry.1
        · by_cases hid : entry.2.id = ""
          · simp [hfrom, hid]
          · simp [hfrom, hid, and_comm]
        · simp [hfrom]
      rw [hseen]
      simp only [List.mem_cons, forall_eq_or_imp]
      tauto

/-! ## The invariant -/

/-- The tip is the greatest stored height with the hash stored there, or
zero and the empty hash when nothing is stored. -/
def TipExact (store : FileEventStore) : Prop :=
  (store.tipHeight = 0 ∧ store.tipHash = "" ∧
    ∀ height, store.eventsByHeight.lookup height = none) ∨
  ∃ event,
    store.eventsByHeight.lookup store.tipHeight = some event ∧
      store.tipHash = event.blockHash ∧
      ∀ height other, store.eventsByHeight.lookup height = some other →
        height ≤ store.tipHeight

structure Consistent (store : FileEventStore) : Prop where
  tip : store.TipExact
  seen_iff :
    ∀ id, id ∈ store.seen ↔
      ∃ height event, store.eventsByHeight.lookup height = some event ∧
        event.id = id
  id_unique :
    ∀ height height' event event',
      store.eventsByHeight.lookup height = some event →
      store.eventsByHeight.lookup height' = some event' →
      event.id = event'.id → height = height'
  count_eq : store.count = store.eventsByHeight.entries.length

/-- What the proofs carry along besides consistency: every stored block sits
at its own positive height under a nonempty id and hash. -/
structure Valid (store : FileEventStore) : Prop where
  stored :
    ∀ height event, store.eventsByHeight.lookup height = some event →
      1 ≤ height ∧ event.height = height ∧ event.id ≠ "" ∧
        event.blockHash ≠ ""
  seen_iff :
    ∀ id, id ∈ store.seen ↔
      ∃ height event, store.eventsByHeight.lookup height = some event ∧
        event.id = id
  id_unique :
    ∀ height height' event event',
      store.eventsByHeight.lookup height = some event →
      store.eventsByHeight.lookup height' = some event' →
      event.id = event'.id → height = height'
  tip : store.TipExact

theorem Valid.consistent {store : FileEventStore} (hvalid : store.Valid) :
    store.Consistent := by
  have hseen :
      store.seen =
        (store.eventsByHeight.entries.map fun entry =>
          entry.2.id).toFinset := by
    ext id
    rw [hvalid.seen_iff, List.mem_toFinset, List.mem_map]
    constructor
    · intro h
      rcases h with ⟨height, event, hlookup, hid⟩
      exact ⟨⟨height, event⟩, KeyedMap.mem_entries_iff.mpr hlookup, hid⟩
    · intro h
      rcases h with ⟨entry, hentry, hid⟩
      exact ⟨entry.1, entry.2, KeyedMap.mem_entries_iff.mp hentry, hid⟩
  have hnodup :
      (store.eventsByHeight.entries.map fun entry => entry.2.id).Nodup := by
    apply List.Nodup.map_on _ store.eventsByHeight.nodupKeys.nodup
    intro entry hentry other hother hid
    have hlookup := KeyedMap.mem_entries_iff.mp hentry
    have hlookup' := KeyedMap.mem_entries_iff.mp hother
    have hheight :=
      hvalid.id_unique _ _ _ _ hlookup hlookup' hid
    rcases entry with ⟨height, event⟩
    rcases other with ⟨height', event'⟩
    simp only at hheight hlookup hlookup'
    subst hheight
    rw [hlookup, Option.some.injEq] at hlookup'
    rw [hlookup']
  refine ⟨hvalid.tip, hvalid.seen_iff, hvalid.id_unique, ?_⟩
  unfold count
  rw [hseen, List.toFinset_card_of_nodup hnodup, List.length_map]

theorem empty_valid : FileEventStore.empty.Valid where
  stored := by simp [FileEventStore.empty]
  seen_iff := by simp [FileEventStore.empty]
  id_unique := by simp [FileEventStore.empty]
  tip := Or.inl ⟨rfl, rfl, fun _ => rfl⟩

theorem Valid.logLine
    {store : FileEventStore} (hvalid : store.Valid)
    (persistedAt : ℤ) (event : Event) :
    (store.logLine persistedAt event).Valid where
  stored := hvalid.stored
  seen_iff := hvalid.seen_iff
  id_unique := hvalid.id_unique
  tip := hvalid.tip

theorem rollback_eq
    (store : FileEventStore) {fromHeight : ℤ} (hfrom : 1 ≤ fromHeight) :
    store.rollback fromHeight =
      { (store.eventsByHeight.entries.foldl (dropFrom fromHeight)
          store).recalculateTip with
        reorgs := store.reorgs + 1 } := by
  have hpos : ¬ fromHeight ≤ 0 := by omega
  simp [rollback, applyRollback, hpos]

theorem lookup_rollback
    (store : FileEventStore) {fromHeight : ℤ} (hfrom : 1 ≤ fromHeight)
    (height : ℤ) :
    (store.rollback fromHeight).eventsByHeight.lookup height =
      if fromHeight ≤ height then none
      else store.eventsByHeight.lookup height := by
  have hfold :=
    lookup_foldl_dropFrom fromHeight height store.eventsByHeight.entries
      store
  rw [rollback_eq store hfrom]
  simp only [recalculateTip]
  rw [hfold]
  by_cases hheight : fromHeight ≤ height
  · by_cases hmem : height ∈ store.eventsByHeight.entries.map Sigma.fst
    · simp [hheight, hmem]
    · have hnone : store.eventsByHeight.lookup height = none := by
        rw [AList.lookup_eq_none]
        exact hmem
      simp [hheight, hnone]
  · simp [hheight]

theorem tipExact_recalculateTip
    {store : FileEventStore}
    (hpositive : ∀ height event,
      store.eventsByHeight.lookup height = some event → 1 ≤ height) :
    store.recalculateTip.TipExact := by
  rcases KeyedMap.foldl_higher Event.blockHash store.eventsByHeight.entries
    (0, "") with
    ⟨hresult, hbelow⟩ | ⟨best, hmem, hresult, _, hbest⟩
  · left
    refine ⟨congrArg Prod.fst hresult, congrArg Prod.snd hresult, ?_⟩
    intro height
    change store.eventsByHeight.lookup height = none
    cases hevent : store.eventsByHeight.lookup height with
    | none => rfl
    | some event =>
        have hlow :=
          hbelow ⟨height, event⟩ (KeyedMap.mem_entries_iff.mpr hevent)
        have hhigh := hpositive height event hevent
        simp only at hlow
        omega
  · right
    have hheight : store.recalculateTip.tipHeight = best.1 :=
      congrArg Prod.fst hresult
    refine ⟨best.2, ?_, congrArg Prod.snd hresult, ?_⟩
    · rw [hheight]
      exact KeyedMap.mem_entries_iff.mp hmem
    · intro height other hother
      rw [hheight]
      exact hbest ⟨height, other⟩ (KeyedMap.mem_entries_iff.mpr hother)

theorem Valid.rollback
    {store : FileEventStore} (hvalid : store.Valid)
    {fromHeight : ℤ} (hfrom : 1 ≤ fromHeight) :
    (store.rollback fromHeight).Valid := by
  have hlookup := lookup_rollback store hfrom
  have hkept :
      ∀ height event,
        (store.rollback fromHeight).eventsByHeight.lookup height =
            some event ↔
          height < fromHeight ∧
            store.eventsByHeight.lookup height = some event := by
    intro height event
    rw [hlookup]
    split_ifs with hheight
    · simp only [false_iff]
      omega
    · have : height < fromHeight := by omega
      simp [this]
  constructor
  · intro height event h
    exact hvalid.stored height event ((hkept height event).mp h).2
  · intro id
    have hseen :
        id ∈ (store.rollback fromHeight).seen ↔
          id ∈ (store.eventsByHeight.entries.foldl (dropFrom fromHeight)
            store).seen := by
      rw [rollback_eq store hfrom]
      rfl
    rw [hseen, mem_seen_foldl_dropFrom, hvalid.seen_iff]
    constructor
    · intro h
      rcases h with ⟨⟨height, event, hevent, hid⟩, hdropped⟩
      refine ⟨height, event, (hkept height event).mpr ⟨?_, hevent⟩, hid⟩
      by_contra hheight
      exact hdropped ⟨height, event⟩ (KeyedMap.mem_entries_iff.mpr hevent)
        (by simpa using hheight) (hvalid.stored height event hevent).2.2.1
        hid.symm
    · intro h
      rcases h with ⟨height, event, hevent, hid⟩
      obtain ⟨hheight, hold⟩ := (hkept height event).mp hevent
      refine ⟨⟨height, event, hold, hid⟩, ?_⟩
      intro entry hentry hdropped _ heq
      have hsame :=
        hvalid.id_unique _ _ _ _ hold (KeyedMap.mem_entries_iff.mp hentry)
          (hid.trans heq)
      omega
  · intro height height' event event' h h'
    exact hvalid.id_unique height height' event event'
      ((hkept height event).mp h).2 ((hkept height' event').mp h').2
  · rw [rollback_eq store hfrom]
    apply tipExact_recalculateTip
    intro height event hevent
    have hstored :
        (store.rollback fromHeight).eventsByHeight.lookup height =
          some event := by
      rw [rollback_eq store hfrom]
      exact hevent
    exact (hvalid.stored height event ((hkept height event).mp hstored).2).1

theorem Valid.le_tip
    {store : FileEventStore} (hvalid : store.Valid)
    {height : ℤ} {event : Event}
    (hlookup : store.eventsByHeight.lookup height = some event) :
    height ≤ store.tipHeight := by
  rcases hvalid.tip with ⟨_, _, hnone⟩ | ⟨_, _, _, hgreatest⟩
  · rw [hnone height] at hlookup
    contradiction
  · exact hgreatest height event hlookup

theorem Valid.lookup_of_tip_lt
    {store : FileEventStore} (hvalid : store.Valid)
    {height : ℤ} (hlt : store.tipHeight < height) :
    store.eventsByHeight.lookup height = none := by
  cases hlookup : store.eventsByHeight.lookup height with
  | none => rfl
  | some event =>
      have := hvalid.le_tip hlookup
      omega

theorem Valid.tip_eq_zero_or
    {store : FileEventStore} (hvalid : store.Valid) :
    store.tipHeight = 0 ∨ (1 ≤ store.tipHeight ∧ store.tipHash ≠ "") := by
  rcases hvalid.tip with ⟨hzero, _⟩ | ⟨event, hlookup, hhash, _⟩
  · exact Or.inl hzero
  · have hstored := hvalid.stored _ _ hlookup
    exact Or.inr ⟨hstored.1, by rw [hhash]; exact hstored.2.2.2⟩

/-- The loop over the heights finds the tip that a valid store carries. -/
theorem Valid.foldl_tip {store : FileEventStore} (hvalid : store.Valid) :
    store.eventsByHeight.entries.foldl
        (KeyedMap.higher Event.blockHash) (0, "") =
      (store.tipHeight, store.tipHash) := by
  rcases KeyedMap.foldl_higher Event.blockHash store.eventsByHeight.entries
    (0, "") with ⟨hresult, hbelow⟩ | ⟨best, hmem, hresult, _, hbest⟩
  · rw [hresult]
    rcases hvalid.tip with ⟨hheight, hhash, _⟩ | ⟨event, hlookup, _⟩
    · rw [hheight, hhash]
    · have hlow := hbelow ⟨_, event⟩ (KeyedMap.mem_entries_iff.mpr hlookup)
      have hhigh := (hvalid.stored _ event hlookup).1
      simp only at hlow
      omega
  · have hbestLookup := KeyedMap.mem_entries_iff.mp hmem
    rcases hvalid.tip with ⟨_, _, hnone⟩ | ⟨event, hlookup, hhash, _⟩
    · rw [hnone] at hbestLookup
      contradiction
    · have hle := hvalid.le_tip hbestLookup
      have hge := hbest ⟨_, event⟩ (KeyedMap.mem_entries_iff.mpr hlookup)
      have htip : best.1 = store.tipHeight := le_antisymm hle hge
      rw [htip, hlookup, Option.some.injEq] at hbestLookup
      rw [hresult, htip, hhash, hbestLookup]

theorem Valid.rollback_tip_lt
    {store : FileEventStore} (hvalid : store.Valid)
    {fromHeight : ℤ} (hfrom : 1 ≤ fromHeight) :
    (store.rollback fromHeight).tipHeight < fromHeight := by
  rcases (hvalid.rollback hfrom).tip with ⟨hzero, _⟩ | ⟨event, hlookup, _⟩
  · omega
  · rw [lookup_rollback store hfrom] at hlookup
    split_ifs at hlookup with hheight
    omega

/-! ## Storing a block -/

theorem applyBlock_eq
    {store : FileEventStore} {event : Event} (hid : event.id ≠ "")
    (hhash : event.blockHash ≠ "")
    (habove : store.tipHeight < event.height) :
    store.applyBlock event = { store with
      eventsByHeight := store.eventsByHeight.insert event.height event
      seen := insert event.id store.seen
      tipHeight := event.height
      tipHash := event.blockHash } := by
  simp [applyBlock, Event.withBlockHash, hid, hhash, habove.le]

theorem Valid.applyBlock
    {store : FileEventStore} (hvalid : store.Valid) {event : Event}
    (hheight : 1 ≤ event.height) (hid : event.id ≠ "")
    (hhash : event.blockHash ≠ "") (hnew : event.id ∉ store.seen)
    (habove : store.tipHeight < event.height) :
    (store.applyBlock event).Valid := by
  rw [applyBlock_eq hid hhash habove]
  have hlookup :=
    (store.eventsByHeight.lookup_insert_eq event.height · event)
  have hfresh :
      ∀ height other, store.eventsByHeight.lookup height = some other →
        other.id ≠ event.id := by
    intro height other hother heq
    exact hnew ((hvalid.seen_iff event.id).mpr ⟨height, other, hother, heq⟩)
  constructor
  · intro height other hother
    simp only [hlookup] at hother
    split_ifs at hother with heq
    · rw [Option.some.injEq] at hother
      subst hother
      exact ⟨heq ▸ hheight, heq.symm, hid, hhash⟩
    · exact hvalid.stored height other hother
  · intro id
    simp only [Finset.mem_insert, hlookup]
    rw [hvalid.seen_iff]
    constructor
    · intro h
      rcases h with rfl | ⟨height, other, hother, hotherId⟩
      · exact ⟨event.height, event, by simp, rfl⟩
      · have hne : height ≠ event.height := by
          intro heq
          rw [heq, hvalid.lookup_of_tip_lt habove] at hother
          contradiction
        exact ⟨height, other, by simp [hne, hother], hotherId⟩
    · intro h
      rcases h with ⟨height, other, hother, hotherId⟩
      split_ifs at hother with heq
      · rw [Option.some.injEq] at hother
        subst hother
        exact Or.inl hotherId.symm
      · exact Or.inr ⟨height, other, hother, hotherId⟩
  · intro height height' other other' hother hother' heq
    simp only [hlookup] at hother hother'
    split_ifs at hother hother' with h h'
    · rw [h, h']
    · rw [Option.some.injEq] at hother
      subst hother
      exact absurd heq.symm (hfresh height' other' hother')
    · rw [Option.some.injEq] at hother'
      subst hother'
      exact absurd heq (hfresh height other hother)
    · exact hvalid.id_unique height height' other other' hother hother' heq
  · right
    refine ⟨event, by simp, rfl, ?_⟩
    intro height other hother
    simp only [hlookup] at hother
    split_ifs at hother with heq
    · exact heq.le
    · exact (hvalid.le_tip hother).trans habove.le

theorem withDefaults_height (event : Event) :
    event.withDefaults.height = event.height := by
  unfold Event.withDefaults Event.withBlockHash Event.withId
  split_ifs <;> rfl

theorem withDefaults_id_ne (event : Event) :
    event.withDefaults.id ≠ "" := by
  have hid : event.withId.id ≠ "" := by
    unfold Event.withId
    split_ifs <;> simp_all
  unfold Event.withDefaults Event.withBlockHash
  split_ifs <;> exact hid

theorem withDefaults_blockHash_ne (event : Event) :
    event.withDefaults.blockHash ≠ "" := by
  have hid := withDefaults_id_ne event
  unfold Event.withDefaults Event.withBlockHash at hid ⊢
  split_ifs at hid ⊢ with hhash
  · exact hid
  · exact hhash

/-- In a valid store the fork check answers by comparing with the tip: a
height that is not above it is rolled back to, and a parent that is not the
tip rolls back one height more. -/
theorem Valid.requiresRollback_eq
    {store : FileEventStore} (hvalid : store.Valid) {event : Event}
    (hheight : 1 ≤ event.height) :
    store.requiresRollback event =
      if event.height ≤ store.tipHeight then some event.height
      else if store.tipHeight ≠ 0 ∧ event.parentHash ≠ "" ∧
          event.parentHash ≠ store.tipHash then
        some (event.height - 1)
      else none := by
  have hpos : ¬ event.height ≤ 0 := by omega
  have hbelow :
      requiresRollback.belowTip store event =
        if event.height ≤ store.tipHeight then some event.height
        else if store.tipHeight ≠ 0 ∧ event.parentHash ≠ "" ∧
            event.parentHash ≠ store.tipHash then
          some (event.height - 1)
        else none := by
    unfold requiresRollback.belowTip
    rcases hvalid.tip_eq_zero_or with hzero | ⟨htip, hhash⟩
    · simp [hzero, hpos]
    · have hne : store.tipHeight ≠ 0 := by omega
      by_cases hle : event.height ≤ store.tipHeight
      · simp [hne, hle]
      · have hfrom : ¬ event.height - 1 ≤ 0 := by omega
        simp [hne, hle, hhash, hfrom]
  unfold requiresRollback
  rw [if_neg hpos]
  cases hlookup : store.eventsByHeight.lookup event.height with
  | none => exact hbelow
  | some current =>
      have hle := hvalid.le_tip hlookup
      simp only
      rw [hbelow]
      simp [hle]

theorem Valid.tip_lt_of_requiresRollback_none
    {store : FileEventStore} (hvalid : store.Valid) {event : Event}
    (hheight : 1 ≤ event.height)
    (hnone : store.requiresRollback event = none) :
    store.tipHeight < event.height := by
  rw [hvalid.requiresRollback_eq hheight] at hnone
  split_ifs at hnone with hle
  all_goals omega

theorem bounds_of_requiresRollback_some
    {store : FileEventStore} {event : Event} {rollbackFrom : ℤ}
    (hsome : store.requiresRollback event = some rollbackFrom) :
    1 ≤ rollbackFrom ∧ rollbackFrom ≤ event.height := by
  have hbelow : 1 ≤ event.height →
      requiresRollback.belowTip store event = some rollbackFrom →
        1 ≤ rollbackFrom ∧ rollbackFrom ≤ event.height := by
    intro hheight h
    unfold requiresRollback.belowTip at h
    simp only at h
    split_ifs at h
    all_goals
      rw [Option.some.injEq] at h
      omega
  unfold requiresRollback at hsome
  split_ifs at hsome with hpos
  have hheight : 1 ≤ event.height := by omega
  cases hlookup : store.eventsByHeight.lookup event.height with
  | none =>
      rw [hlookup] at hsome
      exact hbelow hheight hsome
  | some current =>
      rw [hlookup] at hsome
      simp only at hsome
      split_ifs at hsome with hother
      · rw [Option.some.injEq] at hsome
        omega
      · exact hbelow hheight hsome

theorem Valid.not_mem_seen_rollback
    {store : FileEventStore} (hvalid : store.Valid)
    {fromHeight : ℤ} (hfrom : 1 ≤ fromHeight) {id : String}
    (hnew : id ∉ store.seen) :
    id ∉ (store.rollback fromHeight).seen := by
  intro hmem
  obtain ⟨height, event, hlookup, hid⟩ :=
    ((hvalid.rollback hfrom).seen_iff id).mp hmem
  rw [lookup_rollback store hfrom] at hlookup
  split_ifs at hlookup
  exact hnew ((hvalid.seen_iff id).mpr ⟨height, event, hlookup, hid⟩)

/-! ## What an upsert does -/

theorem upsertBlock_of_new
    (store : FileEventStore) (io : Io) {event : Event}
    (hnew : event.withDefaults.id ∉ store.seen) :
    store.upsertBlock io event =
      match store.requiresRollback event.withDefaults with
      | none => store.storeBlock io.firstAppend event.withDefaults
      | some rollbackFrom =>
          match store.appendEvent io.firstAppend
              (forcedRollback event.withDefaults rollbackFrom
                io.unixNano) with
          | .error err => (store, .error err)
          | .ok logged =>
              (logged.rollback rollbackFrom).storeBlock io.secondAppend
                event.withDefaults := by
  unfold upsertBlock
  exact if_neg hnew

/-- The five ways in which `Upsert` handles a block: a known id, a failure
before anything is written, a plain block, a rollback whose block is not
written, and a rollback followed by the block. -/
theorem upsertBlock_cases
    (store : FileEventStore) (io : Io) (event : Event) :
    let block := event.withDefaults
    (block.id ∈ store.seen ∧
      store.upsertBlock io event = (store, .ok false)) ∨
    (block.id ∉ store.seen ∧
      ∃ err, store.upsertBlock io event = (store, .error err)) ∨
    (block.id ∉ store.seen ∧ store.requiresRollback block = none ∧
      ∃ time, store.upsertBlock io event =
        ((store.logLine time block).applyBlock block, .ok true)) ∨
    (block.id ∉ store.seen ∧
      ∃ rollbackFrom time err,
        store.requiresRollback block = some rollbackFrom ∧
        store.upsertBlock io event =
          ((store.logLine time
              (forcedRollback block rollbackFrom io.unixNano)).rollback
            rollbackFrom, .error err)) ∨
    (block.id ∉ store.seen ∧
      ∃ rollbackFrom time time',
        store.requiresRollback block = some rollbackFrom ∧
        store.upsertBlock io event =
          ((((store.logLine time
              (forcedRollback block rollbackFrom io.unixNano)).rollback
            rollbackFrom).logLine time' block).applyBlock block,
            .ok true)) := by
  intro block
  by_cases hseen : block.id ∈ store.seen
  · left
    exact ⟨hseen, by simp [upsertBlock, block, hseen]⟩
  · right
    rw [upsertBlock_of_new store io hseen]
    cases hrollback : store.requiresRollback block with
    | none =>
        cases hfirst : io.firstAppend with
        | error err =>
            left
            exact ⟨hseen, err, by simp [storeBlock, appendEvent]⟩
        | ok time =>
            right
            left
            exact ⟨hseen, rfl, time, by simp [storeBlock, appendEvent, block]⟩
    | some rollbackFrom =>
        cases hfirst : io.firstAppend with
        | error err =>
            left
            exact ⟨hseen, err, by simp [appendEvent]⟩
        | ok time =>
            right
            right
            cases hsecond : io.secondAppend with
            | error err =>
                left
                exact ⟨hseen, rollbackFrom, time, err, rfl,
                  by simp [storeBlock, appendEvent, block]⟩
            | ok time' =>
                right
                exact ⟨hseen, rollbackFrom, time, time', rfl,
                  by simp [storeBlock, appendEvent, block]⟩

theorem withType_eq_rollback_iff (event : Event) :
    event.withType.type = "rollback" ↔ event.type = "rollback" := by
  unfold Event.withType
  split_ifs with hempty
  · simp [hempty]
  · rfl

theorem withType_height (event : Event) :
    event.withType.height = event.height := by
  unfold Event.withType
  split_ifs <;> rfl

theorem upsert_of_rollback
    (store : FileEventStore) (io : Io) {event : Event}
    (htype : event.type = "rollback") :
    store.upsert io event = store.upsertRollback io event.withType :=
  if_pos ((withType_eq_rollback_iff event).mpr htype)

theorem upsert_of_block
    (store : FileEventStore) (io : Io) {event : Event}
    (htype : event.type ≠ "rollback") :
    store.upsert io event = store.upsertBlock io event.withType := by
  apply if_neg
  rw [withType_eq_rollback_iff]
  exact htype

theorem Valid.storesBlock
    {store : FileEventStore} (hvalid : store.Valid) (event : Event)
    (hheight : 1 ≤ event.height) (hnew : event.withDefaults.id ∉ store.seen)
    (habove : store.tipHeight < event.height) :
    (store.applyBlock event.withDefaults).Valid ∧
      (store.applyBlock event.withDefaults).tipHeight = event.height ∧
      (store.applyBlock event.withDefaults).eventsByHeight.lookup
        event.height = some event.withDefaults := by
  have hid := withDefaults_id_ne event
  have hhash := withDefaults_blockHash_ne event
  have hsame := withDefaults_height event
  rw [← hsame] at hheight habove ⊢
  refine ⟨hvalid.applyBlock hheight hid hhash hnew habove, ?_, ?_⟩
  · rw [applyBlock_eq hid hhash habove]
  · rw [applyBlock_eq hid hhash habove]
    simp

theorem Valid.upsertBlock
    {store : FileEventStore} (hvalid : store.Valid) (io : Io) (event : Event)
    (hheight : 1 ≤ event.height) :
    (store.upsertBlock io event).1.Valid ∧
      ((store.upsertBlock io event).2 = .ok true →
        (store.upsertBlock io event).1.tipHeight = event.height ∧
        (store.upsertBlock io event).1.eventsByHeight.lookup event.height =
          some event.withDefaults) := by
  have hblock : 1 ≤ event.withDefaults.height := by
    rw [withDefaults_height]
    exact hheight
  rcases store.upsertBlock_cases io event with
    ⟨_, hresult⟩ | ⟨_, err, hresult⟩ | ⟨hnew, hnone, time, hresult⟩ |
    ⟨hnew, rollbackFrom, time, err, hsome, hresult⟩ |
    ⟨hnew, rollbackFrom, time, time', hsome, hresult⟩
  · rw [hresult]
    exact ⟨hvalid, by simp⟩
  · rw [hresult]
    exact ⟨hvalid, by simp⟩
  · rw [hresult]
    have habove := hvalid.tip_lt_of_requiresRollback_none hblock hnone
    rw [withDefaults_height] at habove
    rcases (hvalid.logLine time event.withDefaults).storesBlock event hheight
      hnew habove with ⟨hnext, htip, hstored⟩
    exact ⟨hnext, fun _ => ⟨htip, hstored⟩⟩
  · rw [hresult]
    generalize forcedRollback event.withDefaults rollbackFrom
      io.unixNano = line
    obtain ⟨hfrom, _⟩ := bounds_of_requiresRollback_some hsome
    exact ⟨(hvalid.logLine time line).rollback hfrom, by simp⟩
  · rw [hresult]
    generalize forcedRollback event.withDefaults rollbackFrom
      io.unixNano = line
    obtain ⟨hfrom, hle⟩ := bounds_of_requiresRollback_some hsome
    have hlogged := hvalid.logLine time line
    have hrolled := hlogged.rollback hfrom
    have hlow := hlogged.rollback_tip_lt hfrom
    have hstillNew := hlogged.not_mem_seen_rollback hfrom hnew
    rw [withDefaults_height] at hle
    rcases (hrolled.logLine time' event.withDefaults).storesBlock event
      hheight hstillNew (lt_of_lt_of_le hlow hle) with
      ⟨hnext, htip, hstored⟩
    exact ⟨hnext, fun _ => ⟨htip, hstored⟩⟩

theorem Valid.upsertRollback
    {store : FileEventStore} (hvalid : store.Valid) (io : Io)
    (event : Event) :
    (store.upsertRollback io event).1.Valid := by
  unfold FileEventStore.upsertRollback
  by_cases hfrom : event.rollbackFrom ≤ 0
  · simp [hfrom, hvalid]
  · cases hfirst : io.firstAppend with
    | error err => simp [hfrom, appendEvent, hvalid]
    | ok time =>
        simp only [hfrom, if_false, appendEvent]
        exact (hvalid.logLine time _).rollback (by omega)

end FileEventStore

/-! ## Runs -/

/-- A rollback event, or a block at a positive height. -/
structure Delivery where
  event : Event
  height_pos : event.type = "rollback" ∨ 1 ≤ event.height

def FileEventStore.step (store : FileEventStore) (call : Io × Delivery) :
    Option FileEventStore :=
  some (store.upsert call.1 call.2.event).1

def FileEventStore.HasTip (store : FileEventStore) (event : Event) : Prop :=
  store.tipHeight = event.height ∧
    store.tipHash = event.withType.withDefaults.blockHash ∧
    store.eventsByHeight.lookup event.height =
      some event.withType.withDefaults ∧
    ∀ height, event.height < height →
      store.eventsByHeight.lookup height = none

theorem FileEventStore.Valid.upsert
    {store : FileEventStore} (hvalid : store.Valid) (io : Io)
    (delivery : Delivery) :
    (store.upsert io delivery.event).1.Valid ∧
      (delivery.event.type ≠ "rollback" →
        (store.upsert io delivery.event).2 = .ok true →
        (store.upsert io delivery.event).1.HasTip delivery.event) := by
  rcases delivery with ⟨event, hheight⟩
  by_cases htype : event.type = "rollback"
  · rw [upsert_of_rollback store io htype]
    refine ⟨hvalid.upsertRollback io event.withType, ?_⟩
    intro hblock
    exact absurd htype hblock
  · rw [upsert_of_block store io htype]
    have hpos : 1 ≤ event.withType.height := by
      rw [withType_height]
      exact hheight.resolve_left htype
    obtain ⟨hnext, hblock⟩ := hvalid.upsertBlock io event.withType hpos
    refine ⟨hnext, ?_⟩
    intro _ htrue
    obtain ⟨htip, hstored⟩ := hblock htrue
    rw [withType_height] at htip hstored
    refine ⟨htip, ?_, hstored, ?_⟩
    · rcases hnext.tip with ⟨_, _, hnone⟩ | ⟨stored, hlookup, hhash, _⟩
      · rw [hnone] at hstored
        contradiction
      · rw [htip, hstored, Option.some.injEq] at hlookup
        rw [hhash, ← hlookup]
    · intro height hlt
      exact hnext.lookup_of_tip_lt (by rw [htip]; exact hlt)

/-- After every run of calls, whatever appends failed, the four parts of the
store agree, and a block reported as created is the tip. -/
theorem FileEventStore.run_consistent
    (calls : List (Io × Delivery)) (store : FileEventStore)
    (hrun : exec FileEventStore.step FileEventStore.empty calls =
      some store) :
    store.Consistent ∧
      ∀ (io : Io) (delivery : Delivery),
        delivery.event.type ≠ "rollback" →
        (store.upsert io delivery.event).2 = .ok true →
        (store.upsert io delivery.event).1.HasTip delivery.event := by
  have hvalid : store.Valid := by
    apply invariant_of_step FileEventStore.Valid _ empty_valid hrun
    intro reached call next hreached hstep
    have hnext := (Option.some.inj hstep).symm
    rw [hnext]
    exact (hreached.upsert call.1 call.2).1
  refine ⟨hvalid.consistent, ?_⟩
  intro io delivery
  exact (hvalid.upsert io delivery).2

def firstBlock : Delivery where
  event := { id := "h1-a", height := 1, blockHash := "h1-a" }
  height_pos := Or.inr (by decide)

def secondBlock : Delivery where
  event :=
    { id := "h2-a", height := 2, blockHash := "h2-a", parentHash := "h1-a" }
  height_pos := Or.inr (by decide)

def steadyIo : Io := ⟨0, .ok 0, .ok 0⟩

theorem run_consistent_secondBlock :
    ∃ store,
      exec FileEventStore.step FileEventStore.empty
          [(steadyIo, firstBlock)] = some store ∧
        store.Consistent ∧
        (store.upsert steadyIo secondBlock.event).1.HasTip
          secondBlock.event := by
  have hrun :=
    FileEventStore.run_consistent [(steadyIo, firstBlock)] _ rfl
  exact ⟨_, rfl, hrun.1,
    hrun.2 steadyIo secondBlock (by decide) (by decide)⟩

end SoulonWallet.Indexer
