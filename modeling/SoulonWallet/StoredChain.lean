import Std.Data.String.ToNat
import SoulonWallet.EventBlockPile
import SoulonWallet.GeneratedChain
import SoulonWallet.GoDecimals

/-!
# The stored chain under generated events

A store carries a chain of hashes when it holds the block of every hash of the
chain, and when all that it holds is one chain of linked blocks without gaps,
which may reach higher than the hashes.  An event that fits on the hashes is
known already or replaces what is stored from its height on; a failed append
leaves what is stored below its height.
-/

namespace SoulonWallet.Indexer

open HashChain

/-! ## Names -/

theorem toString_inj {left right : ℤ} (hleft : 1 ≤ left) (hright : 1 ≤ right)
    (htext : toString left = toString right) : left = right := by
  obtain ⟨left, rfl⟩ := Int.eq_ofNat_of_zero_le (by omega : 0 ≤ left)
  obtain ⟨right, rfl⟩ := Int.eq_ofNat_of_zero_le (by omega : 0 ≤ right)
  exact congrArg _ (Nat.repr_injective htext)

/-- The name of a block tells its height. -/
theorem NamesHeight.unique
    {name : String} {left right : ℤ} (hleft : 1 ≤ left) (hright : 1 ≤ right)
    (hnames : NamesHeight name left) (hnames' : NamesHeight name right) :
    left = right := by
  obtain ⟨suffix, hsuffix, rfl⟩ := hnames
  obtain ⟨suffix', hsuffix', hsame⟩ := hnames'
  have hlength : ∀ text ∈ ["-a", "-b"], text.toList.length = 2 := by decide
  have hlists := congrArg String.toList hsame
  simp only [String.toList_append, List.append_assoc] at hlists
  have hrest := List.append_cancel_left hlists
  have hdigits := (List.append_inj' hrest
    ((hlength _ hsuffix).trans (hlength _ hsuffix').symm)).1
  exact toString_inj hleft hright (String.toList_injective hdigits)

theorem Event.Generated.blockHash_ne
    {event : Event} (hgenerated : event.Generated) : event.blockHash ≠ "" := by
  obtain ⟨suffix, -, hname⟩ := hgenerated.named
  intro hempty
  have hlength := congrArg String.length (hname.symm.trans hempty)
  simp [String.length_append] at hlength

namespace FileEventStore

/-- The store holds the chain, as part of one linked chain without gaps. -/
structure Carries (store : FileEventStore) (chain : List String) : Prop where
  valid : store.Valid
  named : ∀ height block, store.storedAt height = some block →
    NamesHeight block.id height ∧ block.blockHash = block.id
  filled : ∀ height, 1 ≤ height → height ≤ store.tipHeight →
    (store.storedAt height).isSome
  linked : ∀ height block child, store.storedAt height = some block →
    store.storedAt (height + 1) = some child →
    child.parentHash = block.blockHash
  root : ∀ block, store.storedAt 1 = some block → block.parentHash = ""
  holds : ∀ (index : ℕ) (hash : String), chain[index]? = some hash →
    ∃ block, store.storedAt (index + 1 : ℤ) = some block ∧
      block.blockHash = hash

variable {store : FileEventStore} {chain : List String} {event : Event}

theorem Carries.take (hcarries : store.Carries chain) (count : ℕ) :
    store.Carries (chain.take count) where
  valid := hcarries.valid
  named := hcarries.named
  filled := hcarries.filled
  linked := hcarries.linked
  root := hcarries.root
  holds index hash hindex := by
    rw [List.getElem?_take] at hindex
    split_ifs at hindex
    exact hcarries.holds index hash hindex

theorem Valid.storedAt_pos
    (hvalid : store.Valid) {height : ℤ} {block : StoredBlock}
    (hstored : store.storedAt height = some block) :
    1 ≤ height ∧ height ≤ store.tipHeight := by
  have hmem : ((height, block) : PlacedBlock) ∈ store.pile := hstored
  exact hvalid.le_tip_of_mem_pile hmem

/-- The store reaches as high as the chain. -/
theorem Carries.length_le_tip (hcarries : store.Carries chain) :
    (chain.length : ℤ) ≤ store.tipHeight := by
  cases hlength : chain.length with
  | zero =>
      rcases hcarries.valid.tip_eq_zero_or with hzero | ⟨hone, -⟩
      · simp [hzero]
      · push_cast
        omega
  | succ count =>
      obtain ⟨block, hstored, -⟩ := hcarries.holds count _
        (List.getElem?_eq_getElem (by omega))
      have hle := (hcarries.valid.storedAt_pos hstored).2
      push_cast
      exact hle

theorem Carries.logLine
    (hcarries : store.Carries chain) (time : ℤ) (line : Event) :
    (store.logLine time line).Carries chain where
  valid := hcarries.valid.logLine time line
  named := hcarries.named
  filled := hcarries.filled
  linked := hcarries.linked
  root := hcarries.root
  holds := hcarries.holds

theorem Carries.rollback (hcarries : store.Carries chain) (count : ℕ) :
    (store.rollback (count + 1)).Carries (chain.take count) := by
  have hfrom : (1 : ℤ) ≤ count + 1 := by omega
  have hlow := hcarries.valid.rollback_tip_lt hfrom
  have hkept : ∀ {height : ℤ} {block : StoredBlock},
      (store.rollback (count + 1)).storedAt height = some block →
        store.storedAt height = some block := by
    intro height block hstored
    rw [storedAt_rollback store hfrom] at hstored
    split_ifs at hstored
    exact hstored
  have hvalid := hcarries.valid.rollback hfrom
  refine ⟨hvalid, ?_, ?_, ?_, ?_, ?_⟩
  · intro height block hstored
    exact hcarries.named height block (hkept hstored)
  · intro height hpositive hheight
    rw [storedAt_rollback store hfrom, if_neg (by omega)]
    apply hcarries.filled height hpositive
    obtain ⟨tip, htip, -⟩ := hvalid.exists_tip (by omega)
    have hold := hkept htip
    have hle := (hcarries.valid.storedAt_pos hold).2
    omega
  · intro height block child hblock hchild
    exact hcarries.linked height block child (hkept hblock) (hkept hchild)
  · intro block hstored
    exact hcarries.root block (hkept hstored)
  · intro index hash hindex
    rw [List.getElem?_take] at hindex
    split_ifs at hindex with hbelow
    obtain ⟨block, hblock, hhash⟩ := hcarries.holds index hash hindex
    refine ⟨block, ?_, hhash⟩
    rw [storedAt_rollback store hfrom, if_neg (by omega)]
    exact hblock

/-! ## One event -/

/-- The event is stored on top of the block that its parent names. -/
theorem Carries.applyBlock
    (hcarries : store.Carries chain) (hgenerated : event.Generated)
    (hfits : Fits eventShape chain event)
    (habove : store.tipHeight < event.height)
    (hnew : event.id ∉ store.seen) :
    (store.applyBlock event).Carries (put eventShape chain event) := by
  have hheight := hgenerated.height
  have hlevel : eventShape.level event = (event.height - 1).toNat := rfl
  have hhash := hgenerated.blockHash_ne
  have hid : event.id ≠ "" := by
    rw [hgenerated.id]
    exact hhash
  have hnamed : (FileEventStore.named event).storedBlock = event.storedBlock := by
    rw [named_eq hid hhash]
  have hstored : ∀ height, (store.applyBlock event).storedAt height =
      if height = event.height then some event.storedBlock
      else store.storedAt height := by
    intro height
    rw [storedAt_applyBlock, hnamed]
  have htip : (store.applyBlock event).tipHeight = event.height := by
    rw [applyBlock_eq hid hhash habove]
  have hlow := hcarries.length_le_tip
  have hlength := hfits.1
  refine ⟨hcarries.valid.applyBlock hheight hid hhash hnew habove,
    ?_, ?_, ?_, ?_, ?_⟩
  · intro height block hblock
    rw [hstored] at hblock
    split_ifs at hblock with hsame
    · obtain rfl := Option.some.inj hblock
      rw [hsame]
      refine ⟨?_, hgenerated.id.symm⟩
      show NamesHeight event.id event.height
      rw [hgenerated.id]
      exact hgenerated.named
    · exact hcarries.named height block hblock
  · intro height hpositive hle
    rw [htip] at hle
    rw [hstored]
    split_ifs with hsame
    · rfl
    · exact hcarries.filled height hpositive (by omega)
  · intro height block child hblock hchild
    rw [hstored] at hblock hchild
    split_ifs at hchild with htop
    · -- the block below is the tip, which is the top of the chain
      obtain rfl := Option.some.inj hchild
      rw [if_neg (by omega)] at hblock
      have hpos := (hcarries.valid.storedAt_pos hblock).1
      have hindex : eventShape.level event - 1 + 1 =
          eventShape.level event := by
        omega
      obtain ⟨parent, hparent, hparentHash⟩ :=
        hcarries.holds (eventShape.level event - 1) _
          (List.getElem?_eq_getElem (by omega))
      have hplace : ((eventShape.level event - 1 : ℕ) : ℤ) + 1 = height := by
        omega
      rw [hplace, hblock, Option.some.injEq] at hparent
      subst hparent
      have hlink := hfits.2
      rw [top_take hlength, if_neg (by omega),
        List.getElem?_eq_getElem (by omega)] at hlink
      exact hlink.trans hparentHash.symm
    · split_ifs at hblock with hself
      · have hpos := (hcarries.valid.storedAt_pos hchild).2
        omega
      · exact hcarries.linked height block child hblock hchild
  · intro block hblock
    rw [hstored] at hblock
    split_ifs at hblock with hone
    · obtain rfl := Option.some.inj hblock
      have hlink := hfits.2
      rw [top_take hlength, if_pos (by omega)] at hlink
      exact hlink
    · exact hcarries.root block hblock
  · intro index hash hindex
    rcases getElem?_put hfits hindex with ⟨hbelow, hold⟩ | ⟨rfl, rfl⟩
    · obtain ⟨block, hblock, hblockHash⟩ := hcarries.holds index hash hold
      refine ⟨block, ?_, hblockHash⟩
      rw [hstored, if_neg (by omega)]
      exact hblock
    · refine ⟨event.storedBlock, ?_, rfl⟩
      rw [hstored, if_pos (by omega)]

/-- A known event is the block stored at its height. -/
theorem Carries.put_of_mem_seen
    (hcarries : store.Carries chain) (hgenerated : event.Generated)
    (hfits : Fits eventShape chain event) (hseen : event.id ∈ store.seen) :
    store.Carries (put eventShape chain event) := by
  have hheight := hgenerated.height
  have hlevel : eventShape.level event = (event.height - 1).toNat := rfl
  obtain ⟨⟨height, block⟩, hstored, hid⟩ :=
    (hcarries.valid.mem_seen_iff event.id).mp hseen
  obtain ⟨hnames, hhash⟩ := hcarries.named height block hstored
  have hid : block.id = event.id := hid
  rw [hid, hgenerated.id] at hnames
  have hpos := (hcarries.valid.storedAt_pos hstored).1
  obtain rfl := hnames.unique hpos hheight hgenerated.named
  refine { hcarries with holds := ?_ }
  intro index hash hindex
  rcases getElem?_put hfits hindex with ⟨-, hold⟩ | ⟨rfl, rfl⟩
  · exact hcarries.holds index hash hold
  · refine ⟨block, ?_, ?_⟩
    · have hplace : ((eventShape.level event : ℕ) : ℤ) + 1 =
          event.height := by
        omega
      rw [hplace]
      exact hstored
    · rw [hhash, hid]
      exact hgenerated.id

/-- The only rollback that an event which fits asks for is the one from its
own height. -/
theorem Carries.rollbackFrom_eq
    (hcarries : store.Carries chain) (hgenerated : event.Generated)
    (hfits : Fits eventShape chain event) {rollbackFrom : ℤ}
    (hsome : store.requiresRollback event = some rollbackFrom) :
    rollbackFrom = eventShape.level event + 1 := by
  have hheight := hgenerated.height
  have hlevel : eventShape.level event = (event.height - 1).toNat := rfl
  have hlow := hcarries.length_le_tip
  have hlength := hfits.1
  rw [hcarries.valid.requiresRollback_eq hheight] at hsome
  split_ifs at hsome with hbelow hmismatch
  · obtain rfl := Option.some.inj hsome
    omega
  · obtain ⟨htip, -, hparent⟩ := hmismatch
    obtain ⟨tip, htipStored, htipHash⟩ := hcarries.valid.exists_tip htip
    obtain ⟨block, hblock, hhash⟩ :=
      hcarries.holds (eventShape.level event - 1) _
        (List.getElem?_eq_getElem (by omega))
    have hplace : ((eventShape.level event - 1 : ℕ) : ℤ) + 1 =
        store.tipHeight := by
      omega
    rw [hplace] at hblock
    obtain rfl := Option.some.inj (hblock.symm.trans htipStored)
    have hlink := hfits.2
    rw [top_take hlength, if_neg (by omega),
      List.getElem?_eq_getElem (by omega)] at hlink
    exact absurd (hlink.trans (hhash.symm.trans htipHash)) hparent

theorem withDefaults_of_generated (hgenerated : event.Generated) :
    event.withType = event ∧ event.withDefaults = event := by
  have hhash := hgenerated.blockHash_ne
  have hid : event.id ≠ "" := by
    rw [hgenerated.id]
    exact hhash
  have htype : event.type ≠ "" := by
    rw [hgenerated.type]
    decide
  refine ⟨?_, ?_⟩
  · rw [Event.withType, if_neg htype]
  · rw [Event.withDefaults, Event.withId, if_neg hid, Event.withBlockHash,
      if_neg hhash]

/-- A call that succeeds puts the event on the chain, and one that fails
leaves what is below it. -/
def chainAfter (chain : List String) (event : Event) :
    Except String Bool → List String
  | .ok _ => put eventShape chain event
  | .error _ => chain.take (eventShape.level event)

theorem Carries.upsert
    (hcarries : store.Carries chain) (hgenerated : event.Generated)
    (hfits : Fits eventShape chain event) (io : Io) :
    (store.upsert io event).1.Carries
      (chainAfter chain event (store.upsert io event).2) := by
  obtain ⟨hwithType, hwithDefaults⟩ := withDefaults_of_generated hgenerated
  have hblock : event.type ≠ "rollback" := by
    rw [hgenerated.type]
    decide
  have hheight := hgenerated.height
  have hlevel : eventShape.level event = (event.height - 1).toNat := rfl
  rw [upsert_of_block store io hblock, hwithType]
  obtain ⟨hfitsBelow, hputBelow⟩ := hfits.take
  rcases store.upsertBlock_cases io event with
    ⟨hseen, hresult⟩ | ⟨-, err, hresult⟩ | ⟨hnew, hnone, time, hresult⟩ |
    ⟨-, rollbackFrom, time, err, hsome, hresult⟩ |
    ⟨hnew, rollbackFrom, time, time', hsome, hresult⟩
  · rw [hresult]
    rw [hwithDefaults] at hseen
    exact hcarries.put_of_mem_seen hgenerated hfits hseen
  · rw [hresult]
    exact hcarries.take _
  · rw [hresult]
    rw [hwithDefaults] at hnew hnone ⊢
    exact (hcarries.logLine time event).applyBlock hgenerated hfits
      (hcarries.valid.tip_lt_of_requiresRollback_none hheight hnone) hnew
  · rw [hresult]
    rw [hwithDefaults] at hsome ⊢
    rw [hcarries.rollbackFrom_eq hgenerated hfits hsome]
    exact (hcarries.logLine time _).rollback _
  · rw [hresult]
    rw [hwithDefaults] at hsome hnew ⊢
    obtain rfl := hcarries.rollbackFrom_eq hgenerated hfits hsome
    have hlogged := hcarries.logLine time (forcedRollback event
      ((eventShape.level event : ℤ) + 1) io.unixNano)
    have hrolled := (hlogged.rollback (eventShape.level event)).logLine time'
      event
    have hfrom : (1 : ℤ) ≤ eventShape.level event + 1 := by omega
    have hlow := hlogged.valid.rollback_tip_lt hfrom
    have happlied := hrolled.applyBlock hgenerated hfitsBelow
      (hlow.trans_eq (by omega))
      (hlogged.valid.not_mem_seen_rollback hfrom hnew)
    rw [hputBelow] at happlied
    exact happlied

/-! ## A restart -/

/-- Every stored event is at its own height. -/
def AtOwnHeight (store : FileEventStore) : Prop :=
  ∀ height event, store.eventsByHeight.lookup height = some event →
    event.height = height

theorem AtOwnHeight.replay
    (hown : store.AtOwnHeight) (line : Event) :
    (store.replay line).AtOwnHeight := by
  unfold FileEventStore.replay
  split_ifs with htype
  · by_cases hfrom : 1 ≤ line.rollbackFrom
    · intro height event hlookup
      rw [lookup_rollback store hfrom] at hlookup
      split_ifs at hlookup
      exact hown height event hlookup
    · have hnothing : line.rollbackFrom ≤ 0 := by omega
      unfold FileEventStore.rollback applyRollback
      rw [if_pos hnothing]
      exact hown
  · intro height event hlookup
    rw [applyBlock_named] at hlookup
    simp only [KeyedMap.lookup_insert_eq] at hlookup
    split_ifs at hlookup with hsame
    · obtain rfl := Option.some.inj hlookup
      rw [named_height, hsame]
    · exact hown height event hlookup

theorem newFileEventStore_atOwnHeight (file : List Event) :
    (newFileEventStore file).AtOwnHeight := by
  have hload : ∀ (lines : List Event) (start : FileEventStore),
      start.AtOwnHeight → (lines.foldl FileEventStore.replay
        start).AtOwnHeight := by
    intro lines
    induction lines with
    | nil => exact fun _ hstart => hstart
    | cons line rest ih =>
        exact fun start hstart => ih _ (hstart.replay line)
  apply hload
  intro height event hlookup
  cases hlookup

theorem Agrees.valid
    {other : FileEventStore} (hagrees : store.Agrees other)
    (hvalid : store.Valid) (hown : other.AtOwnHeight) : other.Valid := by
  have hblock : ∀ {height : ℤ} {event : Event},
      other.eventsByHeight.lookup height = some event →
        ∃ mine, store.eventsByHeight.lookup height = some mine ∧
          mine.storedBlock = event.storedBlock := by
    intro height event hlookup
    have hsame := hagrees.stored height
    unfold storedAt at hsame
    rw [hlookup, Option.map_some] at hsame
    exact Option.map_eq_some_iff.mp hsame
  constructor
  · intro height event hlookup
    obtain ⟨mine, hmine, hsame⟩ := hblock hlookup
    obtain ⟨hpos, -, hid, hhash⟩ := hvalid.stored height mine hmine
    have hidSame : mine.id = event.id := congrArg StoredBlock.id hsame
    have hhashSame : mine.blockHash = event.blockHash :=
      congrArg StoredBlock.blockHash hsame
    exact ⟨hpos, hown height event hlookup, hidSame ▸ hid, hhashSame ▸ hhash⟩
  · intro id
    rw [← hagrees.seen, hvalid.mem_seen_iff]
    constructor
    · rintro ⟨⟨height, block⟩, hmem, rfl⟩
      have hstored : other.storedAt height = some block :=
        (hagrees.stored height).symm.trans hmem
      obtain ⟨event, hlookup, rfl⟩ := Option.map_eq_some_iff.mp hstored
      exact ⟨height, event, hlookup, rfl⟩
    · rintro ⟨height, event, hlookup, rfl⟩
      obtain ⟨mine, hmine, hsame⟩ := hblock hlookup
      exact ⟨(height, mine.storedBlock),
        Option.map_eq_some_iff.mpr ⟨mine, hmine, rfl⟩,
        congrArg StoredBlock.id hsame⟩
  · intro height height' event event' hlookup hlookup' hid
    obtain ⟨mine, hmine, hsame⟩ := hblock hlookup
    obtain ⟨mine', hmine', hsame'⟩ := hblock hlookup'
    have hidSame : mine.id = event.id := congrArg StoredBlock.id hsame
    have hidSame' : mine'.id = event'.id := congrArg StoredBlock.id hsame'
    exact hvalid.id_unique height height' mine mine' hmine hmine'
      (by rw [hidSame, hid, hidSame'])
  · rcases hvalid.tip with ⟨hheight, hhash, hnone⟩ |
      ⟨mine, hmine, hhash, hgreatest⟩
    · refine Or.inl ⟨hagrees.tipHeight ▸ hheight, hagrees.tipHash ▸ hhash, ?_⟩
      intro height
      have hsame := hagrees.stored height
      unfold storedAt at hsame
      rw [hnone, Option.map_none, eq_comm, Option.map_eq_none_iff] at hsame
      exact hsame
    · have hstored : other.storedAt store.tipHeight = some mine.storedBlock :=
        (hagrees.stored _).symm.trans
          (Option.map_eq_some_iff.mpr ⟨mine, hmine, rfl⟩)
      obtain ⟨event, hlookup, hsame⟩ := Option.map_eq_some_iff.mp hstored
      have hhashSame : event.blockHash = mine.blockHash :=
        congrArg StoredBlock.blockHash hsame
      refine Or.inr ⟨event, ?_, ?_, ?_⟩
      · rw [← hagrees.tipHeight]
        exact hlookup
      · rw [← hagrees.tipHash, hhash, hhashSame]
      · intro height found hfound
        obtain ⟨other, hother, -⟩ := hblock hfound
        rw [← hagrees.tipHeight]
        exact hgreatest height other hother

/-- A store that is opened on the log carries what the live one carries. -/
theorem Carries.restart
    (hcarries : store.Carries chain) (hrestart : store.Restartable) :
    (newFileEventStore store.log).Carries chain where
  valid := hrestart.valid hcarries.valid (newFileEventStore_atOwnHeight _)
  named height block hstored :=
    hcarries.named height block ((hrestart.stored height).trans hstored)
  filled height hpositive hheight := by
    rw [← hrestart.stored height]
    exact hcarries.filled height hpositive (hrestart.tipHeight ▸ hheight)
  linked height block child hblock hchild :=
    hcarries.linked height block child ((hrestart.stored _).trans hblock)
      ((hrestart.stored _).trans hchild)
  root block hstored :=
    hcarries.root block ((hrestart.stored _).trans hstored)
  holds index hash hindex := by
    rw [← hrestart.stored]
    exact hcarries.holds index hash hindex

end FileEventStore

end SoulonWallet.Indexer
