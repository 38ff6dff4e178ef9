import Mathlib.Data.Set.Function
import Mathlib.Tactic

/-!
# Piles of blocks with reorganizations

A pile is a set of blocks of distinct heights.  A new block replaces
everything at its height and above.  A block right below it is replaced too
when it is the top of the pile and the new block does not follow it.  A block
that is already in the pile changes nothing.

Delivering a word of blocks a second time loses nothing: every block of the
pile is there again at the end.  The proof compares the two passes through
the blocks that last, those of the first pass that no later delivery removes.
The second pass may keep more, but at most one block for each height, so
piles whose heights cover the word are fixed points.
-/

namespace SoulonWallet.ReorgPile

variable {Block : Type*} (height : Block → ℤ) (follows : Block → Block → Prop)

/-- A block of the pile stays when `new` is put on it. -/
def Stays (pile : Set Block) (new block : Block) : Prop :=
  height block < height new ∧
    (height block + 1 = height new →
      follows new block ∨ ∃ other ∈ pile, height block < height other)

def deliver (pile : Set Block) (new : Block) : Set Block :=
  { block | block = new ∨
    block ∈ pile ∧ (new ∈ pile ∨ Stays height follows pile new block) }

def deliverAll (pile : Set Block) (blocks : List Block) : Set Block :=
  blocks.foldl (deliver height follows) pile

/-- The blocks of the pile that no delivery of the word removes. -/
def lasting (pile : Set Block) : List Block → Set Block
  | [] => pile
  | new :: rest => pile ∩ lasting (deliver height follows pile new) rest

variable {height follows} {pile : Set Block} {new block : Block}
variable {blocks : List Block}

/-! ## One delivery -/

theorem mem_deliver_self : new ∈ deliver height follows pile new :=
  Or.inl rfl

theorem deliver_of_mem (hmem : new ∈ pile) :
    deliver height follows pile new = pile := by
  ext block
  constructor
  · rintro (rfl | ⟨hblock, _⟩)
    · exact hmem
    · exact hblock
  · intro hblock
    exact Or.inr ⟨hblock, Or.inl hmem⟩

theorem mem_or_eq_of_mem_deliver
    (hblock : block ∈ deliver height follows pile new) :
    block = new ∨ block ∈ pile := by
  rcases hblock with heq | ⟨hmem, _⟩
  · exact Or.inl heq
  · exact Or.inr hmem

theorem mem_deliver_of_new (hnew : new ∉ pile) :
    block ∈ deliver height follows pile new ↔
      block = new ∨ block ∈ pile ∧ Stays height follows pile new block := by
  simp [deliver, hnew]

theorem stays_of_mem_deliver
    (hnew : new ∉ pile) (hblock : block ∈ pile)
    (hmem : block ∈ deliver height follows pile new) :
    Stays height follows pile new block := by
  rcases (mem_deliver_of_new hnew).mp hmem with rfl | ⟨_, hstays⟩
  · exact absurd hblock hnew
  · exact hstays

theorem not_mem_deliver_of_le
    (hnew : new ∉ pile) (hblock : block ∈ pile)
    (hle : height new ≤ height block) :
    block ∉ deliver height follows pile new := by
  intro hmem
  have hlt := (stays_of_mem_deliver hnew hblock hmem).1
  omega

theorem injOn_deliver (hdistinct : Set.InjOn height pile) :
    Set.InjOn height (deliver height follows pile new) := by
  by_cases hnew : new ∈ pile
  · rw [deliver_of_mem hnew]
    exact hdistinct
  · intro block hblock other hother heq
    have hbelow : ∀ kept, kept ∈ deliver height follows pile new →
        kept = new ∨ height kept < height new ∧ kept ∈ pile := by
      intro kept hkept
      rcases mem_or_eq_of_mem_deliver hkept with hself | hmem
      · exact Or.inl hself
      · exact Or.inr ⟨(stays_of_mem_deliver hnew hmem hkept).1, hmem⟩
    rcases hbelow block hblock with rfl | ⟨hlt, hmem⟩
    · rcases hbelow other hother with rfl | ⟨hlt', _⟩
      · rfl
      · omega
    · rcases hbelow other hother with rfl | ⟨_, hmem'⟩
      · omega
      · exact hdistinct hmem hmem' heq

/-- A block above a pile that it follows is put on top of it. -/
theorem deliver_eq_insert
    (habove : ∀ block ∈ pile, height block < height new)
    (hfollows : ∀ block ∈ pile, height block + 1 = height new →
      follows new block) :
    deliver height follows pile new = insert new pile := by
  ext block
  constructor
  · exact mem_or_eq_of_mem_deliver
  · rintro (rfl | hblock)
    · exact mem_deliver_self
    · exact Or.inr ⟨hblock, Or.inr ⟨habove block hblock,
        fun hnext => Or.inl (hfollows block hblock hnext)⟩⟩

/-! ## Words of deliveries -/

theorem deliverAll_append (blocks later : List Block) :
    deliverAll height follows pile (blocks ++ later) =
      deliverAll height follows (deliverAll height follows pile blocks)
        later :=
  List.foldl_append

theorem mem_or_mem_of_mem_deliverAll
    (hblock : block ∈ deliverAll height follows pile blocks) :
    block ∈ pile ∨ block ∈ blocks := by
  induction blocks generalizing pile with
  | nil => exact Or.inl hblock
  | cons new rest ih =>
      rcases ih hblock with hmem | hrest
      · rcases mem_or_eq_of_mem_deliver hmem with rfl | hpile
        · exact Or.inr List.mem_cons_self
        · exact Or.inl hpile
      · exact Or.inr (List.mem_cons_of_mem new hrest)

theorem injOn_deliverAll (hdistinct : Set.InjOn height pile) :
    Set.InjOn height (deliverAll height follows pile blocks) := by
  induction blocks generalizing pile with
  | nil => exact hdistinct
  | cons new rest ih => exact ih (injOn_deliver hdistinct)

/-- When every block of a word without repetitions is in the pile at the
end, the word ascends: a lower block removes the one delivered before it. -/
theorem isChain_of_forall_mem
    (hnodup : blocks.Nodup) (hfresh : ∀ block ∈ blocks, block ∉ pile)
    (hall : ∀ block ∈ blocks,
      block ∈ deliverAll height follows pile blocks) :
    blocks.IsChain (fun lower upper => height lower < height upper) := by
  induction blocks generalizing pile with
  | nil => exact List.IsChain.nil
  | cons first rest ih =>
      obtain ⟨hfirst, hrest⟩ := List.nodup_cons.mp hnodup
      have hfreshRest : ∀ block ∈ rest,
          block ∉ deliver height follows pile first := by
        intro block hblock hmem
        rcases mem_or_eq_of_mem_deliver hmem with rfl | hpile
        · exact hfirst hblock
        · exact hfresh block (List.mem_cons_of_mem first hblock) hpile
      have hchain := ih hrest hfreshRest
        (fun block hblock => hall block (List.mem_cons_of_mem first hblock))
      cases rest with
      | nil => exact List.IsChain.singleton first
      | cons second later =>
          refine List.IsChain.cons_cons ?_ hchain
          by_contra hle
          have hgone :
              first ∉ deliver height follows
                (deliver height follows pile first) second :=
            not_mem_deliver_of_le
              (hfreshRest second List.mem_cons_self) mem_deliver_self
              (not_lt.mp hle)
          have hend :
              first ∈ deliverAll height follows
                (deliver height follows
                  (deliver height follows pile first) second) later :=
            hall first List.mem_cons_self
          rcases mem_or_mem_of_mem_deliverAll hend with hmem | hlater
          · exact hgone hmem
          · exact hfirst (List.mem_cons_of_mem second hlater)

theorem ascending_of_forall_mem
    (hnodup : blocks.Nodup) (hfresh : ∀ block ∈ blocks, block ∉ pile)
    (hall : ∀ block ∈ blocks,
      block ∈ deliverAll height follows pile blocks) :
    blocks.Pairwise (fun lower upper => height lower < height upper) := by
  have htrans : IsTrans Block fun lower upper =>
      height lower < height upper :=
    ⟨fun _ _ _ => lt_trans⟩
  exact List.isChain_iff_pairwise.mp
    (isChain_of_forall_mem hnodup hfresh hall)

/-! ## Blocks that last -/

theorem lasting_subset :
    lasting height follows pile blocks ⊆ pile := by
  cases blocks with
  | nil => exact subset_rfl
  | cons new rest => exact Set.inter_subset_left

theorem lasting_subset_deliverAll :
    lasting height follows pile blocks ⊆
      deliverAll height follows pile blocks := by
  induction blocks generalizing pile with
  | nil => exact subset_rfl
  | cons new rest ih =>
      intro block hblock
      exact ih hblock.2

/-- Above a block that lasts, the pile never becomes empty. -/
theorem exists_above_of_lasting
    {other : Block} (hblock : block ∈ lasting height follows pile blocks)
    (hother : other ∈ pile) (habove : height block < height other) :
    ∃ last ∈ deliverAll height follows pile blocks,
      height block < height last := by
  induction blocks generalizing pile other with
  | nil => exact ⟨other, hother, habove⟩
  | cons new rest ih =>
      obtain ⟨hpile, hrest⟩ := hblock
      by_cases hnew : new ∈ pile
      · have hsame : deliver height follows pile new = pile :=
          deliver_of_mem hnew
        rw [hsame] at hrest
        have hlast := ih hrest hother habove
        change ∃ last ∈ deliverAll height follows
          (deliver height follows pile new) rest, _
        rw [hsame]
        exact hlast
      · have hstays := stays_of_mem_deliver hnew hpile (lasting_subset hrest)
        exact ih hrest mem_deliver_self hstays.1

/-- Among the blocks of a pile, those that last lie below those that do
not. -/
theorem lt_of_lasting_of_not_lasting
    {other : Block} (hdistinct : Set.InjOn height pile)
    (hblock : block ∈ lasting height follows pile blocks)
    (hother : other ∈ pile)
    (hgone : other ∉ lasting height follows pile blocks) :
    height block < height other := by
  induction blocks generalizing pile with
  | nil => exact absurd hother hgone
  | cons new rest ih =>
      obtain ⟨hpile, hrest⟩ := hblock
      by_cases hkept : other ∈ deliver height follows pile new
      · apply ih (injOn_deliver hdistinct) hrest hkept
        intro hlasting
        exact hgone ⟨hother, hlasting⟩
      · have hnew : new ∉ pile := by
          intro hmem
          rw [deliver_of_mem hmem] at hkept
          exact hkept hother
        have hstays := stays_of_mem_deliver hnew hpile (lasting_subset hrest)
        by_contra hle
        have hothers : ¬ Stays height follows pile new other := by
          intro hstaysOther
          exact hkept (Or.inr ⟨hother, Or.inr hstaysOther⟩)
        apply hothers
        have hlt : height other < height new := by
          have := hstays.1
          omega
        refine ⟨hlt, ?_⟩
        intro hnext
        have hsame : height block = height other := by
          have := hstays.1
          omega
        rw [hdistinct hpile hother hsame] at hstays
        exact hstays.2 hnext

/-! ## Delivering a word twice -/

variable (height follows) in
/-- The state of the second pass against that of the first, with the rest of
the word to be delivered: what lasts in the first is in the second, and a
lasting block that is covered in the first is covered in the second. -/
structure Shadows (first second : Set Block) (blocks : List Block) : Prop where
  distinct : Set.InjOn height first
  kept : lasting height follows first blocks ⊆ second
  covered : ∀ block ∈ lasting height follows first blocks,
    (∃ other ∈ first, height block < height other) →
      ∃ other ∈ second, height block < height other

theorem shadows_deliverAll (hdistinct : Set.InjOn height pile) :
    Shadows height follows pile (deliverAll height follows pile blocks)
      blocks where
  distinct := hdistinct
  kept := lasting_subset_deliverAll
  covered := by
    rintro block hblock ⟨other, hother, habove⟩
    exact exists_above_of_lasting hblock hother habove

/-- A lasting block stays when the second pass delivers a block anew. -/
theorem Shadows.stays
    {first second : Set Block}
    (hshadows : Shadows height follows first second (new :: blocks))
    (hnew : new ∉ second)
    (hblock : block ∈ lasting height follows first (new :: blocks)) :
    Stays height follows second new block := by
  by_cases hmem : new ∈ first
  · have hgone : new ∉ lasting height follows first (new :: blocks) := by
      intro hlasting
      exact hnew (hshadows.kept hlasting)
    have hlt :=
      lt_of_lasting_of_not_lasting hshadows.distinct hblock hmem hgone
    refine ⟨hlt, ?_⟩
    intro _
    exact Or.inr (hshadows.covered block hblock ⟨new, hmem, hlt⟩)
  · have hstays :=
      stays_of_mem_deliver hmem hblock.1 (lasting_subset hblock.2)
    refine ⟨hstays.1, ?_⟩
    intro hnext
    rcases hstays.2 hnext with hfollows | hcovered
    · exact Or.inl hfollows
    · exact Or.inr (hshadows.covered block hblock hcovered)

theorem Shadows.deliver
    {first second : Set Block}
    (hshadows : Shadows height follows first second (new :: blocks)) :
    Shadows height follows (deliver height follows first new)
      (deliver height follows second new) blocks := by
  have hkept : ∀ block ∈ lasting height follows first (new :: blocks),
      block ∈ ReorgPile.deliver height follows second new := by
    intro block hblock
    by_cases hnew : new ∈ second
    · rw [deliver_of_mem hnew]
      exact hshadows.kept hblock
    · exact Or.inr ⟨hshadows.kept hblock,
        Or.inr (hshadows.stays hnew hblock)⟩
  constructor
  · exact injOn_deliver hshadows.distinct
  · intro block hblock
    rcases mem_or_eq_of_mem_deliver (lasting_subset hblock) with rfl | hfirst
    · exact mem_deliver_self
    · exact hkept block ⟨hfirst, hblock⟩
  · rintro block hblock ⟨other, hother, habove⟩
    by_cases hfirst : block ∈ first
    · have hlasting : block ∈ lasting height follows first (new :: blocks) :=
        ⟨hfirst, hblock⟩
      by_cases hnew : new ∈ second
      · rw [deliver_of_mem hnew]
        rcases mem_or_eq_of_mem_deliver hother with rfl | hotherFirst
        · exact ⟨other, hnew, habove⟩
        · exact hshadows.covered block hlasting
            ⟨other, hotherFirst, habove⟩
      · exact ⟨new, mem_deliver_self, (hshadows.stays hnew hlasting).1⟩
    · have hself : block = new :=
        (mem_or_eq_of_mem_deliver (lasting_subset hblock)).resolve_right
          hfirst
      subst hself
      rcases mem_or_eq_of_mem_deliver hother with rfl | hotherFirst
      · omega
      · have hlt := (stays_of_mem_deliver hfirst hotherFirst hother).1
        omega

theorem Shadows.subset
    {first second : Set Block}
    (hshadows : Shadows height follows first second blocks) :
    deliverAll height follows first blocks ⊆
      deliverAll height follows second blocks := by
  induction blocks generalizing first second with
  | nil => exact hshadows.kept
  | cons new rest ih => exact ih hshadows.deliver

/-- A second delivery of the same word loses no block. -/
theorem deliverAll_subset_again (hdistinct : Set.InjOn height pile) :
    deliverAll height follows pile blocks ⊆
      deliverAll height follows (deliverAll height follows pile blocks)
        blocks :=
  (shadows_deliverAll hdistinct).subset

/-- A second delivery changes nothing when the pile has a block at every
height of the word. -/
theorem deliverAll_again
    (hdistinct : Set.InjOn height pile)
    (hheights : ∀ block ∈ blocks,
      ∃ other ∈ deliverAll height follows pile blocks,
        height other = height block) :
    deliverAll height follows (deliverAll height follows pile blocks) blocks =
      deliverAll height follows pile blocks := by
  apply Set.Subset.antisymm _ (deliverAll_subset_again hdistinct)
  intro block hblock
  rcases mem_or_mem_of_mem_deliverAll hblock with hmem | hword
  · exact hmem
  · obtain ⟨other, hother, hsame⟩ := hheights block hword
    have hagain := deliverAll_subset_again hdistinct hother
    have hunique :=
      injOn_deliverAll (injOn_deliverAll hdistinct) hagain hblock hsame
    rw [← hunique]
    exact hother

end SoulonWallet.ReorgPile
