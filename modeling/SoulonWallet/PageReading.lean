import Mathlib.Tactic

/-!
# Reading a list page by page

A server hands out a list in pages: for an offset the items from there on, at
most `limit` of them, and whether there are more after them.  A reader asks
for the pages at the offsets `0`, `limit`, `2 * limit` and so on, as long as
there are more.  What it has read in the end is the list.
-/

namespace SoulonWallet.PageReading

variable {Item : Type*}

/-- The page of `items` that starts at `offset`, and whether there are items
after it. -/
def page (items : List Item) (limit offset : ℕ) : List Item × Bool :=
  ((items.drop offset).take limit, decide (offset + limit < items.length))

/-- The reader who asks at `offset` and goes on while there is more has read
these items; `serve` says which pages the server answers with. -/
inductive Reads (serve : ℕ → List Item × Bool → Prop) (limit : ℕ) :
    ℕ → List Item → Prop
  | last {offset : ℕ} {items : List Item}
      (hserve : serve offset (items, false)) : Reads serve limit offset items
  | more {offset : ℕ} {items rest : List Item}
      (hserve : serve offset (items, true))
      (hrest : Reads serve limit (offset + limit) rest) :
      Reads serve limit offset (items ++ rest)

variable {items : List Item} {limit offset : ℕ}

theorem page_of_past (hpast : items.length ≤ offset) :
    page items limit offset = ([], false) := by
  have hnot : ¬ offset + limit < items.length := by omega
  rw [page, List.drop_eq_nil_of_le hpast, List.take_nil, decide_eq_false hnot]

/-- The slice between the offset and the end of the page, which the end of the
list bounds. -/
theorem slice_eq_page (items : List Item) (limit offset : ℕ) :
    ((items.take (min (offset + limit) items.length)).drop offset,
        decide (min (offset + limit) items.length < items.length)) =
      page items limit offset := by
  have hstop : items.take (min (offset + limit) items.length) =
      items.take (offset + limit) := by
    rw [← List.take_take, List.take_length]
  have hmore : min (offset + limit) items.length < items.length ↔
      offset + limit < items.length := by
    omega
  simp only [hstop, hmore, page, List.drop_take, Nat.add_sub_cancel_left]

theorem page_fst_of_last (hlast : ¬ offset + limit < items.length) :
    (page items limit offset).1 = items.drop offset := by
  apply List.take_of_length_le
  rw [List.length_drop]
  omega

theorem page_fst_append :
    (page items limit offset).1 ++ items.drop (offset + limit) =
      items.drop offset := by
  rw [page, ← List.drop_drop, List.take_append_drop]

/-- The servers that are meant here: they serve the pages of `items` at every
offset that a reader asks for. -/
def ServesPages (serve : ℕ → List Item × Bool → Prop) (items : List Item)
    (limit : ℕ) : Prop :=
  ∀ offset answer, offset ≤ items.length →
    (serve offset answer ↔ answer = page items limit offset)

variable {serve : ℕ → List Item × Bool → Prop} {read : List Item}

theorem eq_drop_of_reads
    (hserves : ServesPages serve items limit)
    (hoffset : offset ≤ items.length)
    (hreads : Reads serve limit offset read) :
    read = items.drop offset := by
  induction hreads with
  | last hserve =>
      obtain ⟨hpage, hmore⟩ :=
        Prod.mk.inj ((hserves _ _ hoffset).mp hserve)
      rw [hpage]
      exact page_fst_of_last (of_decide_eq_false hmore.symm)
  | more hserve hrest ih =>
      obtain ⟨hpage, hmore⟩ :=
        Prod.mk.inj ((hserves _ _ hoffset).mp hserve)
      have hnext := of_decide_eq_true hmore.symm
      rw [ih hnext.le, hpage]
      exact page_fst_append

theorem reads_drop
    (hserves : ServesPages serve items limit) (hlimit : 0 < limit)
    (hoffset : offset ≤ items.length) :
    Reads serve limit offset (items.drop offset) := by
  induction hremaining : items.length - offset using Nat.strong_induction_on
    generalizing offset with
  | h remaining ih =>
      have hserve := (hserves offset _ hoffset).mpr rfl
      by_cases hmore : offset + limit < items.length
      · rw [← page_fst_append]
        apply Reads.more
        · rwa [page, decide_eq_true hmore] at hserve
        · exact ih _ (by omega) hmore.le rfl
      · rw [← page_fst_of_last hmore]
        apply Reads.last
        rwa [page, decide_eq_false hmore] at hserve

/-- Whoever reads the pages from the start has read the list in the end. -/
theorem reads_iff
    (hserves : ServesPages serve items limit) (hlimit : 0 < limit) :
    Reads serve limit 0 read ↔ read = items := by
  constructor
  · intro hreads
    exact eq_drop_of_reads hserves (Nat.zero_le _) hreads
  · rintro rfl
    exact reads_drop hserves hlimit (Nat.zero_le _)

end SoulonWallet.PageReading
