import SoulonWallet.PopupController

/-!
# The route stack of the popup

The stack of the popup starts with the tabs.  It has at most one other page,
the detail of a listed item, and none while the popup is locked.  The other
routes are overlays without parameters.  Closing routes, covering the stack
with an overlay and opening a detail from the tabs keep it so.
-/

namespace SoulonWallet.Popup

open PageStack

/-! ## Well formed stacks -/

/-- A detail page of an item that the tabs list. -/
inductive PopupRoute.IsDetail : PopupRoute → Prop
  | token (token : TokenListItem) (hitem : token ∈ tokenItems) :
      IsDetail (tokenDetailRoute token.id)
  | activity (activity : ListItem) (hitem : activity ∈ activityItems) :
      IsDetail (activityDetailRoute activity.id)
  | collectible : IsDetail collectiblesDetailRoute

structure PopupRoute.IsOverlay (route : PopupRoute) : Prop where
  isPush : route.isPush = false
  params : route.params = none

namespace PopupState

def pages (state : PopupState) : List PopupRoute :=
  state.stack.filter PopupRoute.isPush

structure ShowsTabs (state : PopupState) : Prop where
  unlocked : state.isLocked = false
  pages : state.pages = [rootRoute]

structure ShowsDetail (state : PopupState) (detail : PopupRoute) : Prop where
  unlocked : state.isLocked = false
  pages : state.pages = [rootRoute, detail]
  isDetail : detail.IsDetail

structure WellStacked (state : PopupState) : Prop where
  root : state.stack.head? = some rootRoute
  pages : state.pages = [rootRoute] ∨ ∃ detail, state.ShowsDetail detail
  overlays : ∀ route ∈ state.stack, route.isPush = false → route.IsOverlay

/-- The same stack or what is left of it after closing some of its routes. -/
structure Lowers (state next : PopupState) : Prop where
  initial : next.stack <+: state.stack
  nonempty : next.stack ≠ []
  isLocked : next.isLocked = state.isLocked

end PopupState

open PopupState

variable {state middle next : PopupState} {route detail : PopupRoute}

theorem PopupRoute.IsDetail.isPush
    (hdetail : detail.IsDetail) :
    detail.isPush = true := by
  cases hdetail <;> rfl

theorem WellStacked.initial :
    PopupState.initial.WellStacked where
  root := rfl
  pages := Or.inl (by decide)
  overlays := by
    intro route hroute hpush
    obtain rfl := List.mem_singleton.mp hroute
    cases hpush

namespace PopupState.WellStacked

variable (hstacked : state.WellStacked)
include hstacked

theorem stack_ne_nil :
    state.stack ≠ [] := by
  intro hnil
  have hroot := hstacked.root
  rw [hnil] at hroot
  cases hroot

theorem take_one :
    state.stack.take 1 = [rootRoute] := by
  have hroot := hstacked.root
  cases hstack : state.stack with
  | nil => exact absurd hstack hstacked.stack_ne_nil
  | cons first rest =>
      rw [hstack] at hroot
      rw [Option.some.inj hroot, List.take_succ_cons, List.take_zero]

theorem pages_ne_nil :
    state.pages ≠ [] := by
  rcases hstacked.pages with htabs | ⟨detail, hdetail⟩
  · simp [htabs]
  · simp [hdetail.pages]

theorem base_eq :
    some state.layers.base = state.pages.getLast? := by
  have hbase : state.stack[baseIndex PopupRoute.isPush state.stack]? =
      state.pages.getLast? :=
    getElem?_baseIndex hstacked.pages_ne_nil
  have hlast : (state.pages.getLast?).isSome := by
    simpa using hstacked.pages_ne_nil
  obtain ⟨base, hsome⟩ := Option.isSome_iff_exists.mp hlast
  rw [hsome] at hbase ⊢
  simp [layers, getBaseAndOverlay, hbase]

theorem base_of_tabs
    (htabs : state.pages = [rootRoute]) :
    state.layers.base = rootRoute := by
  have hbase := hstacked.base_eq
  rw [htabs] at hbase
  exact Option.some.inj hbase

theorem base_of_detail
    (hdetail : state.ShowsDetail detail) :
    state.layers.base = detail := by
  have hbase := hstacked.base_eq
  rw [hdetail.pages] at hbase
  exact Option.some.inj hbase

/-- A locked popup has no page but the tabs. -/
theorem pages_of_locked
    (hlocked : state.isLocked = true) :
    state.pages = [rootRoute] := by
  rcases hstacked.pages with htabs | ⟨detail, hdetail⟩
  · exact htabs
  · rw [hdetail.unlocked] at hlocked
    cases hlocked

end PopupState.WellStacked

/-! ## Operations on the stack -/

theorem PopupState.Lowers.refl
    (hstack : state.stack ≠ []) :
    state.Lowers state :=
  ⟨List.prefix_rfl, hstack, rfl⟩

theorem PopupState.Lowers.of_same
    (hlower : state.Lowers middle)
    (hstack : next.stack = middle.stack)
    (hlocked : next.isLocked = middle.isLocked) :
    state.Lowers next where
  initial := hstack ▸ hlower.initial
  nonempty := hstack ▸ hlower.nonempty
  isLocked := hlocked.trans hlower.isLocked

theorem pop_lowers
    (hstack : state.stack ≠ []) :
    state.Lowers state.pop := by
  unfold pop
  split
  · exact Lowers.refl hstack
  · refine ⟨List.dropLast_prefix _, ?_, rfl⟩
    rw [← List.length_pos_iff, List.length_dropLast]
    omega

theorem popToBase_lowers
    (hstack : state.stack ≠ []) :
    state.Lowers state.popToBase where
  initial := toBase_prefix state.stack
  nonempty := toBase_ne_nil hstack
  isLocked := rfl

theorem closeByBehavior_lowers
    (behavior : CloseBehavior) (hstack : state.stack ≠ []) :
    state.Lowers (closeByBehavior behavior state) := by
  cases behavior with
  | goBack => exact pop_lowers hstack
  | popRootOnce => exact popToBase_lowers hstack
  | popRootTwice => exact popToBase_lowers hstack
  | reset => exact popToBase_lowers hstack

theorem closeTop_lowers
    (hstack : state.stack ≠ []) :
    state.Lowers (closeTop state) := by
  unfold closeTop
  split
  · exact Lowers.refl hstack
  · split
    · exact closeByBehavior_lowers _ hstack
    · exact pop_lowers hstack

theorem handleEscape_lowers
    (hstack : state.stack ≠ []) :
    state.Lowers (handleEscape state) := by
  unfold handleEscape
  split
  · exact closeTop_lowers hstack
  · split
    · exact closeTop_lowers hstack
    · exact Lowers.refl hstack

theorem PopupState.Lowers.pages_prefix
    (hlower : state.Lowers next) :
    next.pages <+: state.pages :=
  hlower.initial.filter _

theorem PopupState.Lowers.head_eq
    (hlower : state.Lowers next) :
    next.stack.head? = state.stack.head? := by
  obtain ⟨rest, hrest⟩ := hlower.initial
  rw [← hrest, List.head?_append_of_ne_nil _ hlower.nonempty]

theorem PopupState.WellStacked.lowers
    (hstacked : state.WellStacked) (hlower : state.Lowers next) :
    next.WellStacked := by
  have hroot : next.stack.head? = some rootRoute :=
    hlower.head_eq.trans hstacked.root
  have hpages : rootRoute ∈ next.pages := by
    apply List.mem_filter.mpr
    exact ⟨List.mem_of_mem_head? hroot, rfl⟩
  refine ⟨hroot, ?_, fun route hroute => ?_⟩
  · have hprefix := hlower.pages_prefix
    rcases hstacked.pages with htabs | ⟨detail, hdetail⟩
    · left
      rw [← htabs]
      apply hprefix.eq_of_length_le
      rw [htabs]
      exact List.length_pos_of_mem hpages
    · rw [hdetail.pages] at hprefix
      rcases List.prefix_cons_iff.mp hprefix with hnil | ⟨rest, heq, hrest⟩
      · simp [hnil] at hpages
      · rcases List.prefix_cons_iff.mp hrest with rfl | ⟨tail, rfl, htail⟩
        · exact Or.inl heq
        · obtain rfl := List.prefix_nil.mp htail
          exact Or.inr ⟨detail, hlower.isLocked.trans hdetail.unlocked, heq,
            hdetail.isDetail⟩
  · exact hstacked.overlays route (hlower.initial.subset hroute)

/-- An overlay on top changes neither the pages nor the lock. -/
theorem PopupState.WellStacked.cover
    (hstacked : state.WellStacked) (hroute : route.IsOverlay)
    (hnext : next.stack = state.stack ++ [route])
    (hlocked : next.isLocked = state.isLocked) :
    next.WellStacked ∧ next.pages = state.pages := by
  have hpages : next.pages = state.pages := by
    simp [PopupState.pages, hnext, hroute.isPush]
  refine ⟨⟨?_, ?_, ?_⟩, hpages⟩
  · rw [hnext, List.head?_append_of_ne_nil _ hstacked.stack_ne_nil]
    exact hstacked.root
  · rw [hpages]
    rcases hstacked.pages with htabs | ⟨detail, hdetail⟩
    · exact Or.inl htabs
    · exact Or.inr ⟨detail, hlocked.trans hdetail.unlocked,
        hpages.trans hdetail.pages, hdetail.isDetail⟩
  · intro other hother hpush
    rw [hnext, List.mem_append, List.mem_singleton] at hother
    rcases hother with hold | rfl
    · exact hstacked.overlays other hold hpush
    · exact hroute

theorem PopupState.WellStacked.open_detail
    (hstacked : state.WellStacked) (htabs : state.ShowsTabs)
    (hdetail : detail.IsDetail)
    (hnext : next.stack = state.stack ++ [detail])
    (hlocked : next.isLocked = state.isLocked) :
    next.WellStacked ∧ next.ShowsDetail detail := by
  have hshows : next.ShowsDetail detail := by
    refine ⟨hlocked.trans htabs.unlocked, ?_, hdetail⟩
    have hold : state.stack.filter PopupRoute.isPush = [rootRoute] :=
      htabs.pages
    simp [PopupState.pages, hnext, hold, hdetail.isPush]
  refine ⟨⟨?_, Or.inr ⟨detail, hshows⟩, ?_⟩, hshows⟩
  · rw [hnext, List.head?_append_of_ne_nil _ hstacked.stack_ne_nil]
    exact hstacked.root
  · intro other hother hpush
    rw [hnext, List.mem_append, List.mem_singleton] at hother
    rcases hother with hold | rfl
    · exact hstacked.overlays other hold hpush
    · rw [hdetail.isPush] at hpush
      cases hpush

theorem PopupState.WellStacked.of_root
    (hnext : next.stack = [rootRoute]) :
    next.WellStacked where
  root := by rw [hnext]; rfl
  pages := Or.inl (by rw [PopupState.pages, hnext]; rfl)
  overlays := by
    intro route hroute hpush
    rw [hnext, List.mem_singleton] at hroute
    subst route
    cases hpush

end SoulonWallet.Popup
