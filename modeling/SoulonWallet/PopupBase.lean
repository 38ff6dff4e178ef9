import SoulonWallet.PopupMoves

/-!
# The page under the overlays of the popup

The base route decides which screen is rendered, but a detail screen looks its
item up by the parameters of the route on top, and takes the first item of its
list when that one has none.  Without overlays the two routes are the same.
Only the search can be opened over a detail page, so a run shows the item of
the base in every unlocked state if and only if no slash is handled on the
detail page of an item that is not the first of its list.
-/

namespace SoulonWallet.Popup

open LabelledRun PageStack PopupState

variable {lowerCase : Utf16 → Utf16}
variable {state middle next : PopupState} {detail : PopupRoute}

/-- The content shows the item that the route of a detail page names. -/
def BaseContent.Shows (content : BaseContent) (base : PopupRoute) : Prop :=
  match base.id with
  | .tokenDetail =>
      ∃ token ∈ tokenItems, base.params = some ⟨token.id⟩ ∧
        ∃ wallet, content = .tokenDetail token wallet
  | .activityDetail =>
      ∃ activity ∈ activityItems, base.params = some ⟨activity.id⟩ ∧
        content = .activityDetail activity
  | _ => True

def PopupState.ShowsBase (lowerCase : Utf16 → Utf16) (state : PopupState) :
    Prop :=
  state.isLocked = false →
    (state.shell lowerCase).base.Shows state.layers.base

/-- A detail page of an item that is not the first one of its list. -/
def PopupRoute.isPastFirst (route : PopupRoute) : Bool :=
  match route.id with
  | .tokenDetail => route.params ≠ some ⟨soulToken.id⟩
  | .activityDetail => route.params ≠ some ⟨sentActivity.id⟩
  | _ => false

def PopupState.Covered (state : PopupState) : Prop :=
  above PopupRoute.isPush state.stack ≠ []

/-! ## What a state shows -/

theorem find_token
    {token : TokenListItem} (htoken : token ∈ tokenItems) :
    tokenItems.find? (fun item => item.id = token.id) = some token := by
  fin_cases htoken <;> rfl

theorem find_activity
    {activity : ListItem} (hactivity : activity ∈ activityItems) :
    activityItems.find? (fun item => item.id = activity.id) =
      some activity := by
  fin_cases hactivity <;> rfl

theorem shows_token_iff
    {token shown : TokenListItem} {wallet : WalletSummary}
    (hshown : shown ∈ tokenItems) :
    (BaseContent.tokenDetail shown wallet).Shows (tokenDetailRoute token.id) ↔
      token.id = shown.id := by
  simp only [BaseContent.Shows, tokenDetailRoute]
  constructor
  · rintro ⟨other, -, hid, _, hsame⟩
    cases hsame
    simpa using hid
  · intro hid
    exact ⟨shown, hshown, by rw [hid], wallet, rfl⟩

theorem shows_activity_iff
    {activity shown : ListItem} (hshown : shown ∈ activityItems) :
    (BaseContent.activityDetail shown).Shows
        (activityDetailRoute activity.id) ↔
      activity.id = shown.id := by
  simp only [BaseContent.Shows, activityDetailRoute]
  constructor
  · rintro ⟨other, -, hid, hsame⟩
    cases hsame
    simpa using hid
  · intro hid
    exact ⟨shown, hshown, by rw [hid], rfl⟩

theorem base_of_token
    {token : TokenListItem} (hunlocked : state.isLocked = false)
    (hbase : state.layers.base = tokenDetailRoute token.id) :
    (state.shell lowerCase).base =
      renderTokenDetailScreen state (activeWallet state) := by
  simp [PopupState.shell, renderAppShell, renderBaseContent, hunlocked, hbase,
    tokenDetailRoute]

theorem base_of_activity
    {activity : ListItem} (hunlocked : state.isLocked = false)
    (hbase : state.layers.base = activityDetailRoute activity.id) :
    (state.shell lowerCase).base =
      renderActivityDetailScreen state := by
  simp [PopupState.shell, renderAppShell, renderBaseContent, hunlocked, hbase,
    activityDetailRoute]

namespace PopupState.WellStacked

variable (hstacked : state.WellStacked)
include hstacked

theorem top_of_not_covered
    (hdetail : state.ShowsDetail detail) (hcovered : ¬ state.Covered) :
    state.stack.getLast? = some detail := by
  obtain ⟨top, hlast, htop⟩ :=
    (above_eq_nil_iff hstacked.pages_ne_nil).mp (not_not.mp hcovered)
  have hpages : state.pages.getLast? = some top :=
    getLast?_filter_of_page hlast htop
  rw [hdetail.pages] at hpages
  rw [hlast, ← hpages]
  rfl

/-- An overlay on top names no item. -/
theorem topId_of_covered
    (hcovered : state.Covered) :
    topId state = "" := by
  obtain ⟨top, hlast⟩ :=
    Option.isSome_iff_exists.mp
      (List.getLast?_isSome.mpr hstacked.stack_ne_nil)
  have htop : top.isPush = false := by
    by_contra hpush
    exact hcovered ((above_eq_nil_iff hstacked.pages_ne_nil).mpr
      ⟨top, hlast, by simpa using hpush⟩)
  have hparams : top.params = none :=
    (hstacked.overlays top (List.mem_of_getLast? hlast) htop).params
  simp [topId, hlast, hparams]

theorem shows_of_not_covered
    (hdetail : state.ShowsDetail detail) (hcovered : ¬ state.Covered) :
    (state.shell lowerCase).base.Shows detail := by
  have htop := hstacked.top_of_not_covered hdetail hcovered
  have hbase := hstacked.base_of_detail hdetail
  cases hdetail.isDetail with
  | token token htoken =>
      have hid : topId state = token.id := by
        rw [topId, htop]
        rfl
      rw [base_of_token hdetail.unlocked hbase, renderTokenDetailScreen, hid,
        find_token htoken]
      exact (shows_token_iff htoken).mpr rfl
  | activity activity hactivity =>
      have hid : topId state = activity.id := by
        rw [topId, htop]
        rfl
      rw [base_of_activity hdetail.unlocked hbase, renderActivityDetailScreen,
        hid, find_activity hactivity]
      exact (shows_activity_iff hactivity).mpr rfl
  | collectible => trivial

/-- Under an overlay a detail page shows the first item of its list. -/
theorem shows_iff_of_covered
    (hdetail : state.ShowsDetail detail) (hcovered : state.Covered) :
    (state.shell lowerCase).base.Shows detail ↔
      detail.isPastFirst = false := by
  have hid := hstacked.topId_of_covered hcovered
  have hbase := hstacked.base_of_detail hdetail
  cases hdetail.isDetail with
  | token token htoken =>
      have hcontent : renderTokenDetailScreen state (activeWallet state) =
          .tokenDetail soulToken (activeWallet state) := by
        rw [renderTokenDetailScreen, hid]
        rfl
      rw [base_of_token hdetail.unlocked hbase, hcontent,
        shows_token_iff List.mem_cons_self]
      simp [PopupRoute.isPastFirst, tokenDetailRoute]
  | activity activity hactivity =>
      have hcontent : renderActivityDetailScreen state =
          .activityDetail sentActivity := by
        rw [renderActivityDetailScreen, hid]
        rfl
      rw [base_of_activity hdetail.unlocked hbase, hcontent,
        shows_activity_iff List.mem_cons_self]
      simp [PopupRoute.isPastFirst, activityDetailRoute]
  | collectible => exact iff_of_true trivial rfl

theorem showsBase_iff :
    state.ShowsBase lowerCase ↔
      ¬ (state.isLocked = false ∧ state.layers.base.isPastFirst = true ∧
        state.Covered) := by
  unfold ShowsBase
  rcases hstacked.pages with htabs | ⟨detail, hdetail⟩
  · rw [hstacked.base_of_tabs htabs]
    refine iff_of_true (fun _ => trivial) ?_
    rintro ⟨-, hpast, -⟩
    cases hpast
  · rw [hstacked.base_of_detail hdetail]
    by_cases hcovered : state.Covered
    · rw [hstacked.shows_iff_of_covered hdetail hcovered]
      simp [hdetail.unlocked, hcovered]
    · have hshows : (state.shell lowerCase).base.Shows detail :=
        hstacked.shows_of_not_covered hdetail hcovered
      simp [hshows, hcovered]

end PopupState.WellStacked

/-! ## Steps -/

theorem covered_of_overlay
    (hoverlay : state.layers.overlay ≠ []) :
    state.Covered := by
  intro hnil
  apply hoverlay
  simp [layers, getBaseAndOverlay, hnil]

theorem covered_of_transparentOverlay
    (hoverlay : state.layers.transparentOverlay ≠ []) :
    state.Covered := by
  intro hnil
  apply hoverlay
  simp [layers, getBaseAndOverlay, hnil]

theorem PopupState.WellStacked.base_congr
    (hstacked : state.WellStacked) (hnext : next.WellStacked)
    (hpages : next.pages = state.pages) :
    next.layers.base = state.layers.base := by
  have hbase := hnext.base_eq
  rw [hpages, ← hstacked.base_eq] at hbase
  exact Option.some.inj hbase

/-- A lowered stack that still has a detail page has lost overlays only. -/
theorem PopupState.WellStacked.pages_of_pastFirst
    (hstacked : state.WellStacked) (hlower : state.Lowers next)
    (hpast : next.layers.base.isPastFirst = true) :
    next.pages = state.pages := by
  have hnext := hstacked.lowers hlower
  rcases hnext.pages with htabs | ⟨detail, hdetail⟩
  · rw [hnext.base_of_tabs htabs] at hpast
    cases hpast
  · have hprefix := hlower.pages_prefix
    have hlength := hprefix.length_le
    apply hprefix.eq_of_length_le
    rw [hdetail.pages] at hlength ⊢
    rcases hstacked.pages with htabs | ⟨other, hother⟩
    · rw [htabs]
      simp
    · rw [hother.pages]
      rfl

theorem PopupState.Lowers.showsBase
    (hlower : state.Lowers next) (hstacked : state.WellStacked)
    (hshows : state.ShowsBase lowerCase) :
    next.ShowsBase lowerCase := by
  have hnext := hstacked.lowers hlower
  rw [hstacked.showsBase_iff] at hshows
  rw [hnext.showsBase_iff]
  rintro ⟨hunlocked, hpast, hcovered⟩
  have hpages := hstacked.pages_of_pastFirst hlower hpast
  rw [hstacked.base_congr hnext hpages] at hpast
  have hopen : ¬ state.Covered := by
    intro hwas
    exact hshows ⟨hlower.isLocked ▸ hunlocked, hpast, hwas⟩
  obtain ⟨top, hlast, htop⟩ :=
    (above_eq_nil_iff hstacked.pages_ne_nil).mp (not_not.mp hopen)
  have hsame : next.stack = state.stack :=
    eq_of_prefix_of_page hlower.initial hpages hlast htop
  rw [Covered, hsame] at hcovered
  exact hopen hcovered

/-- A modal is put on the tabs or on another modal. -/
theorem showsBase_of_covers
    {route : PopupRoute}
    (hshown : state.ShowsTabs ∨ state.layers.overlay ≠ [])
    (hlower : state.Lowers middle) (hroute : route.IsOverlay)
    (hnext : next.stack = middle.stack ++ [route])
    (hlocked : next.isLocked = middle.isLocked)
    (hstacked : state.WellStacked) (hshows : state.ShowsBase lowerCase) :
    next.ShowsBase lowerCase := by
  have hmiddle := hstacked.lowers hlower
  obtain ⟨hafter, hpages⟩ := hmiddle.cover hroute hnext hlocked
  rw [hstacked.showsBase_iff] at hshows
  rw [hafter.showsBase_iff]
  rintro ⟨hunlocked, hpast, -⟩
  rw [hmiddle.base_congr hafter hpages] at hpast
  have hbase : middle.layers.base = state.layers.base :=
    hstacked.base_congr hmiddle (hstacked.pages_of_pastFirst hlower hpast)
  rw [hbase] at hpast
  rcases hshown with htabs | hoverlay
  · rw [hstacked.base_of_tabs htabs.pages] at hpast
    cases hpast
  · refine hshows ⟨?_, hpast, covered_of_overlay hoverlay⟩
    rw [← hlower.isLocked, ← hlocked, hunlocked]

theorem PopupState.Moves.showsBase
    (hmoves : state.Moves next) (hstacked : state.WellStacked)
    (hshows : state.ShowsBase lowerCase) :
    next.ShowsBase lowerCase := by
  have hafter := hstacked.moves hmoves
  cases hmoves with
  | lowers hlower => exact hlower.showsBase hstacked hshows
  | covers hshown hlower hroute hnext hlocked =>
      exact showsBase_of_covers hshown hlower hroute hnext hlocked hstacked
        hshows
  | opens htabs hdetail hnext hlocked =>
      rw [hafter.showsBase_iff]
      rintro ⟨-, -, hcovered⟩
      rw [Covered, hnext, above_concat_page _ hdetail.isPush] at hcovered
      exact hcovered rfl
  | locks _ hlocked =>
      intro hunlocked
      rw [hunlocked] at hlocked
      cases hlocked
  | unlocks hwas hnext _ =>
      have hpages : next.pages = [rootRoute] := by
        rw [PopupState.pages, hnext]
        exact hstacked.pages_of_locked hwas
      rw [hafter.showsBase_iff, hafter.base_of_tabs hpages]
      rintro ⟨-, hpast, -⟩
      cases hpast

theorem openSearch_showsBase_iff
    (hstacked : state.WellStacked) (hshows : state.ShowsBase lowerCase) :
    (openSearch state).ShowsBase lowerCase ↔
      ¬ (state.isLocked = false ∧ state.layers.base.isPastFirst = true) := by
  rcases openSearch_cases state with hpush | ⟨hsame, hoverlay⟩
  · obtain ⟨hafter, hpages⟩ := hstacked.push_search
    have hbase := hstacked.base_congr hafter hpages
    have hcovered : (state.push searchRoute).Covered := by
      rw [Covered, push, above_concat_overlay hstacked.stack_ne_nil rfl]
      simp
    rw [hpush, hafter.showsBase_iff, hbase]
    have hlocked : (state.push searchRoute).isLocked = state.isLocked := rfl
    simp [hlocked, hcovered]
  · have hcovered := covered_of_transparentOverlay hoverlay
    rw [hsame]
    refine iff_of_true hshows ?_
    rintro ⟨hunlocked, hpast⟩
    exact hstacked.showsBase_iff.mp hshows ⟨hunlocked, hpast, hcovered⟩

/-- No slash is handled on the detail page of an item that is not the first of
its list. -/
def LeavesDetail (popup : MountedPopup) (event : PopupEvent) : Prop :=
  ¬ (popup.state.isLocked = false ∧
    popup.state.layers.base.isPastFirst = true ∧ event.isSlash = true)

theorem showsBase_step_iff
    {popup after : MountedPopup} {event : PopupEvent}
    (hstacked : popup.state.WellStacked)
    (hshows : popup.state.ShowsBase lowerCase)
    (hstep : step lowerCase popup event = some after) :
    after.state.ShowsBase lowerCase ↔ LeavesDetail popup event := by
  unfold LeavesDetail
  rcases step_cases hstacked hstep with
    ⟨hslash, hsearch⟩ | ⟨hslash, hmoves⟩
  · rw [hsearch, openSearch_showsBase_iff hstacked hshows]
    simp [hslash]
  · refine iff_of_true (hmoves.showsBase hstacked hshows) ?_
    simp [hslash]

theorem base_shown_under_overlays_iff
    (lowerCase : Utf16 → Utf16) (events : List PopupEvent) :
    (∀ popup, Visits (step lowerCase) .initial events popup →
        popup.state.ShowsBase lowerCase) ↔
      Guarded (step lowerCase) LeavesDetail .initial events := by
  apply forall_visits_iff_guarded fun popup => popup.state.WellStacked
  · intro popup event after hstacked hstep
    exact hstacked.step hstep
  · intro popup event after hstacked hshows hstep
    exact showsBase_step_iff hstacked hshows hstep
  · exact WellStacked.initial
  · intro _
    trivial

/-- The search over the page of the second token, or of the second activity,
turns it into the page of the first one. -/
theorem search_changes_base :
    (∃ popup, exec (step id) .initial
        [.click (.openTokenDetail "token-2"), .keydown "/" (some "BODY")] =
          some popup ∧
      popup.state.isLocked = false ∧
      popup.state.layers.base = tokenDetailRoute "token-2" ∧
      (popup.state.shell id).base =
        .tokenDetail soulToken defaultWallet ∧
      ¬ popup.state.ShowsBase id) ∧
    ∃ popup, exec (step id) .initial
        [.click (.tab .activity), .click (.openActivityDetail "activity-2"),
          .keydown "/" (some "BODY")] = some popup ∧
      popup.state.isLocked = false ∧
      popup.state.layers.base = activityDetailRoute "activity-2" ∧
      (popup.state.shell id).base = .activityDetail sentActivity ∧
      ¬ popup.state.ShowsBase id := by
  refine ⟨⟨_, rfl, rfl, rfl, rfl, ?_⟩, ⟨_, rfl, rfl, rfl, rfl, ?_⟩⟩
  · intro hshows
    obtain ⟨token, -, hid, wallet, hcontent⟩ := hshows rfl
    obtain rfl : soulToken = token := by
      injection hcontent
    exact absurd hid (by decide)
  · intro hshows
    obtain ⟨activity, -, hid, hcontent⟩ := hshows rfl
    obtain rfl : sentActivity = activity := by
      injection hcontent
    exact absurd hid (by decide)

end SoulonWallet.Popup
