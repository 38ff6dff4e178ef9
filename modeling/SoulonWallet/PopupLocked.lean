import SoulonWallet.PopupMoves

/-!
# What the locked popup shows

Locking cuts the stack down to the tabs, and on the locked screen there is only
the control that unlocks.  The slash key still opens the search there, and the
search lists tokens, collectibles and activity.  A run hides the wallet in
every locked state if and only if no slash is handled in a locked state.
-/

namespace SoulonWallet.Popup

open LabelledRun PopupState

variable {lowerCase : Utf16 → Utf16} {state next : PopupState}

/-- A locked popup has no route above its root, and shows the locked screen
without overlays. -/
def PopupState.HidesWallet (lowerCase : Utf16 → Utf16) (state : PopupState) :
    Prop :=
  state.isLocked = true →
    state.stack = [rootRoute] ∧
      state.shell lowerCase =
        { base := .locked, overlay := none, transparent := none }

theorem layers_of_root
    (hroot : state.stack = [rootRoute]) :
    state.layers =
      { base := rootRoute, overlay := [], transparentOverlay := [] } := by
  rw [layers, hroot]
  rfl

theorem shell_of_locked
    (hlocked : state.isLocked = true) (hroot : state.stack = [rootRoute]) :
    state.shell lowerCase =
      { base := .locked, overlay := none, transparent := none } := by
  simp [PopupState.shell, renderAppShell, renderBaseContent,
    layers_of_root hroot, hlocked]

theorem hidesWallet_iff :
    state.HidesWallet lowerCase ↔
      (state.isLocked = true → state.stack = [rootRoute]) := by
  constructor
  · intro hhides hlocked
    exact (hhides hlocked).1
  · intro hstack hlocked
    exact ⟨hstack hlocked, shell_of_locked hlocked (hstack hlocked)⟩

theorem PopupState.Lowers.stack_of_root
    (hlower : state.Lowers next) (hroot : state.stack = [rootRoute]) :
    next.stack = [rootRoute] := by
  rw [← hroot]
  apply hlower.initial.eq_of_length_le
  rw [hroot]
  exact List.length_pos_iff.mpr hlower.nonempty

/-- No other event puts a route on the stack of a locked popup. -/
theorem PopupState.Moves.hidesWallet
    (hmoves : state.Moves next) (hstacked : state.WellStacked)
    (hhides : state.HidesWallet lowerCase) :
    next.HidesWallet lowerCase := by
  rw [hidesWallet_iff] at hhides ⊢
  intro hlocked
  cases hmoves with
  | lowers hlower =>
      exact hlower.stack_of_root (hhides (hlower.isLocked ▸ hlocked))
  | covers hshown hlower _ _ hsame =>
      have hwas : state.isLocked = true := by
        rw [← hlower.isLocked, ← hsame, hlocked]
      rcases hshown with htabs | hoverlay
      · rw [htabs.unlocked] at hwas
        cases hwas
      · rw [layers_of_root (hhides hwas)] at hoverlay
        exact absurd rfl hoverlay
  | opens htabs _ _ hsame =>
      rw [hsame, htabs.unlocked] at hlocked
      cases hlocked
  | locks hnext _ => exact hnext.trans hstacked.take_one
  | unlocks _ _ hunlocked =>
      rw [hunlocked] at hlocked
      cases hlocked

theorem openSearch_hidesWallet_iff
    (hhides : state.HidesWallet lowerCase) :
    (openSearch state).HidesWallet lowerCase ↔ state.isLocked = false := by
  rw [hidesWallet_iff] at hhides ⊢
  rcases openSearch_cases state with hpush | ⟨hsame, hshown⟩
  · rw [hpush]
    cases hlocked : state.isLocked with
    | true =>
        refine iff_of_false ?_ (by simp)
        intro halone
        have hstack : state.stack ++ [searchRoute] = [rootRoute] :=
          halone hlocked
        rw [hhides hlocked] at hstack
        cases hstack
    | false =>
        refine iff_of_true ?_ rfl
        intro hafter
        have hsame : (state.push searchRoute).isLocked = state.isLocked := rfl
        rw [hsame, hlocked] at hafter
        cases hafter
  · rw [hsame]
    refine iff_of_true hhides ?_
    by_contra hlocked
    rw [layers_of_root (hhides (by simpa using hlocked))] at hshown
    exact hshown rfl

/-- No slash is handled in a locked popup. -/
def LeavesLocked (popup : MountedPopup) (event : PopupEvent) : Prop :=
  ¬ (popup.state.isLocked = true ∧ event.isSlash = true)

theorem hidesWallet_step_iff
    {popup after : MountedPopup} {event : PopupEvent}
    (hstacked : popup.state.WellStacked)
    (hhides : popup.state.HidesWallet lowerCase)
    (hstep : step lowerCase popup event = some after) :
    after.state.HidesWallet lowerCase ↔ LeavesLocked popup event := by
  unfold LeavesLocked
  rcases step_cases hstacked hstep with
    ⟨hslash, hsearch⟩ | ⟨hslash, hmoves⟩
  · rw [hsearch, openSearch_hidesWallet_iff hhides]
    simp [hslash]
  · refine iff_of_true (hmoves.hidesWallet hstacked hhides) ?_
    simp [hslash]

theorem locked_popup_hides_wallet_iff
    (lowerCase : Utf16 → Utf16) (events : List PopupEvent) :
    (∀ popup, Visits (step lowerCase) .initial events popup →
        popup.state.HidesWallet lowerCase) ↔
      Guarded (step lowerCase) LeavesLocked .initial events := by
  apply forall_visits_iff_guarded fun popup => popup.state.WellStacked
  · intro popup event after hstacked hstep
    exact hstacked.step hstep
  · intro popup event after hstacked hhides hstep
    exact hidesWallet_step_iff hstacked hhides hstep
  · exact WellStacked.initial
  · intro hlocked
    cases hlocked

/-- The lower-casing of texts whose only letters with case are ASCII ones. -/
def asciiLower (text : Utf16) : Utf16 :=
  ⟨text.units.map Utf16.lowerUnit⟩

/-- The search is opened over the locked screen, and finds what the wallet
holds of the typed word. -/
theorem locked_popup_shows_tokens :
    ∃ popup, exec (step asciiLower) .initial
        [.click .avatar, .click .lock, .keydown "/" (some "BODY"),
          .input .search "soul"] = some popup ∧
      popup.state.isLocked = true ∧
      popup.state.stack = [rootRoute, searchRoute] ∧
      ((popup.state.shell asciiLower).transparent.map fun content =>
        content.results.map ListItem.description) =
        some [("可用余额 1,243.66" : Utf16), "质押余额 325.24",
          "向 cosmos1...k2r9 转账 8.50 SOUL"] ∧
      ¬ popup.state.HidesWallet asciiLower := by
  refine ⟨_, rfl, rfl, rfl, ?_, ?_⟩
  · decide
  · intro hhides
    cases (hhides rfl).1

end SoulonWallet.Popup
