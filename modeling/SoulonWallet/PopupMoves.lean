import SoulonWallet.PopupStack

/-!
# What an event does to the popup

A handled slash opens the search.  Any other event lowers the stack, puts a
modal on a lowered one, opens a detail from the tabs, locks or unlocks.  The
controls that were rendered say which of these an event can do.
-/

namespace SoulonWallet.Popup

open PopupState

variable {lowerCase : Utf16 → Utf16}
variable {state next : PopupState} {control : Control}

/-! ## Rendered controls -/

/-- What a state must be like for a control to be rendered in it. -/
def Control.Allowed (state : PopupState) : Control → Prop
  | .openTokenDetail id =>
      state.ShowsTabs ∧ ∃ token ∈ tokenItems, token.id = id
  | .openActivityDetail id =>
      state.ShowsTabs ∧ ∃ activity ∈ activityItems, activity.id = id
  | .openCollectibleDetail => state.ShowsTabs
  | .settings | .walletDrawer | .avatar | .openReceive | .openSend =>
      state.ShowsTabs
  | .openSettings | .sendNext _ => state.layers.overlay ≠ []
  | .unlock => state.isLocked = true
  | _ => True

theorem allowed_of_tabs
    (htabs : state.ShowsTabs)
    (hcontrol : control ∈
      (renderTabsScreen lowerCase state (activeWallet state)).controls) :
    control.Allowed state := by
  simp only [renderTabsScreen, BaseContent.controls, List.mem_append,
    List.mem_map] at hcontrol
  rcases hcontrol with hfixed | ⟨item, hitem, rfl⟩
  · fin_cases hfixed <;> first | exact htabs | trivial
  · cases htab : state.activeTab with
    | tokens =>
        rw [getTabItems, htab] at hitem
        obtain ⟨token, htoken, rfl⟩ := List.mem_map.mp hitem
        exact ⟨htabs, token, htoken, rfl⟩
    | collectibles => exact htabs
    | activity =>
        rw [getTabItems, htab] at hitem
        exact ⟨htabs, item, hitem, rfl⟩

theorem PopupState.WellStacked.allowed_of_base
    (hstacked : state.WellStacked)
    (hcontrol : control ∈
      (renderBaseContent lowerCase state state.layers.base
        (activeWallet state)).controls) :
    control.Allowed state := by
  cases hlocked : state.isLocked with
  | true =>
      rw [renderBaseContent, if_pos hlocked] at hcontrol
      obtain rfl := List.mem_singleton.mp hcontrol
      exact hlocked
  | false =>
      rw [renderBaseContent, if_neg (by simp [hlocked])] at hcontrol
      rcases hstacked.pages with htabs | ⟨detail, hdetail⟩
      · rw [hstacked.base_of_tabs htabs] at hcontrol
        exact allowed_of_tabs ⟨hlocked, htabs⟩ hcontrol
      · rw [hstacked.base_of_detail hdetail] at hcontrol
        obtain rfl : control = .back := by
          cases hdetail.isDetail <;> exact List.mem_singleton.mp hcontrol
        trivial

theorem allowed_of_modal
    (hoverlay : state.layers.overlay ≠ []) (content : ModalContent)
    (hcontrol : control ∈ content.controls) :
    control.Allowed state := by
  cases content with
  | walletDrawer wallets activeWalletId =>
      rcases List.mem_cons.mp hcontrol with rfl | hwallet
      · trivial
      · obtain ⟨wallet, -, rfl⟩ := List.mem_map.mp hwallet
        trivial
  | sendToken tokenId =>
      simp only [ModalContent.controls, List.mem_append, List.mem_map]
        at hcontrol
      rcases hcontrol with (hclose | ⟨token, -, rfl⟩) | hlast
      · obtain rfl := List.mem_singleton.mp hclose
        trivial
      · trivial
      · fin_cases hlast
        · trivial
        · exact hoverlay
  | sendConfirm token toAddress amount memo feedback submitting =>
      cases submitting <;> fin_cases hcontrol <;> trivial
  | avatarPopover wallet =>
      fin_cases hcontrol <;> first | exact hoverlay | trivial
  | settings => fin_cases hcontrol <;> trivial
  | receive wallet => fin_cases hcontrol <;> trivial
  | sendAddress toAddress error feedback =>
      fin_cases hcontrol <;> first | exact hoverlay | trivial
  | sendAmount amount memo amountError memoError feedback =>
      fin_cases hcontrol <;> first | exact hoverlay | trivial
  | unimplemented => fin_cases hcontrol; trivial

theorem PopupState.WellStacked.allowed
    (hstacked : state.WellStacked)
    (hcontrol : control ∈ (state.shell lowerCase).controls) :
    control.Allowed state := by
  simp only [AppShell.controls, List.mem_append] at hcontrol
  rcases hcontrol with (hbase | hmodal) | htransparent
  · exact hstacked.allowed_of_base hbase
  · cases hoverlay : (state.shell lowerCase).overlay with
    | none => simp [hoverlay] at hmodal
    | some content =>
        have hne : state.layers.overlay ≠ [] := by
          intro hnil
          simp [PopupState.shell, renderAppShell, hnil] at hoverlay
        rw [hoverlay] at hmodal
        rcases List.mem_cons.mp hmodal with rfl | hmodal
        · trivial
        · exact allowed_of_modal hne content hmodal
  · cases hsearch : (state.shell lowerCase).transparent with
    | none => simp [hsearch] at htransparent
    | some content =>
        rw [hsearch] at htransparent
        fin_cases htransparent <;> trivial

/-! ## Moves -/

inductive PopupState.Moves (state next : PopupState) : Prop
  | lowers (hlower : state.Lowers next)
  | covers {middle : PopupState} {route : PopupRoute}
      (hshown : state.ShowsTabs ∨ state.layers.overlay ≠ [])
      (hlower : state.Lowers middle) (hroute : route.IsOverlay)
      (hnext : next.stack = middle.stack ++ [route])
      (hlocked : next.isLocked = middle.isLocked)
  | opens {detail : PopupRoute} (htabs : state.ShowsTabs)
      (hdetail : detail.IsDetail)
      (hnext : next.stack = state.stack ++ [detail])
      (hlocked : next.isLocked = state.isLocked)
  | locks (hnext : next.stack = state.stack.take 1)
      (hlocked : next.isLocked = true)
  | unlocks (hwas : state.isLocked = true)
      (hnext : next.stack = state.stack) (hlocked : next.isLocked = false)

theorem isOverlay_modalRoute
    (id : PopupScreenId) (title : Utf16)
    (closeBehavior : Option CloseBehavior) :
    (modalRoute id title closeBehavior).IsOverlay :=
  ⟨rfl, rfl⟩

theorem PopupState.Moves.push_modal
    {id : PopupScreenId} {title : Utf16}
    {closeBehavior : Option CloseBehavior}
    (hstack : state.stack ≠ [])
    (hshown : state.ShowsTabs ∨ state.layers.overlay ≠ [])
    (hnext : next.stack = state.stack ++ [modalRoute id title closeBehavior])
    (hlocked : next.isLocked = state.isLocked) :
    state.Moves next :=
  .covers hshown (Lowers.refl hstack) (isOverlay_modalRoute _ _ _) hnext
    hlocked

theorem PopupState.Moves.of_same
    (hstack : state.stack ≠ [])
    (hnext : next.stack = state.stack)
    (hlocked : next.isLocked = state.isLocked) :
    state.Moves next :=
  .lowers ((Lowers.refl hstack).of_same hnext hlocked)

/-- A refused draft leaves the stack, an accepted one puts the next modal on
it. -/
theorem goSendNext_moves
    (hstack : state.stack ≠ []) (hoverlay : state.layers.overlay ≠ [])
    (screen : PopupScreenId) :
    state.Moves (goSendNext lowerCase screen state) := by
  unfold goSendNext
  cases screen with
  | sendAddress => exact .push_modal hstack (Or.inr hoverlay) rfl rfl
  | sendAmount =>
      dsimp only
      split
      · exact .of_same hstack rfl rfl
      · exact .push_modal hstack (Or.inr hoverlay) rfl rfl
  | sendConfirm =>
      dsimp only
      split
      · exact .of_same hstack rfl rfl
      · exact .push_modal hstack (Or.inr hoverlay) rfl rfl
  | _ => exact .of_same hstack rfl rfl

theorem submitSend_same
    (lowerCase : Utf16 → Utf16) (popup : MountedPopup) :
    (submitSend lowerCase popup).state.stack = popup.state.stack ∧
      (submitSend lowerCase popup).state.isLocked = popup.state.isLocked := by
  unfold submitSend
  dsimp only
  split
  · exact ⟨rfl, rfl⟩
  · exact ⟨rfl, rfl⟩

theorem handleClick_moves
    {popup : MountedPopup}
    (hstack : popup.state.stack ≠ [])
    (hallowed : control.Allowed popup.state) :
    popup.state.Moves (handleClick lowerCase control popup).state := by
  have hlower : popup.state.Lowers (closeTop popup.state) :=
    closeTop_lowers hstack
  cases control with
  | tab tab => exact .of_same hstack rfl rfl
  | openTokenDetail id =>
      obtain ⟨htabs, token, htoken, rfl⟩ := hallowed
      exact .opens htabs (.token token htoken) rfl rfl
  | openActivityDetail id =>
      obtain ⟨htabs, activity, hactivity, rfl⟩ := hallowed
      exact .opens htabs (.activity activity hactivity) rfl rfl
  | openCollectibleDetail => exact .opens hallowed .collectible rfl rfl
  | back => exact .lowers (pop_lowers hstack)
  | close => exact .lowers hlower
  | settings => exact .push_modal hstack (Or.inl hallowed) rfl rfl
  | walletDrawer => exact .push_modal hstack (Or.inl hallowed) rfl rfl
  | avatar => exact .push_modal hstack (Or.inl hallowed) rfl rfl
  | openSettings =>
      exact .covers (Or.inr hallowed) hlower (isOverlay_modalRoute _ _ _) rfl
        rfl
  | lock => exact .locks rfl rfl
  | unlock => exact .unlocks hallowed rfl rfl
  | openReceive => exact .push_modal hstack (Or.inl hallowed) rfl rfl
  | copyAddress => exact .of_same hstack rfl rfl
  | openSend => exact .push_modal hstack (Or.inl hallowed) rfl rfl
  | modalMask => exact .lowers hlower
  | searchMask => exact .lowers hlower
  | selectWallet id =>
      have hclosed : (popup.state.setActiveWallet id).Lowers
          (closeTop (popup.state.setActiveWallet id)) :=
        closeTop_lowers hstack
      exact .lowers ⟨hclosed.initial, hclosed.nonempty, hclosed.isLocked⟩
  | selectSendToken id => exact .of_same hstack rfl rfl
  | sendPrev =>
      have hpopped : popup.state.resetSendFeedback.Lowers
          popup.state.resetSendFeedback.pop :=
        pop_lowers hstack
      exact .lowers ⟨hpopped.initial, hpopped.nonempty, hpopped.isLocked⟩
  | closeSend behavior =>
      exact .lowers (closeByBehavior_lowers behavior hstack)
  | sendNext screen => exact goSendNext_moves hstack hallowed screen
  | sendSubmit =>
      obtain ⟨hnext, hlocked⟩ := submitSend_same lowerCase popup
      exact .of_same hstack hnext hlocked

theorem handleInput_same
    (lowerCase : Utf16 → Utf16) (field : Field) (value : Utf16)
    (state : PopupState) :
    (handleInput lowerCase field value state).stack = state.stack ∧
      (handleInput lowerCase field value state).isLocked =
        state.isLocked := by
  cases field <;> exact ⟨rfl, rfl⟩

/-! ## Steps -/

/-- A step opens the search by a slash, or it moves as its event allows. -/
theorem step_cases
    {popup after : MountedPopup} {event : PopupEvent}
    (hstacked : popup.state.WellStacked)
    (hstep : step lowerCase popup event = some after) :
    event.isSlash = true ∧ after.state = openSearch popup.state ∨
      event.isSlash = false ∧ popup.state.Moves after.state := by
  have hstack := hstacked.stack_ne_nil
  cases event with
  | click control =>
      right
      simp only [step] at hstep
      split at hstep
      case isTrue hcontrol =>
        obtain rfl := Option.some.inj hstep
        exact ⟨rfl, handleClick_moves hstack (hstacked.allowed hcontrol)⟩
      case isFalse => cases hstep
  | input field value =>
      right
      simp only [step] at hstep
      split at hstep
      case isTrue =>
        obtain rfl := Option.some.inj hstep
        obtain ⟨hnext, hlocked⟩ :=
          handleInput_same lowerCase field value popup.state
        exact ⟨rfl, .of_same hstack hnext hlocked⟩
      case isFalse => cases hstep
  | keydown key tagName =>
      obtain rfl := Option.some.inj hstep
      cases hslash : shouldHandleSlash key tagName with
      | true =>
          left
          refine ⟨hslash, ?_⟩
          simp [MountedPopup.setState, handleKeydown, hslash]
      | false =>
          right
          refine ⟨hslash, ?_⟩
          have hstate : (popup.setState
              (handleKeydown key tagName popup.state)).state =
              if isEscape key then handleEscape popup.state
              else popup.state := by
            simp [MountedPopup.setState, handleKeydown, hslash]
          rw [hstate]
          split
          · exact .lowers (handleEscape_lowers hstack)
          · exact .of_same hstack rfl rfl
  | sendTimeout =>
      right
      simp only [step] at hstep
      split at hstep
      · cases hstep
      · obtain rfl := Option.some.inj hstep
        exact ⟨rfl, .of_same hstack rfl rfl⟩

theorem openSearch_cases
    (state : PopupState) :
    openSearch state = state.push searchRoute ∨
      openSearch state = state ∧ state.layers.transparentOverlay ≠ [] := by
  unfold openSearch
  split
  case h_1 top htop =>
    split
    · right
      refine ⟨rfl, ?_⟩
      intro hnil
      rw [hnil] at htop
      cases htop
    · exact Or.inl rfl
  case h_2 => exact Or.inl rfl

theorem PopupState.WellStacked.push_search
    (hstacked : state.WellStacked) :
    (state.push searchRoute).WellStacked ∧
      (state.push searchRoute).pages = state.pages :=
  hstacked.cover ⟨rfl, rfl⟩ rfl rfl

theorem PopupState.WellStacked.moves
    (hstacked : state.WellStacked) (hmoves : state.Moves next) :
    next.WellStacked := by
  cases hmoves with
  | lowers hlower => exact hstacked.lowers hlower
  | covers _ hlower hroute hnext hlocked =>
      exact ((hstacked.lowers hlower).cover hroute hnext hlocked).1
  | opens htabs hdetail hnext hlocked =>
      exact (hstacked.open_detail htabs hdetail hnext hlocked).1
  | locks hnext _ => exact .of_root (hnext.trans hstacked.take_one)
  | unlocks hwas hnext _ =>
      have htabs := hstacked.pages_of_locked hwas
      refine ⟨by rw [hnext]; exact hstacked.root, Or.inl ?_, ?_⟩
      · rw [PopupState.pages, hnext]
        exact htabs
      · rw [hnext]
        exact hstacked.overlays

theorem PopupState.WellStacked.step
    {popup after : MountedPopup} {event : PopupEvent}
    (hstacked : popup.state.WellStacked)
    (hstep : step lowerCase popup event = some after) :
    after.state.WellStacked := by
  rcases step_cases hstacked hstep with ⟨-, hsearch⟩ | ⟨-, hmoves⟩
  · rw [hsearch]
    rcases openSearch_cases popup.state with hpush | ⟨hsame, -⟩
    · rw [hpush]
      exact hstacked.push_search.1
    · rw [hsame]
      exact hstacked
  · exact hstacked.moves hmoves

end SoulonWallet.Popup
