import SoulonWallet.LabelledRun
import SoulonWallet.PopupScreens

/-!
# The controller of the extension popup

Every handler changes the state of the store, most of them its route stack.  A
control can be clicked, and a field typed into, when it is rendered; key presses
reach their handler in every state.  A step is one event with its handler run
to the end.  A submitted transfer leaves a timer behind.
-/

namespace SoulonWallet.Popup

/-! ## Actions of the store -/

namespace PopupState

variable (lowerCase : Utf16 → Utf16) (state : PopupState)

def setActiveTab (tab : PopupTabKey) : PopupState :=
  { state with activeTab := tab }

def push (route : PopupRoute) : PopupState :=
  { state with stack := state.stack ++ [route] }

def pop : PopupState :=
  if state.stack.length ≤ 1 then state
  else { state with stack := state.stack.dropLast }

def popToRoot : PopupState :=
  { state with stack := state.stack.take 1 }

def popToBase : PopupState :=
  { state with stack := PageStack.toBase PopupRoute.isPush state.stack }

def setLocked (isLocked : Bool) : PopupState :=
  { state with isLocked := isLocked }

def setActiveWallet (id : Utf16) : PopupState :=
  { state with activeWalletId := id }

def setSearchInput (value : Utf16) : PopupState :=
  { state with
    searchInputValue := value
    searchKeyword := (Bip21.trim value).toLowerCase lowerCase }

def resetSendFeedback : PopupState :=
  { state with
    sendDraftErrors := {}
    sendFeedback := ""
    sendFeedbackTone := .neutral }

def updateSendDraft (update : SendDraft → SendDraft) : PopupState :=
  { state with sendDraft := update state.sendDraft }

def setSendSubmitting (value : Bool) : PopupState :=
  { state with sendSubmitting := value }

def setSendFeedback (message : Utf16) (tone : FeedbackTone) : PopupState :=
  { state with sendFeedback := message, sendFeedbackTone := tone }

def setSendErrors (errors : SendDraftErrors) : PopupState :=
  { state with sendDraftErrors := errors }

end PopupState

/-! ## The draft of a transfer -/

/-- `/^cosmos1[0-9a-z]{20,}$/`. -/
def matchesCosmosAddress (address : Utf16) : Bool :=
  let start : Utf16 := "cosmos1"
  let rest := address.units.drop start.units.length
  start.units.isPrefixOf address.units && 20 ≤ rest.length &&
    rest.all fun unit => Bip21.isDigit unit || Bip21.isLower unit

/-- `/^\d+(\.\d{1,6})?$/`. -/
def matchesSendAmount (amount : Utf16) : Bool :=
  !(amount.units.takeWhile Bip21.isDigit).isEmpty &&
    match amount.units.dropWhile Bip21.isDigit with
    | [] => true
    | point :: fraction =>
        point == Bip21.decimalPoint && !fraction.isEmpty &&
          fraction.length ≤ 6 && fraction.all Bip21.isDigit

variable (lowerCase : Utf16 → Utf16)

def validateSendDraft (state : PopupState) : SendDraftErrors :=
  let trimmedTo := (Bip21.trim state.sendDraft.toAddress).toLowerCase lowerCase
  let trimmedAmount := Bip21.trim state.sendDraft.amount
  let trimmedMemo := Bip21.trim state.sendDraft.memo
  { toAddress :=
      if matchesCosmosAddress trimmedTo then none
      else some "请输入有效 cosmos 地址（cosmos1...）"
    amount :=
      if !matchesSendAmount trimmedAmount ||
          Binary64.ge (.finite 0) (Bip21.numberOf trimmedAmount.units) then
        some "请输入大于 0 的金额，最多 6 位小数"
      else none
    memo :=
      if 60 < trimmedMemo.units.length then some "备注需不超过 60 个字符"
      else none }

def SendDraftErrors.any (errors : SendDraftErrors) : Bool :=
  errors.toAddress.isSome || errors.amount.isSome || errors.memo.isSome

def refuseDraft (errors : SendDraftErrors) (state : PopupState) : PopupState :=
  (state.setSendErrors errors).setSendFeedback
    "字段校验未通过，请修正后继续。" .error

/-! ## Routes that handlers push -/

def tokenDetailRoute (id : Utf16) : PopupRoute where
  id := .tokenDetail
  presentation := .push
  params := some ⟨id⟩
  title := some "Token"

def activityDetailRoute (id : Utf16) : PopupRoute where
  id := .activityDetail
  presentation := .push
  params := some ⟨id⟩
  title := some "Activity"

def collectiblesDetailRoute : PopupRoute where
  id := .collectiblesDetail
  presentation := .push
  title := some "Collectible"

def searchRoute : PopupRoute where
  id := .search
  presentation := .transparentModal
  title := some "Search"
  showClose := true

def modalRoute (id : PopupScreenId) (title : Utf16)
    (closeBehavior : Option CloseBehavior) : PopupRoute where
  id := id
  presentation := .modal
  title := some title
  showClose := true
  closeBehavior := closeBehavior

def settingsRoute : PopupRoute :=
  modalRoute .settings "Settings" none

def walletDrawerRoute : PopupRoute :=
  modalRoute .walletDrawer "Wallets" none

def avatarRoute : PopupRoute :=
  modalRoute .avatarPopover "Account" none

def receiveRoute : PopupRoute :=
  modalRoute .receive "Receive" none

def sendTokenRoute : PopupRoute :=
  modalRoute .sendToken "/popup/send/token" (some .reset)

def sendAddressRoute : PopupRoute :=
  modalRoute .sendAddress "/popup/send/address" (some .popRootTwice)

def sendAmountRoute : PopupRoute :=
  modalRoute .sendAmount "/popup/send/amount" (some .popRootTwice)

def sendConfirmRoute : PopupRoute :=
  modalRoute .sendConfirm "/popup/send/confirm" (some .popRootTwice)

/-! ## Handlers -/

def openSearch (state : PopupState) : PopupState :=
  match state.layers.transparentOverlay.getLast? with
  | some top =>
      if top.id = .search then state else state.push searchRoute
  | none => state.push searchRoute

def openSend (state : PopupState) : PopupState :=
  state.resetSendFeedback.push sendTokenRoute

def closeByBehavior (behavior : CloseBehavior) (state : PopupState) :
    PopupState :=
  match behavior with
  | .goBack => state.pop
  | .popRootOnce | .popRootTwice => state.popToBase
  | .reset => state.popToBase

def closeTop (state : PopupState) : PopupState :=
  if state.stack.length ≤ 1 then state
  else
    match state.stack.getLast? with
    | some ⟨_, _, _, true, some behavior, _⟩ => closeByBehavior behavior state
    | _ => state.pop

def goSendNext (next : PopupScreenId) (state : PopupState) : PopupState :=
  let cleared := state.resetSendFeedback
  let errors := validateSendDraft lowerCase state
  match next with
  | .sendAddress => cleared.push sendAddressRoute
  | .sendAmount =>
      if errors.toAddress.isSome then refuseDraft errors cleared
      else
        -- The old errors of the other fields come back.
        (cleared.setSendErrors
          { state.sendDraftErrors with toAddress := none }).push
            sendAmountRoute
  | .sendConfirm =>
      if errors.any then refuseDraft errors cleared
      else (cleared.setSendErrors {}).push sendConfirmRoute
  | _ => cleared

/-- The state with the timers of submitted transfers. -/
structure MountedPopup where
  state : PopupState
  pendingSends : ℕ

def MountedPopup.initial : MountedPopup where
  state := .initial
  pendingSends := 0

def MountedPopup.setState (popup : MountedPopup) (state : PopupState) :
    MountedPopup :=
  { popup with state }

def submitSend (popup : MountedPopup) : MountedPopup :=
  let errors := validateSendDraft lowerCase popup.state
  if errors.any then popup.setState (refuseDraft errors popup.state)
  else
    { state := (popup.state.setSendSubmitting true).setSendFeedback
        "交易广播中，请稍候..." .neutral
      pendingSends := popup.pendingSends + 1 }

def handleClick (control : Control) (popup : MountedPopup) : MountedPopup :=
  let state := popup.state
  match control with
  | .tab tab => popup.setState (state.setActiveTab tab)
  | .openTokenDetail id => popup.setState (state.push (tokenDetailRoute id))
  | .openActivityDetail id =>
      popup.setState (state.push (activityDetailRoute id))
  | .openCollectibleDetail =>
      popup.setState (state.push collectiblesDetailRoute)
  | .back => popup.setState state.pop
  | .close => popup.setState (closeTop state)
  | .settings => popup.setState (state.push settingsRoute)
  | .walletDrawer => popup.setState (state.push walletDrawerRoute)
  | .avatar => popup.setState (state.push avatarRoute)
  | .openSettings => popup.setState ((closeTop state).push settingsRoute)
  | .lock => popup.setState (state.setLocked true).popToRoot
  | .unlock => popup.setState (state.setLocked false)
  | .openReceive => popup.setState (state.push receiveRoute)
  | .copyAddress => popup
  | .openSend => popup.setState (openSend state)
  | .modalMask | .searchMask => popup.setState (closeTop state)
  | .selectWallet id =>
      popup.setState (closeTop (state.setActiveWallet id))
  | .selectSendToken id =>
      popup.setState
        (state.updateSendDraft fun draft => { draft with tokenId := id })
  | .sendPrev => popup.setState state.resetSendFeedback.pop
  | .closeSend behavior => popup.setState (closeByBehavior behavior state)
  | .sendNext next => popup.setState (goSendNext lowerCase next state)
  | .sendSubmit => submitSend lowerCase popup

def handleInput (field : Field) (value : Utf16) (state : PopupState) :
    PopupState :=
  match field with
  | .search => state.setSearchInput lowerCase value
  | .sendTo =>
      state.updateSendDraft fun draft => { draft with toAddress := value }
  | .sendAmount =>
      state.updateSendDraft fun draft => { draft with amount := value }
  | .sendMemo =>
      state.updateSendDraft fun draft => { draft with memo := value }

def shouldHandleSlash (key : Utf16) (tagName : Option Utf16) : Bool :=
  key = "/" && tagName ≠ some "INPUT" && tagName ≠ some "TEXTAREA"

def isEscape (key : Utf16) : Bool :=
  key = "Escape"

def handleEscape (state : PopupState) : PopupState :=
  if !state.layers.transparentOverlay.isEmpty then closeTop state
  else if state.stack.any fun route => route.presentation = .modal then
    closeTop state
  else state

def handleKeydown (key : Utf16) (tagName : Option Utf16)
    (state : PopupState) : PopupState :=
  if shouldHandleSlash key tagName then openSearch state
  else if isEscape key then handleEscape state
  else state

def sendSubmitted (state : PopupState) : PopupState :=
  (state.setSendSubmitting false).setSendFeedback
    "交易已提交，正在等待链上确认。" .success

/-! ## Steps -/

/-- A key press has the tag of its target, if it has a target. -/
inductive PopupEvent where
  | click (control : Control)
  | input (field : Field) (value : Utf16)
  | keydown (key : Utf16) (tagName : Option Utf16)
  | sendTimeout

def step (popup : MountedPopup) (event : PopupEvent) : Option MountedPopup :=
  let shell := popup.state.shell lowerCase
  match event with
  | .click control =>
      if control ∈ shell.controls then
        some (handleClick lowerCase control popup)
      else none
  | .input field value =>
      if field ∈ shell.fields then
        some (popup.setState (handleInput lowerCase field value popup.state))
      else none
  | .keydown key tagName =>
      some (popup.setState (handleKeydown key tagName popup.state))
  | .sendTimeout =>
      match popup.pendingSends with
      | 0 => none
      | rest + 1 =>
          some { state := sendSubmitted popup.state, pendingSends := rest }

/-- A slash that opens the search, that is, not one typed into a field. -/
def PopupEvent.isSlash : PopupEvent → Bool
  | .keydown key tagName => shouldHandleSlash key tagName
  | _ => false

end SoulonWallet.Popup
