import SoulonWallet.Bip21Uri
import SoulonWallet.PageStack

/-!
# The screens of the extension popup

The popup renders the page at the base of its route stack, the last modal above
the base and the last transparent modal above it.  A screen is given by the
data that its markup shows and by the controls in it that have a handler.  The
fields `meta` and `to` are `metaText` and `toAddress`.  The lower-casing of
texts beyond ASCII is a parameter of the search.
-/

namespace SoulonWallet.Popup

/-! ## Routes and state -/

inductive PopupTabKey where
  | tokens
  | collectibles
  | activity
  deriving DecidableEq

inductive CloseBehavior where
  | goBack
  | popRootOnce
  | popRootTwice
  | reset
  deriving DecidableEq

inductive PopupScreenId where
  | tabs
  | tokenDetail
  | activityDetail
  | collectiblesDetail
  | collectiblesCollection
  | search
  | walletDrawer
  | avatarPopover
  | sendToken
  | sendAddress
  | sendAmount
  | sendConfirm
  | receive
  | settings
  | unlock
  deriving DecidableEq

inductive PopupPresentation where
  | push
  | modal
  | transparentModal
  deriving DecidableEq

structure RouteParams where
  id : Utf16
  deriving DecidableEq

structure PopupRoute where
  id : PopupScreenId
  presentation : PopupPresentation
  title : Option Utf16 := none
  showClose : Bool := false
  closeBehavior : Option CloseBehavior := none
  params : Option RouteParams := none
  deriving DecidableEq

structure WalletSummary where
  id : Utf16
  name : Utf16
  address : Utf16

inductive ItemStatus where
  | default
  | success
  | warning
  | danger

structure ListItem where
  id : Utf16
  title : Utf16
  description : Utf16
  metaText : Utf16
  status : ItemStatus

structure TokenListItem extends ListItem where
  symbol : Utf16

structure SendDraft where
  tokenId : Utf16
  toAddress : Utf16
  amount : Utf16
  memo : Utf16

structure SendDraftErrors where
  toAddress : Option Utf16 := none
  amount : Option Utf16 := none
  memo : Option Utf16 := none

inductive FeedbackTone where
  | neutral
  | error
  | success

structure PopupState where
  activeTab : PopupTabKey
  stack : List PopupRoute
  wallets : List WalletSummary
  activeWalletId : Utf16
  isLocked : Bool
  searchInputValue : Utf16
  searchKeyword : Utf16
  sendDraft : SendDraft
  sendDraftErrors : SendDraftErrors
  sendFeedback : Utf16
  sendFeedbackTone : FeedbackTone
  sendSubmitting : Bool

def rootRoute : PopupRoute where
  id := .tabs
  presentation := .push

def defaultWallet : WalletSummary where
  id := "wallet-1"
  name := "Account 1"
  address := "cosmos1k8pa9c38g4nq2f08d63a9gn6vdg8v3duaw2sp4"

def defaultWallets : List WalletSummary :=
  [defaultWallet,
    { id := "wallet-2"
      name := "Account 2"
      address := "cosmos1l3l7m9q2f08d63a9gn6vdg8v3duaw2sp4k8pa9c" }]

def PopupState.initial : PopupState where
  activeTab := .tokens
  stack := [rootRoute]
  wallets := defaultWallets
  activeWalletId := defaultWallet.id
  isLocked := false
  searchInputValue := ""
  searchKeyword := ""
  sendDraft := { tokenId := "token-1", toAddress := "", amount := "", memo := "" }
  sendDraftErrors := {}
  sendFeedback := ""
  sendFeedbackTone := .neutral
  sendSubmitting := false

/-! ## Items -/

def soulToken : TokenListItem where
  id := "token-1"
  symbol := "SOUL"
  title := "SOUL"
  description := "可用余额 1,243.66"
  metaText := "24h +2.8%"
  status := .success

/-- `soulToken` is `tokenItems[0]`. -/
def tokenItems : List TokenListItem :=
  [soulToken,
    { id := "token-2"
      symbol := "stSOUL"
      title := "stSOUL"
      description := "质押余额 325.24"
      metaText := "预计年化 11.2%"
      status := .default },
    { id := "token-3"
      symbol := "uUSDC"
      title := "uUSDC"
      description := "可用余额 845.20"
      metaText := "跨链通道 channel-8"
      status := .warning }]

def sentActivity : ListItem where
  id := "activity-1"
  title := "发送成功"
  description := "向 cosmos1...k2r9 转账 8.50 SOUL"
  metaText := "2 分钟前 · Tx#B34B"
  status := .success

/-- `sentActivity` is `activityItems[0]`. -/
def activityItems : List ListItem :=
  [sentActivity,
    { id := "activity-2"
      title := "待确认"
      description := "向 osmo1...tc94 转账 32.00 uUSDC"
      metaText := "刚刚 · 等待区块确认"
      status := .warning },
    { id := "activity-3"
      title := "失败重试"
      description := "Gas 估算不足，交易未上链"
      metaText := "12 分钟前 · 可重试"
      status := .danger }]

def collectibleItems : List ListItem :=
  [{ id := "collectible-1"
     title := "Mad Lads #1844"
     description := "Collection: Mad Lads"
     metaText := "Floor 64.1 SOL"
     status := .warning },
    { id := "collectible-2"
      title := "xNFT Badge"
      description := "Collection: Backpack"
      metaText := "Verified"
      status := .default },
    { id := "collectible-3"
      title := "Genesis Access"
      description := "Collection: Coral"
      metaText := "Unlisted"
      status := .success }]

/-! ## What is rendered -/

inductive Control where
  | tab (tab : PopupTabKey)
  | openTokenDetail (id : Utf16)
  | openActivityDetail (id : Utf16)
  | openCollectibleDetail
  | back
  | close
  | settings
  | walletDrawer
  | avatar
  | openSettings
  | lock
  | unlock
  | openReceive
  | copyAddress
  | openSend
  | modalMask
  | searchMask
  | selectWallet (id : Utf16)
  | selectSendToken (id : Utf16)
  | sendPrev
  | closeSend (behavior : CloseBehavior)
  | sendNext (next : PopupScreenId)
  | sendSubmit
  deriving DecidableEq

/-- The inputs that have a handler. -/
inductive Field where
  | search
  | sendTo
  | sendAmount
  | sendMemo
  deriving DecidableEq

/-- The page; `tabs` has the number of results when there is a keyword. -/
inductive BaseContent where
  | locked
  | tabs (tab : PopupTabKey) (activeWallet : WalletSummary)
      (items : List ListItem) (hint : Option ℕ)
  | tokenDetail (token : TokenListItem) (activeWallet : WalletSummary)
  | activityDetail (activity : ListItem)
  | collectiblesDetail
  | collectiblesCollection

structure SendFeedback where
  message : Utf16
  tone : FeedbackTone

inductive ModalContent where
  | walletDrawer (wallets : List WalletSummary) (activeWalletId : Utf16)
  | avatarPopover (activeWallet : WalletSummary)
  | settings
  | receive (activeWallet : WalletSummary)
  | sendToken (tokenId : Utf16)
  | sendAddress (toAddress : Utf16) (error : Option Utf16)
      (feedback : Option SendFeedback)
  | sendAmount (amount memo : Utf16) (amountError memoError : Option Utf16)
      (feedback : Option SendFeedback)
  | sendConfirm (token : TokenListItem) (toAddress amount memo : Utf16)
      (feedback : Option SendFeedback) (submitting : Bool)
  | unimplemented

structure SearchContent where
  value : Utf16
  results : List ListItem

structure AppShell where
  base : BaseContent
  overlay : Option ModalContent
  transparent : Option SearchContent

structure Layers where
  base : PopupRoute
  overlay : List PopupRoute
  transparentOverlay : List PopupRoute

def PopupRoute.isPush (route : PopupRoute) : Bool :=
  route.presentation = .push

/-- The stack always has its root, so `stack[baseIndex]` exists. -/
def getBaseAndOverlay (stack : List PopupRoute) : Layers where
  base :=
    (stack[PageStack.baseIndex PopupRoute.isPush stack]?).getD rootRoute
  overlay := (PageStack.above PopupRoute.isPush stack).filter
    fun route => route.presentation = .modal
  transparentOverlay := (PageStack.above PopupRoute.isPush stack).filter
    fun route => route.presentation = .transparentModal

def PopupState.layers (state : PopupState) : Layers :=
  getBaseAndOverlay state.stack

variable (lowerCase : Utf16 → Utf16)

def getSearchResults (state : PopupState) : List ListItem :=
  if state.searchKeyword.isEmpty then []
  else
    (tokenItems.map TokenListItem.toListItem ++ collectibleItems ++
        activityItems).filter fun item =>
      ((item.title ++ " " ++ item.description ++ " " ++ item.metaText).toLowerCase
        lowerCase).includes state.searchKeyword

def getTabItems (state : PopupState) : List ListItem :=
  match state.activeTab with
  | .tokens => tokenItems.map TokenListItem.toListItem
  | .collectibles => collectibleItems
  | .activity => activityItems

def activeWallet (state : PopupState) : WalletSummary :=
  ((state.wallets.find? fun wallet => wallet.id = state.activeWalletId) <|>
    state.wallets.head?).getD defaultWallet

/-- `String(stack[stack.length - 1].params?.id ?? '')`. -/
def topId (state : PopupState) : Utf16 :=
  ((state.stack.getLast?.bind PopupRoute.params).map RouteParams.id).getD ""

def renderTabsScreen (state : PopupState) (wallet : WalletSummary) :
    BaseContent :=
  .tabs state.activeTab wallet (getTabItems state)
    (if state.searchKeyword.isEmpty then none
      else some (getSearchResults lowerCase state).length)

def renderTokenDetailScreen (state : PopupState) (wallet : WalletSummary) :
    BaseContent :=
  .tokenDetail
    ((tokenItems.find? fun item => item.id = topId state).getD soulToken)
    wallet

def renderActivityDetailScreen (state : PopupState) : BaseContent :=
  .activityDetail
    ((activityItems.find? fun item => item.id = topId state).getD
      sentActivity)

def renderBaseContent (state : PopupState) (base : PopupRoute)
    (wallet : WalletSummary) : BaseContent :=
  if state.isLocked then .locked
  else
    match base.id with
    | .tokenDetail => renderTokenDetailScreen state wallet
    | .activityDetail => renderActivityDetailScreen state
    | .collectiblesDetail => .collectiblesDetail
    | .collectiblesCollection => .collectiblesCollection
    | _ => renderTabsScreen lowerCase state wallet

def renderSendFeedback (state : PopupState) : Option SendFeedback :=
  if state.sendFeedback.isEmpty then none
  else some ⟨state.sendFeedback, state.sendFeedbackTone⟩

def renderSendConfirmScreen (state : PopupState) : ModalContent :=
  .sendConfirm
    ((tokenItems.find? fun item => item.id = state.sendDraft.tokenId).getD
      soulToken)
    state.sendDraft.toAddress state.sendDraft.amount
    (if state.sendDraft.memo.isEmpty then "-" else state.sendDraft.memo)
    (renderSendFeedback state) state.sendSubmitting

def renderModalScreen (state : PopupState) (route : PopupRoute)
    (wallet : WalletSummary) : ModalContent :=
  match route.id with
  | .walletDrawer => .walletDrawer state.wallets wallet.id
  | .avatarPopover => .avatarPopover wallet
  | .settings => .settings
  | .receive => .receive wallet
  | .sendToken => .sendToken state.sendDraft.tokenId
  | .sendAddress =>
      .sendAddress state.sendDraft.toAddress state.sendDraftErrors.toAddress
        (renderSendFeedback state)
  | .sendAmount =>
      .sendAmount state.sendDraft.amount state.sendDraft.memo
        state.sendDraftErrors.amount state.sendDraftErrors.memo
        (renderSendFeedback state)
  | .sendConfirm => renderSendConfirmScreen state
  | _ => .unimplemented

def renderTransparentModal (state : PopupState) (route : PopupRoute) :
    Option SearchContent :=
  if route.id ≠ .search then none
  else some ⟨state.searchInputValue, getSearchResults lowerCase state⟩

def renderAppShell (state : PopupState) (base : PopupRoute)
    (overlay transparent : List PopupRoute) : AppShell :=
  let wallet := activeWallet state
  { base := renderBaseContent lowerCase state base wallet
    overlay := overlay.getLast?.map fun route =>
      renderModalScreen state route wallet
    transparent := transparent.getLast?.bind
      (renderTransparentModal lowerCase state) }

/-- `mountPopup` renders every state with the layers of its stack. -/
def PopupState.shell (state : PopupState) : AppShell :=
  renderAppShell lowerCase state state.layers.base state.layers.overlay
    state.layers.transparentOverlay

/-! ## Controls -/

def itemControl (tab : PopupTabKey) (item : ListItem) : Control :=
  match tab with
  | .tokens => .openTokenDetail item.id
  | .activity => .openActivityDetail item.id
  | .collectibles => .openCollectibleDetail

def BaseContent.controls : BaseContent → List Control
  | .locked => [.unlock]
  | .tabs tab _ items _ =>
      [.avatar, .walletDrawer, .settings, .tab .tokens, .tab .collectibles,
        .tab .activity, .openSend, .openReceive] ++ items.map (itemControl tab)
  | .tokenDetail _ _ | .activityDetail _ | .collectiblesDetail
  | .collectiblesCollection => [.back]

/-- A button that is disabled cannot be clicked. -/
def ModalContent.controls : ModalContent → List Control
  | .walletDrawer wallets _ =>
      .close :: wallets.map fun wallet => .selectWallet wallet.id
  | .avatarPopover _ => [.close, .lock, .openSettings]
  | .settings => [.close, .lock, .close]
  | .receive _ => [.close, .copyAddress, .close]
  | .sendToken _ =>
      [.close] ++ tokenItems.map (fun token => .selectSendToken token.id) ++
        [.closeSend .reset, .sendNext .sendAddress]
  | .sendAddress _ _ _ => [.sendPrev, .sendPrev, .sendNext .sendAmount]
  | .sendAmount _ _ _ _ _ => [.sendPrev, .sendPrev, .sendNext .sendConfirm]
  | .sendConfirm _ _ _ _ _ submitting =>
      [.sendPrev, .sendPrev] ++ if submitting then [] else [.sendSubmit]
  | .unimplemented => [.close]

def ModalContent.fields : ModalContent → List Field
  | .sendAddress _ _ _ => [.sendTo]
  | .sendAmount _ _ _ _ _ => [.sendAmount, .sendMemo]
  | _ => []

def AppShell.controls (shell : AppShell) : List Control :=
  shell.base.controls ++
    (match shell.overlay with
      | some content => .modalMask :: content.controls
      | none => []) ++
    match shell.transparent with
    | some _ => [.searchMask, .close]
    | none => []

def AppShell.fields (shell : AppShell) : List Field :=
  (match shell.overlay with
    | some content => content.fields
    | none => []) ++
    match shell.transparent with
    | some _ => [.search]
    | none => []

end SoulonWallet.Popup
