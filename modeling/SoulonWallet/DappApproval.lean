import SoulonWallet.ConfirmRetry
import SoulonWallet.DecisionSlot
import SoulonWallet.Utf16Text

/-!
# Approving the requests of a DApp

`WalletConnectStore` and `DappInteropStore` each hold one pending request.
Approving it reads the request, waits and then writes what was approved:
`approvePending` waits for two calls of the API, `approveSuggestChain` for a
delay.  Rejecting has no await.  The calls on a store interleave at the
awaits, and the API answers in any way.

Times are microseconds.  What `_digest` takes from the hash is a parameter.
-/

namespace SoulonWallet.Dapp

open LabelledRun DecisionSlot
open Api (ApiClientException)

/-! ## WalletConnect -/

structure WalletConnectRequest where
  dappName : Utf16
  topic : Utf16
  chainId : Utf16
  uri : Utf16
  permissions : List Utf16
  riskHint : Utf16

structure WalletConnectSession where
  sessionId : Utf16
  dappName : Utf16
  topic : Utf16
  chainId : Utf16
  connectedAt : ℤ
  lastActiveAt : ℤ

structure WalletConnectAuthorizeReceipt where
  requestId : Utf16
  signatureDigest : Utf16
  challengePath : Utf16
  confirmPath : Utf16
  authorizedAt : ℤ

structure WalletConnectState where
  pendingRequest : Option WalletConnectRequest
  sessions : List WalletConnectSession
  lastAuthorizeReceipt : Option WalletConnectAuthorizeReceipt := none
  loading : Bool := false
  errorText : Option Utf16 := none
  noticeText : Option Utf16 := none

/-- The body that is posted to confirm a signature. -/
structure ConfirmBody where
  accountId : Utf16
  requestId : Utf16
  signature : Utf16

/-- What a call of `approvePending` waits for. -/
inductive Await where
  | challenge (pending : WalletConnectRequest) (accountId : Utf16)
  | confirm (pending : WalletConnectRequest) (digest : Utf16)
      (body : ConfirmBody)

/-- How `postJson` can fail. -/
inductive PostFailure where
  | api (exception : ApiClientException)
  | format
  | other

structure WalletConnectStore where
  walletAddress : Utf16
  hash : Utf16 → Utf16
  value : WalletConnectState
  calls : KeyedMap ℕ Await
  nextCall : ℕ
  decisions : List (Decision WalletConnectSession)

/-- The answers of the API are reduced to what is read of them: the text of
the request id, and nothing of the answer to the confirm. -/
inductive Turn where
  | approvePending
  | challenged (call : ℕ) (answer : Except PostFailure Utf16)
  | confirmed (call : ℕ) (answer : Except PostFailure Unit) (now : ℤ)
  | rejectPending
  | disconnect (topic : Utf16)
  | markActive (topic : Utf16) (now : ℤ)

def authSignatureChallenge : Utf16 := "/v1/auth/signature/challenge"

def authSignatureConfirm : Utf16 := "/v1/auth/signature/confirm"

def kindMessage : Api.ApiErrorKind → Utf16
  | .validation => "请求参数校验失败，请检查输入内容。"
  | .unauthorized => "登录状态已失效，请重新认证后重试。"
  | .forbidden => "当前账户无权限执行该操作。"
  | .notFound => "请求资源不存在或已被移除。"
  | .timeout => "链端响应超时，请稍后重试。"
  | .network => "网络连接异常，请检查网络后重试。"
  | .unknown => "链端服务暂不可用，请稍后重试。"

def mapApiErrorMessage (error : ApiClientException) : Utf16 :=
  match error.message with
  | some message =>
      if ¬ (message : Utf16).trim.isEmpty then message
      else kindMessage error.kind
  | none => kindMessage error.kind

namespace WalletConnectStore

def initial (walletAddress : Utf16) (hash : Utf16 → Utf16)
    (pending : WalletConnectRequest) (sessions : List WalletConnectSession) :
    WalletConnectStore where
  walletAddress := walletAddress
  hash := hash
  value := { pendingRequest := some pending, sessions := sessions }
  calls := ∅
  nextCall := 0
  decisions := []

def digest (store : WalletConnectStore) (seed : Utf16) : Utf16 :=
  store.hash (("soulon.wallet.wc.v1:" : Utf16) ++ seed)

/-- `approvePending` up to its first await. -/
def approvePending (store : WalletConnectStore)
    (pending : WalletConnectRequest) : WalletConnectStore :=
  { store with
    value :=
      { store.value with
        loading := true, errorText := none, noticeText := none }
    calls :=
      store.calls.insert store.nextCall
        (.challenge pending store.walletAddress)
    nextCall := store.nextCall + 1 }

/-- The handlers of `approvePending`. -/
def fail (store : WalletConnectStore) (call : ℕ) (failure : PostFailure) :
    WalletConnectStore :=
  { store with
    value :=
      { store.value with
        loading := false
        errorText :=
          match failure with
          | .api error => some (mapApiErrorMessage error)
          | .format => store.value.errorText
          | .other => some ("批准连接时发生未知错误，请稍后重试。" : Utf16) }
    calls := store.calls.erase call }

/-- The signature is made and posted. -/
def confirm (store : WalletConnectStore) (call : ℕ)
    (pending : WalletConnectRequest) (requestId : Utf16) :
    WalletConnectStore :=
  let digest := store.digest
    (requestId ++ ("|" : Utf16) ++ pending.topic ++ ("|" : Utf16) ++
      pending.dappName)
  { store with
    calls :=
      store.calls.insert call
        (.confirm pending digest
          { accountId := store.walletAddress
            requestId := requestId
            signature :=
              requestId ++ ("." : Utf16) ++ store.walletAddress ++
                ("." : Utf16) ++ digest }) }

def sessionAt (pending : WalletConnectRequest) (now : ℤ) :
    WalletConnectSession where
  sessionId := ("WCS-" : Utf16) ++ (toString (now.tdiv 1000) : Utf16)
  dappName := pending.dappName
  topic := pending.topic
  chainId := pending.chainId
  connectedAt := now
  lastActiveAt := now

/-- The final write of `approvePending`. -/
def approve (store : WalletConnectStore) (call : ℕ)
    (pending : WalletConnectRequest) (digest requestId : Utf16) (now : ℤ) :
    WalletConnectStore :=
  { store with
    value :=
      { store.value with
        pendingRequest := none
        sessions := store.value.sessions ++ [sessionAt pending now]
        lastAuthorizeReceipt :=
          some
            { requestId := requestId
              signatureDigest := digest
              challengePath := authSignatureChallenge
              confirmPath := authSignatureConfirm
              authorizedAt := now }
        loading := false
        noticeText :=
          some (("已批准 " : Utf16) ++ pending.dappName ++
            (" 的连接请求，会话已建立。" : Utf16)) }
    calls := store.calls.erase call
    decisions := store.decisions ++ [.approved (sessionAt pending now)] }

def rejectPending (store : WalletConnectStore)
    (pending : WalletConnectRequest) : WalletConnectStore :=
  { store with
    value :=
      { store.value with
        pendingRequest := none
        errorText := none
        noticeText :=
          some (("已拒绝 " : Utf16) ++ pending.dappName ++
            (" 的连接请求。" : Utf16)) }
    decisions := store.decisions ++ [.rejected] }

def disconnect (store : WalletConnectStore) (topic : Utf16) :
    WalletConnectStore :=
  { store with
    value :=
      { store.value with
        sessions :=
          store.value.sessions.filter fun session => session.topic ≠ topic
        errorText := none
        noticeText := some (("已断开会话: " : Utf16) ++ topic) } }

def markActive (store : WalletConnectStore) (topic : Utf16) (now : ℤ) :
    WalletConnectStore :=
  { store with
    value :=
      { store.value with
        sessions :=
          store.value.sessions.map fun session =>
            if session.topic = topic then
              { session with lastActiveAt := now }
            else session
        errorText := none } }

/-- A call that finds no pending request throws and changes nothing. -/
def step (store : WalletConnectStore) : Turn → Option WalletConnectStore
  | .approvePending =>
      match store.value.pendingRequest with
      | none => some store
      | some pending => some (store.approvePending pending)
  | .challenged call answer =>
      match store.calls.lookup call with
      | some (.challenge pending _) =>
          match answer with
          | .error failure => some (store.fail call failure)
          | .ok requestId =>
              if requestId.isEmpty then some (store.fail call .format)
              else some (store.confirm call pending requestId)
      | _ => none
  | .confirmed call answer now =>
      match store.calls.lookup call with
      | some (.confirm pending digest body) =>
          match answer with
          | .error failure => some (store.fail call failure)
          | .ok () =>
              some (store.approve call pending digest body.requestId now)
      | _ => none
  | .rejectPending =>
      match store.value.pendingRequest with
      | none => some store
      | some pending => some (store.rejectPending pending)
  | .disconnect topic => some (store.disconnect topic)
  | .markActive topic now => some (store.markActive topic now)

/-- The turn is the final write of an approve. -/
def Accepts (_ : WalletConnectStore) : Turn → Prop
  | .confirmed _ (.ok ()) _ => True
  | _ => False

end WalletConnectStore

/-! ## Suggested chains -/

structure SuggestChainRequest where
  chainName : Utf16
  chainId : Utf16
  rpc : Utf16
  rest : Utf16
  bech32Prefix : Utf16
  denom : Utf16

structure DappInteropState where
  pendingSuggestChain : Option SuggestChainRequest
  approvedChains : List SuggestChainRequest
  loading : Bool := false
  errorText : Option Utf16 := none
  noticeText : Option Utf16 := none

/-- `calls` holds the chain of every approve that waits for its delay. -/
structure DappInteropStore where
  value : DappInteropState
  calls : KeyedMap ℕ SuggestChainRequest
  nextCall : ℕ
  decisions : List (Decision SuggestChainRequest)

inductive ChainTurn where
  | approveSuggestChain
  | delayed (call : ℕ)
  | rejectSuggestChain

namespace DappInteropStore

def initial (pending : SuggestChainRequest)
    (approvedChains : List SuggestChainRequest) : DappInteropStore where
  value :=
    { pendingSuggestChain := some pending, approvedChains := approvedChains }
  calls := ∅
  nextCall := 0
  decisions := []

def approveSuggestChain (store : DappInteropStore)
    (chain : SuggestChainRequest) : DappInteropStore :=
  { store with
    value :=
      { store.value with
        loading := true, errorText := none, noticeText := none }
    calls := store.calls.insert store.nextCall chain
    nextCall := store.nextCall + 1 }

/-- The rest of `approveSuggestChain` after its delay. -/
def approve (store : DappInteropStore) (call : ℕ)
    (chain : SuggestChainRequest) : DappInteropStore :=
  { store with
    value :=
      { store.value with
        pendingSuggestChain := none
        approvedChains := store.value.approvedChains ++ [chain]
        loading := false
        noticeText :=
          some (("已批准加链请求: " : Utf16) ++ chain.chainName ++
            (" (" : Utf16) ++ chain.chainId ++ (")" : Utf16)) }
    calls := store.calls.erase call
    decisions := store.decisions ++ [.approved chain] }

def rejectSuggestChain (store : DappInteropStore)
    (chain : SuggestChainRequest) : DappInteropStore :=
  { store with
    value :=
      { store.value with
        pendingSuggestChain := none
        errorText := none
        noticeText :=
          some (("已拒绝加链请求: " : Utf16) ++ chain.chainName) }
    decisions := store.decisions ++ [.rejected] }

def step (store : DappInteropStore) : ChainTurn → Option DappInteropStore
  | .approveSuggestChain =>
      match store.value.pendingSuggestChain with
      | none => some store
      | some chain => some (store.approveSuggestChain chain)
  | .delayed call =>
      match store.calls.lookup call with
      | none => none
      | some chain => some (store.approve call chain)
  | .rejectSuggestChain =>
      match store.value.pendingSuggestChain with
      | none => some store
      | some chain => some (store.rejectSuggestChain chain)

/-- The turn is the final write of an approve. -/
def Accepts (_ : DappInteropStore) : ChainTurn → Prop
  | .delayed _ => True
  | _ => False

end DappInteropStore

/-! ## One step -/

def walletConnectMachine :
    Machine WalletConnectStore Turn WalletConnectSession where
  step := WalletConnectStore.step
  Open store := store.value.pendingRequest ≠ none
  decisions := WalletConnectStore.decisions
  Accepts := WalletConnectStore.Accepts

def dappInteropMachine :
    Machine DappInteropStore ChainTurn SuggestChainRequest where
  step := DappInteropStore.step
  Open store := store.value.pendingSuggestChain ≠ none
  decisions := DappInteropStore.decisions
  Accepts := DappInteropStore.Accepts

theorem WalletConnectStore.moves_of_step
    {store next : WalletConnectStore} {turn : Turn}
    (hstep : store.step turn = some next) :
    walletConnectMachine.Moves store turn next := by
  cases turn with
  | approvePending =>
      simp only [step] at hstep
      split at hstep
      next =>
        obtain rfl := Option.some.inj hstep
        exact .keeps id Iff.rfl rfl
      next =>
        obtain rfl := Option.some.inj hstep
        exact .keeps id Iff.rfl rfl
  | challenged call answer =>
      simp only [step] at hstep
      split at hstep
      next pending accountId hstage =>
        cases answer with
        | error failure =>
            obtain rfl := Option.some.inj hstep
            exact .keeps id Iff.rfl rfl
        | ok requestId =>
            simp only at hstep
            split_ifs at hstep
            · obtain rfl := Option.some.inj hstep
              exact .keeps id Iff.rfl rfl
            · obtain rfl := Option.some.inj hstep
              exact .keeps id Iff.rfl rfl
      next => cases hstep
  | confirmed call answer now =>
      simp only [step] at hstep
      split at hstep
      next pending digest body hstage =>
        cases answer with
        | error failure =>
            obtain rfl := Option.some.inj hstep
            exact .keeps id Iff.rfl rfl
        | ok =>
            obtain rfl := Option.some.inj hstep
            exact .accepts trivial (fun hopen => hopen rfl) rfl
      next => cases hstep
  | rejectPending =>
      simp only [step] at hstep
      split at hstep
      next =>
        obtain rfl := Option.some.inj hstep
        exact .keeps id Iff.rfl rfl
      next pending hpending =>
        obtain rfl := Option.some.inj hstep
        refine .rejects id ?_ (fun hopen => hopen rfl) rfl
        simp [walletConnectMachine, hpending]
  | disconnect topic =>
      obtain rfl := Option.some.inj hstep
      exact .keeps id Iff.rfl rfl
  | markActive topic now =>
      obtain rfl := Option.some.inj hstep
      exact .keeps id Iff.rfl rfl

theorem DappInteropStore.moves_of_step
    {store next : DappInteropStore} {turn : ChainTurn}
    (hstep : store.step turn = some next) :
    dappInteropMachine.Moves store turn next := by
  cases turn with
  | approveSuggestChain =>
      simp only [step] at hstep
      split at hstep
      next =>
        obtain rfl := Option.some.inj hstep
        exact .keeps id Iff.rfl rfl
      next =>
        obtain rfl := Option.some.inj hstep
        exact .keeps id Iff.rfl rfl
  | delayed call =>
      simp only [step] at hstep
      split at hstep
      next => cases hstep
      next =>
        obtain rfl := Option.some.inj hstep
        exact .accepts trivial (fun hopen => hopen rfl) rfl
  | rejectSuggestChain =>
      simp only [step] at hstep
      split at hstep
      next =>
        obtain rfl := Option.some.inj hstep
        exact .keeps id Iff.rfl rfl
      next chain hpending =>
        obtain rfl := Option.some.inj hstep
        refine .rejects id ?_ (fun hopen => hopen rfl) rfl
        simp [dappInteropMachine, hpending]

/-! ## Runs -/

/-- On both stores, the runs that decide the pending request once are those
in which every final write of an approve finds it still pending. -/
theorem dapp_requests_decided_once_iff
    (walletAddress : Utf16) (hash : Utf16 → Utf16)
    (request : WalletConnectRequest) (sessions : List WalletConnectSession)
    (turns : List Turn) (chain : SuggestChainRequest)
    (approvedChains : List SuggestChainRequest)
    (chainTurns : List ChainTurn) :
    ((∀ store,
        Visits WalletConnectStore.step
          (.initial walletAddress hash request sessions) turns store →
        DecidedOnce store.decisions) ↔
      Guarded WalletConnectStore.step
        (fun store turn =>
          store.Accepts turn → store.value.pendingRequest ≠ none)
        (.initial walletAddress hash request sessions) turns) ∧
    ((∀ store,
        Visits DappInteropStore.step (.initial chain approvedChains)
          chainTurns store →
        DecidedOnce store.decisions) ↔
      Guarded DappInteropStore.step
        (fun store turn =>
          store.Accepts turn → store.value.pendingSuggestChain ≠ none)
        (.initial chain approvedChains) chainTurns) := by
  constructor
  · apply walletConnectMachine.decidedOnce_iff_guarded
    · intro store turn next hstep
      exact WalletConnectStore.moves_of_step hstep
    · exact Option.some_ne_none request
    · rfl
  · apply dappInteropMachine.decidedOnce_iff_guarded
    · intro store turn next hstep
      exact DappInteropStore.moves_of_step hstep
    · exact Option.some_ne_none chain
    · rfl

def yieldHub : WalletConnectRequest where
  dappName := "YieldHub Web DApp"
  topic := "wc:yield-hub-session-2026"
  chainId := "soulon-1"
  uri := "wc:a1b2c3d4@2?relay-protocol=irn&symKey=abc123"
  permissions :=
    ["cosmos_signDirect", "cosmos_signAmino", "cosmos_getAccounts"]
  riskHint := "该 DApp 请求完整签名权限，请确认来源可信后再批准。"

def overdriveChain : SuggestChainRequest where
  chainName := "Overdrive Chain"
  chainId := "overdrive-1"
  rpc := "https://rpc.overdrive.zone"
  rest := "https://api.overdrive.zone"
  bech32Prefix := "odrv"
  denom := "uodrv"

/-- The request is approved a second time before the first one is through. -/
def approvedTwice : List Turn :=
  [.approvePending, .approvePending, .challenged 0 (.ok "req_1"),
    .challenged 1 (.ok "req_2"), .confirmed 0 (.ok ()) 1000,
    .confirmed 1 (.ok ()) 2000]

/-- The chain is rejected during the delay of its approve. -/
def rejectedInDelay : List ChainTurn :=
  [.approveSuggestChain, .rejectSuggestChain, .delayed 0]

theorem dapp_requests_decided_twice :
    (∀ hash, ¬ ∀ walletAddress request sessions turns store,
      exec WalletConnectStore.step
        (.initial walletAddress hash request sessions) turns = some store →
      DecidedOnce store.decisions) ∧
    ¬ ∀ chain approvedChains turns store,
      exec DappInteropStore.step (.initial chain approvedChains) turns =
        some store →
      DecidedOnce store.decisions := by
  constructor
  · intro hash hall
    obtain ⟨store, hrun, happrovals⟩ : ∃ store,
        exec WalletConnectStore.step
          (.initial "cosmos1u73n5gqxp5n90f5wqm6v93rtyva08m7l62kc8q" hash
            yieldHub [])
          approvedTwice = some store ∧
        (approvals store.decisions).length = 2 :=
      ⟨_, rfl, rfl⟩
    have honce := (hall _ _ _ _ store hrun).1
    omega
  · intro hall
    obtain ⟨store, hrun, hdecisions⟩ : ∃ store,
        exec DappInteropStore.step (.initial overdriveChain [])
          rejectedInDelay = some store ∧
        store.decisions = [.rejected, .approved overdriveChain] :=
      ⟨_, rfl, rfl⟩
    refine (hall _ _ _ store hrun).2 overdriveChain ?_
    rw [hdecisions]

end SoulonWallet.Dapp
