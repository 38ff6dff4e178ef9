import SoulonWallet.RequestLifecycle
import SoulonWallet.SignatureChallenge

/-!
# Failures of the chain, from the proxy to the web client

The proxy turns a failing answer of the chain into a code, a message and a
flag that says whether another attempt can help.  The web client reads them
from the payload of the API and lets the flag decide about its retries.  So
what the user sees, and how often the chain is asked, follows from what the
chain answered.

`toLower` and `unmarshal` are the functions of the standard library on the
texts that the chain sends; `unmarshal` gives the fields that are strings.
-/

namespace SoulonWallet.Api.ErrorSemantics

open Chain (trimSpace isSpace)
open Dapp (JsonValue JsonMap asMap)
open WalletApp

/-! ## The model -/

inductive ErrorCode where
  | invalidArgument
  | unauthorized
  | forbidden
  | notFound
  | methodNotAllowed
  | chainUnavailable
  | insufficientFunds
  | outOfGas
  | invalidSequence
  | txRejected
  | internal
  deriving DecidableEq

def ErrorCode.text : ErrorCode → String
  | invalidArgument => "INVALID_ARGUMENT"
  | unauthorized => "UNAUTHORIZED"
  | forbidden => "FORBIDDEN"
  | notFound => "NOT_FOUND"
  | methodNotAllowed => "METHOD_NOT_ALLOWED"
  | chainUnavailable => "CHAIN_UNAVAILABLE"
  | insufficientFunds => "INSUFFICIENT_FUNDS"
  | outOfGas => "OUT_OF_GAS"
  | invalidSequence => "INVALID_SEQUENCE"
  | txRejected => "TX_REJECTED"
  | internal => "INTERNAL_ERROR"

structure ApiErrorPayload where
  code : ErrorCode
  message : String
  status : ℕ
  retryable : Bool
  deriving DecidableEq

def writeAPIError (status : ℕ) (code : ErrorCode) (message : String)
    (retryable : Bool) : ApiErrorPayload where
  code := code
  message := trimSpace message
  status := status
  retryable := retryable

/-- The object that is sent. -/
def ApiErrorPayload.json (payload : ApiErrorPayload) : JsonValue :=
  .map [("code", .string payload.code.text),
    ("message", .string payload.message), ("status", .int payload.status),
    ("retryable", .bool payload.retryable)]

/-- `strings.Contains`. -/
def contains (value keyword : String) : Bool :=
  decide (keyword.toList <:+: value.toList)

def containsOneOf (value : String) (keywords : List String) : Bool :=
  keywords.any (contains value)

def fallbackMessage (message fallback : String) : String :=
  if trimSpace message = "" then fallback else trimSpace message

inductive ChainExchange where
  | unavailable
  | unreadable
  | answered (status : ℕ) (contentType body : String)
  deriving DecidableEq

section Proxy

variable (toLower : String → String)
variable (unmarshal : String → Option (String → Option String))

def extractErrorMessage (body : String) : String :=
  if trimSpace body = "" then ""
  else
    match unmarshal body with
    | none => trimSpace body
    | some payload =>
        match ["error", "message", "raw_log"].findSome? fun key =>
          (payload key).filter fun value => trimSpace value ≠ "" with
        | some value => value
        | none => trimSpace body

/-- The code, the message when the chain sent none, and the flag. -/
def classify (normalized : String) (status : ℕ) : ErrorCode × String × Bool :=
  if containsOneOf normalized
      ["insufficient funds", "spendable balance", "余额不足", "资金不足"] then
    (.insufficientFunds, "insufficient funds", false)
  else if containsOneOf normalized
      ["out of gas", "gas wanted", "gas不足", "燃料不足"] then
    (.outOfGas, "out of gas", false)
  else if containsOneOf normalized
      ["invalid account sequence", "account sequence mismatch", "sequence",
        "nonce"] then
    (.invalidSequence, "invalid account sequence", true)
  else if containsOneOf normalized
      ["invalid", "malformed", "illegal", "参数",
        "request body is required"] then
    (.invalidArgument, "invalid request", false)
  else if status = 502 ∨ status = 503 ∨ status = 504 then
    (.chainUnavailable, "chain upstream unavailable", true)
  else if status = 401 then (.unauthorized, "unauthorized", false)
  else if status = 404 then (.notFound, "resource not found", false)
  else (.txRejected, "transaction rejected", false)

def mapChainProxyError (status : ℕ) (body : String) :
    ErrorCode × String × Bool :=
  let message := extractErrorMessage unmarshal body
  let normalized :=
    if trimSpace (toLower message) = "" then toLower body
    else toLower message
  let classified := classify normalized status
  (classified.1, fallbackMessage message classified.2.1, classified.2.2)

/-- What `proxyChainRequestWithBody` makes of the answer of the chain: the
status, the content type and the body that are passed on, or the error. -/
def relay : ChainExchange → Except ApiErrorPayload (ℕ × String × String)
  | .unavailable =>
      .error (writeAPIError 502 .chainUnavailable "chain upstream unavailable"
        true)
  | .unreadable =>
      .error (writeAPIError 502 .chainUnavailable
        "failed to read chain response" true)
  | .answered status contentType body =>
      if 400 ≤ status then
        let mapped := mapChainProxyError toLower unmarshal status body
        .error (writeAPIError status mapped.1 mapped.2.1 mapped.2.2)
      else
        .ok (status,
          if trimSpace contentType = "" then "application/json"
          else trimSpace contentType, body)

end Proxy

/-! ## What the client makes of an error -/

/-- The code of the client with the same text; `FORBIDDEN` has none. -/
def ErrorCode.semantic : ErrorCode → Option WalletSemanticErrorCode
  | invalidArgument => some .invalidArgument
  | unauthorized => some .unauthorized
  | forbidden => none
  | notFound => some .notFound
  | methodNotAllowed => some .methodNotAllowed
  | chainUnavailable => some .chainUnavailable
  | insufficientFunds => some .insufficientFunds
  | outOfGas => some .outOfGas
  | invalidSequence => some .invalidSequence
  | txRejected => some .txRejected
  | internal => some .internalError

theorem text_semantic
    {code : ErrorCode} {semantic : WalletSemanticErrorCode}
    (hsemantic : code.semantic = some semantic) :
    semantic.text = (code.text : Utf16) := by
  cases code <;> cases hsemantic <;> rfl

theorem walletSemanticErrorCode_text (code : ErrorCode) :
    walletSemanticErrorCode (Bip21.trim code.text) = code.semantic := by
  cases code <;> decide

/-- What the client shows for a payload with a code that it knows. -/
theorem responseError_json
    {payload : ApiErrorPayload} {semantic : WalletSemanticErrorCode}
    (hsemantic : payload.code.semantic = some semantic) :
    responseError ⟨payload.status, .json payload.json⟩ =
      { code := .semantic semantic
        message := resolveWalletSemanticErrorMessage semantic payload.message
        status := some payload.status
        retryable := payload.retryable } := by
  have hcode : (properties (some payload.json)).get "code" =
      .string payload.code.text := rfl
  have herror : (properties (some payload.json)).get "error" = .null := by
    rfl
  have hmessage : (properties (some payload.json)).get "message" =
      .string payload.message := by
    rfl
  have hretryable : (properties (some payload.json)).get "retryable" =
      .bool payload.retryable := by
    rfl
  simp only [responseError, BodyRead.result, Except.toOption,
    resolveStructuredErrorPayload, resolveErrorMessage, hcode, herror,
    hmessage, hretryable, walletSemanticErrorCode_text, hsemantic,
    Option.map_some, Option.getD_some]

theorem message_ne_empty
    (semantic : WalletSemanticErrorCode) (message : Utf16) :
    (resolveWalletSemanticErrorMessage semantic message).isEmpty = false := by
  unfold resolveWalletSemanticErrorMessage
  split_ifs with hempty
  · cases semantic <;> decide
  · exact Bool.eq_false_iff.mpr hempty

/-! ## Failures of the chain -/

section Failures

variable {toLower : String → String}
variable {unmarshal : String → Option (String → Option String)}

/-- The failures after which another attempt can help. -/
def ErrorCode.Passing (code : ErrorCode) : Prop :=
  code = .invalidSequence ∨ code = .chainUnavailable

instance : DecidablePred ErrorCode.Passing :=
  fun _ => inferInstanceAs (Decidable (_ ∨ _))

theorem classify_code (normalized : String) (status : ℕ) :
    ((classify normalized status).2.2 = true ↔
        (classify normalized status).1.Passing) ∧
      ∃ semantic, (classify normalized status).1.semantic = some semantic := by
  unfold classify
  split_ifs <;> exact ⟨by decide, _, rfl⟩

theorem mapChainProxyError_code
    (toLower : String → String)
    (unmarshal : String → Option (String → Option String)) (status : ℕ)
    (body : String) :
    let mapped := mapChainProxyError toLower unmarshal status body
    (mapped.2.2 = true ↔ mapped.1.Passing) ∧
      ∃ semantic, mapped.1.semantic = some semantic := by
  simp only [mapChainProxyError]
  exact classify_code _ status

/-- What an answer that is not passed on becomes. -/
structure ApiErrorPayload.Reports (payload : ApiErrorPayload) : Prop where
  failing : 400 ≤ payload.status
  retryable : payload.retryable = true ↔ payload.code.Passing
  known : ∃ semantic, payload.code.semantic = some semantic

theorem reports_writeAPIError
    {status : ℕ} {code : ErrorCode} {retryable : Bool}
    (hfailing : 400 ≤ status) (hretryable : retryable = true ↔ code.Passing)
    (hknown : ∃ semantic, code.semantic = some semantic) (message : String) :
    (writeAPIError status code message retryable).Reports :=
  ⟨hfailing, hretryable, hknown⟩

theorem reports_of_relay
    {exchange : ChainExchange} {payload : ApiErrorPayload}
    (hrelay : relay toLower unmarshal exchange = .error payload) :
    payload.Reports := by
  cases exchange with
  | unavailable =>
      rw [← Except.error.inj hrelay]
      exact reports_writeAPIError (by decide) (by decide) ⟨_, rfl⟩ _
  | unreadable =>
      rw [← Except.error.inj hrelay]
      exact reports_writeAPIError (by decide) (by decide) ⟨_, rfl⟩ _
  | answered status contentType body =>
      by_cases hstatus : 400 ≤ status
      · rw [relay, if_pos hstatus] at hrelay
        obtain ⟨hretryable, hknown⟩ :=
          mapChainProxyError_code toLower unmarshal status body
        rw [← Except.error.inj hrelay]
        exact reports_writeAPIError hstatus hretryable hknown _
      · simp [relay, hstatus] at hrelay

/-! ## The client asks again -/

/-- The attempt that meets the error of the proxy. -/
def attemptOf (payload : ApiErrorPayload) (now : ℤ) : Attempt where
  exchange := .responds payload.status (.json payload.json)
  now := now

variable {numberText : Binary64 → Utf16} {request : WalletApp.Request}

theorem isOk_of_failing
    {payload : ApiErrorPayload} (hfailing : 400 ≤ payload.status) :
    (Response.mk payload.status (.json payload.json)).isOk = false := by
  simp only [Response.isOk, Bool.and_eq_false_iff, decide_eq_false_iff_not]
  right
  omega

theorem retryable_attemptOf
    {payload : ApiErrorPayload} (hreports : payload.Reports) (now : ℤ) :
    (attemptOf payload now).exchange.retryable = payload.retryable := by
  obtain ⟨semantic, hsemantic⟩ := hreports.known
  simp only [Exchange.retryable, attemptOf, Exchange.fetch,
    isOk_of_failing hreports.failing, responseError_json hsemantic,
    Bool.not_false, Bool.true_and]

/-- The turn that ends with the error of the proxy. -/
theorem loop_of_refused
    (numberText : Binary64 → Utf16) (attempts : ℕ → Attempt)
    {payload : ApiErrorPayload} {now : ℤ} {attempt : ℕ}
    (hreports : payload.Reports)
    {semantic : WalletSemanticErrorCode}
    (hsemantic : payload.code.semantic = some semantic)
    (hmet : attempts attempt = attemptOf payload now)
    (hmay : request.mayAttempt attempt)
    (hfinal : ¬ (payload.retryable = true ∧ request.hasRetriesLeft attempt))
    (turns : ℕ) :
    ∃ event, request.loop numberText attempts (turns + 1) attempt =
      ⟨[event], [], 1, some (.error
        { code := .semantic semantic
          message :=
            resolveWalletSemanticErrorMessage semantic payload.message
          status := some payload.status
          retryable := payload.retryable })⟩ := by
  have hkept : ((responseError
      ⟨payload.status, .json payload.json⟩).retryable &&
      request.hasRetriesLeft attempt) = false := by
    rw [responseError_json hsemantic, Bool.and_eq_false_iff]
    by_contra hboth
    simp only [not_or, Bool.not_eq_false] at hboth
    exact hfinal hboth
  obtain ⟨attribution, -, -, hblock⟩ :=
    Request.rejectStatus_eq_fail (attempts attempt).now hkept
  have hfetch : (attempts attempt).exchange.fetch =
      .ok ⟨payload.status, .json payload.json⟩ := by
    rw [hmet]
    rfl
  have hturn : request.turn numberText attempt (attempts attempt) = _ :=
    Request.turn_of_refused hfetch (isOk_of_failing hreports.failing)
  rw [hblock, Request.fail_catching, responseError_json hsemantic] at hturn
  refine ⟨request.event .failure attempt
    (request.elapsed (attempts attempt).now) (some payload.status)
    (some attribution), ?_⟩
  simp [Request.loop, hmay, hturn, Request.fail, Block.last]

theorem hasRetriesLeft_iff
    {count : ℕ} (hcount : request.maxRetries = .finite count)
    (attempt : ℕ) :
    request.hasRetriesLeft attempt = true ↔ attempt < count := by
  simp [Request.hasRetriesLeft, hcount, Binary64.lt, Binary64.ge]

theorem mayAttempt_iff
    {count : ℕ} (hcount : request.maxRetries = .finite count)
    (attempt : ℕ) :
    request.mayAttempt attempt = true ↔ attempt ≤ count := by
  simp [Request.mayAttempt, hcount, Binary64.ge]

/-- While the chain fails, the client asks it again exactly after the failures
that pass, as often as it may.  It then throws the failure that the chain
gave last: its code, its status and its flag, with a message that is not
empty. -/
theorem proxied_failure_reported
    (numberText : Binary64 → Utf16) {count : ℕ}
    (hcount : request.maxRetries = .finite count)
    {chain : ℕ → ChainExchange} {payload : ℕ → ApiErrorPayload}
    (hfails : ∀ attempt ≤ count,
      relay toLower unmarshal (chain attempt) = .error (payload attempt))
    (now : ℕ → ℤ) :
    ∃ last ≤ count, (∀ earlier < last, (payload earlier).code.Passing) ∧
      (last = count ∨ ¬ (payload last).code.Passing) ∧
      let run := request.run numberText
        (fun attempt => attemptOf (payload attempt) (now attempt)) (count + 1)
      run.fetches = last + 1 ∧
      ∃ semantic error, run.ending = some (.error error) ∧
        error.code = .semantic semantic ∧
        semantic.text = ((payload last).code.text : Utf16) ∧
        error.status = some (payload last).status ∧
        (error.retryable = true ↔ (payload last).code.Passing) ∧
        error.message.isEmpty = false := by
  have hreports : ∀ attempt ≤ count, (payload attempt).Reports :=
    fun attempt hle => reports_of_relay (hfails attempt hle)
  have hexists : ∃ last, last = count ∨ ¬ (payload last).code.Passing :=
    ⟨count, Or.inl rfl⟩
  obtain ⟨last, hlast, hfirst⟩ : ∃ last,
      (last = count ∨ ¬ (payload last).code.Passing) ∧
      ∀ earlier < last,
        ¬ (earlier = count ∨ ¬ (payload earlier).code.Passing) :=
    ⟨Nat.find hexists, Nat.find_spec hexists,
      fun _ hearlier => Nat.find_min hexists hearlier⟩
  have hpassing : ∀ earlier < last,
      earlier ≠ count ∧ (payload earlier).code.Passing := by
    intro earlier hearlier
    have hnot := hfirst earlier hearlier
    rw [not_or, not_not] at hnot
    exact hnot
  have hle : last ≤ count := by
    by_contra hgt
    exact (hpassing count (not_le.mp hgt)).1 rfl
  refine ⟨last, hle, fun earlier hearlier => (hpassing earlier hearlier).2,
    hlast, ?_⟩
  have hretried : ∀ index < last, request.Retried
      (fun attempt => attemptOf (payload attempt) (now attempt))
      (0 + index) := by
    intro index hindex
    rw [Nat.zero_add]
    have hindexLe : index ≤ count := by omega
    refine ⟨?_, (hasRetriesLeft_iff hcount index).mpr (by omega)⟩
    rw [retryable_attemptOf (hreports index hindexLe)]
    exact (hreports index hindexLe).retryable.mpr (hpassing index hindex).2
  obtain ⟨semantic, hsemantic⟩ := (hreports last hle).known
  have hfinal : ¬ ((payload last).retryable = true ∧
      request.hasRetriesLeft last) := by
    rintro ⟨hretryable, hleft⟩
    rcases hlast with hend | hnot
    · have hlt := (hasRetriesLeft_iff hcount last).mp hleft
      omega
    · exact hnot ((hreports last hle).retryable.mp hretryable)
  obtain ⟨retries, sleeps, -, -, hloop⟩ :=
    Request.loop_of_all_retried numberText last hretried
  obtain ⟨event, hend⟩ := loop_of_refused numberText
    (fun attempt => attemptOf (payload attempt) (now attempt))
    (hreports last hle) hsemantic rfl ((mayAttempt_iff hcount last).mpr hle)
    hfinal (count - last)
  have hturns : count + 1 = last + (count - last + 1) := by omega
  have hrun : request.run numberText
      (fun attempt => attemptOf (payload attempt) (now attempt))
      (count + 1) =
      { events := request.startEvent :: (retries ++ [event])
        sleeps := sleeps
        fetches := last + 1
        ending := some (.error
          { code := .semantic semantic
            message := resolveWalletSemanticErrorMessage semantic
              (payload last).message
            status := some (payload last).status
            retryable := (payload last).retryable }) } := by
    rw [hturns, Request.run, hloop, Nat.zero_add, hend]
    simp
  simp only [hrun]
  exact ⟨trivial, semantic, _, rfl, rfl, text_semantic hsemantic, rfl,
    (hreports last hle).retryable, message_ne_empty semantic _⟩

/-- A node that is not there at first and then refuses the transaction. -/
def refusingChain : ℕ → ChainExchange
  | 0 => .unavailable
  | _ => .answered 400 "application/json" "insufficient funds"

/-- A broadcast that the caller lets be retried twice. -/
def patientRequest : WalletApp.Request where
  path := "/v1/chain/txs"
  url := "http://localhost/v1/chain/txs"
  requestId := "req_1"
  method := .post
  timeoutMs := .finite 1000
  maxRetries := .finite (2 : ℕ)
  retryBackoffMs := .finite 200
  feature := none
  action := none
  requestStartedAt := 0

theorem proxied_failure_reported_refusingChain :
    ∃ error, (patientRequest.run (fun _ => "") (fun attempt =>
        attemptOf (match attempt with
          | 0 => writeAPIError 502 .chainUnavailable
              "chain upstream unavailable" true
          | _ => writeAPIError 400 .insufficientFunds "insufficient funds"
              false) 0) 3).ending = some (.error error) ∧
      error.message.isEmpty = false := by
  have hfails : ∀ attempt ≤ 2, relay id (fun _ => none)
      (refusingChain attempt) = .error (match attempt with
        | 0 => writeAPIError 502 .chainUnavailable
            "chain upstream unavailable" true
        | _ => writeAPIError 400 .insufficientFunds "insufficient funds"
            false) := by
    intro attempt hattempt
    interval_cases attempt
    · rfl
    · decide
    · decide
  obtain ⟨_, -, -, -, -, semantic, error, hending, -, -, -, -, hmessage⟩ :=
    proxied_failure_reported (fun _ => "")
      (show patientRequest.maxRetries = .finite (2 : ℕ) from rfl) hfails
      fun _ => 0
  exact ⟨error, hending, hmessage⟩

end Failures

end SoulonWallet.Api.ErrorSemantics
