import SoulonWallet.Bip21Uri
import SoulonWallet.ReorgTracking

/-!
# The request loop of the API client

`request` fetches until an attempt succeeds or fails for good, and tells its
`onLifecycle` callback about every attempt.  A failure can be thrown inside
the body of the loop and end in its outer `catch`, which classifies what it
catches and may retry as well.  The body and the `catch` are two blocks here,
each with the events that it emits and the way it is left.

A retry count is a number, and not necessarily a whole one.  Of one from the
environment only that it is finite and not negative is checked.
-/

namespace SoulonWallet.WalletApp

open Dapp (JsonValue JsonMap asMap)

/-! ## Errors -/

inductive WalletSemanticErrorCode where
  | invalidArgument
  | insufficientFunds
  | outOfGas
  | invalidSequence
  | unauthorized
  | chainUnavailable
  | notFound
  | methodNotAllowed
  | txRejected
  | internalError
  deriving DecidableEq

namespace WalletSemanticErrorCode

def text : WalletSemanticErrorCode → Utf16
  | invalidArgument => "INVALID_ARGUMENT"
  | insufficientFunds => "INSUFFICIENT_FUNDS"
  | outOfGas => "OUT_OF_GAS"
  | invalidSequence => "INVALID_SEQUENCE"
  | unauthorized => "UNAUTHORIZED"
  | chainUnavailable => "CHAIN_UNAVAILABLE"
  | notFound => "NOT_FOUND"
  | methodNotAllowed => "METHOD_NOT_ALLOWED"
  | txRejected => "TX_REJECTED"
  | internalError => "INTERNAL_ERROR"

def message : WalletSemanticErrorCode → Utf16
  | invalidArgument => "请求参数不合法，请检查后重试。"
  | insufficientFunds => "余额不足，请补充资产后重试。"
  | outOfGas => "Gas 不足，请提高手续费后重试。"
  | invalidSequence => "账户序列号不一致，请刷新状态后重试。"
  | unauthorized => "当前请求未授权，请重新登录。"
  | chainUnavailable => "链端暂不可用，请稍后重试。"
  | notFound => "请求资源不存在或已删除。"
  | methodNotAllowed => "当前接口不支持该请求方法。"
  | txRejected => "交易被链端拒绝，请检查交易参数。"
  | internalError => "服务内部异常，请稍后重试。"

end WalletSemanticErrorCode

def walletSemanticErrorCodes : List WalletSemanticErrorCode :=
  [.invalidArgument, .insufficientFunds, .outOfGas, .invalidSequence,
    .unauthorized, .chainUnavailable, .notFound, .methodNotAllowed,
    .txRejected, .internalError]

inductive ApiErrorCode where
  | timeout
  | network
  | httpError
  | parseError
  | unknown
  | semantic (code : WalletSemanticErrorCode)
  deriving DecidableEq

structure ApiClientError where
  code : ApiErrorCode
  message : Utf16
  status : Option ℕ := none
  retryable : Bool
  deriving DecidableEq

/-- The semantic code that a text is, as `isWalletSemanticErrorCode` asks. -/
def walletSemanticErrorCode (code : Utf16) : Option WalletSemanticErrorCode :=
  walletSemanticErrorCodes.find? fun semantic => semantic.text = code

def resolveWalletSemanticErrorMessage (code : WalletSemanticErrorCode)
    (message : Utf16) : Utf16 :=
  if (Bip21.trim message).isEmpty then code.message else Bip21.trim message

def isRetryableStatus (status : ℕ) : Bool :=
  status = 429 || 500 ≤ status

/-- The properties of a payload that is an object with named ones; an absent
property reads as `null`, which is of none of the types asked for. -/
def properties (payload : Option JsonValue) : JsonMap :=
  (payload.map asMap).getD []

def resolveErrorMessage (payload : Option JsonValue) (fallback : Utf16) :
    Utf16 :=
  match (properties payload).get "error" with
  | .string error => error
  | _ =>
      match (properties payload).get "message" with
      | .string message => message
      | _ => fallback

structure StructuredErrorPayload where
  code : Option WalletSemanticErrorCode := none
  message : Utf16
  retryable : Option Bool := none

/-- `payload` is none where the body could not be read. -/
def resolveStructuredErrorPayload (payload : Option JsonValue)
    (fallback : Utf16) : StructuredErrorPayload :=
  let message := resolveErrorMessage payload fallback
  let payloadCode : Utf16 :=
    match (properties payload).get "code" with
    | .string code => Bip21.trim code
    | _ => ""
  let payloadRetryable :=
    match (properties payload).get "retryable" with
    | .bool retryable => some retryable
    | _ => none
  match walletSemanticErrorCode payloadCode with
  | some code =>
      { code := some code
        message := resolveWalletSemanticErrorMessage code message
        retryable := payloadRetryable }
  | none => { message, retryable := payloadRetryable }

/-! ## Requests and their events -/

inductive HttpMethod where
  | get
  | post
  | put
  | patch
  | delete
  deriving DecidableEq

structure RequestTraceContext where
  feature : Utf16
  action : Utf16
  requestId : Option Utf16 := none

structure RequestOptions where
  method : Option HttpMethod := none
  timeoutMs : Option Binary64 := none
  retryCount : Option Binary64 := none
  retryBackoffMs : Option Binary64 := none
  traceContext : Option RequestTraceContext := none

structure ApiClient where
  timeoutMs : Binary64
  retryCount : Binary64

inductive Layer where
  | http
  | transport
  | parse
  | unknown
  deriving DecidableEq

structure RequestErrorAttribution where
  layer : Layer
  reason : String
  status : Option ℕ := none
  code : Option ApiErrorCode := none
  retryable : Bool
  deriving DecidableEq

inductive Stage where
  | start
  | retry
  | success
  | failure
  deriving DecidableEq

structure RequestLifecycleEvent where
  stage : Stage
  requestId : Utf16
  path : Utf16
  url : Utf16
  method : HttpMethod
  feature : Option Utf16
  action : Option Utf16
  attempt : ℕ
  maxRetries : Binary64
  durationMs : ℤ
  status : Option ℕ
  attribution : Option RequestErrorAttribution
  deriving DecidableEq

/-- The values that `request` computes before it starts. -/
structure Request where
  path : Utf16
  url : Utf16
  requestId : Utf16
  method : HttpMethod
  timeoutMs : Binary64
  maxRetries : Binary64
  retryBackoffMs : Binary64
  feature : Option Utf16
  action : Option Utf16
  requestStartedAt : ℤ

def createRequestId (generated : Utf16)
    (traceContext : Option RequestTraceContext) : Utf16 :=
  match traceContext.bind RequestTraceContext.requestId with
  | some requestId => if requestId.isEmpty then generated else requestId
  | none => generated

/-- What the calls of `buildUrl`, `Date.now` and `Math.random` give. -/
structure Prepared where
  url : Utf16
  requestStartedAt : ℤ
  generatedId : Utf16

def ApiClient.prepare (client : ApiClient) (prepared : Prepared)
    (path : Utf16) (options : RequestOptions) : Request where
  path := path
  url := prepared.url
  requestId := createRequestId prepared.generatedId options.traceContext
  method := options.method.getD .get
  timeoutMs := options.timeoutMs.getD client.timeoutMs
  maxRetries :=
    options.retryCount.getD
      (if options.method.getD .get = .get then client.retryCount
      else .finite 0)
  retryBackoffMs := options.retryBackoffMs.getD (.finite 200)
  feature := options.traceContext.map RequestTraceContext.feature
  action := options.traceContext.map RequestTraceContext.action
  requestStartedAt := prepared.requestStartedAt

/-! ## What an attempt meets -/

/-- What a promise of the platform rejects with. -/
inductive Reason where
  | domException (name message : Utf16)
  | error (message : Utf16)
  | value (value : JsonValue)

/-- A `fetch` or a body read that `controller.abort` ends rejects with the
reason of the abort. -/
def abortReason : Reason :=
  .value (.string "timeout")

/-- How `response.json()` ends. -/
inductive BodyRead where
  | json (data : JsonValue)
  | rejects (reason : Reason)
  | timerFires

def BodyRead.result : BodyRead → Except Reason JsonValue
  | .json data => .ok data
  | .rejects reason => .error reason
  | .timerFires => .error abortReason

/-- How one `fetch` and the read of its body end. -/
inductive Exchange where
  | rejects (reason : Reason)
  | timerFires
  | responds (status : ℕ) (body : BodyRead)

structure Response where
  status : ℕ
  body : BodyRead

def Exchange.fetch : Exchange → Except Reason Response
  | .rejects reason => .error reason
  | .timerFires => .error abortReason
  | .responds status body => .ok ⟨status, body⟩

def Response.isOk (response : Response) : Bool :=
  200 ≤ response.status && response.status ≤ 299

/-- The exchange of an attempt, and the clock when it is over. -/
structure Attempt where
  exchange : Exchange
  now : ℤ

/-! ## The body of the loop -/

inductive Thrown where
  | apiClientError (error : ApiClientError)
  | reason (reason : Reason)

inductive Exit (ε : Type) where
  | continues
  | returns (data : JsonValue)
  | throws (error : ε)

structure Block (ε : Type) where
  events : List RequestLifecycleEvent
  sleeps : List Binary64
  exit : Exit ε

/-- `try` around a block, with the block of its `catch`. -/
def Block.catching {ε ε' : Type} (body : Block ε) (handler : ε → Block ε') :
    Block ε' :=
  match body.exit with
  | .continues => ⟨body.events, body.sleeps, .continues⟩
  | .returns data => ⟨body.events, body.sleeps, .returns data⟩
  | .throws error =>
      let caught := handler error
      ⟨body.events ++ caught.events, body.sleeps ++ caught.sleeps,
        caught.exit⟩

def throwing {ε : Type} (error : ε) : Block ε :=
  ⟨[], [], .throws error⟩

def isAbortError : Reason → Bool
  | .domException name _ => name = "AbortError"
  | _ => false

/-- The message of a reason that is an `Error`. -/
def errorMessage : Reason → Option Utf16
  | .domException _ message => some message
  | .error message => some message
  | .value _ => none

def parseError : ApiClientError where
  code := .parseError
  message := "响应解析失败"
  retryable := false

def unknownError : ApiClientError where
  code := .unknown
  message := "请求失败"
  retryable := false

def networkError (reason : Reason) : ApiClientError where
  code := .network
  message := (errorMessage reason).getD "网络异常"
  retryable := true

/-- The error of a response whose status is not ok. -/
def responseError (response : Response) : ApiClientError :=
  let structuredError :=
    resolveStructuredErrorPayload response.body.result.toOption
      ("HTTP " ++ Utf16.ofNat response.status)
  { code := (structuredError.code.map ApiErrorCode.semantic).getD .httpError
    message := structuredError.message
    status := some response.status
    retryable :=
      structuredError.retryable.getD (isRetryableStatus response.status) }

def transportAttribution (reason : String) (code : ApiErrorCode) :
    RequestErrorAttribution where
  layer := .transport
  reason := reason
  code := some code
  retryable := true

namespace Request

def event (request : Request) (stage : Stage) (attempt : ℕ)
    (durationMs : ℤ) (status : Option ℕ)
    (attribution : Option RequestErrorAttribution) :
    RequestLifecycleEvent where
  stage := stage
  requestId := request.requestId
  path := request.path
  url := request.url
  method := request.method
  feature := request.feature
  action := request.action
  attempt := attempt
  maxRetries := request.maxRetries
  durationMs := durationMs
  status := status
  attribution := attribution

def startEvent (request : Request) : RequestLifecycleEvent :=
  request.event .start 0 0 none none

def elapsed (request : Request) (now : ℤ) : ℤ :=
  now - request.requestStartedAt

/-- `attempt += 1` with its event, the sleep, and `continue`. -/
def retry {ε : Type} (request : Request) (attempt : ℕ) (now : ℤ)
    (status : Option ℕ) (attribution : RequestErrorAttribution) :
    Block ε where
  events :=
    [request.event .retry (attempt + 1) (request.elapsed now) status
      (some attribution)]
  sleeps := [request.retryBackoffMs.mul (.finite (attempt + 1))]
  exit := .continues

/-- A failure event, and the throw after it. -/
def fail {ε : Type} (request : Request) (attempt : ℕ) (now : ℤ)
    (status : Option ℕ) (attribution : RequestErrorAttribution) (error : ε) :
    Block ε where
  events :=
    [request.event .failure attempt (request.elapsed now) status
      (some attribution)]
  sleeps := []
  exit := .throws error

/-- Whether `attempt < maxRetries`. -/
def hasRetriesLeft (request : Request) (attempt : ℕ) : Bool :=
  Binary64.lt (.finite attempt) request.maxRetries

/-- The branch of a response whose status is not ok. -/
def rejectStatus (request : Request) (attempt : ℕ) (now : ℤ)
    (response : Response) : Block Thrown :=
  let error := responseError response
  if error.retryable && request.hasRetriesLeft attempt then
    request.retry attempt now (some response.status)
      { layer := .http
        reason := "retryable_http_status"
        status := some response.status
        code := some error.code
        retryable := true }
  else
    request.fail attempt now (some response.status)
      { layer := .http
        reason := "http_status_not_ok"
        status := some response.status
        code := some error.code
        retryable := error.retryable }
      (.apiClientError error)

/-- The branch of a response whose status is ok; its own `catch` takes
whatever the read of the body rejects with. -/
def readBody (request : Request) (attempt : ℕ) (now : ℤ)
    (response : Response) : Block Thrown :=
  match response.body.result with
  | .ok data =>
      { events :=
          [request.event .success attempt (request.elapsed now)
            (some response.status) none]
        sleeps := []
        exit := .returns data }
  | .error _ =>
      request.fail attempt now (some response.status)
        { layer := .parse
          reason := "response_json_parse_failed"
          code := some parseError.code
          retryable := false }
        (.apiClientError parseError)

def tryBlock (request : Request) (attempt : ℕ) (now : ℤ)
    (exchange : Exchange) : Block Thrown :=
  match exchange.fetch with
  | .error reason => throwing (.reason reason)
  | .ok response =>
      if response.isOk then request.readBody attempt now response
      else request.rejectStatus attempt now response

section Loop

variable (numberText : Binary64 → Utf16) (request : Request)

def timeoutError : ApiClientError where
  code := .timeout
  message := "请求超时（>" ++ numberText request.timeoutMs ++ "ms）"
  retryable := true

/-- The end of the outer `catch`, for a timeout and for a network error. -/
def transportBlock (attempt : ℕ) (now : ℤ) (reason : String)
    (error : ApiClientError) : Block ApiClientError :=
  let attribution := transportAttribution reason error.code
  if request.hasRetriesLeft attempt then
    request.retry attempt now none attribution
  else request.fail attempt now none attribution error

def catchBlock (attempt : ℕ) (now : ℤ) : Thrown → Block ApiClientError
  | .apiClientError error => throwing error
  | .reason reason =>
      if isAbortError reason then
        request.transportBlock attempt now "request_timeout"
          (request.timeoutError numberText)
      else
        request.transportBlock attempt now "network_exception"
          (networkError reason)

def turn (attempt : ℕ) (met : Attempt) : Block ApiClientError :=
  (request.tryBlock attempt met.now met.exchange).catching
    (request.catchBlock numberText attempt met.now)

end Loop

end Request

/-! ## The loop -/

/-- What a call of `request` has done; `ending` is none while it is under
way. -/
structure RequestRun where
  events : List RequestLifecycleEvent
  sleeps : List Binary64
  fetches : ℕ
  ending : Option (Except ApiClientError JsonValue)

def RequestRun.after (rest : RequestRun)
    (block : Block ApiClientError) : RequestRun where
  events := block.events ++ rest.events
  sleeps := block.sleeps ++ rest.sleeps
  fetches := rest.fetches + 1
  ending := rest.ending

def Block.last (block : Block ApiClientError)
    (ending : Except ApiClientError JsonValue) : RequestRun where
  events := block.events
  sleeps := block.sleeps
  fetches := 1
  ending := some ending

namespace Request

variable (numberText : Binary64 → Utf16) (request : Request)
variable (attempts : ℕ → Attempt)

/-- Whether `attempt <= maxRetries`. -/
def mayAttempt (attempt : ℕ) : Bool :=
  request.maxRetries.ge (.finite attempt)

/-- The first turns of the loop from `attempt` on. -/
def loop : ℕ → ℕ → RequestRun
  | turns, attempt =>
      if request.mayAttempt attempt then
        match turns with
        | 0 => ⟨[], [], 0, none⟩
        | turns + 1 =>
            let block := request.turn numberText attempt (attempts attempt)
            match block.exit with
            | .continues => (loop turns (attempt + 1)).after block
            | .returns data => block.last (.ok data)
            | .throws error => block.last (.error error)
      else ⟨[], [], 0, some (.error unknownError)⟩

/-- A call of `request` up to a number of turns of its loop. -/
def run (turns : ℕ) : RequestRun :=
  let rest := request.loop numberText attempts turns 0
  { rest with events := request.startEvent :: rest.events }

end Request

end SoulonWallet.WalletApp
