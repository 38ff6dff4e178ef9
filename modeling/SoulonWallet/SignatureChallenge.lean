import SoulonWallet.ChainTx
import SoulonWallet.KeyedMap
import SoulonWallet.LabelledRun

/-!
# The signature challenges of the API

`handleSignatureChallenge` issues a request id to an account, and
`handleSignatureConfirm` exchanges the id for an authorization.  The server
runs every request in a goroutine of its own, so the handlers of any number of
requests interleave at the sections they run under the lock: the write of a
new challenge, and the lookup and deletion of a confirmed one.  A turn is what
one handler does up to its next section, its section, or the rest.

Instants are nanoseconds since the epoch.  The readings of the clock along a
run do not decrease.
-/

namespace SoulonWallet.Api

open Chain (trimSpace)

inductive ErrorCode where
  | invalidArgument
  | unauthorized
  | notFound
  | methodNotAllowed
  | internal
  deriving DecidableEq

/-- The payload that `writeAPIError` sends. -/
structure ApiError where
  code : ErrorCode
  message : String
  status : ℕ
  retryable : Bool
  deriving DecidableEq

def writeApiError (status : ℕ) (code : ErrorCode) (message : String)
    (retryable : Bool) : ApiError where
  code := code
  message := trimSpace message
  status := status
  retryable := retryable

def methodNotAllowed : ApiError :=
  writeApiError 405 .methodNotAllowed "method not allowed" false

def badRequest (message : String) : ApiError :=
  writeApiError 400 .invalidArgument message false

/-- A request as its handler reads it: the body is the value that
`decodeJSONBody` fills in, or the text of its error. -/
structure Request (Body : Type) where
  method : String
  body : Except String Body
  deriving DecidableEq

structure ChallengeInput where
  accountId : String
  deriving DecidableEq

structure ConfirmInput where
  accountId : String
  requestId : String
  signature : String
  deriving DecidableEq

structure SignatureChallenge where
  requestId : String
  accountId : String
  challengeMessage : String
  expiresAt : ℤ
  deriving DecidableEq

def requestIdAt (issuedAt : ℤ) : String :=
  "req_" ++ toString (Int64.ofInt issuedAt).toInt

/-- `handleSignatureChallenge` before its section. -/
def newChallenge (challengeTTL now : ℤ) (request : Request ChallengeInput) :
    Except ApiError SignatureChallenge :=
  if request.method ≠ "POST" then .error methodNotAllowed
  else
    match request.body with
    | .error message => .error (badRequest message)
    | .ok input =>
        let accountId := trimSpace input.accountId
        if accountId = "" then .error (badRequest "accountId is required")
        else
          let requestId := requestIdAt now
          .ok
            { requestId := requestId
              accountId := accountId
              challengeMessage := "Soulon Wallet 授权签名\naccount=" ++
                accountId ++ "\nrequestId=" ++ requestId
              expiresAt := now + challengeTTL }

def ConfirmInput.trimmed (input : ConfirmInput) : ConfirmInput where
  accountId := trimSpace input.accountId
  requestId := trimSpace input.requestId
  signature := trimSpace input.signature

/-- `handleSignatureConfirm` before its section. -/
def parseConfirm (request : Request ConfirmInput) :
    Except ApiError ConfirmInput :=
  if request.method ≠ "POST" then .error methodNotAllowed
  else
    match request.body with
    | .error message => .error (badRequest message)
    | .ok input =>
        if input.trimmed.accountId = "" ∨ input.trimmed.requestId = "" ∨
            input.trimmed.signature = "" then
          .error (badRequest
            "accountId, requestId and signature are required")
        else .ok input.trimmed

inductive Answer where
  | challenge (challenge : SignatureChallenge)
  | authorized (signature accountId requestId : String) (authorizedAt : ℤ)
  | error (payload : ApiError)
  deriving DecidableEq

def expectedPrefix (accountId requestId : String) : String :=
  requestId ++ "." ++ accountId ++ "."

/-- `strings.HasPrefix`. -/
def hasPrefix (text start : String) : Prop :=
  start.toList <+: text.toList

instance (text start : String) : Decidable (hasPrefix text start) :=
  inferInstanceAs (Decidable (start.toList <+: text.toList))

/-- `handleSignatureConfirm` after its section, which found `found`. -/
def checkConfirm (input : ConfirmInput) (found : Option SignatureChallenge)
    (now authorizedAt : ℤ) : Answer :=
  match found with
  | none =>
      .error (writeApiError 404 .notFound "challenge not found" false)
  | some challenge =>
      if challenge.accountId ≠ input.accountId then
        .error (badRequest "accountId mismatch")
      else if challenge.expiresAt < now then
        .error (writeApiError 401 .unauthorized "challenge expired" false)
      else if ¬ hasPrefix input.signature
          (expectedPrefix input.accountId input.requestId) then
        .error (writeApiError 401 .unauthorized
          "signature verification failed" false)
      else
        .authorized input.signature input.accountId input.requestId
          authorizedAt

theorem checkConfirm_eq_authorized
    {input : ConfirmInput} {found : Option SignatureChallenge}
    {now authorizedAt instant : ℤ} {signature accountId requestId : String} :
    checkConfirm input found now authorizedAt =
        .authorized signature accountId requestId instant ↔
      (∃ challenge, found = some challenge ∧
        challenge.accountId = input.accountId ∧
        now ≤ challenge.expiresAt ∧
        hasPrefix input.signature
          (expectedPrefix input.accountId input.requestId)) ∧
      signature = input.signature ∧ accountId = input.accountId ∧
      requestId = input.requestId ∧ instant = authorizedAt := by
  cases found with
  | none => simp [checkConfirm]
  | some challenge =>
      simp only [checkConfirm, Option.some.injEq, exists_eq_left']
      split_ifs with haccount hexpired hsigned
      · simp [haccount]
      · simp [not_le.mpr hexpired]
      · push Not at haccount hexpired
        simp only [Answer.authorized.injEq, haccount, hexpired, hsigned,
          and_self, true_and]
        grind
      · simp [hsigned]

/-! ## The interleaving of the handlers -/

/-- Where a handler stands.  The server does not see the sender of a
confirm; it is kept to say who sent what. -/
inductive Stage where
  | issuing (challenge : SignatureChallenge)
  | issued (challenge : SignatureChallenge)
  | confirming (sender : String) (input : ConfirmInput)
  | taken (sender : String) (input : ConfirmInput)
      (found : Option SignatureChallenge)

inductive Event where
  | requested (call : ℕ) (request : Request ChallengeInput)
  | issued (call : ℕ) (challenge : SignatureChallenge)
  | received (call : ℕ) (sender : String) (request : Request ConfirmInput)
  | answered (call : ℕ) (clock : ℤ) (answer : Answer)
  deriving DecidableEq

structure Server where
  challengeTTL : ℤ
  challenges : KeyedMap String SignatureChallenge
  clock : ℤ
  calls : KeyedMap ℕ Stage
  nextCall : ℕ
  history : List Event

inductive Turn where
  | challenge (now : ℤ) (request : Request ChallengeInput)
  | store (call : ℕ)
  | respond (call : ℕ)
  | confirm (sender : String) (request : Request ConfirmInput)
  | take (call : ℕ)
  | check (call : ℕ) (now authorizedAt : ℤ)

namespace Server

def initial (challengeTTL clock : ℤ) : Server where
  challengeTTL := challengeTTL
  challenges := ∅
  clock := clock
  calls := ∅
  nextCall := 0
  history := []

def enter (server : Server) (arrival : Event) (stage : Stage) : Server :=
  { server with
    calls := server.calls.insert server.nextCall stage
    nextCall := server.nextCall + 1
    history := server.history ++ [arrival] }

/-- A request that is answered before it reaches its section. -/
def refuse (server : Server) (arrival : Event) (payload : ApiError) :
    Server :=
  { server with
    nextCall := server.nextCall + 1
    history := server.history ++
      [arrival, .answered server.nextCall server.clock (.error payload)] }

def answer (server : Server) (call : ℕ) (clock : ℤ) (answer : Answer) :
    Server :=
  { server with
    calls := server.calls.erase call
    history := server.history ++ [.answered call clock answer] }

def store (server : Server) (call : ℕ) (challenge : SignatureChallenge) :
    Server :=
  { server with
    challenges := server.challenges.insert challenge.requestId challenge
    calls := server.calls.insert call (.issued challenge)
    history := server.history ++ [.issued call challenge] }

def take (server : Server) (call : ℕ) (sender : String)
    (input : ConfirmInput) : Server :=
  { server with
    challenges := server.challenges.erase input.requestId
    calls := server.calls.insert call
      (.taken sender input (server.challenges.lookup input.requestId)) }

def step (server : Server) : Turn → Option Server
  | .challenge now request =>
      if server.clock ≤ now then
        let arrival := .requested server.nextCall request
        match newChallenge server.challengeTTL now request with
        | .error payload =>
            some ({ server with clock := now }.refuse arrival payload)
        | .ok challenge =>
            some ({ server with clock := now }.enter arrival
              (.issuing challenge))
      else none
  | .store call =>
      match server.calls.lookup call with
      | some (.issuing challenge) => some (server.store call challenge)
      | _ => none
  | .respond call =>
      match server.calls.lookup call with
      | some (.issued challenge) =>
          some (server.answer call server.clock (.challenge challenge))
      | _ => none
  | .confirm sender request =>
      let arrival := .received server.nextCall sender request
      match parseConfirm request with
      | .error payload => some (server.refuse arrival payload)
      | .ok input =>
          some (server.enter arrival (.confirming sender input))
  | .take call =>
      match server.calls.lookup call with
      | some (.confirming sender input) =>
          some (server.take call sender input)
      | _ => none
  | .check call now authorizedAt =>
      if server.clock ≤ now ∧ now ≤ authorizedAt then
        match server.calls.lookup call with
        | some (.taken _ input found) =>
            some ({ server with clock := authorizedAt }.answer call now
              (checkConfirm input found now authorizedAt))
        | _ => none
      else none

/-- What a turn does, once for every kind of turn. -/
inductive Moves (server : Server) : Turn → Server → Prop where
  | refusedChallenge {now request payload}
      (hnew : newChallenge server.challengeTTL now request = .error payload) :
      Moves server (.challenge now request)
        ({ server with clock := now }.refuse
          (.requested server.nextCall request) payload)
  | challenge {now request challenge}
      (hnew : newChallenge server.challengeTTL now request = .ok challenge) :
      Moves server (.challenge now request)
        ({ server with clock := now }.enter
          (.requested server.nextCall request) (.issuing challenge))
  | store {call challenge}
      (hcall : server.calls.lookup call = some (.issuing challenge)) :
      Moves server (.store call) (server.store call challenge)
  | respond {call challenge}
      (hcall : server.calls.lookup call = some (.issued challenge)) :
      Moves server (.respond call)
        (server.answer call server.clock (.challenge challenge))
  | refusedConfirm {sender request payload}
      (hparse : parseConfirm request = .error payload) :
      Moves server (.confirm sender request)
        (server.refuse (.received server.nextCall sender request) payload)
  | confirm {sender request input}
      (hparse : parseConfirm request = .ok input) :
      Moves server (.confirm sender request)
        (server.enter (.received server.nextCall sender request)
          (.confirming sender input))
  | take {call sender input}
      (hcall : server.calls.lookup call = some (.confirming sender input)) :
      Moves server (.take call) (server.take call sender input)
  | check {call now authorizedAt sender input found}
      (hcall : server.calls.lookup call = some (.taken sender input found)) :
      Moves server (.check call now authorizedAt)
        ({ server with clock := authorizedAt }.answer call now
          (checkConfirm input found now authorizedAt))

theorem moves_of_step
    {server next : Server} {turn : Turn}
    (hstep : server.step turn = some next) :
    server.Moves turn next := by
  cases turn with
  | challenge now request =>
      simp only [step] at hstep
      split at hstep
      · split at hstep
        next payload hnew =>
          obtain rfl := Option.some.inj hstep
          exact .refusedChallenge hnew
        next challenge hnew =>
          obtain rfl := Option.some.inj hstep
          exact .challenge hnew
      · simp at hstep
  | store call =>
      simp only [step] at hstep
      split at hstep
      next challenge hcall =>
        obtain rfl := Option.some.inj hstep
        exact .store hcall
      next => simp at hstep
  | respond call =>
      simp only [step] at hstep
      split at hstep
      next challenge hcall =>
        obtain rfl := Option.some.inj hstep
        exact .respond hcall
      next => simp at hstep
  | confirm sender request =>
      simp only [step] at hstep
      split at hstep
      next payload hparse =>
        obtain rfl := Option.some.inj hstep
        exact .refusedConfirm hparse
      next input hparse =>
        obtain rfl := Option.some.inj hstep
        exact .confirm hparse
  | take call =>
      simp only [step] at hstep
      split at hstep
      next sender input hcall =>
        obtain rfl := Option.some.inj hstep
        exact .take hcall
      next => simp at hstep
  | check call now authorizedAt =>
      simp only [step] at hstep
      split at hstep
      · split at hstep
        next sender input found hcall =>
          obtain rfl := Option.some.inj hstep
          exact .check hcall
        next => simp at hstep
      · simp at hstep

end Server

end SoulonWallet.Api
