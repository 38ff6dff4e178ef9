import SoulonWallet.ChallengeAvailability

/-!
# Confirming a challenge through the retrying client

`postJson` of the Flutter client sends a confirm and sends it again after a
timeout or a connection error.  A request that was given up on may still
arrive, and the answer to one that was handled may be lost, so the attempts of
one call meet the server in any order and number.  The turns here are those of
one call of `postJson` and of the server with all its other clients.
-/

namespace SoulonWallet.Api

open LabelledRun

inductive ApiErrorKind where
  | validation
  | unauthorized
  | forbidden
  | notFound
  | timeout
  | network
  | unknown
  deriving DecidableEq

structure ApiClientException where
  kind : ApiErrorKind
  statusCode : Option ℕ := none
  code : Option ErrorCode := none
  message : Option String := none
  deriving DecidableEq

def mapErrorKind (statusCode : ℕ) : ApiErrorKind :=
  if statusCode = 400 then .validation
  else if statusCode = 401 then .unauthorized
  else if statusCode = 403 then .forbidden
  else if statusCode = 404 then .notFound
  else if 500 ≤ statusCode then .network
  else .unknown

def isRetryableStatus (statusCode : ℕ) : Prop :=
  statusCode = 429 ∨ 500 ≤ statusCode

instance (statusCode : ℕ) : Decidable (isRetryableStatus statusCode) :=
  inferInstanceAs (Decidable (_ ∨ _))

/-- How one run of `action` ends. -/
inductive Outcome where
  | returns (answer : Answer)
  | exception (exception : ApiClientException)
  | timeout
  | socket
  | http
  | format
  | other
  deriving DecidableEq

/-- `_parseResponse` on an answer of the server: errors are sent with their
own status, everything else with 200. -/
def parseResponse : Answer → Outcome
  | .error payload =>
      .exception
        { kind := mapErrorKind payload.status
          statusCode := some payload.status
          code := some payload.code
          message := some payload.message }
  | answer => .returns answer

inductive Thrown where
  | api (exception : ApiClientException)
  | format
  deriving DecidableEq

inductive Client where
  | ready (attempt : ℕ)
  | waiting (attempt : ℕ)
  | delaying (attempt : ℕ)
  | returned (answer : Answer)
  | thrown (error : Thrown)
  deriving DecidableEq

def retryOr (maxRetries : ℤ) (attempt : ℕ) (exception : ApiClientException) :
    Client :=
  if maxRetries ≤ attempt then .thrown (.api exception)
  else .delaying attempt

/-- The body of the loop of `_executeWithRetry` after `action`. -/
def settle (maxRetries : ℤ) (attempt : ℕ) : Outcome → Client
  | .returns answer => .returned answer
  | .exception exception =>
      let retryable := ∃ statusCode ∈ exception.statusCode,
        isRetryableStatus statusCode
      if ¬ retryable then .thrown (.api exception)
      else retryOr maxRetries attempt exception
  | .timeout => retryOr maxRetries attempt { kind := .timeout }
  | .socket | .http => retryOr maxRetries attempt { kind := .network }
  | .format => .thrown .format
  | .other => retryOr maxRetries attempt { kind := .unknown }

/-- One call of `postJson` and the server.  `arrived` gives the attempt of a
call of the server. -/
structure Exchange where
  maxRetries : ℤ
  sender : String
  body : Except String ConfirmInput
  client : Client
  inTransit : List ℕ
  arrived : KeyedMap ℕ ℕ
  server : Server

/-- How an attempt can end without an answer of the server: an error of the
connection, or a gateway that answers with a server error. -/
inductive Failure where
  | timeout
  | socket
  | http
  | format
  | other
  | gateway (statusCode : ℕ) (hserver : 500 ≤ statusCode)
  deriving DecidableEq

def Failure.outcome : Failure → Outcome
  | .timeout => .timeout
  | .socket => .socket
  | .http => .http
  | .format => .format
  | .other => .other
  | .gateway statusCode _ =>
      .exception
        { kind := mapErrorKind statusCode, statusCode := some statusCode }

inductive Label where
  | send
  | arrive (attempt : ℕ)
  | serve (turn : Turn)
  | reply (call : ℕ) (clock : ℤ) (answer : Answer)
  | fail (failure : Failure)
  | resume

namespace Exchange

def initial (maxRetries : ℤ) (sender : String)
    (body : Except String ConfirmInput) (server : Server) : Exchange where
  maxRetries := maxRetries
  sender := sender
  body := body
  client := .ready 0
  inTransit := []
  arrived := ∅
  server := server

def request (exchange : Exchange) : Request ConfirmInput :=
  ⟨"POST", exchange.body⟩

def step (exchange : Exchange) : Label → Option Exchange
  | .send =>
      match exchange.client with
      | .ready attempt =>
          if attempt ≤ exchange.maxRetries then
            some { exchange with
              client := .waiting attempt
              inTransit := attempt :: exchange.inTransit }
          else
            some { exchange with
              client := .thrown (.api { kind := .unknown }) }
      | _ => none
  | .arrive attempt =>
      if attempt ∈ exchange.inTransit then
        (exchange.server.step
            (.confirm exchange.sender exchange.request)).map fun server =>
          { exchange with
            inTransit := exchange.inTransit.erase attempt
            arrived :=
              exchange.arrived.insert exchange.server.nextCall attempt
            server := server }
      else none
  | .serve turn =>
      (exchange.server.step turn).map fun server =>
        { exchange with server := server }
  | .reply call clock answer =>
      match exchange.client with
      | .waiting attempt =>
          if exchange.arrived.lookup call = some attempt ∧
              .answered call clock answer ∈ exchange.server.history then
            some { exchange with
              client := settle exchange.maxRetries attempt
                (parseResponse answer) }
          else none
      | _ => none
  | .fail failure =>
      match exchange.client with
      | .waiting attempt =>
          some { exchange with
            client := settle exchange.maxRetries attempt failure.outcome }
      | _ => none
  | .resume =>
      match exchange.client with
      | .delaying attempt =>
          some { exchange with client := .ready (attempt + 1) }
      | _ => none

/-- After the client has reported a 4xx status, no attempt is authorized. -/
def Agrees (exchange : Exchange) : Prop :=
  ∀ exception statusCode,
    exchange.client = .thrown (.api exception) →
    exception.statusCode = some statusCode →
    400 ≤ statusCode → statusCode < 500 →
    ∀ call attempt, exchange.arrived.lookup call = some attempt →
    ∀ clock signature accountId requestId authorizedAt,
      .answered call clock
          (.authorized signature accountId requestId authorizedAt) ∉
        exchange.server.history

/-- The attempt behind the call has taken the challenge, and has been
authorized or may still be. -/
def Committed (exchange : Exchange) (call : ℕ) : Prop :=
  (exchange.arrived.lookup call).isSome ∧
    .taken call ∈ exchange.server.Live

/-- The attempt behind the call has been handled. -/
def Handled (exchange : Exchange) (call : ℕ) : Prop :=
  (exchange.arrived.lookup call).isSome ∧
    ∀ sender input,
      exchange.server.calls.lookup call ≠ some (.confirming sender input)

/-- An attempt is handled after another one only when no attempt has taken
the challenge and there is none left to take. -/
def Undisturbed (exchange : Exchange) : Label → Prop
  | .serve (.take call) =>
      ∀ sender input attempt,
        exchange.arrived.lookup call = some attempt →
        exchange.server.calls.lookup call =
          some (.confirming sender input) →
        (∀ other, ¬ exchange.Committed other) ∧
          ((∃ other, exchange.Handled other) →
            exchange.server.challenges.lookup input.requestId = none)
  | _ => True

end Exchange

/-! ## One step of the client -/

theorem retryOr_eq_thrown
    {maxRetries : ℤ} {attempt : ℕ} {exception thrown : ApiClientException}
    (hthrown : retryOr maxRetries attempt exception =
      .thrown (.api thrown)) :
    exception = thrown := by
  unfold retryOr at hthrown
  split_ifs at hthrown
  simpa using hthrown

/-- A status that the client reports is one that it was answered. -/
theorem settle_eq_thrown
    {maxRetries : ℤ} {attempt statusCode : ℕ} {outcome : Outcome}
    {exception : ApiClientException}
    (hthrown : settle maxRetries attempt outcome = .thrown (.api exception))
    (hstatus : exception.statusCode = some statusCode) :
    outcome = .exception exception := by
  cases outcome with
  | returns answer => simp [settle] at hthrown
  | exception answered =>
      simp only [settle] at hthrown
      split_ifs at hthrown
      · rw [retryOr_eq_thrown hthrown]
      · simpa using hthrown
  | timeout | socket | http | other =>
      rw [← retryOr_eq_thrown hthrown] at hstatus
      simp at hstatus
  | format => simp [settle] at hthrown

theorem parseResponse_eq_exception
    {answer : Answer} {exception : ApiClientException}
    (hparse : parseResponse answer = .exception exception) :
    ∃ payload, answer = .error payload := by
  cases answer with
  | error payload => exact ⟨payload, rfl⟩
  | challenge challenge => simp [parseResponse] at hparse
  | authorized signature accountId requestId authorizedAt =>
      simp [parseResponse] at hparse

theorem Failure.outcome_eq_exception
    {failure : Failure} {exception : ApiClientException} {statusCode : ℕ}
    (houtcome : failure.outcome = .exception exception)
    (hstatus : exception.statusCode = some statusCode) :
    500 ≤ statusCode := by
  cases failure with
  | gateway answered hserver =>
      obtain rfl := Outcome.exception.inj houtcome
      obtain rfl := Option.some.inj hstatus
      exact hserver
  | timeout | socket | http | format | other => cases houtcome

/-! ## One turn of the server -/

namespace Server

variable {server next : Server} {turn : Turn}

theorem Numbered.answered_unique
    {call : ℕ} {clock clock' : ℤ} {answer answer' : Answer}
    (hnumbered : server.Numbered)
    (hmem : .answered call clock answer ∈ server.history)
    (hmem' : .answered call clock' answer' ∈ server.history) :
    answer = answer' := by
  have hsymm : Std.Symm fun event later : Event => ¬ event.Repeats later := by
    constructor
    intro event later hnot
    cases event <;> cases later <;> simp_all [Event.Repeats, eq_comm]
  by_contra hne
  apply hnumbered.once.forall hmem hmem'
  · simp [hne]
  · rfl

theorem Moves.holds_taken
    {call : ℕ} {challenge : SignatureChallenge}
    (hmoves : server.Moves turn next)
    (hholds : next.Holds (.taken call) challenge) :
    .taken call ∈ server.Live ∨
      ∃ sender input challenge, turn = .take call ∧
        server.calls.lookup call = some (.confirming sender input) ∧
        server.challenges.lookup input.requestId = some challenge := by
  obtain ⟨sender, input, hlookup⟩ := hholds
  cases hmoves with
  | refusedChallenge hnew | refusedConfirm hparse =>
      exact Or.inl (Or.inl ⟨challenge, sender, input, hlookup⟩)
  | challenge hnew | confirm hparse =>
      refine Or.inl (Or.inl ⟨challenge, sender, input, ?_⟩)
      grind [Server.enter, KeyedMap.lookup_insert_eq]
  | store hstage =>
      refine Or.inl (Or.inl ⟨challenge, sender, input, ?_⟩)
      grind [Server.store, KeyedMap.lookup_insert_eq]
  | respond hstage | check hstage =>
      refine Or.inl (Or.inl ⟨challenge, sender, input, ?_⟩)
      grind [Server.answer, KeyedMap.lookup_erase_eq]
  | @take taker sender' input' hstage =>
      simp only [Server.take, KeyedMap.lookup_insert_eq] at hlookup
      split_ifs at hlookup with htaker
      · subst htaker
        simp only [Option.some.injEq, Stage.taken.injEq] at hlookup
        exact Or.inr ⟨sender', input', challenge, rfl, hstage, hlookup.2.2⟩
      · exact Or.inl (Or.inl ⟨challenge, sender, input, hlookup⟩)

/-- Only a confirm that holds a challenge comes to be authorized. -/
theorem Moves.authorized_taken
    {call : ℕ} (hmoves : server.Moves turn next)
    (hauthorized : next.Authorized (.taken call)) :
    .taken call ∈ server.Live := by
  obtain ⟨other, clock, signature, accountId, requestId, authorizedAt, hsame,
    hmem⟩ := hauthorized
  obtain rfl := Place.taken.inj hsame
  have hold : ∀ {authorized : Event},
      authorized = .answered call clock
        (.authorized signature accountId requestId authorizedAt) →
      authorized ∈ server.history → .taken call ∈ server.Live := by
    rintro _ rfl hmem
    exact Or.inr ⟨call, clock, signature, accountId, requestId,
      authorizedAt, rfl, hmem⟩
  cases hmoves with
  | refusedChallenge hnew | refusedConfirm hparse =>
      exact hold rfl (by simpa [Server.refuse] using hmem)
  | challenge hnew | confirm hparse =>
      exact hold rfl (by simpa [Server.enter] using hmem)
  | store hstage => exact hold rfl (by simpa [Server.store] using hmem)
  | respond hstage => exact hold rfl (by simpa [Server.answer] using hmem)
  | take hstage => exact hold rfl hmem
  | @check checked now instant sender input found hstage =>
      simp only [Server.answer, List.mem_append, List.mem_singleton,
        Event.answered.injEq] at hmem
      rcases hmem with hmem | ⟨rfl, rfl, hanswer⟩
      · exact hold rfl hmem
      · obtain ⟨⟨challenge, rfl, -⟩, -⟩ :=
          checkConfirm_eq_authorized.mp hanswer.symm
        exact Or.inl ⟨challenge, sender, input, hstage⟩

/-- A confirm comes to hold a challenge, or to be authorized, only from its
own section. -/
theorem Moves.live_taken
    {call : ℕ}
    (hmoves : server.Moves turn next) (hlive : .taken call ∈ next.Live) :
    .taken call ∈ server.Live ∨
      ∃ sender input challenge, turn = .take call ∧
        server.calls.lookup call = some (.confirming sender input) ∧
        server.challenges.lookup input.requestId = some challenge := by
  rcases hlive with ⟨challenge, hholds⟩ | hauthorized
  · exact hmoves.holds_taken hholds
  · exact Or.inl (hmoves.authorized_taken hauthorized)

theorem Moves.history_subset (hmoves : server.Moves turn next) :
    server.history ⊆ next.history := by
  cases hmoves with
  | take hstage => exact List.Subset.refl _
  | _ => exact List.subset_append_left _ _

theorem Moves.confirming
    {call : ℕ} {sender : String} {input : ConfirmInput}
    (hmoves : server.Moves turn next) (hnumbered : server.Numbered)
    (hcall : server.calls.lookup call = some (.confirming sender input))
    (hturn : turn ≠ .take call) :
    next.calls.lookup call = some (.confirming sender input) := by
  have hlt := hnumbered.call_lt
  cases hmoves with
  | refusedChallenge hnew | refusedConfirm hparse => exact hcall
  | challenge hnew | confirm hparse =>
      grind [Server.enter, KeyedMap.lookup_insert_eq]
  | store hstage => grind [Server.store, KeyedMap.lookup_insert_eq]
  | respond hstage | check hstage =>
      grind [Server.answer, KeyedMap.lookup_erase_eq]
  | take hstage => grind [Server.take, KeyedMap.lookup_insert_eq]

end Server

/-! ## Runs -/

namespace Exchange

variable {exchange next : Exchange}

/-- While one attempt has taken the challenge, every other one that has
arrived still waits for its section. -/
structure Consistent (exchange : Exchange) : Prop where
  numbered : exchange.server.Numbered
  recorded : exchange.server.Recorded
  received : ∀ call attempt,
    exchange.arrived.lookup call = some attempt →
    .received call exchange.sender exchange.request ∈
      exchange.server.history
  alone : ∀ call other attempt, exchange.Committed call →
    exchange.arrived.lookup other = some attempt → other ≠ call →
    ∃ sender input,
      exchange.server.calls.lookup other = some (.confirming sender input)
  parsed : ∀ call, exchange.Committed call →
    ∃ input, parseConfirm exchange.request = .ok input
  refused : ∀ exception statusCode,
    exchange.client = .thrown (.api exception) →
    exception.statusCode = some statusCode → statusCode < 500 →
    ∃ call attempt clock payload,
      exchange.arrived.lookup call = some attempt ∧
      .answered call clock (.error payload) ∈ exchange.server.history

theorem initial_consistent
    (maxRetries challengeTTL clock : ℤ) (sender : String)
    (body : Except String ConfirmInput) :
    (initial maxRetries sender body
      (.initial challengeTTL clock)).Consistent where
  numbered := Server.initial_numbered challengeTTL clock
  recorded := Server.initial_recorded challengeTTL clock
  received := by simp [initial]
  alone := by simp [initial]
  parsed := by simp [initial, Committed]
  refused := by simp [initial]

theorem Consistent.agrees
    (hconsistent : exchange.Consistent) : exchange.Agrees := by
  intro exception statusCode hclient hstatus _ hlt call attempt harrived clock
    signature accountId requestId authorizedAt hauthorized
  obtain ⟨refused, attempt', clock', payload, harrived', hanswered⟩ :=
    hconsistent.refused exception statusCode hclient hstatus hlt
  by_cases hsame : refused = call
  · subst hsame
    have hanswer :=
      hconsistent.numbered.answered_unique hanswered hauthorized
    cases hanswer
  · have hcommitted : exchange.Committed call :=
      ⟨by rw [harrived]; rfl, Or.inr ⟨call, clock, signature, accountId,
        requestId, authorizedAt, rfl, hauthorized⟩⟩
    obtain ⟨sender, input, hstage⟩ :=
      hconsistent.alone call refused attempt' hcommitted harrived' hsame
    exact hconsistent.numbered.not_answered _ _ _ _ hstage hanswered

/-- A turn of the client alone: a status that it reports comes from an answer
to an attempt. -/
theorem Consistent.withClient
    (hconsistent : exchange.Consistent) (client : Client)
    (inTransit : List ℕ)
    (hrefused : ∀ exception statusCode,
      client = .thrown (.api exception) →
      exception.statusCode = some statusCode → statusCode < 500 →
      ∃ call attempt clock payload,
        exchange.arrived.lookup call = some attempt ∧
        .answered call clock (.error payload) ∈ exchange.server.history) :
    ({ exchange with client := client, inTransit := inTransit } :
      Exchange).Consistent :=
  ⟨hconsistent.numbered, hconsistent.recorded, hconsistent.received,
    hconsistent.alone, hconsistent.parsed, hrefused⟩

/-- Only the section of an attempt that finds a challenge commits it. -/
theorem committed_of_moves
    {turn : Turn} {server : Server} {call : ℕ}
    (hmoves : exchange.server.Moves turn server)
    (hnext : ({ exchange with server := server } : Exchange).Committed call) :
    exchange.Committed call ∨
      ∃ sender input challenge, turn = .take call ∧
        exchange.server.calls.lookup call =
          some (.confirming sender input) ∧
        exchange.server.challenges.lookup input.requestId =
          some challenge := by
  obtain ⟨harrived, hlive⟩ := hnext
  rcases hmoves.live_taken hlive with hold | htakes
  · exact Or.inl ⟨harrived, hold⟩
  · exact Or.inr htakes

/-- The attempt that finds the challenge is the first one to be handled. -/
theorem Undisturbed.waiting
    {call other attempt attempt' : ℕ} {sender : String}
    {input : ConfirmInput} {challenge : SignatureChallenge}
    (hundisturbed : exchange.Undisturbed (.serve (.take call)))
    (harrived : exchange.arrived.lookup call = some attempt)
    (hstage : exchange.server.calls.lookup call =
      some (.confirming sender input))
    (hheld : exchange.server.challenges.lookup input.requestId =
      some challenge)
    (hother : exchange.arrived.lookup other = some attempt') :
    ∃ sender input,
      exchange.server.calls.lookup other =
        some (.confirming sender input) := by
  by_contra hnot
  push Not at hnot
  have hhandled : exchange.Handled other :=
    ⟨Option.isSome_iff_exists.mpr ⟨attempt', hother⟩, hnot⟩
  have hnone :=
    (hundisturbed sender input attempt harrived hstage).2 ⟨other, hhandled⟩
  rw [hheld] at hnone
  cases hnone

theorem Consistent.serve
    {turn : Turn} {server : Server}
    (hconsistent : exchange.Consistent)
    (hundisturbed : exchange.Undisturbed (.serve turn))
    (hmoves : exchange.server.Moves turn server) :
    ({ exchange with server := server } : Exchange).Consistent := by
  have hnumbered := hconsistent.numbered
  have hhistory := hmoves.history_subset
  constructor
  · exact hnumbered.moves hmoves
  · exact hconsistent.recorded.moves hnumbered hmoves
  · intro call attempt harrived
    exact hhistory (hconsistent.received call attempt harrived)
  · intro call other attempt hnext harrived hne
    rcases committed_of_moves hmoves hnext with hold |
      ⟨sender, input, challenge, rfl, hstage, hheld⟩
    · obtain ⟨sender, input, hstage⟩ :=
        hconsistent.alone call other attempt hold harrived hne
      refine ⟨sender, input, hmoves.confirming hnumbered hstage ?_⟩
      rintro rfl
      exact (hundisturbed sender input attempt harrived hstage).1 call hold
    · obtain ⟨attempt', harrived'⟩ := Option.isSome_iff_exists.mp hnext.1
      obtain ⟨sender', input', hother⟩ :=
        hundisturbed.waiting harrived' hstage hheld harrived
      refine ⟨sender', input', hmoves.confirming hnumbered hother ?_⟩
      simpa using hne.symm
  · intro call hnext
    rcases committed_of_moves hmoves hnext with hold |
      ⟨sender, input, challenge, rfl, hstage, -⟩
    · exact hconsistent.parsed call hold
    · obtain ⟨attempt, harrived⟩ := Option.isSome_iff_exists.mp hnext.1
      obtain ⟨input', hparse, -⟩ := hconsistent.recorded.stage_of_received
        _ _ _ _ (hconsistent.received call attempt harrived) hstage
      exact ⟨input', hparse⟩
  · intro exception statusCode hclient hstatus hlt
    obtain ⟨call, attempt, clock, payload, harrived, hanswered⟩ :=
      hconsistent.refused exception statusCode hclient hstatus hlt
    exact ⟨call, attempt, clock, payload, harrived, hhistory hanswered⟩

/-- A call that has not taken anything is that of one more attempt. -/
theorem Consistent.withArrived
    {call attempt : ℕ}
    (hconsistent : exchange.Consistent) (inTransit : List ℕ)
    (hreceived : .received call exchange.sender exchange.request ∈
      exchange.server.history)
    (hfresh : .taken call ∉ exchange.server.Live)
    (hstage : ∀ input, parseConfirm exchange.request = .ok input →
      ∃ sender input,
        exchange.server.calls.lookup call =
          some (.confirming sender input)) :
    ({ exchange with
      inTransit := inTransit
      arrived := exchange.arrived.insert call attempt } :
      Exchange).Consistent := by
  have hcommitted : ∀ other,
      ({ exchange with
        inTransit := inTransit
        arrived := exchange.arrived.insert call attempt } :
        Exchange).Committed other →
      exchange.Committed other := by
    rintro other ⟨harrived, hlive⟩
    have hne : other ≠ call := by
      rintro rfl
      exact hfresh hlive
    rw [AList.lookup_insert_ne hne] at harrived
    exact ⟨harrived, hlive⟩
  constructor
  · exact hconsistent.numbered
  · exact hconsistent.recorded
  · intro other attempt' harrived
    by_cases hne : other = call
    · subst hne
      exact hreceived
    · rw [AList.lookup_insert_ne hne] at harrived
      exact hconsistent.received other attempt' harrived
  · intro committed other attempt' hnext harrived hne
    have hold := hcommitted committed hnext
    by_cases hother : other = call
    · subst hother
      obtain ⟨input, hparse⟩ := hconsistent.parsed committed hold
      exact hstage input hparse
    · rw [AList.lookup_insert_ne hother] at harrived
      exact hconsistent.alone committed other attempt' hold harrived hne
  · intro committed hnext
    exact hconsistent.parsed committed (hcommitted committed hnext)
  · intro exception statusCode hclient hstatus hlt
    obtain ⟨refused, attempt', clock, payload, harrived, hanswered⟩ :=
      hconsistent.refused exception statusCode hclient hstatus hlt
    by_cases hne : refused = call
    · exact ⟨refused, attempt, clock, payload, by rw [hne]; simp, hanswered⟩
    · exact ⟨refused, attempt', clock, payload,
        by rwa [AList.lookup_insert_ne hne], hanswered⟩

theorem Consistent.arrive
    {attempt : ℕ} {server : Server}
    (hconsistent : exchange.Consistent)
    (hmoves : exchange.server.Moves
      (.confirm exchange.sender exchange.request) server) :
    ({ exchange with
      inTransit := exchange.inTransit.erase attempt
      arrived := exchange.arrived.insert exchange.server.nextCall attempt
      server := server } : Exchange).Consistent := by
  have hundisturbed : exchange.Undisturbed
      (.serve (.confirm exchange.sender exchange.request)) := trivial
  have hserved := hconsistent.serve hundisturbed hmoves
  have hfresh : .taken exchange.server.nextCall ∉ server.Live := by
    intro hlive
    rcases hmoves.live_taken hlive with hold | ⟨_, _, _, hturn, -⟩
    · rcases hold with ⟨challenge, sender, input, hlookup⟩ |
        ⟨call, _, _, _, _, _, hsame, hmem⟩
      · exact absurd (hconsistent.numbered.call_lt _ _ hlookup)
          (lt_irrefl _)
      · obtain rfl := Place.taken.inj hsame
        exact absurd (hconsistent.numbered.event_lt _ hmem) (lt_irrefl _)
    · cases hturn
  apply hserved.withArrived (exchange.inTransit.erase attempt)
  · cases hmoves <;> simp [Server.refuse, Server.enter, request]
  · exact hfresh
  · intro input hparse
    cases hmoves with
    | refusedConfirm herror =>
        cases herror.symm.trans hparse
    | confirm hok =>
        exact ⟨exchange.sender, _, AList.lookup_insert _⟩

theorem Consistent.step
    {label : Label}
    (hconsistent : exchange.Consistent)
    (hundisturbed : exchange.Undisturbed label)
    (hstep : exchange.step label = some next) : next.Consistent := by
  cases label with
  | send =>
      simp only [Exchange.step] at hstep
      split at hstep
      · split_ifs at hstep
        · obtain rfl := Option.some.inj hstep
          exact hconsistent.withClient _ _ (by simp)
        · obtain rfl := Option.some.inj hstep
          apply hconsistent.withClient
          intro exception statusCode hclient hstatus
          simp only [Client.thrown.injEq, Thrown.api.injEq] at hclient
          rw [← hclient] at hstatus
          cases hstatus
      · cases hstep
  | arrive attempt =>
      simp only [Exchange.step] at hstep
      split_ifs at hstep
      obtain ⟨server, hserver, rfl⟩ := Option.map_eq_some_iff.mp hstep
      exact hconsistent.arrive (Server.moves_of_step hserver)
  | serve turn =>
      simp only [Exchange.step] at hstep
      obtain ⟨server, hserver, rfl⟩ := Option.map_eq_some_iff.mp hstep
      exact hconsistent.serve hundisturbed (Server.moves_of_step hserver)
  | reply call clock answer =>
      simp only [Exchange.step] at hstep
      split at hstep
      next attempt hclient =>
        split_ifs at hstep with hanswered
        obtain rfl := Option.some.inj hstep
        apply hconsistent.withClient
        intro exception statusCode hthrown hstatus hlt
        have houtcome := settle_eq_thrown hthrown hstatus
        obtain ⟨payload, rfl⟩ := parseResponse_eq_exception houtcome
        exact ⟨call, attempt, clock, payload, hanswered⟩
      next => cases hstep
  | fail failure =>
      simp only [Exchange.step] at hstep
      split at hstep
      next attempt hclient =>
        obtain rfl := Option.some.inj hstep
        apply hconsistent.withClient
        intro exception statusCode hthrown hstatus hlt
        have hserver := failure.outcome_eq_exception
          (settle_eq_thrown hthrown hstatus) hstatus
        omega
      next => cases hstep
  | resume =>
      simp only [Exchange.step] at hstep
      split at hstep
      · obtain rfl := Option.some.inj hstep
        exact hconsistent.withClient _ _ (by simp)
      · cases hstep

end Exchange

/-- In a run in which no attempt is handled once another has taken the
challenge, a 4xx status that the client reports means that no attempt is
authorized. -/
theorem client_agrees_of_undisturbed_run
    {maxRetries challengeTTL clock : ℤ} {sender : String}
    {body : Except String ConfirmInput} {labels : List Label}
    {exchange : Exchange}
    (hundisturbed : Guarded Exchange.step Exchange.Undisturbed
      (.initial maxRetries sender body (.initial challengeTTL clock)) labels)
    (hvisit : Visits Exchange.step
      (.initial maxRetries sender body (.initial challengeTTL clock)) labels
      exchange) :
    exchange.Agrees := by
  have hconsistent : exchange.Consistent :=
    hundisturbed.invariant_of_visits Exchange.Consistent
      (fun _ _ _ hconsistent hguard hstep =>
        hconsistent.step hguard hstep)
      (Exchange.initial_consistent maxRetries challengeTTL clock sender body)
      hvisit
  exact hconsistent.agrees

/-- The first attempt that the server handles disturbs nothing. -/
theorem Exchange.undisturbed_of_unhandled
    {exchange : Exchange} {call : ℕ}
    (hunhandled : ∀ other, ¬ exchange.Handled other)
    (hunauthorized : ∀ place, ¬ exchange.server.Authorized place) :
    exchange.Undisturbed (.serve (.take call)) := by
  intro sender input attempt _ _
  refine ⟨?_, fun ⟨other, hhandled⟩ => absurd hhandled (hunhandled other)⟩
  rintro other ⟨harrived, ⟨challenge, sender', input', hlookup⟩ |
    hauthorized⟩
  · refine hunhandled other ⟨harrived, ?_⟩
    intro sender'' input'' hstage
    rw [hstage] at hlookup
    cases hlookup
  · exact hunauthorized _ hauthorized

def aliceChallenged : List Label :=
  [.serve (.challenge 7 (post ⟨"alice"⟩)), .serve (.store 0),
    .serve (.respond 0)]

def aliceShortChallenge : SignatureChallenge :=
  { aliceChallenge with expiresAt := 8 }

def challengeExpired : ApiError :=
  writeApiError 401 .unauthorized "challenge expired" false

/-- The first attempt is lost on its way, and the second one arrives after
the challenge has expired. -/
def firstAttemptLost : List Label :=
  aliceChallenged ++
    [.send, .fail .timeout, .resume, .send, .arrive 1, .serve (.take 1),
      .serve (.check 1 9 9), .reply 1 9 (.error challengeExpired)]

theorem client_agrees_in_firstAttemptLost :
    ∃ exchange,
      exec Exchange.step
        (.initial 1 "alice" aliceSigns.body (.initial 1 0))
        firstAttemptLost = some exchange ∧
      exchange.client = .thrown (.api
        { kind := .unauthorized
          statusCode := some 401
          code := some .unauthorized
          message := some "challenge expired" }) ∧
      exchange.Agrees := by
  refine ⟨_, rfl, rfl, ?_⟩
  apply client_agrees_of_undisturbed_run
  · show Guarded Exchange.step Exchange.Undisturbed
      (.initial 1 "alice" aliceSigns.body (.initial 1 0)) firstAttemptLost
    refine ⟨trivial, trivial, trivial, trivial, trivial, trivial, trivial,
      trivial, ?_, trivial, trivial, trivial⟩
    apply Exchange.undisturbed_of_unhandled
    · rintro other ⟨harrived, hstage⟩
      have hone : ((∅ : KeyedMap ℕ ℕ).insert 1 1).lookup other ≠ none :=
        Option.isSome_iff_ne_none.mp harrived
      have hother : other = 1 := by
        by_contra hne
        rw [AList.lookup_insert_ne hne] at hone
        exact hone rfl
      subst hother
      exact hstage "alice" _ rfl
    · rintro place ⟨call, clock, signature, accountId, requestId,
        authorizedAt, rfl, hmem⟩
      have hhistory : Event.answered call clock
          (.authorized signature accountId requestId authorizedAt) ∈
          [Event.requested 0 (post ⟨"alice"⟩), .issued 0 aliceShortChallenge,
            .answered 0 7 (.challenge aliceShortChallenge),
            .received 1 "alice" aliceSigns] := hmem
      simp at hhistory
  · exact ⟨firstAttemptLost, List.prefix_rfl, rfl⟩

def challengeNotFound : ApiError :=
  writeApiError 404 .notFound "challenge not found" false

/-- The first attempt is authorized, and its answer is lost. -/
def firstAnswerLost : List Label :=
  aliceChallenged ++
    [.send, .arrive 0, .serve (.take 1), .serve (.check 1 8 8),
      .fail .timeout, .resume, .send, .arrive 1, .serve (.take 2),
      .serve (.check 2 9 9), .reply 2 9 (.error challengeNotFound)]

theorem client_disagrees_after_lost_answer :
    ¬ ∀ maxRetries sender body challengeTTL clock labels exchange,
      exec Exchange.step
        (.initial maxRetries sender body (.initial challengeTTL clock))
        labels = some exchange → exchange.Agrees := by
  intro hall
  obtain ⟨exchange, hrun, hclient, harrived, hauthorized⟩ : ∃ exchange,
      exec Exchange.step
        (.initial 1 "alice" aliceSigns.body (.initial 300 0))
        firstAnswerLost = some exchange ∧
      exchange.client = .thrown (.api
        { kind := .notFound
          statusCode := some 404
          code := some .notFound
          message := some "challenge not found" }) ∧
      exchange.arrived.lookup 1 = some 0 ∧
      .answered 1 8 (.authorized "req_7.alice.signature" "alice" "req_7" 8) ∈
        exchange.server.history :=
    ⟨_, rfl, rfl, rfl, by decide⟩
  exact hall 1 "alice" aliceSigns.body 300 0 firstAnswerLost exchange hrun
    _ 404 hclient rfl (by decide) (by decide) 1 0 harrived _ _ _ _ _
    hauthorized

end SoulonWallet.Api
