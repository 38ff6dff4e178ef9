import SoulonWallet.RequestLifecycle

/-!
# The timeouts of a request

The timer of an attempt aborts its controller with the text `timeout`, and
what it ends rejects with this text.  The `catch` of the loop asks for a
`DOMException` with the name `AbortError`, so a `fetch` that the timer ends is
a network error there.  The reads of the bodies have a `catch` of their own
each, and neither of them looks at what it has caught.  No attempt that the
timer ends is reported as timed out.
-/

namespace SoulonWallet.WalletApp

/-- The client's own timer ends the `fetch` or the read of the body. -/
def Exchange.EndedByTimer : Exchange → Prop
  | .timerFires => True
  | .responds _ .timerFires => True
  | _ => False

/-- The event attributes its attempt to a timeout. -/
def RequestLifecycleEvent.NamesTimeout (event : RequestLifecycleEvent) :
    Prop :=
  (event.stage = .retry ∨ event.stage = .failure) ∧
    ∃ attribution ∈ event.attribution,
      attribution.code = some .timeout ∧
        attribution.reason = "request_timeout"

/-- The event of the attempt names a timeout, and so does the error of a call
that ends with it.  The event of an attempt stands behind that of the start
and those of the attempts before it. -/
def ReportsTimeout (run : RequestRun) (attempt : ℕ) : Prop :=
  (∃ event ∈ run.events[attempt + 1]?, event.NamesTimeout) ∧
    (run.fetches = attempt + 1 →
      ∀ error, run.ending = some (.error error) → error.code = .timeout)

def TimeoutsReported (numberText : Binary64 → Utf16) (request : Request)
    (attempts : ℕ → Attempt) : Prop :=
  ∀ turns attempt,
    let run := request.run numberText attempts turns
    attempt < run.fetches → (attempts attempt).exchange.EndedByTimer →
      ReportsTimeout run attempt

namespace Request

/-- The attempt is made: it is within the retry count, and every attempt
before it is retried. -/
def Reached (request : Request) (attempts : ℕ → Attempt) (attempt : ℕ) :
    Prop :=
  request.mayAttempt attempt ∧
    ∀ earlier < attempt, request.Retried attempts earlier

variable {numberText : Binary64 → Utf16} {request : Request}
variable {attempts : ℕ → Attempt}

/-! ## The attempts of a run -/

theorem reached_of_lt_loop_fetches
    {turns attempt index : ℕ}
    (hmade : index <
      (request.loop numberText attempts turns attempt).fetches) :
    request.mayAttempt (attempt + index) ∧
      ∀ earlier < index, request.Retried attempts (attempt + earlier) := by
  induction turns generalizing attempt index with
  | zero => simp [loop, apply_ite RequestRun.fetches] at hmade
  | succ turns ih =>
      rcases loop_cases numberText attempts request turns attempt with
        ⟨-, hover⟩ | ⟨hretried, status, attribution, hloop⟩ |
          ⟨hfinal, event, ending, -, hlast⟩
      · simp [hover] at hmade
      · rw [hloop] at hmade
        cases index with
        | zero =>
            exact ⟨mayAttempt_of_hasRetriesLeft hretried.2, by simp⟩
        | succ index =>
            have hlater := ih (Nat.lt_of_succ_lt_succ hmade)
            have hshift : ∀ offset,
                attempt + 1 + offset = attempt + (offset + 1) := by
              omega
            simp only [hshift] at hlater
            refine ⟨hlater.1, ?_⟩
            intro earlier hearlier
            cases earlier with
            | zero => exact hretried
            | succ earlier =>
                exact hlater.2 earlier (Nat.lt_of_succ_lt_succ hearlier)
      · rw [hlast] at hmade
        obtain rfl : index = 0 := Nat.lt_one_iff.mp hmade
        exact ⟨hfinal.1, by simp⟩

theorem reached_of_lt_run_fetches
    {turns attempt : ℕ}
    (hmade : attempt < (request.run numberText attempts turns).fetches) :
    request.Reached attempts attempt := by
  have hreached : request.mayAttempt (0 + attempt) ∧
      ∀ earlier < attempt, request.Retried attempts (0 + earlier) :=
    reached_of_lt_loop_fetches hmade
  simpa [Reached] using hreached

/-- The event of a turn is the first one of the loop from there on. -/
theorem loop_events_of_mayAttempt
    (numberText : Binary64 → Utf16) (attempts : ℕ → Attempt)
    {attempt : ℕ} (turns : ℕ) (hmay : request.mayAttempt attempt) :
    let run := request.loop numberText attempts (turns + 1) attempt
    ∃ rest,
      run.events =
        (request.turn numberText attempt (attempts attempt)).events ++ rest ∧
      0 < run.fetches := by
  cases hexit : (request.turn numberText attempt (attempts attempt)).exit with
  | continues => simp [loop, hmay, hexit, RequestRun.after]
  | returns data => simp [loop, hmay, hexit, Block.last]
  | throws error => simp [loop, hmay, hexit, Block.last]

theorem run_event_of_reached
    {attempt : ℕ} {event : RequestLifecycleEvent}
    (hreached : request.Reached attempts attempt)
    (hturn : (request.turn numberText attempt (attempts attempt)).events =
      [event]) :
    let run := request.run numberText attempts (attempt + 1)
    run.events[attempt + 1]? = some event ∧ attempt < run.fetches := by
  have hretried : ∀ index < attempt,
      request.Retried attempts (0 + index) := by
    simpa using hreached.2
  obtain ⟨retries, sleeps, -, hcounts, hloop⟩ :=
    loop_of_all_retried numberText attempt hretried
  obtain ⟨rest, hevents, hfetches⟩ :=
    loop_events_of_mayAttempt numberText attempts 0 hreached.1
  have hlength : retries.length = attempt := by
    have hmap := congrArg List.length hcounts
    simpa using hmap
  have hplace : (request.startEvent :: (retries ++ event :: rest))[
      attempt + 1]? = some event := by
    simp [← hlength]
  simp only [Nat.zero_add] at hloop hevents hfetches
  simp only [run, hloop, hevents, hturn]
  exact ⟨hplace, by omega⟩

/-! ## What the turn of such an attempt reports -/

/-- A turn with one event, whose attribution has the given reason. -/
def Reports (block : Block ApiClientError) (reason : String) : Prop :=
  ∃ event attribution,
    block.events = [event] ∧ event.attribution = some attribution ∧
      attribution.reason = reason

theorem reports_retry
    (attempt : ℕ) (now : ℤ) (status : Option ℕ)
    (attribution : RequestErrorAttribution) :
    Reports (request.retry attempt now status attribution)
      attribution.reason :=
  ⟨_, attribution, rfl, rfl, rfl⟩

theorem reports_fail
    (attempt : ℕ) (now : ℤ) (status : Option ℕ)
    (attribution : RequestErrorAttribution) (error : ApiClientError) :
    Reports (request.fail attempt now status attribution error)
      attribution.reason :=
  ⟨_, attribution, rfl, rfl, rfl⟩

/-- A `fetch` that the timer ends is reported as a network error. -/
theorem turn_of_fetch_timer
    {met : Attempt} (attempt : ℕ) (htimer : met.exchange = .timerFires) :
    Reports (request.turn numberText attempt met) "network_exception" := by
  have hfetch : met.exchange.fetch = .error abortReason := by
    rw [htimer]
    rfl
  have hcatch : request.catchBlock numberText attempt met.now
      (.reason abortReason) =
        request.transportBlock attempt met.now "network_exception"
          (networkError abortReason) :=
    rfl
  rw [turn_of_rejected hfetch, hcatch]
  by_cases hleft : request.hasRetriesLeft attempt
  · rw [transportBlock_eq_retry _ _ _ hleft]
    exact reports_retry _ _ _ _
  · rw [transportBlock_eq_fail _ _ _ hleft]
    exact reports_fail _ _ _ _ _

/-- A body of an accepted response whose read the timer ends is reported as
unreadable. -/
theorem turn_of_body_timer
    {met : Attempt} (attempt : ℕ) {status : ℕ}
    (htimer : met.exchange = .responds status .timerFires)
    (haccepted : (Response.mk status .timerFires).isOk) :
    Reports (request.turn numberText attempt met)
      "response_json_parse_failed" := by
  have hfetch : met.exchange.fetch = .ok ⟨status, .timerFires⟩ := by
    rw [htimer]
    rfl
  rw [turn_of_accepted hfetch haccepted]
  simp only [readBody, BodyRead.result]
  rw [fail_catching]
  exact reports_fail _ _ _ _ _

/-- A body of a refused response whose read the timer ends is reported with
the status of the response. -/
theorem turn_of_refused_body_timer
    (numberText : Binary64 → Utf16) (request : Request)
    {met : Attempt} (attempt : ℕ) {status : ℕ}
    (htimer : met.exchange = .responds status .timerFires)
    (hrefused : (Response.mk status .timerFires).isOk = false) :
    Reports (request.turn numberText attempt met) "retryable_http_status" ∨
      Reports (request.turn numberText attempt met) "http_status_not_ok" := by
  have hfetch : met.exchange.fetch = .ok ⟨status, .timerFires⟩ := by
    rw [htimer]
    rfl
  rw [turn_of_refused hfetch hrefused]
  cases hretried : (responseError ⟨status, .timerFires⟩).retryable &&
      request.hasRetriesLeft attempt with
  | true =>
      obtain ⟨attribution, hreason, hblock⟩ :=
        rejectStatus_eq_retry met.now hretried
      rw [hblock, ← hreason]
      exact .inl (reports_retry _ _ _ _)
  | false =>
      obtain ⟨attribution, hreason, -, hblock⟩ :=
        rejectStatus_eq_fail met.now hretried
      rw [hblock, fail_catching, ← hreason]
      exact .inr (reports_fail _ _ _ _ _)

theorem exists_reports_of_timer
    (numberText : Binary64 → Utf16) (request : Request)
    {met : Attempt} (attempt : ℕ) (htimer : met.exchange.EndedByTimer) :
    ∃ reason, reason ≠ "request_timeout" ∧
      Reports (request.turn numberText attempt met) reason := by
  cases hexchange : met.exchange with
  | rejects reason =>
      rw [hexchange] at htimer
      exact htimer.elim
  | timerFires =>
      exact ⟨_, by decide, turn_of_fetch_timer attempt hexchange⟩
  | responds status body =>
      rw [hexchange] at htimer
      cases body with
      | json data => exact htimer.elim
      | rejects reason => exact htimer.elim
      | timerFires =>
          cases hok : (Response.mk status .timerFires).isOk with
          | true =>
              exact ⟨_, by decide, turn_of_body_timer attempt hexchange hok⟩
          | false =>
              rcases turn_of_refused_body_timer numberText request attempt
                hexchange hok with hretry | hfail
              · exact ⟨_, by decide, hretry⟩
              · exact ⟨_, by decide, hfail⟩

end Request

theorem not_timeoutsReported_of_timer
    {numberText : Binary64 → Utf16} {request : Request}
    {attempts : ℕ → Attempt} {attempt : ℕ}
    (hreached : request.Reached attempts attempt)
    (htimer : (attempts attempt).exchange.EndedByTimer) :
    ¬ TimeoutsReported numberText request attempts := by
  intro hreported
  obtain ⟨reason, hreason, event, attribution, hevents, hattribution, rfl⟩ :=
    Request.exists_reports_of_timer numberText request attempt htimer
  obtain ⟨hplace, hmade⟩ := Request.run_event_of_reached hreached hevents
  obtain ⟨⟨named, hnamed, -, found, hfound, -, htimeout⟩, -⟩ :=
    hreported (attempt + 1) attempt hmade htimer
  rw [hplace] at hnamed
  cases hnamed
  rw [hattribution] at hfound
  cases hfound
  exact hreason htimeout

theorem timeoutsReported_iff
    (numberText : Binary64 → Utf16) (request : Request)
    (attempts : ℕ → Attempt) :
    TimeoutsReported numberText request attempts ↔
      ∀ attempt, request.Reached attempts attempt →
        ¬ (attempts attempt).exchange.EndedByTimer := by
  constructor
  · intro hreported attempt hreached htimer
    exact not_timeoutsReported_of_timer hreached htimer hreported
  · intro hnone turns attempt run hmade htimer
    have hreached := Request.reached_of_lt_run_fetches hmade
    exact absurd htimer (hnone attempt hreached)

def singleClient : ApiClient where
  timeoutMs := .finite 5000
  retryCount := .finite 0

/-- A server that does not answer until the timer fires. -/
def silent : ℕ → Attempt := fun _ =>
  { exchange := .timerFires, now := 5000 }

theorem timeout_reported_as_network :
    let request := singleClient.prepare healthPrepared "/v1/health" {}
    let run := request.run (fun _ => "5000") silent 1
    (∃ event ∈ run.events[1]?,
      event.attribution =
        some (transportAttribution "network_exception" .network)) ∧
      run.ending =
        some (.error
          { code := .network, message := "网络异常", retryable := true }) ∧
      ¬ TimeoutsReported (fun _ => "5000") request silent := by
  intro request run
  have hmay : request.mayAttempt 0 = true := by
    simp [request, Request.mayAttempt, ApiClient.prepare, singleClient,
      Binary64.ge]
  have hlast : ¬ request.hasRetriesLeft 0 := by
    simp [request, Request.hasRetriesLeft, ApiClient.prepare, singleClient,
      Binary64.lt, Binary64.ge]
  have hturn : request.turn (fun _ => "5000") 0 (silent 0) =
      request.fail 0 5000 none
        (transportAttribution "network_exception" .network)
        (networkError abortReason) := by
    rw [Request.turn_of_rejected rfl]
    exact Request.transportBlock_eq_fail _ _ _ hlast
  have hrun : run =
      { events :=
          [request.startEvent,
            request.event .failure 0 (request.elapsed 5000) none
              (some (transportAttribution "network_exception" .network))]
        sleeps := []
        fetches := 1
        ending := some (.error (networkError abortReason)) } := by
    simp [run, Request.run, Request.loop, hmay, hturn, Request.fail,
      Block.last]
  have hreached : request.Reached silent 0 := ⟨hmay, by simp⟩
  refine ⟨?_, ?_, not_timeoutsReported_of_timer hreached trivial⟩
  · rw [hrun]
    exact ⟨_, rfl, rfl⟩
  · rw [hrun]
    rfl

end SoulonWallet.WalletApp
