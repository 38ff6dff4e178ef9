import SoulonWallet.ApiClient

/-!
# The lifecycle events of a request

Every turn of the loop emits one event: a retry event with which it goes on,
or a terminal one with which it ends.  After a turn that goes on the loop has
the count of another attempt, and that count is within `maxRetries` when
`maxRetries` is a whole number.  Otherwise the last retry event may announce
an attempt that the loop then does not make; the call throws behind the loop,
without a terminal event.
-/

namespace SoulonWallet.WalletApp

open Dapp (JsonValue)

/-- What an attempt meets is retried where retries are left. -/
def Exchange.retryable (exchange : Exchange) : Bool :=
  match exchange.fetch with
  | .error _ => true
  | .ok response => !response.isOk && (responseError response).retryable

/-- The terminal event says how the call ends. -/
def Concludes (event : RequestLifecycleEvent) :
    Except ApiClientError JsonValue → Prop
  | .ok _ => event.stage = .success
  | .error error =>
      event.stage = .failure ∧
        event.attribution.bind RequestErrorAttribution.code = some error.code

/-- The block with one terminal event. -/
def concluding (event : RequestLifecycleEvent)
    (ending : Except ApiClientError JsonValue) : Block ApiClientError where
  events := [event]
  sleeps := []
  exit :=
    match ending with
    | .ok data => .returns data
    | .error error => .throws error

namespace Request

variable {numberText : Binary64 → Utf16} {request : Request}

/-! ## Retry counts -/

theorem mayAttempt_of_hasRetriesLeft
    {attempt : ℕ} (hleft : request.hasRetriesLeft attempt) :
    request.mayAttempt attempt := by
  unfold hasRetriesLeft at hleft
  unfold mayAttempt
  cases hcount : request.maxRetries with
  | nan => simp [hcount, Binary64.lt] at hleft
  | infinity negative =>
      simpa [hcount, Binary64.lt, Binary64.ge] using hleft
  | finite count =>
      simp only [hcount, Binary64.lt, Binary64.ge, Bool.not_eq_true',
        decide_eq_false_iff_not, not_le] at hleft
      simpa [Binary64.ge] using hleft.le

theorem maxRetries_eq_of_last
    {attempt : ℕ} (hmay : request.mayAttempt attempt)
    (hlast : ¬ request.hasRetriesLeft attempt) :
    request.maxRetries = .finite attempt := by
  unfold hasRetriesLeft at hlast
  unfold mayAttempt at hmay
  cases hcount : request.maxRetries with
  | nan => simp [hcount, Binary64.ge] at hmay
  | infinity negative =>
      simp_all [Binary64.lt, Binary64.ge]
  | finite count =>
      simp only [hcount, Binary64.ge, Binary64.lt, decide_eq_true_eq,
        Bool.not_eq_true', decide_eq_false_iff_not, not_not] at hmay hlast
      exact congrArg Binary64.finite (le_antisymm hlast hmay)

theorem mayAttempt_of_le
    {attempt later : ℕ} (hle : attempt ≤ later)
    (hmay : request.mayAttempt later) : request.mayAttempt attempt := by
  unfold mayAttempt at hmay ⊢
  cases hcount : request.maxRetries with
  | nan => simp [hcount, Binary64.ge] at hmay
  | infinity negative => simpa [hcount, Binary64.ge] using hmay
  | finite count =>
      simp only [hcount, Binary64.ge, decide_eq_true_eq] at hmay ⊢
      have hcast : (attempt : ℚ) ≤ later := by
        exact_mod_cast hle
      exact hcast.trans hmay

/-! ## One turn -/

theorem transportBlock_eq_retry
    {attempt : ℕ} (now : ℤ) (reason : String) (error : ApiClientError)
    (hleft : request.hasRetriesLeft attempt) :
    request.transportBlock attempt now reason error =
      request.retry attempt now none
        (transportAttribution reason error.code) := by
  simp [transportBlock, hleft]

theorem transportBlock_eq_fail
    {attempt : ℕ} (now : ℤ) (reason : String) (error : ApiClientError)
    (hlast : ¬ request.hasRetriesLeft attempt) :
    request.transportBlock attempt now reason error =
      request.fail attempt now none
        (transportAttribution reason error.code) error := by
  simp [transportBlock, hlast]

theorem rejectStatus_eq_retry
    {attempt : ℕ} {response : Response} (now : ℤ)
    (hretried : ((responseError response).retryable &&
      request.hasRetriesLeft attempt) = true) :
    ∃ attribution, attribution.reason = "retryable_http_status" ∧
      request.rejectStatus attempt now response =
        request.retry attempt now (some response.status) attribution := by
  simp only [rejectStatus, hretried, if_true]
  exact ⟨_, rfl, rfl⟩

theorem rejectStatus_eq_fail
    {attempt : ℕ} {response : Response} (now : ℤ)
    (hkept : ((responseError response).retryable &&
      request.hasRetriesLeft attempt) = false) :
    ∃ attribution, attribution.reason = "http_status_not_ok" ∧
      attribution.code = some (responseError response).code ∧
      request.rejectStatus attempt now response =
        request.fail attempt now (some response.status) attribution
          (.apiClientError (responseError response)) := by
  simp only [rejectStatus, hkept, Bool.false_eq_true, if_false]
  exact ⟨_, rfl, rfl, rfl⟩

theorem turn_of_rejected
    {attempt : ℕ} {met : Attempt} {reason : Reason}
    (hfetch : met.exchange.fetch = .error reason) :
    request.turn numberText attempt met =
      request.catchBlock numberText attempt met.now (.reason reason) := by
  simp [turn, tryBlock, hfetch, throwing, Block.catching]

theorem catchBlock_reason
    (numberText : Binary64 → Utf16) (request : Request)
    (attempt : ℕ) (now : ℤ) (reason : Reason) :
    ∃ text error,
      request.catchBlock numberText attempt now (.reason reason) =
        request.transportBlock attempt now text error := by
  simp only [catchBlock]
  split
  · exact ⟨_, _, rfl⟩
  · exact ⟨_, _, rfl⟩

theorem turn_of_refused
    {attempt : ℕ} {met : Attempt} {response : Response}
    (hfetch : met.exchange.fetch = .ok response)
    (hrefused : response.isOk = false) :
    request.turn numberText attempt met =
      (request.rejectStatus attempt met.now response).catching
        (request.catchBlock numberText attempt met.now) := by
  simp [turn, tryBlock, hfetch, hrefused]

theorem turn_of_accepted
    {attempt : ℕ} {met : Attempt} {response : Response}
    (hfetch : met.exchange.fetch = .ok response)
    (haccepted : response.isOk = true) :
    request.turn numberText attempt met =
      (request.readBody attempt met.now response).catching
        (request.catchBlock numberText attempt met.now) := by
  simp [turn, tryBlock, hfetch, haccepted]

/-- A failure of the body leaves the outer `catch` as it came. -/
theorem fail_catching
    (attempt : ℕ) (now : ℤ) (status : Option ℕ)
    (attribution : RequestErrorAttribution) (error : ApiClientError) :
    (request.fail attempt now status attribution
      (.apiClientError error)).catching
        (request.catchBlock numberText attempt now) =
      request.fail attempt now status attribution error := by
  simp [fail, Block.catching, catchBlock, throwing]

theorem turn_of_retried
    (numberText : Binary64 → Utf16)
    {attempt : ℕ} {met : Attempt}
    (hretryable : met.exchange.retryable)
    (hleft : request.hasRetriesLeft attempt) :
    ∃ status attribution,
      request.turn numberText attempt met =
        request.retry attempt met.now status attribution := by
  cases hfetch : met.exchange.fetch with
  | error reason =>
      obtain ⟨text, error, hcatch⟩ :=
        catchBlock_reason numberText request attempt met.now reason
      rw [turn_of_rejected hfetch, hcatch,
        transportBlock_eq_retry _ _ _ hleft]
      exact ⟨_, _, rfl⟩
  | ok response =>
      simp only [Exchange.retryable, hfetch, Bool.and_eq_true,
        Bool.not_eq_true'] at hretryable
      have hretried : ((responseError response).retryable &&
          request.hasRetriesLeft attempt) = true := by
        rw [hretryable.2, hleft, Bool.and_self]
      obtain ⟨attribution, -, hblock⟩ :=
        rejectStatus_eq_retry met.now hretried
      rw [turn_of_refused hfetch hretryable.1, hblock]
      exact ⟨_, attribution, rfl⟩

theorem exists_fail_eq_concluding
    (attempt : ℕ) (now : ℤ) (status : Option ℕ)
    (attribution : RequestErrorAttribution) (error : ApiClientError)
    (hcode : attribution.code = some error.code) :
    ∃ event ending, Concludes event ending ∧
      request.fail attempt now status attribution error =
        concluding event ending :=
  ⟨request.event .failure attempt (request.elapsed now) status
      (some attribution),
    .error error, ⟨rfl, hcode⟩, rfl⟩

theorem turn_of_final
    (numberText : Binary64 → Utf16)
    {attempt : ℕ} {met : Attempt}
    (hfinal : ¬ (met.exchange.retryable ∧ request.hasRetriesLeft attempt)) :
    ∃ event ending, Concludes event ending ∧
      request.turn numberText attempt met = concluding event ending := by
  cases hfetch : met.exchange.fetch with
  | error reason =>
      have hlast : ¬ request.hasRetriesLeft attempt := fun hleft =>
        hfinal ⟨by simp [Exchange.retryable, hfetch], hleft⟩
      obtain ⟨text, error, hcatch⟩ :=
        catchBlock_reason numberText request attempt met.now reason
      rw [turn_of_rejected hfetch, hcatch, transportBlock_eq_fail _ _ _ hlast]
      exact exists_fail_eq_concluding _ _ _ _ _ rfl
  | ok response =>
      cases hok : response.isOk with
      | false =>
          have hkept : ((responseError response).retryable &&
              request.hasRetriesLeft attempt) = false := by
            rw [Bool.eq_false_iff]
            intro hboth
            rw [Bool.and_eq_true] at hboth
            exact hfinal
              ⟨by simp [Exchange.retryable, hfetch, hok, hboth.1], hboth.2⟩
          obtain ⟨attribution, -, hcode, hblock⟩ :=
            rejectStatus_eq_fail met.now hkept
          rw [turn_of_refused hfetch hok, hblock, fail_catching]
          exact exists_fail_eq_concluding _ _ _ _ _ hcode
      | true =>
          rw [turn_of_accepted hfetch hok]
          cases hbody : response.body.result with
          | ok data =>
              simp only [readBody, hbody]
              exact
                ⟨request.event .success attempt (request.elapsed met.now)
                    (some response.status) none,
                  .ok data, rfl, rfl⟩
          | error reason =>
              simp only [readBody, hbody]
              rw [fail_catching]
              exact exists_fail_eq_concluding _ _ _ _ _ rfl

/-! ## The loop -/

/-- The attempt is followed by another turn of the loop. -/
def Retried (request : Request) (attempts : ℕ → Attempt) (attempt : ℕ) :
    Prop :=
  (attempts attempt).exchange.retryable ∧ request.hasRetriesLeft attempt

variable {attempts : ℕ → Attempt}

theorem loop_of_retried
    (numberText : Binary64 → Utf16)
    {attempt : ℕ} (hretried : request.Retried attempts attempt) :
    ∃ status attribution, ∀ turns,
      request.loop numberText attempts (turns + 1) attempt =
        (request.loop numberText attempts turns (attempt + 1)).after
          (request.retry attempt (attempts attempt).now status
            attribution) := by
  obtain ⟨status, attribution, hturn⟩ :=
    turn_of_retried numberText hretried.1 hretried.2
  have hmay := mayAttempt_of_hasRetriesLeft hretried.2
  refine ⟨status, attribution, fun turns => ?_⟩
  simp [loop, hmay, hturn, retry]

theorem loop_of_final
    (numberText : Binary64 → Utf16)
    {attempt : ℕ} (turns : ℕ) (hmay : request.mayAttempt attempt)
    (hfinal : ¬ request.Retried attempts attempt) :
    ∃ event ending, Concludes event ending ∧
      request.loop numberText attempts (turns + 1) attempt =
        ⟨[event], [], 1, some ending⟩ := by
  obtain ⟨event, ending, hconcludes, hturn⟩ :=
    turn_of_final numberText hfinal
  refine ⟨event, ending, hconcludes, ?_⟩
  cases ending with
  | ok data => simp [loop, hmay, hturn, concluding, Block.last]
  | error error => simp [loop, hmay, hturn, concluding, Block.last]

/-- Attempts that are all retried: their events come first, and the loop goes
on behind them. -/
theorem loop_of_all_retried
    (numberText : Binary64 → Utf16)
    {attempt : ℕ} (count : ℕ)
    (hretried : ∀ index < count,
      request.Retried attempts (attempt + index)) :
    ∃ events sleeps,
      (∀ event ∈ events, event.stage = .retry) ∧
      events.map RequestLifecycleEvent.attempt =
        List.range' (attempt + 1) count ∧
      ∀ turns,
        let rest := request.loop numberText attempts turns (attempt + count)
        request.loop numberText attempts (count + turns) attempt =
          { rest with
            events := events ++ rest.events
            sleeps := sleeps ++ rest.sleeps
            fetches := count + rest.fetches } := by
  induction count generalizing attempt with
  | zero => exact ⟨[], [], by simp, rfl, by simp⟩
  | succ count ih =>
      have hfirst : request.Retried attempts attempt :=
        hretried 0 (Nat.succ_pos count)
      have hrest : ∀ index < count,
          request.Retried attempts (attempt + 1 + index) := by
        intro index hindex
        have hlater := hretried (index + 1) (Nat.succ_lt_succ hindex)
        rwa [Nat.add_comm index 1, ← Nat.add_assoc] at hlater
      obtain ⟨events, sleeps, hstages, hcounts, hloop⟩ := ih hrest
      obtain ⟨status, attribution, hturn⟩ :=
        loop_of_retried numberText hfirst
      let retried : Block ApiClientError :=
        request.retry attempt (attempts attempt).now status attribution
      refine ⟨retried.events ++ events, retried.sleeps ++ sleeps, ?_, ?_, ?_⟩
      · intro event hevent
        rcases List.mem_append.mp hevent with hnow | hlater
        · rw [List.mem_singleton.mp hnow]
          rfl
        · exact hstages event hlater
      · rw [List.map_append, hcounts, List.range'_succ]
        rfl
      · intro turns
        have hturns : count + 1 + turns = count + turns + 1 := by omega
        have hend : attempt + 1 + count = attempt + (count + 1) := by omega
        rw [hturns, hturn, hloop, hend]
        simp [RequestRun.after, retried]
        omega

/-- The attempt is within the retry count, and the loop ends with it. -/
def Final (request : Request) (attempts : ℕ → Attempt) (attempt : ℕ) : Prop :=
  request.mayAttempt attempt ∧ ¬ request.Retried attempts attempt

/-- What the loop does from an attempt on. -/
theorem loop_cases
    (numberText : Binary64 → Utf16) (attempts : ℕ → Attempt)
    (request : Request) (turns attempt : ℕ) :
    let run := request.loop numberText attempts (turns + 1) attempt
    (request.mayAttempt attempt = false ∧
        run = ⟨[], [], 0, some (.error unknownError)⟩) ∨
      (request.Retried attempts attempt ∧
        ∃ status attribution,
          run = (request.loop numberText attempts turns (attempt + 1)).after
            (request.retry attempt (attempts attempt).now status
              attribution)) ∨
      (request.Final attempts attempt ∧
        ∃ event ending, Concludes event ending ∧
          run = ⟨[event], [], 1, some ending⟩) := by
  intro run
  cases hmay : request.mayAttempt attempt with
  | false => exact .inl ⟨rfl, by simp [run, loop, hmay]⟩
  | true =>
      by_cases hretried : request.Retried attempts attempt
      · obtain ⟨status, attribution, hloop⟩ :=
          loop_of_retried numberText hretried
        exact .inr (.inl ⟨hretried, status, attribution, hloop turns⟩)
      · exact .inr (.inr ⟨⟨hmay, hretried⟩,
          loop_of_final numberText turns hmay hretried⟩)

theorem loop_stage_of_no_final
    (numberText : Binary64 → Utf16)
    (hnone : ∀ attempt, ¬ request.Final attempts attempt)
    (turns attempt : ℕ) :
    ∀ event ∈ (request.loop numberText attempts turns attempt).events,
      event.stage = .retry := by
  induction turns generalizing attempt with
  | zero => simp [loop, apply_ite RequestRun.events]
  | succ turns ih =>
      rcases loop_cases numberText attempts request turns attempt with
        ⟨-, hover⟩ | ⟨-, status, attribution, hretried⟩ | ⟨hfinal, -⟩
      · simp [hover]
      · rw [hretried]
        intro event hevent
        rcases List.mem_append.mp hevent with hnow | hlater
        · rw [List.mem_singleton.mp hnow]
          rfl
        · exact ih (attempt + 1) event hlater
      · exact absurd hfinal (hnone attempt)

end Request

/-! ## The contract -/

/-- The events of a finished call: the start, the retries with their counts,
and one terminal event. -/
structure FollowsLifecycle (request : Request) (run : RequestRun)
    (retries : List RequestLifecycleEvent) (terminal : RequestLifecycleEvent)
    (ending : Except ApiClientError JsonValue) : Prop where
  events : run.events = request.startEvent :: (retries ++ [terminal])
  retry_stage : ∀ event ∈ retries, event.stage = .retry
  retry_attempt :
    retries.map RequestLifecycleEvent.attempt =
      List.range' 1 retries.length
  ended : run.ending = some ending
  concludes : Concludes terminal ending
  fetches : run.fetches = retries.length + 1
  within : request.maxRetries.ge (.finite retries.length)

/-- The call ends, in the way of the contract. -/
def Fulfils (numberText : Binary64 → Utf16) (request : Request)
    (attempts : ℕ → Attempt) : Prop :=
  ∃ turns retries terminal ending,
    FollowsLifecycle request (request.run numberText attempts turns) retries
      terminal ending

section Contract

variable {numberText : Binary64 → Utf16} {request : Request}
variable {attempts : ℕ → Attempt}

theorem fulfils_of_first_final
    {attempt : ℕ} (hfinal : request.Final attempts attempt)
    (hfirst : ∀ earlier < attempt, ¬ request.Final attempts earlier) :
    Fulfils numberText request attempts := by
  have hretried : ∀ index < attempt,
      request.Retried attempts (0 + index) := by
    intro index hindex
    rw [Nat.zero_add]
    have hmay := Request.mayAttempt_of_le hindex.le hfinal.1
    exact not_not.mp fun hlast => hfirst index hindex ⟨hmay, hlast⟩
  obtain ⟨retries, sleeps, hstages, hcounts, hloop⟩ :=
    Request.loop_of_all_retried numberText attempt hretried
  obtain ⟨terminal, ending, hconcludes, hend⟩ :=
    Request.loop_of_final numberText 0 hfinal.1 hfinal.2
  have hlength : retries.length = attempt := by
    have hmap := congrArg List.length hcounts
    simpa using hmap
  have hrun : request.run numberText attempts (attempt + 1) =
      { events := request.startEvent :: (retries ++ [terminal])
        sleeps := sleeps
        fetches := attempt + 1
        ending := some ending } := by
    rw [Request.run, hloop, Nat.zero_add, hend]
    simp
  refine ⟨attempt + 1, retries, terminal, ending, ?_⟩
  rw [hrun]
  constructor
  case events => rfl
  case retry_stage => exact hstages
  case retry_attempt => rw [hcounts, hlength]
  case ended => rfl
  case concludes => exact hconcludes
  case fetches => rw [hlength]
  case within =>
    rw [hlength]
    exact hfinal.1

/-- Retries up to a count beyond `maxRetries`: the last of them announces an
attempt that is not made, and the call throws behind the loop. -/
theorem run_of_overshoot
    {count : ℕ} (turns : ℕ)
    (hretried : ∀ index < count, request.Retried attempts index)
    (hover : request.mayAttempt count = false) :
    ∃ retries,
      (∀ event ∈ retries, event.stage = .retry) ∧
      retries.map RequestLifecycleEvent.attempt = List.range' 1 count ∧
      let run := request.run numberText attempts (count + turns)
      run.events = request.startEvent :: retries ∧ run.fetches = count ∧
        run.ending = some (.error unknownError) := by
  have hshifted : ∀ index < count,
      request.Retried attempts (0 + index) := by
    simpa using hretried
  obtain ⟨retries, sleeps, hstages, hcounts, hloop⟩ :=
    Request.loop_of_all_retried numberText count hshifted
  have hbehind : request.loop numberText attempts turns count =
      ⟨[], [], 0, some (.error unknownError)⟩ := by
    cases turns <;> simp [Request.loop, hover]
  refine ⟨retries, hstages, hcounts, ?_⟩
  simp [Request.run, hloop, hbehind]

theorem exists_final_of_fulfils
    (hfulfils : Fulfils numberText request attempts) :
    ∃ attempt, request.Final attempts attempt := by
  obtain ⟨turns, retries, terminal, ending, hfollows⟩ := hfulfils
  by_contra hnone
  have hstages := Request.loop_stage_of_no_final numberText
    (not_exists.mp hnone) turns 0
  have hevents : (request.loop numberText attempts turns 0).events =
      retries ++ [terminal] := by
    have hall := hfollows.events
    simp only [Request.run, List.cons.injEq, true_and] at hall
    exact hall
  have hretry : terminal.stage = .retry := by
    apply hstages
    simp [hevents]
  have hconcludes := hfollows.concludes
  cases ending with
  | ok data => simp [Concludes, hretry] at hconcludes
  | error error => simp [Concludes, hretry] at hconcludes

theorem fulfils_iff_exists_final :
    Fulfils numberText request attempts ↔
      ∃ attempt, request.Final attempts attempt := by
  classical
  constructor
  · exact exists_final_of_fulfils
  · intro hfinal
    exact fulfils_of_first_final (Nat.find_spec hfinal)
      fun earlier hearlier => Nat.find_min hfinal hearlier

theorem exists_final_iff :
    (∃ attempt, request.Final attempts attempt) ↔
      (∃ count : ℕ, request.maxRetries = .finite count) ∨
        ∃ attempt, request.mayAttempt attempt ∧
          ¬ (attempts attempt).exchange.retryable := by
  constructor
  · rintro ⟨attempt, hmay, hlast⟩
    by_cases hretryable : (attempts attempt).exchange.retryable
    · have hleft : ¬ request.hasRetriesLeft attempt :=
        fun hleft => hlast ⟨hretryable, hleft⟩
      exact .inl ⟨attempt, Request.maxRetries_eq_of_last hmay hleft⟩
    · exact .inr ⟨attempt, hmay, hretryable⟩
  · rintro (⟨count, hcount⟩ | ⟨attempt, hmay, hkept⟩)
    · refine ⟨count, ?_, fun hretried => ?_⟩
      · simp [Request.mayAttempt, hcount, Binary64.ge]
      · have hleft := hretried.2
        simp [Request.hasRetriesLeft, hcount, Binary64.lt,
          Binary64.ge] at hleft
    · exact ⟨attempt, hmay, fun hretried => hkept hretried.1⟩

end Contract

/-- The method and the options admit a single attempt. -/
def RequestOptions.SingleAttempt (options : RequestOptions) : Prop :=
  options.method.getD .get ≠ .get ∧ options.retryCount = none

theorem fetches_of_singleAttempt
    {client : ApiClient} {prepared : Prepared} {path : Utf16}
    {options : RequestOptions} {run : RequestRun}
    {retries : List RequestLifecycleEvent} {terminal : RequestLifecycleEvent}
    {ending : Except ApiClientError JsonValue}
    (hsingle : options.SingleAttempt)
    (hfollows : FollowsLifecycle (client.prepare prepared path options) run
      retries terminal ending) :
    run.fetches = 1 := by
  have hcount : (client.prepare prepared path options).maxRetries =
      .finite 0 := by
    simp [ApiClient.prepare, hsingle.1, hsingle.2]
  have hnone : retries.length = 0 := by
    simpa [hcount, Binary64.ge] using hfollows.within
  rw [hfollows.fetches, hnone]

/-- A call of `request` ends, and in the way of the contract. -/
def KeepsContract (numberText : Binary64 → Utf16) (client : ApiClient)
    (prepared : Prepared) (path : Utf16) (options : RequestOptions)
    (attempts : ℕ → Attempt) : Prop :=
  ∃ turns retries terminal ending,
    let request := client.prepare prepared path options
    let run := request.run numberText attempts turns
    FollowsLifecycle request run retries terminal ending ∧
      (options.SingleAttempt → run.fetches = 1)

theorem keepsContract_iff_fulfils
    {numberText : Binary64 → Utf16} {client : ApiClient}
    {prepared : Prepared} {path : Utf16} {options : RequestOptions}
    {attempts : ℕ → Attempt} :
    KeepsContract numberText client prepared path options attempts ↔
      Fulfils numberText (client.prepare prepared path options) attempts := by
  constructor
  · rintro ⟨turns, retries, terminal, ending, hfollows, -⟩
    exact ⟨turns, retries, terminal, ending, hfollows⟩
  · rintro ⟨turns, retries, terminal, ending, hfollows⟩
    exact ⟨turns, retries, terminal, ending, hfollows,
      fun hsingle => fetches_of_singleAttempt hsingle hfollows⟩

theorem request_keepsContract_iff
    (numberText : Binary64 → Utf16) (client : ApiClient)
    (prepared : Prepared) (path : Utf16) (options : RequestOptions)
    (attempts : ℕ → Attempt) :
    KeepsContract numberText client prepared path options attempts ↔
      let request := client.prepare prepared path options
      (∃ count : ℕ, request.maxRetries = .finite count) ∨
        ∃ attempt, request.mayAttempt attempt ∧
          ¬ (attempts attempt).exchange.retryable :=
  keepsContract_iff_fulfils.trans
    (fulfils_iff_exists_final.trans exists_final_iff)

/-- The client of an environment with `VITE_API_RETRY_COUNT=1.5`. -/
def fractionalClient : ApiClient where
  timeoutMs := .finite 5000
  retryCount := .finite (3 / 2)

def healthPrepared : Prepared where
  url := "http://127.0.0.1:8082/v1/health"
  requestStartedAt := 0
  generatedId := "req_0_x"

def unreachable : ℕ → Attempt := fun attempt =>
  { exchange := .rejects (.error "Failed to fetch"), now := attempt }

theorem contract_broken_by_fraction :
    let request := fractionalClient.prepare healthPrepared "/v1/health" {}
    (∃ retries,
      (∀ event ∈ retries, event.stage = .retry) ∧
      retries.map RequestLifecycleEvent.attempt = [1, 2] ∧
      let run := request.run (fun _ => "5000") unreachable 3
      run.events = request.startEvent :: retries ∧ run.fetches = 2 ∧
        run.ending = some (.error unknownError)) ∧
      ¬ KeepsContract (fun _ => "5000") fractionalClient healthPrepared
        "/v1/health" {} unreachable := by
  constructor
  · have hretried : ∀ index < 2,
        (fractionalClient.prepare healthPrepared "/v1/health"
          {}).Retried unreachable index := by
      intro index hindex
      refine ⟨rfl, ?_⟩
      interval_cases index <;>
        norm_num [Request.hasRetriesLeft, ApiClient.prepare,
          fractionalClient, Binary64.lt, Binary64.ge]
    have hover : (fractionalClient.prepare healthPrepared "/v1/health"
        {}).mayAttempt 2 = false := by
      norm_num [Request.mayAttempt, ApiClient.prepare, fractionalClient,
        Binary64.ge]
    exact run_of_overshoot 1 hretried hover
  · rw [keepsContract_iff_fulfils, fulfils_iff_exists_final,
      exists_final_iff]
    rintro (⟨count, hcount⟩ | ⟨attempt, -, hkept⟩)
    · have hvalue : (3 / 2 : ℚ) = count := Binary64.finite.inj hcount
      have hdouble : (3 : ℚ) = (count * 2 : ℕ) := by
        push_cast
        linarith
      have hodd : 3 = count * 2 := by
        exact_mod_cast hdouble
      omega
    · exact hkept rfl

end SoulonWallet.WalletApp
