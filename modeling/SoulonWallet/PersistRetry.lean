import SoulonWallet.WebhookNotification

/-!
# Persisting with retries

`persistWithRetry` retries a failed `Upsert` until its last attempt fails.
Then the event goes to the dead letters, and its partition is paused.  The
reference reads the first success off the pattern of results; everything that
a call does follows from where that success is.
-/

namespace SoulonWallet.Indexer.Worker

structure Options extends WorkerOptions where
  persistRetryBackoffMs : ℤ := 0
  deriving DecidableEq

/-- The options of a worker that `NewWorker` made. -/
def Options.effective (options : Options) : Options where
  toWorkerOptions := options.toWorkerOptions.withDefaults
  persistRetryBackoffMs :=
    if options.persistRetryBackoffMs < 0 then 500
    else options.persistRetryBackoffMs

/-- What a call of `persistWithRetry` meets: the results of `Upsert`, and the
error of the context where it is done before the wait after an attempt is
over. -/
structure Surroundings where
  upsert : ℕ → Except String Bool
  contextErr : ℕ → Option String
  marshal : Event → Option (List UInt8)

structure Pause where
  partition : ℤ
  duration : ℤ
  deriving DecidableEq

structure PersistRun where
  upserts : ℕ
  waits : List ℤ
  deadLetters : List DeadLetter
  pauses : List Pause
  result : Bool × Option String
  deriving DecidableEq

/-- The nanoseconds of a `time.Duration`, which wraps at 64 bits. -/
def milliseconds (count : ℤ) : ℤ :=
  (count * 1000000).bmod (2 ^ 64)

namespace PersistRun

def afterUpsert (run : PersistRun) : PersistRun :=
  { run with upserts := run.upserts + 1 }

def afterWait (run : PersistRun) (duration : ℤ) : PersistRun :=
  { run with waits := duration :: run.waits }

end PersistRun

section Loop

variable (options : Options) (surroundings : Surroundings) (event : Event)

/-- The code after the loop.  A worker makes at least one attempt, so that
`lastErr` is not nil here. -/
def afterLoop (lastErr : Option String) : PersistRun where
  upserts := 0
  waits := []
  deadLetters :=
    match surroundings.marshal event with
    | none => []
    | some payload =>
        [{ key := bytes event.id, payload, reason := lastErr.getD "" }]
  pauses :=
    if 0 < options.consumePauseMs then
      [{ partition := event.partition
         duration := milliseconds options.consumePauseMs }]
    else []
  result :=
    if options.persistFailurePolicy = "skip" then (false, none)
    else (false, lastErr)

def returnNow (result : Bool × Option String) : PersistRun where
  upserts := 0
  waits := []
  deadLetters := []
  pauses := []
  result := result

/-- The loop from `attempt` on, which has `turns` turns left. -/
def persistLoop : ℕ → ℕ → Option String → PersistRun
  | 0, _, lastErr => afterLoop options surroundings event lastErr
  | turns + 1, attempt, _ =>
      match surroundings.upsert attempt with
      | .ok created => (returnNow (created, none)).afterUpsert
      | .error err =>
          if attempt = options.persistMaxRetries then
            (afterLoop options surroundings event (some err)).afterUpsert
          else
            let backoff := milliseconds options.persistRetryBackoffMs
            match surroundings.contextErr attempt with
            | some contextErr =>
                ((returnNow (false, some contextErr)).afterWait
                  backoff).afterUpsert
            | none =>
                ((persistLoop turns (attempt + 1) (some err)).afterWait
                  backoff).afterUpsert

end Loop

/-- `persistWithRetry` of a worker that `NewWorker` made with `options`. -/
def persistWithRetry (options : Options) (surroundings : Surroundings)
    (event : Event) : PersistRun :=
  persistLoop options.effective surroundings event
    options.effective.persistMaxRetries.toNat 1 none

/-! ## The reference -/

/-- The first of `count` attempts from `attempt` on that succeeds. -/
def firstSuccess (upsert : ℕ → Except String Bool) (attempt count : ℕ) :
    Option ℕ :=
  (List.range' attempt count).find? fun attempt => (upsert attempt).isOk

/-- The values that an attempt gives to `created` and `err`. -/
def returned : Except String Bool → Bool × Option String
  | .ok created => (created, none)
  | .error err => (false, some err)

section Reference

variable (options : Options) (event : Event) (payload : List UInt8)

def waitsBetween (upserts : ℕ) : List ℤ :=
  List.replicate (upserts - 1) (milliseconds options.persistRetryBackoffMs)

def persisted (upserts : ℕ) (created : Bool) : PersistRun where
  upserts := upserts
  waits := waitsBetween options upserts
  deadLetters := []
  pauses := []
  result := (created, none)

def exhausted (upserts : ℕ) (lastErr : Option String) : PersistRun where
  upserts := upserts
  waits := waitsBetween options upserts
  deadLetters :=
    [{ key := bytes event.id, payload, reason := lastErr.getD "" }]
  pauses :=
    [{ partition := event.partition
       duration := milliseconds options.consumePauseMs }]
  result :=
    (false, if options.persistFailurePolicy = "skip" then none else lastErr)

end Reference

def persistReference (options : Options) (upsert : ℕ → Except String Bool)
    (payload : List UInt8) (event : Event) : PersistRun :=
  let limit := options.effective.persistMaxRetries.toNat
  match firstSuccess upsert 1 limit with
  | some first =>
      persisted options.effective first (returned (upsert first)).1
  | none =>
      exhausted options.effective event payload limit
        (returned (upsert limit)).2

theorem firstSuccess_of_ok
    {upsert : ℕ → Except String Bool} {attempt : ℕ} {created : Bool}
    (count : ℕ) (hok : upsert attempt = .ok created) :
    firstSuccess upsert attempt (count + 1) = some attempt := by
  simp [firstSuccess, List.range'_succ, hok, Except.isOk, Except.toBool]

theorem firstSuccess_of_error
    {upsert : ℕ → Except String Bool} {attempt : ℕ} {err : String}
    (count : ℕ) (herror : upsert attempt = .error err) :
    firstSuccess upsert attempt (count + 1) =
      firstSuccess upsert (attempt + 1) count := by
  simp [firstSuccess, List.range'_succ, herror, Except.isOk, Except.toBool]

theorem firstSuccess_eq_some_iff
    {upsert : ℕ → Except String Bool} {attempt count first : ℕ} :
    firstSuccess upsert attempt count = some first ↔
      (attempt ≤ first ∧ first < attempt + count) ∧ (upsert first).isOk ∧
        ∀ earlier, attempt ≤ earlier → earlier < first →
          ¬ (upsert earlier).isOk := by
  simp only [firstSuccess, List.find?_range'_eq_some, List.mem_range'_1,
    Bool.not_eq_true']
  grind

/-! ## The loop and the reference -/

theorem effective_persistMaxRetries_pos (options : Options) :
    0 < options.effective.persistMaxRetries := by
  simp only [Options.effective, WorkerOptions.withDefaults]
  split <;> omega

theorem effective_consumePauseMs_pos (options : Options) :
    0 < options.effective.consumePauseMs := by
  simp only [Options.effective, WorkerOptions.withDefaults]
  split <;> omega

section Agreement

variable {options : Options} {surroundings : Surroundings} {event : Event}
variable {payload : List UInt8}

theorem waitsBetween_succ (upserts : ℕ) :
    waitsBetween options (upserts + 2) =
      milliseconds options.persistRetryBackoffMs ::
        waitsBetween options (upserts + 1) := by
  simp [waitsBetween, List.replicate_succ]

theorem persisted_afterRetry (upserts : ℕ) (created : Bool) :
    ((persisted options (upserts + 1) created).afterWait
      (milliseconds options.persistRetryBackoffMs)).afterUpsert =
      persisted options (upserts + 2) created := by
  simp [persisted, PersistRun.afterWait, PersistRun.afterUpsert,
    waitsBetween_succ]

theorem exhausted_afterRetry (upserts : ℕ) (lastErr : Option String) :
    ((exhausted options event payload (upserts + 1) lastErr).afterWait
      (milliseconds options.persistRetryBackoffMs)).afterUpsert =
      exhausted options event payload (upserts + 2) lastErr := by
  simp [exhausted, PersistRun.afterWait, PersistRun.afterUpsert,
    waitsBetween_succ]

theorem persistLoop_of_ok
    {attempt : ℕ} {created : Bool} (turns : ℕ) (lastErr : Option String)
    (hok : surroundings.upsert attempt = .ok created) :
    persistLoop options surroundings event (turns + 1) attempt lastErr =
      persisted options 1 created := by
  simp [persistLoop, hok, returnNow, PersistRun.afterUpsert, persisted,
    waitsBetween]

theorem persistLoop_of_last
    {attempt : ℕ} {err : String} (turns : ℕ) (lastErr : Option String)
    (hmarshal : surroundings.marshal event = some payload)
    (hpause : 0 < options.consumePauseMs)
    (hlast : attempt = options.persistMaxRetries)
    (herror : surroundings.upsert attempt = .error err) :
    persistLoop options surroundings event (turns + 1) attempt lastErr =
      exhausted options event payload 1 (some err) := by
  by_cases hskip : options.persistFailurePolicy = "skip"
  all_goals
    simp [persistLoop, herror, hlast, afterLoop, hmarshal, hpause, hskip,
      PersistRun.afterUpsert, exhausted, waitsBetween]

theorem persistLoop_of_error
    {attempt : ℕ} {err : String} (turns : ℕ) (lastErr : Option String)
    (hcontext : surroundings.contextErr attempt = none)
    (hleft : attempt ≠ options.persistMaxRetries)
    (herror : surroundings.upsert attempt = .error err) :
    persistLoop options surroundings event (turns + 1) attempt lastErr =
      ((persistLoop options surroundings event turns (attempt + 1)
        (some err)).afterWait
          (milliseconds options.persistRetryBackoffMs)).afterUpsert := by
  simp [persistLoop, herror, hleft, hcontext]

/-- The reference for the turns from `attempt` on, of which there are
`turns` after it. -/
def referenceFrom (options : Options) (upsert : ℕ → Except String Bool)
    (payload : List UInt8) (event : Event) (attempt turns : ℕ) :
    PersistRun :=
  match firstSuccess upsert attempt (turns + 1) with
  | some first =>
      persisted options (first + 1 - attempt) (returned (upsert first)).1
  | none =>
      exhausted options event payload (turns + 1)
        (returned (upsert (attempt + turns))).2

theorem persistLoop_eq_referenceFrom
    {attempt turns : ℕ} (lastErr : Option String)
    (hmarshal : surroundings.marshal event = some payload)
    (hcontext : ∀ attempt, surroundings.contextErr attempt = none)
    (hpause : 0 < options.consumePauseMs)
    (hturns : (attempt : ℤ) + turns = options.persistMaxRetries) :
    persistLoop options surroundings event (turns + 1) attempt lastErr =
      referenceFrom options surroundings.upsert payload event attempt
        turns := by
  induction turns generalizing attempt lastErr with
  | zero =>
      unfold referenceFrom
      cases hupsert : surroundings.upsert attempt with
      | ok created =>
          rw [persistLoop_of_ok 0 lastErr hupsert,
            firstSuccess_of_ok 0 hupsert]
          simp [hupsert, returned]
      | error err =>
          have hlast : attempt = options.persistMaxRetries := by
            simpa using hturns
          rw [persistLoop_of_last 0 lastErr hmarshal hpause hlast hupsert,
            firstSuccess_of_error 0 hupsert]
          simp [firstSuccess, returned]
  | succ turns ih =>
      cases hupsert : surroundings.upsert attempt with
      | ok created =>
          unfold referenceFrom
          rw [persistLoop_of_ok _ lastErr hupsert,
            firstSuccess_of_ok _ hupsert]
          simp [hupsert, returned]
      | error err =>
          have hleft : (attempt : ℤ) ≠ options.persistMaxRetries := by
            push_cast at hturns
            omega
          have hnext : ((attempt + 1 : ℕ) : ℤ) + turns =
              options.persistMaxRetries := by
            push_cast at hturns ⊢
            omega
          rw [persistLoop_of_error _ lastErr (hcontext attempt) hleft hupsert,
            ih _ hnext]
          unfold referenceFrom
          rw [firstSuccess_of_error _ hupsert]
          cases hfirst : firstSuccess surroundings.upsert (attempt + 1)
              (turns + 1) with
          | some first =>
              have hle : attempt + 1 ≤ first :=
                (firstSuccess_eq_some_iff.mp hfirst).1.1
              obtain ⟨upserts, rfl⟩ := Nat.exists_eq_add_of_le hle
              have hbefore : attempt + 1 + upserts + 1 - (attempt + 1) =
                  upserts + 1 := by
                omega
              have hafter : attempt + 1 + upserts + 1 - attempt =
                  upserts + 2 := by
                omega
              simp only [hbefore, hafter]
              exact persisted_afterRetry upserts _
          | none =>
              have hend : attempt + 1 + turns = attempt + (turns + 1) := by
                omega
              simp only [hend]
              exact exhausted_afterRetry turns _

end Agreement

theorem persistWithRetry_eq_reference
    (options : Options) (surroundings : Surroundings) (event : Event)
    (payload : List UInt8)
    (hmarshal : surroundings.marshal event = some payload)
    (hcontext : ∀ attempt, surroundings.contextErr attempt = none) :
    persistWithRetry options surroundings event =
      persistReference options surroundings.upsert payload event := by
  have hpause : 0 < options.effective.consumePauseMs :=
    effective_consumePauseMs_pos options
  have hlimit : 0 < options.effective.persistMaxRetries :=
    effective_persistMaxRetries_pos options
  obtain ⟨turns, hturns⟩ :
      ∃ turns, options.effective.persistMaxRetries.toNat = turns + 1 :=
    ⟨options.effective.persistMaxRetries.toNat - 1, by omega⟩
  have hrange : ((1 : ℕ) : ℤ) + turns =
      options.effective.persistMaxRetries := by
    omega
  unfold persistWithRetry persistReference
  rw [hturns, persistLoop_eq_referenceFrom none hmarshal hcontext hpause
    hrange]
  simp [referenceFrom, Nat.add_comm 1 turns]

def skipOptions : Options where
  persistMaxRetries := 3
  persistRetryBackoffMs := 1
  persistFailurePolicy := "skip"

def skippedEvent : Event where
  id := "evt-1"
  height := 1
  type := "new_block"
  partition := 2

def skippedPayload : List UInt8 :=
  bytes
    ("\x7b\"id\":\"evt-1\",\"height\":1,\"type\":\"new_block\"," ++
      "\"payload\":\"\",\"producedAt\":\"0001-01-01T00:00:00Z\"," ++
      "\"persistedAt\":\"0001-01-01T00:00:00Z\"\x7d")

/-- A store whose first five calls fail. -/
def flakySurroundings : Surroundings where
  upsert := fun attempt =>
    if attempt ≤ 5 then .error "injected failure" else .ok true
  contextErr := fun _ => none
  marshal := fun event =>
    if event = skippedEvent then some skippedPayload else none

theorem persistWithRetry_skips :
    persistWithRetry skipOptions flakySurroundings skippedEvent =
      { upserts := 3
        waits := [1000000, 1000000]
        deadLetters :=
          [⟨bytes "evt-1", skippedPayload, "injected failure"⟩]
        pauses := [⟨2, 3000000000⟩]
        result := (false, none) } := by
  have hmarshal : flakySurroundings.marshal skippedEvent =
      some skippedPayload := by
    simp [flakySurroundings]
  rw [persistWithRetry_eq_reference skipOptions flakySurroundings
    skippedEvent skippedPayload hmarshal fun _ => rfl]
  rfl

/-! ## The file event store -/

section Store

variable (attempts : ℕ → Attempt) (event : Event)

/-- The store after the first attempts of a call, all of them failed. -/
def storeAfter (store : FileEventStore) : ℕ → FileEventStore
  | 0 => store
  | count + 1 =>
      ((storeAfter store count).upsert (attempts count).io event).1

/-- What a call over the file event store meets. -/
def storeSurroundings (store : FileEventStore)
    (marshal : Event → Option (List UInt8)) : Surroundings where
  upsert := fun attempt =>
    ((storeAfter attempts event store (attempt - 1)).upsert
      (attempts (attempt - 1)).io event).2
  contextErr := fun attempt =>
    if (attempts (attempt - 1)).cancelled then some "context canceled"
    else none
  marshal := marshal

end Store

theorem returned_giveUp (options : Options) (lastErr : String) :
    returned (giveUp options.toWorkerOptions lastErr) =
      if options.effective.persistFailurePolicy = "skip" then (false, none)
      else (false, some lastErr) := by
  unfold giveUp
  by_cases hskip :
      options.toWorkerOptions.withDefaults.persistFailurePolicy = "skip"
  all_goals
    simp [hskip, returned, Options.effective]

theorem persistLoop_result_of_store
    {options : Options} {attempts : ℕ → Attempt} {event : Event}
    {store : FileEventStore} {marshal : Event → Option (List UInt8)}
    {turns count : ℕ} (lastErr : Option String) (text : String)
    (hturns : (count : ℤ) + turns + 1 =
      options.effective.persistMaxRetries) :
    (persistLoop options.effective
      (storeSurroundings attempts event store marshal) event (turns + 1)
      (count + 1) lastErr).result =
      returned (persistAttempts options.toWorkerOptions event
        (storeAfter attempts event store count) text
        ((List.range' count (turns + 1)).map attempts)).2 := by
  induction turns generalizing count lastErr text with
  | zero =>
      have hlast : (count : ℤ) + 1 = options.effective.persistMaxRetries := by
        simpa using hturns
      cases hupsert : (storeAfter attempts event store count).upsert
          (attempts count).io event with
      | mk next result =>
          cases result with
          | ok created =>
              simp [persistLoop, storeSurroundings, persistAttempts, hupsert,
                PersistRun.afterUpsert, returnNow, returned]
          | error err =>
              simp [persistLoop, storeSurroundings, persistAttempts, hupsert,
                hlast, PersistRun.afterUpsert, afterLoop, returned_giveUp]
  | succ turns ih =>
      have hleft : (count : ℤ) + 1 ≠ options.effective.persistMaxRetries := by
        push_cast at hturns
        omega
      have hnext : ((count + 1 : ℕ) : ℤ) + turns + 1 =
          options.effective.persistMaxRetries := by
        push_cast at hturns ⊢
        omega
      cases hupsert : (storeAfter attempts event store count).upsert
          (attempts count).io event with
      | mk next result =>
          cases result with
          | ok created =>
              simp [persistLoop, storeSurroundings, persistAttempts,
                List.range'_succ, hupsert, PersistRun.afterUpsert, returnNow,
                returned]
          | error err =>
              have hafter : storeAfter attempts event store (count + 1) =
                  next := by
                simp [storeAfter, hupsert]
              cases hcancelled : (attempts count).cancelled with
              | true =>
                  simp [persistLoop, storeSurroundings, persistAttempts,
                    List.range'_succ, hupsert, hleft, hcancelled,
                    PersistRun.afterUpsert, PersistRun.afterWait, returnNow,
                    returned]
              | false =>
                  have hcontext : (storeSurroundings attempts event store
                      marshal).contextErr (count + 1) = none := by
                    simp [storeSurroundings, hcancelled]
                  have herror : (storeSurroundings attempts event store
                      marshal).upsert (count + 1) = .error err := by
                    simp [storeSurroundings, hupsert]
                  have hrest := ih (some err) err hnext
                  rw [hafter] at hrest
                  rw [persistLoop_of_error _ lastErr hcontext
                    (by exact_mod_cast hleft) herror]
                  simpa [persistAttempts, List.range'_succ, hupsert,
                    hcancelled, PersistRun.afterUpsert,
                    PersistRun.afterWait] using hrest

/-- Over the file event store a call returns what the call on the store
itself returns. -/
theorem persistWithRetry_result_of_store
    (options : Options) (attempts : ℕ → Attempt) (event : Event)
    (store : FileEventStore) (marshal : Event → Option (List UInt8)) :
    (persistWithRetry options
      (storeSurroundings attempts event store marshal) event).result =
      returned (Indexer.persistWithRetry options.toWorkerOptions attempts
        store event).2 := by
  have hlimit : 0 < options.effective.persistMaxRetries :=
    effective_persistMaxRetries_pos options
  obtain ⟨turns, hturns⟩ :
      ∃ turns, options.effective.persistMaxRetries.toNat = turns + 1 :=
    ⟨options.effective.persistMaxRetries.toNat - 1, by omega⟩
  have hattempts : options.toWorkerOptions.attempts attempts =
      (List.range' 0 (turns + 1)).map attempts := by
    rw [WorkerOptions.attempts, ← List.range_eq_range', ← hturns]
    rfl
  have hrange : ((0 : ℕ) : ℤ) + turns + 1 =
      options.effective.persistMaxRetries := by
    omega
  unfold persistWithRetry Indexer.persistWithRetry
  rw [hturns, hattempts]
  exact persistLoop_result_of_store none "" hrange

end SoulonWallet.Indexer.Worker
