import SoulonWallet.EventStoreReplay
import SoulonWallet.GoStrings
import SoulonWallet.KafkaIngestion
import SoulonWallet.NotificationStream

/-!
# Notifications of persisted events

The worker persists an event with retries and, when the store reports it as
created, has the notifier post it to the webhook of the API.  The store works
on a copy of the event: it gives a block without an id one, and a rollback
always a new one.  The notifier posts the event as it was consumed.

The keys of the posted object are those of `notificationMessage` except for
`receivedAt`, and its times are decoded from JSON or read from the clock, so
that decoding it gives the same values.
-/

namespace SoulonWallet.Indexer

open Api
open Chain (trimSpace)

/-! ## Persisting with retries -/

/-- What one attempt meets: the outcome of its `Upsert`, and whether the
context is done when it pauses afterwards. -/
structure Attempt where
  io : Io
  cancelled : Bool

/-- The result of `persistWithRetry` after its last attempt. -/
def giveUp (options : WorkerOptions) (lastErr : String) :
    Except String Bool :=
  if options.withDefaults.persistFailurePolicy = "skip" then .ok false
  else .error lastErr

def persistAttempts (options : WorkerOptions) (event : Event) :
    FileEventStore → String → List Attempt →
      FileEventStore × Except String Bool
  | store, lastErr, [] => (store, giveUp options lastErr)
  | store, _, attempt :: rest =>
      match store.upsert attempt.io event with
      | (next, .ok created) => (next, .ok created)
      | (next, .error err) =>
          if rest = [] then (next, giveUp options err)
          else if attempt.cancelled then (next, .error "context canceled")
          else persistAttempts options event next err rest

def WorkerOptions.attempts (options : WorkerOptions)
    (attempts : ℕ → Attempt) : List Attempt :=
  (List.range options.withDefaults.persistMaxRetries.toNat).map attempts

def persistWithRetry (options : WorkerOptions) (attempts : ℕ → Attempt)
    (store : FileEventStore) (event : Event) :
    FileEventStore × Except String Bool :=
  persistAttempts options event store "" (options.attempts attempts)

end SoulonWallet.Indexer

namespace SoulonWallet.Api

open Chain (trimSpace)

/-! ## The webhook -/

structure NotificationMessage where
  id : String
  type : String
  height : ℤ
  blockHash : String
  parentHash : String
  payload : String
  producedAt : ℤ
  persistedAt : ℤ
  receivedAt : ℤ := 0
  deriving DecidableEq

structure WebhookRequest extends Request NotificationMessage where
  authorization : String

/-- The webhook pushes the notifications that it accepts. -/
def handleNotificationWebhook (hub : Hub NotificationMessage) (now : ℤ)
    (request : WebhookRequest) :
    Except ApiError (Hub NotificationMessage) :=
  if request.method ≠ "POST" then .error methodNotAllowed
  else if hub.notifyToken ≠ "" ∧
      trimSpace request.authorization ≠ "Bearer " ++ hub.notifyToken then
    .error (writeApiError 401 .unauthorized "unauthorized" false)
  else
    match request.body with
    | .error message => .error (badRequest message)
    | .ok input =>
        if trimSpace input.id = "" then .error (badRequest "id is required")
        else .ok (hub.pushNotification { input with receivedAt := now })

end SoulonWallet.Api

namespace SoulonWallet.Indexer

open Api
open Chain (trimSpace)

structure WebhookNotifierOptions where
  url : String
  retries : ℤ
  authToken : String

structure WebhookNotifier where
  url : String
  retries : ℤ
  authToken : String

def newWebhookNotifier (options : WebhookNotifierOptions) :
    Except String WebhookNotifier :=
  if trimSpace options.url = "" then .error "webhook url is empty"
  else
    .ok
      { url := trimSpace options.url
        retries := if options.retries < 0 then 0 else options.retries
        authToken := trimSpace options.authToken }

/-- The request that every attempt of `Notify` sends. -/
def WebhookNotifier.notify (notifier : WebhookNotifier) (event : Event) :
    WebhookRequest where
  method := "POST"
  authorization :=
    if notifier.authToken ≠ "" then "Bearer " ++ notifier.authToken else ""
  body :=
    .ok
      { id := event.id
        type := event.type
        height := event.height
        blockHash := event.blockHash
        parentHash := event.parentHash
        payload := event.payload
        producedAt := event.producedAt
        persistedAt := event.persistedAt }

/-! ## What the store records -/

namespace FileEventStore

theorem rollback_log (store : FileEventStore) (fromHeight : ℤ) :
    (store.rollback fromHeight).log = store.log := by
  unfold rollback applyRollback
  split_ifs
  · rfl
  · exact foldl_dropFrom_log _ _ _

theorem applyBlock_log (store : FileEventStore) (event : Event) :
    (store.applyBlock event).log = store.log := by
  unfold applyBlock
  simp only
  split_ifs <;> rfl

end FileEventStore

theorem withDefaults_withType_id (event : Event) :
    event.withType.withDefaults.id = event.withDefaults.id := by
  simp only [Event.withDefaults, Event.withBlockHash, Event.withId,
    Event.withType]
  split_ifs <;> rfl

theorem withDefaults_id_of_ne
    {event : Event} (hid : event.id ≠ "") :
    event.withDefaults.id = event.id := by
  simp only [Event.withDefaults, Event.withBlockHash, Event.withId,
    if_neg hid]
  split_ifs <;> rfl

/-- The id under which a successful `Upsert` ends the log. -/
def recordedId (io : Io) (event : Event) : String :=
  if event.type = "rollback" then rollbackId event.rollbackFrom io.unixNano
  else event.withDefaults.id

theorem upsert_recorded
    {store next : FileEventStore} {io : Io} {event : Event}
    (hupsert : store.upsert io event = (next, .ok true)) :
    ∃ recorded, next.log.getLast? = some recorded ∧
      recorded.id = recordedId io event := by
  by_cases htype : event.type = "rollback"
  · rw [FileEventStore.upsert_of_rollback store io htype,
      FileEventStore.upsertRollback] at hupsert
    have hsame : event.withType = event := by
      simp [Event.withType, htype]
    rw [hsame] at hupsert
    split_ifs at hupsert with hfrom
    · simp at hupsert
    · cases hfirst : io.firstAppend with
      | error err =>
          simp [FileEventStore.appendEvent, hfirst] at hupsert
      | ok time =>
          simp only [FileEventStore.appendEvent, hfirst,
            Prod.mk.injEq] at hupsert
          obtain ⟨rfl, -⟩ := hupsert
          rw [FileEventStore.rollback_log, FileEventStore.logLine]
          refine ⟨_, List.getLast?_concat, ?_⟩
          simp [recordedId, htype]
  · rw [FileEventStore.upsert_of_block store io htype] at hupsert
    have hrecorded : ∀ (before : FileEventStore) (time : ℤ),
        next = (before.logLine time event.withType.withDefaults).applyBlock
          event.withType.withDefaults →
        ∃ recorded, next.log.getLast? = some recorded ∧
          recorded.id = recordedId io event := by
      rintro before time rfl
      rw [FileEventStore.applyBlock_log, FileEventStore.logLine]
      refine ⟨_, List.getLast?_concat, ?_⟩
      simp [recordedId, htype, withDefaults_withType_id]
    rcases store.upsertBlock_cases io event.withType with
      ⟨-, hresult⟩ | ⟨-, err, hresult⟩ | ⟨-, -, time, hresult⟩ |
      ⟨-, rollbackFrom, time, err, -, hresult⟩ |
      ⟨-, rollbackFrom, time, time', -, hresult⟩
    all_goals
      rw [hresult, Prod.mk.injEq] at hupsert
    · simp at hupsert
    · simp at hupsert
    · exact hrecorded _ _ hupsert.1.symm
    · simp at hupsert
    · exact hrecorded _ _ hupsert.1.symm

/-! ## The attempt that succeeds -/

/-- A rollback is persisted by the first attempt whose append succeeds. -/
def Attempt.Appends (attempt : Attempt) : Prop :=
  ∃ time, attempt.io.firstAppend = .ok time

instance (attempt : Attempt) : Decidable attempt.Appends :=
  match happend : attempt.io.firstAppend with
  | .ok time => .isTrue ⟨time, happend⟩
  | .error _ => .isFalse (by simp [Attempt.Appends, happend])

/-- `Upsert` persists a rollback exactly when its height is positive and its
append succeeds. -/
theorem upsert_rollback_ok_iff
    (store : FileEventStore) {io : Io} {event : Event}
    (htype : event.type = "rollback") :
    (∃ next created, store.upsert io event = (next, .ok created)) ↔
      0 < event.rollbackFrom ∧ ∃ time, io.firstAppend = .ok time := by
  have hsame : event.withType = event := by
    simp [Event.withType, htype]
  rw [FileEventStore.upsert_of_rollback store io htype, hsame,
    FileEventStore.upsertRollback]
  split_ifs with hfrom
  · simp only [Prod.mk.injEq, reduceCtorEq, and_false, exists_false,
      false_iff, not_and]
    omega
  · cases hfirst : io.firstAppend with
    | error err => simp [FileEventStore.appendEvent]
    | ok time =>
        simp only [FileEventStore.appendEvent, Prod.mk.injEq,
          Except.ok.injEq, exists_eq', and_true]
        exact iff_of_true ⟨_, _, rfl, rfl⟩ (by omega)

theorem giveUp_ne_created (options : WorkerOptions) (lastErr : String) :
    giveUp options lastErr ≠ .ok true := by
  unfold giveUp
  split_ifs <;> simp

/-- An event is created by one attempt, after attempts that failed. -/
theorem persistAttempts_created
    {options : WorkerOptions} {event : Event} {attempts : List Attempt}
    {store next : FileEventStore} {lastErr : String}
    (hcreated : persistAttempts options event store lastErr attempts =
      (next, .ok true)) :
    ∃ front attempt back, ∃ before : FileEventStore,
      attempts = front ++ attempt :: back ∧
      before.upsert attempt.io event = (next, .ok true) ∧
      ∀ failed ∈ front, ∃ store next : FileEventStore, ∃ err,
        store.upsert failed.io event = (next, .error err) := by
  induction attempts generalizing store lastErr with
  | nil =>
      simp only [persistAttempts, Prod.mk.injEq] at hcreated
      exact absurd hcreated.2 (giveUp_ne_created _ _)
  | cons attempt rest ih =>
      simp only [persistAttempts] at hcreated
      split at hcreated
      next after created hupsert =>
        rw [hcreated] at hupsert
        exact ⟨[], attempt, rest, store, rfl, hupsert, by simp⟩
      next after err hupsert =>
        split_ifs at hcreated with hlast hcancelled
        · simp only [Prod.mk.injEq] at hcreated
          exact absurd hcreated.2 (giveUp_ne_created _ _)
        · simp at hcreated
        · obtain ⟨front, winner, back, before, rfl, hwinner, hfailed⟩ :=
            ih hcreated
          refine ⟨attempt :: front, winner, back, before, rfl, hwinner, ?_⟩
          intro failed hmem
          rcases List.mem_cons.mp hmem with rfl | hmem
          · exact ⟨store, after, err, hupsert⟩
          · exact hfailed failed hmem

/-- The id of a created event in the log. -/
theorem persistWithRetry_recorded
    {options : WorkerOptions} {attempts : ℕ → Attempt}
    {store next : FileEventStore} {event : Event}
    (hcreated : persistWithRetry options attempts store event =
      (next, .ok true)) :
    ∃ attempt recorded, next.log.getLast? = some recorded ∧
      recorded.id = recordedId attempt.io event ∧
      (event.type = "rollback" →
        (options.attempts attempts).find? (fun attempt => attempt.Appends) =
          some attempt) := by
  obtain ⟨front, attempt, back, before, hattempts, hupsert, hfailed⟩ :=
    persistAttempts_created hcreated
  obtain ⟨recorded, hlast, hid⟩ := upsert_recorded hupsert
  refine ⟨attempt, recorded, hlast, hid, ?_⟩
  intro htype
  have hok := (upsert_rollback_ok_iff before htype).mp ⟨_, _, hupsert⟩
  rw [hattempts, List.find?_append, List.find?_cons_of_pos]
  · have hnone : front.find? (fun attempt => attempt.Appends) = none := by
      rw [List.find?_eq_none]
      intro failed hmem happends
      obtain ⟨before', after', err, herror⟩ := hfailed failed hmem
      have htime : failed.Appends := of_decide_eq_true happends
      obtain ⟨after'', created, hsucceeds⟩ :=
        (upsert_rollback_ok_iff before' htype).mpr ⟨hok.1, htime⟩
      rw [herror] at hsucceeds
      simp at hsucceeds
    rw [hnone]
    rfl
  · exact decide_eq_true hok.2

/-! ## The webhook accepts -/

theorem newWebhookNotifier_authToken
    {options : WebhookNotifierOptions} {notifier : WebhookNotifier}
    (hnotifier : newWebhookNotifier options = .ok notifier) :
    notifier.authToken = trimSpace options.authToken := by
  unfold newWebhookNotifier at hnotifier
  by_cases hurl : trimSpace options.url = ""
  · simp [hurl] at hnotifier
  · rw [if_neg hurl, Except.ok.injEq] at hnotifier
    rw [← hnotifier]

theorem trimSpace_bearer
    {token : String} (htoken : trimSpace token ≠ "") :
    trimSpace ("Bearer " ++ trimSpace token) =
      "Bearer " ++ trimSpace token := by
  obtain ⟨init, last, hlast, hend⟩ := Chain.exists_last_of_trimSpace htoken
  have hhead : ("Bearer " ++ trimSpace token).toList =
      'B' :: ("earer ".toList ++ (trimSpace token).toList) := by
    rw [String.toList_append]
    rfl
  have htail : ("Bearer " ++ trimSpace token).toList =
      ("Bearer ".toList ++ init) ++ [last] := by
    rw [String.toList_append, hlast, List.append_assoc]
  exact Chain.trimSpace_eq_self hhead (by decide) htail hend

/-- With the right token the webhook accepts an event exactly when its id is
not blank. -/
theorem webhook_accepts_iff
    {options : WebhookNotifierOptions} {notifier : WebhookNotifier}
    {hub : Hub NotificationMessage} (now : ℤ) (event : Event)
    (hnotifier : newWebhookNotifier options = .ok notifier)
    (htoken : hub.notifyToken = notifier.authToken) :
    (∃ next, handleNotificationWebhook hub now (notifier.notify event) =
      .ok next) ↔ trimSpace event.id ≠ "" := by
  have hauthorized : ¬ (hub.notifyToken ≠ "" ∧
      trimSpace (notifier.notify event).authorization ≠
        "Bearer " ++ hub.notifyToken) := by
    rintro ⟨hnonempty, hwrong⟩
    have hauth := newWebhookNotifier_authToken hnotifier
    rw [htoken] at hnonempty hwrong
    apply hwrong
    rw [hauth] at hnonempty
    simp only [WebhookNotifier.notify, hauth, if_pos hnonempty,
      trimSpace_bearer hnonempty]
  have hmethod : ¬ (notifier.notify event).method ≠ "POST" := by
    simp [WebhookNotifier.notify]
  rw [handleNotificationWebhook, if_neg hmethod, if_neg hauthorized]
  simp only [WebhookNotifier.notify]
  by_cases hblank : trimSpace event.id = ""
  · simp [hblank]
  · simp [hblank]

theorem trimSpace_rollbackId_ne (fromHeight unixNano : ℤ) :
    trimSpace (rollbackId fromHeight unixNano) ≠ "" := by
  have htext : ∃ rest,
      (rollbackId fromHeight unixNano).toList = 'r' :: rest := by
    simp [rollbackId, String.toList_append]
  obtain ⟨rest, hrest⟩ := htext
  exact Chain.trimSpace_ne_empty hrest (by decide)

/-! ## Notifications name the stored event -/

/-- The webhook accepts the notification of the event, and its id is that of
the line which the store has written. -/
def NamesRecord (hub : Hub NotificationMessage) (now : ℤ)
    (notifier : WebhookNotifier) (event : Event) (store : FileEventStore) :
    Prop :=
  (∃ next, handleNotificationWebhook hub now (notifier.notify event) =
    .ok next) ∧
  ∃ message recorded, (notifier.notify event).body = .ok message ∧
    store.log.getLast? = some recorded ∧ message.id = recorded.id

/-- A block brings an id that is not blank, and a rollback the one that its
first attempt with a successful append generates. -/
def BringsId (options : WorkerOptions) (attempts : ℕ → Attempt)
    (event : Event) : Prop :=
  if event.type = "rollback" then
    ∃ attempt ∈ (options.attempts attempts).find? fun attempt =>
        attempt.Appends,
      event.id = rollbackId event.rollbackFrom attempt.io.unixNano
  else trimSpace event.id ≠ ""

theorem notification_names_record_iff
    {options : WorkerOptions} {attempts : ℕ → Attempt}
    {store next : FileEventStore} {event : Event}
    {notifierOptions : WebhookNotifierOptions} {notifier : WebhookNotifier}
    {hub : Hub NotificationMessage} {now : ℤ}
    (hcreated : persistWithRetry options attempts store event =
      (next, .ok true))
    (hnotifier : newWebhookNotifier notifierOptions = .ok notifier)
    (htoken : hub.notifyToken = notifier.authToken) :
    NamesRecord hub now notifier event next ↔
      BringsId options attempts event := by
  obtain ⟨attempt, recorded, hlast, hid, hfind⟩ :=
    persistWithRetry_recorded hcreated
  have hnames : NamesRecord hub now notifier event next ↔
      trimSpace event.id ≠ "" ∧ event.id = recordedId attempt.io event := by
    rw [NamesRecord, webhook_accepts_iff now event hnotifier htoken]
    simp [WebhookNotifier.notify, hlast, hid]
  rw [hnames, BringsId, recordedId]
  split_ifs with htype
  · simp only [hfind htype, Option.mem_some_iff, exists_eq_left']
    constructor
    · exact And.right
    · intro hsame
      refine ⟨?_, hsame⟩
      rw [hsame]
      exact trimSpace_rollbackId_ne _ _
  · constructor
    · exact And.left
    · intro hbrings
      refine ⟨hbrings, (withDefaults_id_of_ne ?_).symm⟩
      exact Chain.ne_empty_of_trimSpace_ne hbrings

def steadyAttempts : ℕ → Attempt :=
  fun _ => ⟨⟨9, .ok 9, .ok 9⟩, false⟩

def webhookOptions : WebhookNotifierOptions :=
  ⟨"/v1/notifications/webhook", 1, "token"⟩

def namedBlock : Event :=
  { id := "h1-a", height := 1, blockHash := "a" }

theorem notification_names_namedBlock :
    ∃ store notifier,
      persistWithRetry {} steadyAttempts .empty namedBlock =
        (store, .ok true) ∧
      newWebhookNotifier webhookOptions = .ok notifier ∧
      NamesRecord (.initial "token" 10) 9 notifier namedBlock store := by
  obtain ⟨store, hcreated⟩ : ∃ store,
      persistWithRetry {} steadyAttempts .empty namedBlock =
        (store, .ok true) :=
    ⟨_, rfl⟩
  obtain ⟨notifier, hnotifier, htoken⟩ : ∃ notifier,
      newWebhookNotifier webhookOptions = .ok notifier ∧
      (Hub.initial "token" 10 : Hub NotificationMessage).notifyToken =
        notifier.authToken :=
    ⟨_, rfl, rfl⟩
  refine ⟨store, notifier, hcreated, hnotifier, ?_⟩
  apply (notification_names_record_iff hcreated hnotifier htoken).mpr
  have hblock : namedBlock.type ≠ "rollback" := by decide
  rw [BringsId, if_neg hblock]
  decide

/-- A rollback that brings an id. -/
def namedRollback : Event :=
  { id := "rollback-1-5", type := "rollback", rollbackFrom := 1 }

theorem notification_misnames_namedRollback :
    ¬ ∀ (options : WorkerOptions) (attempts : ℕ → Attempt)
      (store next : FileEventStore) (event : Event)
      (notifierOptions : WebhookNotifierOptions)
      (notifier : WebhookNotifier) (hub : Hub NotificationMessage) (now : ℤ),
      persistWithRetry options attempts store event = (next, .ok true) →
      newWebhookNotifier notifierOptions = .ok notifier →
      hub.notifyToken = notifier.authToken →
      NamesRecord hub now notifier event next := by
  intro hall
  obtain ⟨next, recorded, hcreated, hlast, hid⟩ :
      ∃ next recorded,
        persistWithRetry {} steadyAttempts .empty namedRollback =
          (next, .ok true) ∧
        next.log.getLast? = some recorded ∧
        recorded.id = "rollback-1-9" :=
    ⟨_, _, rfl, rfl, rfl⟩
  obtain ⟨notifier, hnotifier, htoken⟩ : ∃ notifier,
      newWebhookNotifier webhookOptions = .ok notifier ∧
      (Hub.initial "token" 10 : Hub NotificationMessage).notifyToken =
        notifier.authToken :=
    ⟨_, rfl, rfl⟩
  obtain ⟨-, message, line, hbody, hline, hsame⟩ :=
    hall {} steadyAttempts .empty next namedRollback webhookOptions notifier
      (.initial "token" 10) 9 hcreated hnotifier htoken
  rw [hlast, Option.some.injEq] at hline
  rw [← hline, hid] at hsame
  obtain rfl := Except.ok.inj hbody
  revert hsame
  decide

end SoulonWallet.Indexer
