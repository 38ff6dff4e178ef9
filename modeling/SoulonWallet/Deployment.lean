import SoulonWallet.Config
import SoulonWallet.WebhookNotification

/-!
# The indexer and the API on one environment

Both processes read their configuration from the same variables and files.
The API falls back on the secrets of the indexer, so that an environment made
for the indexer serves both: the API then accepts what the indexer notifies,
and it reads the events from where the indexer writes them.  The theorems say
when each process starts and exactly when the two agree.

The indexer has started when `Worker.Run` is in its loop.  Whether a queue can
be made and a store be opened is up to the host.
-/

namespace SoulonWallet.Deployment

open Config Indexer
open Api (Hub NotificationMessage handleNotificationWebhook)
open Chain (trimSpace)

/-! ## The model -/

/-- Where events are kept. -/
inductive EventSource where
  | file (path : String)
  | postgres (dsn : String)
  deriving DecidableEq

structure KafkaOptions where
  brokers : List String
  topic : String
  groupID : String
  dlqTopic : String
  keyStrategy : String
  writeTimeoutMs : ℤ
  writeRetries : ℤ

inductive EventQueue where
  | memory (buffer : ℤ)
  | kafka (options : KafkaOptions) (buffer : ℤ)

/-- What making a queue and opening a store come to on a host: memory for a
channel, a file, a driver. -/
structure Host where
  makeQueue : EventQueue → Except String Unit
  openStore : EventSource → Except String Unit

def Host.made (host : Host) (queue : EventQueue) : Except String EventQueue :=
  (host.makeQueue queue).map fun _ => queue

def Host.opened (host : Host) (store : EventSource) :
    Except String EventSource :=
  (host.openStore store).map fun _ => store

def newKafkaQueue (host : Host) (options : KafkaOptions) (buffer : ℤ) :
    Except String EventQueue :=
  let validBrokers := (options.brokers.map trimSpace).filter (· ≠ "")
  if validBrokers = [] then .error "kafka brokers cannot be empty"
  else if trimSpace options.topic = "" then
    .error "kafka topic cannot be empty"
  else if trimSpace options.groupID = "" then
    .error "kafka group id cannot be empty"
  else
    let keyStrategy := toLower (trimSpace options.keyStrategy)
    host.made (.kafka
      { brokers := validBrokers
        topic := trimSpace options.topic
        groupID := trimSpace options.groupID
        dlqTopic := trimSpace options.dlqTopic
        keyStrategy :=
          if keyStrategy ≠ "id" ∧ keyStrategy ≠ "height" ∧
            keyStrategy ≠ "type" then "id" else keyStrategy
        writeTimeoutMs :=
          if options.writeTimeoutMs ≤ 0 then 3000 else options.writeTimeoutMs
        writeRetries :=
          if options.writeRetries ≤ 0 then 3 else options.writeRetries }
      (if buffer ≤ 0 then 128 else buffer))

/-- A channel with a negative buffer panics. -/
def newQueueByBackend (host : Host) (backend : String) (buffer : ℤ)
    (options : KafkaOptions) : Except String EventQueue :=
  let word := toLower (trimSpace backend)
  if word = "" ∨ word = "memory" then
    if buffer < 0 then .error "makechan: size out of range"
    else host.made (.memory buffer)
  else if word = "kafka" then newKafkaQueue host options buffer
  else .error ("unsupported queue backend: " ++ backend)

def newStoreByBackend (host : Host)
    (backend eventStorePath postgresDSN : String) :
    Except String EventSource :=
  let word := toLower (trimSpace backend)
  if word = "" ∨ word = "file" then host.opened (.file eventStorePath)
  else if word = "postgres" then
    if postgresDSN = "" then .error "postgres dsn is empty"
    else host.opened (.postgres postgresDSN)
  else .error ("unsupported store backend: " ++ backend)

structure IndexerProcess where
  queue : EventQueue
  store : EventSource
  notifier : Option WebhookNotifier

def newQueue (host : Host) (cfg : IndexerConfig) : Except String EventQueue :=
  newQueueByBackend host cfg.queueBackend cfg.queueBuffer
    { brokers := cfg.kafkaBrokers
      topic := cfg.kafkaTopic
      groupID := cfg.kafkaGroupID
      dlqTopic := cfg.kafkaDLQTopic
      keyStrategy := cfg.kafkaKeyStrategy
      writeTimeoutMs := cfg.kafkaWriteTimeoutMs
      writeRetries := cfg.kafkaWriteRetries }

/-- What the indexer's `main` makes of its configuration for the worker. -/
def newIndexerProcess (host : Host) (cfg : IndexerConfig) :
    Except String IndexerProcess := do
  let queue ← newQueue host cfg
  let store ←
    newStoreByBackend host cfg.storeBackend cfg.eventStorePath cfg.postgresDSN
  if cfg.notifyWebhookURL = "" then return { queue, store, notifier := none }
  else
    let notifier ← newWebhookNotifier
      { url := cfg.notifyWebhookURL
        retries := cfg.notifyRetries
        authToken := cfg.notifyAuthToken }
    return { queue, store, notifier := some notifier }

/-- `time.NewTicker` panics on these. -/
def newTicker (interval : ℤ) : Except String Unit :=
  if interval ≤ 0 then .error "non-positive interval for NewTicker" else .ok ()

/-- `Worker.Run` up to its loop, with the default of `NewWorker`. -/
def runWorker (cfg : IndexerConfig) : Except String Unit := do
  newTicker cfg.pollInterval
  newTicker (milliseconds
    (if cfg.maintenanceIntervalMs ≤ 0 then 60000
    else cfg.maintenanceIntervalMs))

/-- The fields of the `Server` of the API that come from its configuration. -/
structure ApiProcess where
  eventStorePath : String
  storeBackend : String
  postgresDSN : String
  hub : Hub NotificationMessage

def newServer (cfg : APIConfig) : ApiProcess where
  eventStorePath := cfg.eventStorePath
  storeBackend := toLower (trimSpace cfg.storeBackend)
  postgresDSN := trimSpace cfg.postgresDSN
  hub := Hub.initial cfg.notifyWebhookToken cfg.notificationCapacity

/-- Where `loadEvents` reads, when the file is there or not. -/
def ApiProcess.loadEvents (process : ApiProcess) (missing : Bool) :
    Except String EventSource :=
  let postgres :=
    if process.postgresDSN = "" then .error "postgres dsn is empty"
    else .ok (.postgres process.postgresDSN)
  if process.storeBackend = "file" then .ok (.file process.eventStorePath)
  else if process.storeBackend = "postgres" then postgres
  else if missing = false then .ok (.file process.eventStorePath)
  else if process.postgresDSN = "" then .ok (.file process.eventStorePath)
  else postgres

/-! ## When they start -/

/-- The word that chooses the queue of the indexer. -/
def indexerQueueBackend (env : Environment) : String :=
  toLower (getEnv env "INDEXER_QUEUE_BACKEND" "memory")

/-- The word that chooses the store of the indexer. -/
def indexerStoreBackend (env : Environment) : String :=
  toLower (getEnv env "INDEXER_STORE_BACKEND" "file")

def webhookURL (env : Environment) : String :=
  getEnv env "INDEXER_NOTIFY_WEBHOOK_URL" ""

/-- The indexer has its configuration and its parts. -/
def IndexerBuilds (host : Host) (env : Environment) (cfg : IndexerConfig)
    (process : IndexerProcess) : Prop :=
  loadIndexerConfigFromEnv env = .ok cfg ∧
    newIndexerProcess host cfg = .ok process

def IndexerStarts (host : Host) (env : Environment) (cfg : IndexerConfig)
    (process : IndexerProcess) : Prop :=
  IndexerBuilds host env cfg process ∧ runWorker cfg = .ok ()

/-- A number that is not positive counts as the default. -/
def positiveOr (fallback number : ℤ) : ℤ :=
  if number ≤ 0 then fallback else number

/-- What a queue in Kafka makes of options without spaces at their ends. -/
def KafkaOptions.effective (options : KafkaOptions) : KafkaOptions where
  brokers := options.brokers
  topic := options.topic
  groupID := options.groupID
  dlqTopic := options.dlqTopic
  keyStrategy :=
    if toLower options.keyStrategy ∈ ["id", "height", "type"] then
      toLower options.keyStrategy
    else "id"
  writeTimeoutMs := positiveOr 3000 options.writeTimeoutMs
  writeRetries := positiveOr 3 options.writeRetries

/-- The options that the variables describe. -/
def kafkaOptions (env : Environment) : KafkaOptions where
  brokers := splitCSV (getEnv env "INDEXER_KAFKA_BROKERS" "127.0.0.1:9092")
  topic := getEnv env "INDEXER_KAFKA_TOPIC" "soulon.indexer.events"
  groupID := getEnv env "INDEXER_KAFKA_GROUP_ID" "soulon-indexer"
  dlqTopic := getEnv env "INDEXER_KAFKA_DLQ_TOPIC" "soulon.indexer.events.dlq"
  keyStrategy := getEnv env "INDEXER_KAFKA_KEY_STRATEGY" "id"
  writeTimeoutMs := getEnvInt env "INDEXER_KAFKA_WRITE_TIMEOUT_MS" 3000
  writeRetries := getEnvInt env "INDEXER_KAFKA_WRITE_RETRIES" 3

/-- The queue that the indexer asks for. -/
inductive Queues (env : Environment) : EventQueue → Prop where
  | memory (hbackend : indexerQueueBackend env = "memory")
      (hbuffer : 0 ≤ getEnvInt env "INDEXER_QUEUE_BUFFER" 128) :
      Queues env (.memory (getEnvInt env "INDEXER_QUEUE_BUFFER" 128))
  | kafka (hbackend : indexerQueueBackend env = "kafka") :
      Queues env (.kafka (kafkaOptions env).effective
        (positiveOr 128 (getEnvInt env "INDEXER_QUEUE_BUFFER" 128)))

/-- The two intervals of the worker are positive as 64-bit durations. -/
def Ticks (env : Environment) : Prop :=
  0 < milliseconds (getEnvInt env "INDEXER_POLL_INTERVAL_MS" 2000) ∧
    0 < milliseconds (positiveOr 60000
      (getEnvInt env "INDEXER_MAINTENANCE_INTERVAL_MS" 60000))

section Starts

variable {host : Host} {env : Environment}

theorem toLower_ne_empty {text : String} (htext : text ≠ "") :
    toLower text ≠ "" := by
  intro hempty
  apply htext
  have hlist : text.toList.map toLowerRune = "".toList := by
    rw [← hempty, toLower, String.toList_ofList]
  exact String.toList_eq_nil_iff.mp (List.map_eq_nil_iff.mp hlist)

theorem indexerStoreBackend_ne_empty : indexerStoreBackend env ≠ "" :=
  toLower_ne_empty (getEnv_ne_empty env (by decide))

theorem made_ok_iff {queue made : EventQueue} :
    host.made queue = .ok made ↔
      queue = made ∧ host.makeQueue made = .ok () := by
  rw [Host.made, map_const_eq_ok_iff]
  refine and_congr_right ?_
  rintro rfl
  rfl

theorem opened_ok_iff {store opened : EventSource} :
    host.opened store = .ok opened ↔
      store = opened ∧ host.openStore opened = .ok () := by
  rw [Host.opened, map_const_eq_ok_iff]
  refine and_congr_right ?_
  rintro rfl
  rfl

theorem filter_trimSpace_splitCSV (value : String) :
    ((splitCSV value).map trimSpace).filter (· ≠ "") = splitCSV value := by
  have hkept : (splitCSV value).map trimSpace = splitCSV value := by
    conv_rhs => rw [← List.map_id (splitCSV value)]
    exact List.map_congr_left fun part hpart =>
      (trimmed_of_mem_splitCSV hpart).1
  rw [hkept, List.filter_eq_self]
  exact fun part hpart => decide_eq_true (trimmed_of_mem_splitCSV hpart).2

theorem knownKeyStrategy_eq (word : String) :
    (if word ≠ "id" ∧ word ≠ "height" ∧ word ≠ "type" then "id" else word) =
      if word ∈ ["id", "height", "type"] then word else "id" := by
  by_cases hknown : word ∈ ["id", "height", "type"]
  · have hnot : ¬ (word ≠ "id" ∧ word ≠ "height" ∧ word ≠ "type") := by
      simp only [List.mem_cons, List.not_mem_nil, or_false] at hknown
      tauto
    rw [if_neg hnot, if_pos hknown]
  · have hother : word ≠ "id" ∧ word ≠ "height" ∧ word ≠ "type" := by
      simpa using hknown
    rw [if_pos hother, if_neg hknown]

/-- Options of trimmed values are taken as they are, but for the strategy and
the numbers. -/
theorem newKafkaQueue_of_trimmed
    {options : KafkaOptions} (buffer : ℤ)
    (hbrokers : (options.brokers.map trimSpace).filter (· ≠ "") =
      options.brokers) (hbroker : options.brokers ≠ [])
    (htopic : trimSpace options.topic = options.topic)
    (htopicSet : options.topic ≠ "")
    (hgroup : trimSpace options.groupID = options.groupID)
    (hgroupSet : options.groupID ≠ "")
    (hdlq : trimSpace options.dlqTopic = options.dlqTopic)
    (hstrategy : trimSpace options.keyStrategy = options.keyStrategy) :
    newKafkaQueue host options buffer =
      host.made (.kafka options.effective (positiveOr 128 buffer)) := by
  rw [newKafkaQueue, hbrokers, htopic, hgroup, hdlq, hstrategy]
  dsimp only
  rw [if_neg hbroker, if_neg htopicSet, if_neg hgroupSet, knownKeyStrategy_eq]
  rfl

theorem newQueueByBackend_ok_iff_word
    {backend word : String} {buffer : ℤ} {options : KafkaOptions}
    {queue : EventQueue}
    (hword : toLower (trimSpace backend) = word) (hset : word ≠ "") :
    newQueueByBackend host backend buffer options = .ok queue ↔
      (word = "memory" ∧ 0 ≤ buffer ∧ host.made (.memory buffer) = .ok queue) ∨
        (word = "kafka" ∧ newKafkaQueue host options buffer = .ok queue) := by
  unfold newQueueByBackend
  rw [hword]
  by_cases hmemory : word = "memory"
  · have hother : ¬ word = "kafka" := by
      rw [hmemory]
      decide
    rw [if_pos (Or.inr hmemory), or_iff_left fun hboth => hother hboth.1,
      and_iff_right hmemory]
    by_cases hnegative : buffer < 0
    · rw [if_pos hnegative]
      refine ⟨(nomatch ·), fun hboth => ?_⟩
      exact absurd hnegative (not_lt.mpr hboth.1)
    · rw [if_neg hnegative, and_iff_right (not_lt.mp hnegative)]
  · rw [if_neg (not_or_intro hset hmemory),
      or_iff_right fun hboth => hmemory hboth.1]
    by_cases hchosen : word = "kafka"
    · rw [if_pos hchosen, and_iff_right hchosen]
    · rw [if_neg hchosen]
      refine ⟨(nomatch ·), fun hboth => ?_⟩
      exact absurd hboth.1 hchosen

/-- Kafka is never refused: none of the values that it needs can be blank. -/
theorem newKafkaQueue_kafkaOptions (buffer : ℤ) :
    newKafkaQueue host (kafkaOptions env) buffer =
      host.made (.kafka (kafkaOptions env).effective
        (positiveOr 128 buffer)) := by
  apply newKafkaQueue_of_trimmed <;> dsimp only [kafkaOptions]
  · exact filter_trimSpace_splitCSV _
  · exact splitCSV_ne_nil _
  · exact trimSpace_getEnv env (by decide)
  · exact getEnv_ne_empty env (by decide)
  · exact trimSpace_getEnv env (by decide)
  · exact getEnv_ne_empty env (by decide)
  · exact trimSpace_getEnv env (by decide)
  · exact trimSpace_getEnv env (by decide)

theorem newQueue_indexerConfig (dsn token : String) :
    newQueue host (indexerConfig env dsn token) =
      newQueueByBackend host (getEnv env "INDEXER_QUEUE_BACKEND" "memory")
        (getEnvInt env "INDEXER_QUEUE_BUFFER" 128) (kafkaOptions env) := by
  dsimp only [newQueue, indexerConfig, kafkaOptions]

theorem newQueue_ok_iff {dsn token : String} {queue : EventQueue} :
    newQueue host (indexerConfig env dsn token) = .ok queue ↔
      Queues env queue ∧ host.makeQueue queue = .ok () := by
  have hword :
      toLower (trimSpace (getEnv env "INDEXER_QUEUE_BACKEND" "memory")) =
        indexerQueueBackend env := by
    rw [trimSpace_getEnv env (by decide), indexerQueueBackend]
  have hset : indexerQueueBackend env ≠ "" :=
    toLower_ne_empty (getEnv_ne_empty env (by decide))
  rw [newQueue_indexerConfig, newQueueByBackend_ok_iff_word hword hset,
    newKafkaQueue_kafkaOptions, made_ok_iff, made_ok_iff]
  constructor
  · rintro (⟨hmemory, hbuffer, rfl, hmake⟩ | ⟨hkafka, rfl, hmake⟩)
    · exact ⟨.memory hmemory hbuffer, hmake⟩
    · exact ⟨.kafka hkafka, hmake⟩
  · rintro ⟨hqueue, hmake⟩
    cases hqueue with
    | memory hmemory hbuffer => exact Or.inl ⟨hmemory, hbuffer, rfl, hmake⟩
    | kafka hkafka => exact Or.inr ⟨hkafka, rfl, hmake⟩

theorem newStoreByBackend_ok_iff_word
    {backend word path dsn : String} {store : EventSource}
    (hword : toLower (trimSpace backend) = word) (hset : word ≠ "") :
    newStoreByBackend host backend path dsn = .ok store ↔
      (word = "file" ∧ host.opened (.file path) = .ok store) ∨
        (word = "postgres" ∧ dsn ≠ "" ∧
          host.opened (.postgres dsn) = .ok store) := by
  unfold newStoreByBackend
  rw [hword]
  by_cases hfile : word = "file"
  · have hother : ¬ word = "postgres" := by
      rw [hfile]
      decide
    rw [if_pos (Or.inr hfile), or_iff_left fun hboth => hother hboth.1,
      and_iff_right hfile]
  · rw [if_neg (not_or_intro hset hfile),
      or_iff_right fun hboth => hfile hboth.1]
    by_cases hpostgres : word = "postgres"
    · rw [if_pos hpostgres, and_iff_right hpostgres]
      by_cases hempty : dsn = ""
      · rw [if_pos hempty]
        exact ⟨(nomatch ·), fun hboth => absurd hempty hboth.1⟩
      · rw [if_neg hempty, and_iff_right hempty]
    · rw [if_neg hpostgres]
      refine ⟨(nomatch ·), fun hboth => ?_⟩
      exact absurd hboth.1 hpostgres

/-- The store that the indexer writes to. -/
inductive Writes (env : Environment) (dsn : String) : EventSource → Prop where
  | file (hbackend : indexerStoreBackend env = "file") :
      Writes env dsn
        (.file (getEnv env "INDEXER_EVENT_STORE_PATH"
          "data/indexer-events.jsonl"))
  | postgres (hbackend : indexerStoreBackend env = "postgres")
      (hdsn : dsn ≠ "") :
      Writes env dsn (.postgres dsn)

theorem newStoreByBackend_ok_iff {dsn : String} {store : EventSource} :
    newStoreByBackend host (getEnv env "INDEXER_STORE_BACKEND" "file")
        (getEnv env "INDEXER_EVENT_STORE_PATH" "data/indexer-events.jsonl")
        dsn = .ok store ↔
      Writes env dsn store ∧ host.openStore store = .ok () := by
  have hword : toLower (trimSpace (getEnv env "INDEXER_STORE_BACKEND" "file")) =
      indexerStoreBackend env := by
    rw [trimSpace_getEnv env (by decide), indexerStoreBackend]
  rw [newStoreByBackend_ok_iff_word hword indexerStoreBackend_ne_empty,
    opened_ok_iff, opened_ok_iff]
  constructor
  · rintro (⟨hfile, rfl, hopen⟩ | ⟨hpostgres, hdsn, rfl, hopen⟩)
    · exact ⟨.file hfile, hopen⟩
    · exact ⟨.postgres hpostgres hdsn, hopen⟩
  · rintro ⟨hwrites, hopen⟩
    cases hwrites with
    | file hfile => exact Or.inl ⟨hfile, rfl, hopen⟩
    | postgres hpostgres hdsn => exact Or.inr ⟨hpostgres, hdsn, rfl, hopen⟩

/-- The notifier that the indexer makes. -/
def notifierFor (url token : String) (retries : ℤ) : Option WebhookNotifier :=
  if url = "" then none
  else
    some
      { url
        retries := if retries < 0 then 0 else retries
        authToken := token }

theorem trimSpace_webhookURL : trimSpace (webhookURL env) = webhookURL env :=
  trimSpace_getEnv env (by decide)

theorem newWebhookNotifier_of_trimmed
    {url token : String} {retries : ℤ} (hurl : trimSpace url = url)
    (hset : url ≠ "") (htoken : trimSpace token = token) :
    newWebhookNotifier { url, retries, authToken := token } =
      .ok
        { url
          retries := if retries < 0 then 0 else retries
          authToken := token } := by
  rw [newWebhookNotifier, hurl, htoken, if_neg hset]

theorem newIndexerProcess_ok_iff
    {cfg : IndexerConfig} {process : IndexerProcess}
    (hurl : trimSpace cfg.notifyWebhookURL = cfg.notifyWebhookURL)
    (htoken : trimSpace cfg.notifyAuthToken = cfg.notifyAuthToken) :
    newIndexerProcess host cfg = .ok process ↔
      newQueue host cfg = .ok process.queue ∧
        newStoreByBackend host cfg.storeBackend cfg.eventStorePath
            cfg.postgresDSN = .ok process.store ∧
        process.notifier =
          notifierFor cfg.notifyWebhookURL cfg.notifyAuthToken
            cfg.notifyRetries := by
  obtain ⟨queue, store, notifier⟩ := process
  unfold newIndexerProcess notifierFor
  rw [bind_eq_ok_iff]
  by_cases hset : cfg.notifyWebhookURL = ""
  · simp only [if_pos hset]
    constructor
    · rintro ⟨made, hmade, hrest⟩
      obtain ⟨source, hsource, hprocess⟩ := bind_eq_ok_iff.mp hrest
      cases hprocess
      exact ⟨hmade, hsource, rfl⟩
    · rintro ⟨hmade, hsource, hnone⟩
      exact ⟨queue, hmade, bind_eq_ok_iff.mpr
        ⟨store, hsource, by rw [hnone]; rfl⟩⟩
  · simp only [if_neg hset, newWebhookNotifier_of_trimmed hurl hset htoken]
    constructor
    · rintro ⟨made, hmade, hrest⟩
      obtain ⟨source, hsource, hprocess⟩ := bind_eq_ok_iff.mp hrest
      cases hprocess
      exact ⟨hmade, hsource, rfl⟩
    · rintro ⟨hmade, hsource, hsome⟩
      exact ⟨queue, hmade, bind_eq_ok_iff.mpr
        ⟨store, hsource, by rw [hsome]; rfl⟩⟩

theorem not_equalFold_of_file {text : String} (hfile : toLower text = "file") :
    ¬ equalFold text "postgres" = true := by
  intro hfold
  have hlist : text.toList.map toLowerRune = "file".toList := by
    rw [← hfile, toLower, String.toList_ofList]
  have hfour : text.toList.length = 4 := by
    rw [← List.length_map toLowerRune, hlist]
    rfl
  have height := congrArg List.length (beq_iff_eq.mp hfold)
  rw [List.length_map, List.length_map, hfour] at height
  exact absurd height (by decide)

/-- For a store that the indexer can write to, the checks of its configuration
come down to the token of the webhook. -/
theorem validateIndexerConfig_iff_of_writes
    {dsn token : String} {store : EventSource} (hwrites : Writes env dsn store)
    (hdsn : trimSpace dsn = dsn) (htoken : trimSpace token = token) :
    validateIndexerConfig (indexerConfig env dsn token) = .ok () ↔
      (webhookURL env ≠ "" → token ≠ "") := by
  have hbackend : trimSpace (getEnv env "INDEXER_STORE_BACKEND" "file") =
      getEnv env "INDEXER_STORE_BACKEND" "file" :=
    trimSpace_getEnv env (by decide)
  rw [validateIndexerConfig_ok_iff]
  dsimp only [indexerConfig]
  rw [hbackend, ← webhookURL, trimSpace_webhookURL, hdsn, htoken]
  refine and_iff_right ?_
  cases hwrites with
  | file hfile => exact fun hfold => absurd hfold (not_equalFold_of_file hfile)
  | postgres hpostgres hset => exact fun _ => hset

/-- The parts that an environment asks of a host, and gets. -/
structure Parts (host : Host) (env : Environment) (dsn token : String)
    (process : IndexerProcess) : Prop where
  queues : Queues env process.queue
  made : host.makeQueue process.queue = .ok ()
  writes : Writes env dsn process.store
  opened : host.openStore process.store = .ok ()
  notifier : process.notifier = notifierFor (webhookURL env) token
    (getEnvInt env "INDEXER_NOTIFY_RETRIES" 2)

theorem newIndexerProcess_ok_iff_parts
    {dsn token : String} {process : IndexerProcess}
    (htoken : trimSpace token = token) :
    newIndexerProcess host (indexerConfig env dsn token) = .ok process ↔
      Parts host env dsn token process := by
  have hurl : trimSpace (indexerConfig env dsn token).notifyWebhookURL =
      (indexerConfig env dsn token).notifyWebhookURL := by
    dsimp only [indexerConfig]
    exact trimSpace_getEnv env (by decide)
  have hkept : trimSpace (indexerConfig env dsn token).notifyAuthToken =
      (indexerConfig env dsn token).notifyAuthToken := by
    dsimp only [indexerConfig]
    exact htoken
  rw [newIndexerProcess_ok_iff hurl hkept, newQueue_ok_iff]
  dsimp only [indexerConfig]
  rw [newStoreByBackend_ok_iff, ← webhookURL]
  constructor
  · rintro ⟨⟨hqueue, hmake⟩, ⟨hwrites, hopen⟩, hnotifier⟩
    exact ⟨hqueue, hmake, hwrites, hopen, hnotifier⟩
  · rintro ⟨hqueue, hmake, hwrites, hopen, hnotifier⟩
    exact ⟨⟨hqueue, hmake⟩, ⟨hwrites, hopen⟩, hnotifier⟩

theorem indexerBuilds_iff {cfg : IndexerConfig} {process : IndexerProcess} :
    IndexerBuilds host env cfg process ↔
      ∃ dsn token, Resolves env "INDEXER_POSTGRES_DSN" dsn ∧
        Resolves env "INDEXER_NOTIFY_AUTH_TOKEN" token ∧
        indexerConfig env dsn token = cfg ∧
        Parts host env dsn token process ∧
        (webhookURL env ≠ "" → token ≠ "") := by
  unfold IndexerBuilds
  rw [loadIndexerConfigFromEnv_ok_iff]
  constructor
  · rintro ⟨⟨dsn, token, hdsn, htoken, hvalid, rfl⟩, hmade⟩
    have hparts := (newIndexerProcess_ok_iff_parts htoken.trimmed).mp hmade
    exact ⟨dsn, token, hdsn, htoken, rfl, hparts,
      (validateIndexerConfig_iff_of_writes hparts.writes hdsn.trimmed
        htoken.trimmed).mp hvalid⟩
  · rintro ⟨dsn, token, hdsn, htoken, rfl, hparts, hurl⟩
    have hvalid := (validateIndexerConfig_iff_of_writes hparts.writes
      hdsn.trimmed htoken.trimmed).mpr hurl
    exact ⟨⟨dsn, token, hdsn, htoken, hvalid, rfl⟩,
      (newIndexerProcess_ok_iff_parts htoken.trimmed).mpr hparts⟩

theorem newTicker_ok_iff {interval : ℤ} :
    newTicker interval = .ok () ↔ 0 < interval := by
  unfold newTicker
  split_ifs with hnone
  · exact ⟨(nomatch ·), fun hpositive => absurd hnone (not_le.mpr hpositive)⟩
  · exact ⟨fun _ => by omega, fun _ => rfl⟩

theorem runWorker_ok_iff {cfg : IndexerConfig} :
    runWorker cfg = .ok () ↔
      0 < cfg.pollInterval ∧
        0 < milliseconds (positiveOr 60000 cfg.maintenanceIntervalMs) := by
  unfold runWorker positiveOr
  rw [bind_eq_ok_iff, ← newTicker_ok_iff, ← newTicker_ok_iff]
  constructor
  · rintro ⟨⟨⟩, hpoll, hmaintenance⟩
    exact ⟨hpoll, hmaintenance⟩
  · rintro ⟨hpoll, hmaintenance⟩
    exact ⟨(), hpoll, hmaintenance⟩

theorem runWorker_indexerConfig_iff (dsn token : String) :
    runWorker (indexerConfig env dsn token) = .ok () ↔ Ticks env := by
  rw [runWorker_ok_iff, Ticks]
  dsimp only [indexerConfig]
  exact Iff.rfl

theorem indexerBuilds_of_parts
    {dsn token : String} {queue : EventQueue} {store : EventSource}
    (hdsn : Resolves env "INDEXER_POSTGRES_DSN" dsn)
    (htoken : Resolves env "INDEXER_NOTIFY_AUTH_TOKEN" token)
    (hqueue : Queues env queue) (hmake : host.makeQueue queue = .ok ())
    (hwrites : Writes env dsn store) (hopen : host.openStore store = .ok ())
    (hurl : webhookURL env ≠ "" → token ≠ "") :
    IndexerBuilds host env (indexerConfig env dsn token)
      ⟨queue, store, notifierFor (webhookURL env) token
        (getEnvInt env "INDEXER_NOTIFY_RETRIES" 2)⟩ := by
  rw [indexerBuilds_iff]
  have hparts : Parts host env dsn token
      ⟨queue, store, notifierFor (webhookURL env) token
        (getEnvInt env "INDEXER_NOTIFY_RETRIES" 2)⟩ := by
    constructor
    · exact hqueue
    · exact hmake
    · exact hwrites
    · exact hopen
    · dsimp only
  exact ⟨dsn, token, hdsn, htoken, rfl, hparts, hurl⟩

/-- The word that chooses where the API reads is one of three, in lower
case. -/
theorem apiStoreBackend_kept :
    toLower (trimSpace (apiStoreBackend env)) = apiStoreBackend env ∧
      (equalFold (trimSpace (apiStoreBackend env)) "postgres" = true ↔
        apiStoreBackend env = "postgres") := by
  rcases apiStoreBackend_cases env with hword | hword | hword
  · rw [hword]
    decide
  · rw [hword]
    decide
  · rw [hword]
    decide

theorem apiLoads_iff {cfg : APIConfig} :
    loadAPIConfigFromEnv env = .ok cfg ↔
      ∃ dsn token,
        Shared env "API_POSTGRES_DSN" "INDEXER_POSTGRES_DSN" dsn ∧
        Shared env "API_NOTIFY_WEBHOOK_TOKEN" "INDEXER_NOTIFY_AUTH_TOKEN"
          token ∧
        (apiStoreBackend env = "postgres" → dsn ≠ "") ∧
        apiConfig env dsn token = cfg := by
  have hvalid : ∀ dsn token, trimSpace dsn = dsn →
      (validateAPIConfig (apiConfig env dsn token) = .ok () ↔
        (apiStoreBackend env = "postgres" → dsn ≠ "")) := by
    intro dsn token hdsn
    rw [validateAPIConfig_ok_iff]
    dsimp only [apiConfig]
    rw [hdsn, apiStoreBackend_kept.2]
  rw [loadAPIConfigFromEnv_ok_iff]
  constructor
  · rintro ⟨dsn, token, hdsn, htoken, hchecked, hcfg⟩
    exact ⟨dsn, token, hdsn, htoken,
      (hvalid dsn token hdsn.trimmed).mp hchecked, hcfg⟩
  · rintro ⟨dsn, token, hdsn, htoken, hset, hcfg⟩
    exact ⟨dsn, token, hdsn, htoken,
      (hvalid dsn token hdsn.trimmed).mpr hset, hcfg⟩

theorem apiLoads_of_shared
    {dsn token : String}
    (hdsn : Shared env "API_POSTGRES_DSN" "INDEXER_POSTGRES_DSN" dsn)
    (htoken : Shared env "API_NOTIFY_WEBHOOK_TOKEN" "INDEXER_NOTIFY_AUTH_TOKEN"
      token)
    (hset : apiStoreBackend env = "postgres" → dsn ≠ "") :
    loadAPIConfigFromEnv env = .ok (apiConfig env dsn token) := by
  rw [apiLoads_iff]
  exact ⟨dsn, token, hdsn, htoken, hset, rfl⟩

end Starts

/-- The indexer starts exactly when its two secrets have a value, the queue that
it asks for, in memory or in Kafka, can be made, the store, a file or a database
with a name, can be opened, a webhook comes with a token, and its two intervals
are positive.  The configuration of the API loads exactly when each of its
secrets, or that of the indexer where its own is unset, has a value and a
database that it must read has a name. -/
theorem processes_start_iff (host : Host) (env : Environment) :
    ((∃ cfg process, IndexerStarts host env cfg process) ↔
      ∃ dsn token queue store, Resolves env "INDEXER_POSTGRES_DSN" dsn ∧
        Resolves env "INDEXER_NOTIFY_AUTH_TOKEN" token ∧
        Queues env queue ∧ host.makeQueue queue = .ok () ∧
        Writes env dsn store ∧ host.openStore store = .ok () ∧
        (webhookURL env ≠ "" → token ≠ "") ∧ Ticks env) ∧
    ((∃ cfg, loadAPIConfigFromEnv env = .ok cfg) ↔
      ∃ dsn token,
        Shared env "API_POSTGRES_DSN" "INDEXER_POSTGRES_DSN" dsn ∧
        Shared env "API_NOTIFY_WEBHOOK_TOKEN" "INDEXER_NOTIFY_AUTH_TOKEN"
          token ∧
        (apiStoreBackend env = "postgres" → dsn ≠ "")) := by
  refine ⟨?_, ?_⟩
  · constructor
    · rintro ⟨cfg, process, hbuilds, hticks⟩
      obtain ⟨dsn, token, hdsn, htoken, rfl, hparts, hurl⟩ :=
        indexerBuilds_iff.mp hbuilds
      exact ⟨dsn, token, process.queue, process.store, hdsn, htoken,
        hparts.queues, hparts.made, hparts.writes, hparts.opened, hurl,
        (runWorker_indexerConfig_iff dsn token).mp hticks⟩
    · rintro ⟨dsn, token, queue, store, hdsn, htoken, hqueue, hmake, hwrites,
        hopen, hurl, hticks⟩
      have hbuilds :=
        indexerBuilds_of_parts hdsn htoken hqueue hmake hwrites hopen hurl
      have hruns : runWorker (indexerConfig env dsn token) = .ok () :=
        (runWorker_indexerConfig_iff dsn token).mpr hticks
      exact ⟨_, _, hbuilds, hruns⟩
  · constructor
    · rintro ⟨cfg, hloads⟩
      obtain ⟨dsn, token, hdsn, htoken, hset, -⟩ := apiLoads_iff.mp hloads
      exact ⟨dsn, token, hdsn, htoken, hset⟩
    · rintro ⟨dsn, token, hdsn, htoken, hset⟩
      have hloads := apiLoads_of_shared hdsn htoken hset
      exact ⟨_, hloads⟩

/-! ## When they agree -/

/-- The API has no secret of its own, or the one that the indexer has. -/
def SharesSecret (env : Environment) (key shared : String) : Prop :=
  ∃ own, Resolves env key own ∧ (own = "" ∨ Resolves env shared own)

/-- The API reads from where the indexer writes, when the file of the events
is there or not. -/
def ReadsWritten (env : Environment) (missing : Bool) : Prop :=
  if indexerStoreBackend env = "postgres" then
    (apiStoreBackend env = "postgres" ∨
      apiStoreBackend env = "auto" ∧ missing = true) ∧
      SharesSecret env "API_POSTGRES_DSN" "INDEXER_POSTGRES_DSN"
  else
    apiStoreBackend env = "file" ∨
      apiStoreBackend env = "auto" ∧
        (missing = true → Shared env "API_POSTGRES_DSN" "INDEXER_POSTGRES_DSN" "")

section Agreement

variable {env : Environment}

theorem eq_iff_sharesSecret
    {key shared value other : String} (hvalue : Shared env key shared value)
    (hother : Resolves env shared other) :
    value = other ↔ SharesSecret env key shared := by
  constructor
  · rintro rfl
    rcases hvalue with ⟨-, hown⟩ | ⟨hunset, -⟩
    · exact ⟨value, hown, Or.inr hother⟩
    · exact ⟨"", hunset, Or.inl rfl⟩
  · rintro ⟨own, hown, hshares⟩
    rcases hvalue with ⟨hset, hresolves⟩ | ⟨-, hresolves⟩
    · obtain rfl := hown.eq hresolves
      rcases hshares with hempty | hsame
      · exact absurd hempty hset
      · exact hsame.eq hother
    · exact hresolves.eq hother

theorem Shared.eq
    {key shared value other : String} (hvalue : Shared env key shared value)
    (hother : Shared env key shared other) : value = other := by
  rcases hvalue with ⟨hset, hown⟩ | ⟨hunset, hresolves⟩
  · rcases hother with ⟨-, hown'⟩ | ⟨hunset, -⟩
    · exact hown.eq hown'
    · exact absurd (hown.eq hunset) hset
  · rcases hother with ⟨hset, hown⟩ | ⟨-, hresolves'⟩
    · exact absurd (hown.eq hunset) hset
    · exact hresolves.eq hresolves'

/-- Where the API reads. -/
inductive Reads (env : Environment) (dsn : String) (missing : Bool) :
    EventSource → Prop where
  | file
      (hbackend : apiStoreBackend env = "file" ∨
        apiStoreBackend env = "auto" ∧ (missing = true → dsn = "")) :
      Reads env dsn missing
        (.file (getEnv env "INDEXER_EVENT_STORE_PATH"
          "data/indexer-events.jsonl"))
  | postgres
      (hbackend : apiStoreBackend env = "postgres" ∨
        apiStoreBackend env = "auto" ∧ missing = true)
      (hdsn : dsn ≠ "") :
      Reads env dsn missing (.postgres dsn)

theorem reads_file_iff {dsn : String} {missing : Bool} :
    Reads env dsn missing
        (.file (getEnv env "INDEXER_EVENT_STORE_PATH"
          "data/indexer-events.jsonl")) ↔
      apiStoreBackend env = "file" ∨
        apiStoreBackend env = "auto" ∧ (missing = true → dsn = "") := by
  constructor
  · rintro ⟨hbackend⟩
    exact hbackend
  · exact .file

theorem reads_postgres_iff {dsn other : String} {missing : Bool} :
    Reads env other missing (.postgres dsn) ↔
      (apiStoreBackend env = "postgres" ∨
        apiStoreBackend env = "auto" ∧ missing = true) ∧
        other = dsn ∧ dsn ≠ "" := by
  constructor
  · intro hreads
    cases hreads with
    | postgres hbackend hset => exact ⟨hbackend, rfl, hset⟩
  · rintro ⟨hbackend, rfl, hset⟩
    exact .postgres hbackend hset

section LoadEvents

variable {process : ApiProcess} (missing : Bool)

theorem loadEvents_of_file (hword : process.storeBackend = "file") :
    process.loadEvents missing = .ok (.file process.eventStorePath) :=
  if_pos hword

theorem loadEvents_of_postgres (hword : process.storeBackend = "postgres") :
    process.loadEvents missing =
      if process.postgresDSN = "" then .error "postgres dsn is empty"
      else .ok (.postgres process.postgresDSN) := by
  have hnotFile : ¬ process.storeBackend = "file" := by
    rw [hword]
    decide
  rw [ApiProcess.loadEvents, if_neg hnotFile, if_pos hword]

theorem loadEvents_of_auto (hword : process.storeBackend = "auto") :
    process.loadEvents missing =
      if missing = true ∧ process.postgresDSN ≠ "" then
        .ok (.postgres process.postgresDSN)
      else .ok (.file process.eventStorePath) := by
  have hnotFile : ¬ process.storeBackend = "file" := by
    rw [hword]
    decide
  have hnotPostgres : ¬ process.storeBackend = "postgres" := by
    rw [hword]
    decide
  rw [ApiProcess.loadEvents, if_neg hnotFile, if_neg hnotPostgres]
  cases missing with
  | false => rfl
  | true =>
      rw [if_neg Bool.noConfusion]
      by_cases hempty : process.postgresDSN = ""
      · rw [if_pos hempty]
        exact (if_neg fun hboth => hboth.2 hempty).symm
      · rw [if_neg hempty, if_neg hempty]
        exact (if_pos ⟨rfl, hempty⟩).symm

end LoadEvents

theorem loadEvents_ok_iff
    {dsn token : String} {missing : Bool} {source : EventSource}
    (hdsn : trimSpace dsn = dsn) :
    (newServer (apiConfig env dsn token)).loadEvents missing = .ok source ↔
      Reads env dsn missing source := by
  have hdsnKept : (newServer (apiConfig env dsn token)).postgresDSN = dsn := by
    rw [newServer, apiConfig, hdsn]
  have hkept : (newServer (apiConfig env dsn token)).storeBackend =
      apiStoreBackend env := by
    rw [newServer, apiConfig, apiStoreBackend_kept.1]
  have hpath : (newServer (apiConfig env dsn token)).eventStorePath =
      getEnv env "INDEXER_EVENT_STORE_PATH" "data/indexer-events.jsonl" := by
    rw [newServer, apiConfig]
  have hautoFile : ("auto" : String) ≠ "file" := by decide
  have hautoPostgres : ("auto" : String) ≠ "postgres" := by decide
  have hfilePostgres : ("file" : String) ≠ "postgres" := by decide
  rcases apiStoreBackend_cases env with hword | hword | hword
  · rw [loadEvents_of_auto missing (hkept.trans hword), hdsnKept, hpath]
    constructor
    · intro hload
      split_ifs at hload with hboth
      · cases hload
        exact .postgres (Or.inr ⟨hword, hboth.1⟩) hboth.2
      · cases hload
        refine .file (Or.inr ⟨hword, fun hmissing => ?_⟩)
        by_contra hset
        exact hboth ⟨hmissing, hset⟩
    · intro hreads
      cases hreads with
      | file hbackend =>
          rcases hbackend with hfile | ⟨-, hempty⟩
          · exact absurd (hword.symm.trans hfile) hautoFile
          · exact if_neg fun hboth => hboth.2 (hempty hboth.1)
      | postgres hbackend hset =>
          rcases hbackend with hpostgres | ⟨-, hmissing⟩
          · exact absurd (hword.symm.trans hpostgres) hautoPostgres
          · exact if_pos ⟨hmissing, hset⟩
  · rw [loadEvents_of_file missing (hkept.trans hword), hpath]
    constructor
    · intro hload
      cases hload
      exact .file (Or.inl hword)
    · intro hreads
      cases hreads with
      | file => rfl
      | postgres hbackend =>
          rcases hbackend with hpostgres | ⟨hauto, -⟩
          · exact absurd (hword.symm.trans hpostgres) hfilePostgres
          · exact absurd (hauto.symm.trans hword) hautoFile
  · rw [loadEvents_of_postgres missing (hkept.trans hword), hdsnKept]
    constructor
    · intro hload
      split_ifs at hload with hempty
      cases hload
      exact .postgres (Or.inl hword) hempty
    · intro hreads
      cases hreads with
      | file hbackend =>
          rcases hbackend with hfile | ⟨hauto, -⟩
          · exact absurd (hfile.symm.trans hword) hfilePostgres
          · exact absurd (hauto.symm.trans hword) hautoPostgres
      | postgres _ hset => exact if_neg hset

theorem reads_iff
    {dsn other : String} {store : EventSource} (missing : Bool)
    (hwrites : Writes env dsn store)
    (hresolves : Resolves env "INDEXER_POSTGRES_DSN" dsn)
    (hshared : Shared env "API_POSTGRES_DSN" "INDEXER_POSTGRES_DSN" other) :
    Reads env other missing store ↔ ReadsWritten env missing := by
  have hempty : other = "" ↔
      Shared env "API_POSTGRES_DSN" "INDEXER_POSTGRES_DSN" "" :=
    ⟨fun hvalue => hvalue ▸ hshared, fun hvalue => Shared.eq hshared hvalue⟩
  have hsame := eq_iff_sharesSecret hshared hresolves
  cases hwrites with
  | file hfile =>
      have hother : ¬ indexerStoreBackend env = "postgres" := by
        rw [hfile]
        decide
      rw [reads_file_iff, ReadsWritten, if_neg hother, ← hempty]
  | postgres hpostgres hset =>
      rw [reads_postgres_iff, ReadsWritten, if_pos hpostgres, ← hsame,
        and_iff_left hset]

theorem bearer_injective :
    Function.Injective ("Bearer " ++ · : String → String) := by
  intro token other hsame
  have hlist := congrArg String.toList hsame
  simp only [String.toList_append, List.append_cancel_left_eq] at hlist
  exact String.toList_injective hlist

/-- The webhook takes the notifications of a notifier with a token exactly
when it is its own, and the event has an id. -/
theorem accepts_iff
    {hub : Hub NotificationMessage} {notifier : WebhookNotifier}
    (htrimmed : trimSpace notifier.authToken = notifier.authToken)
    (hset : notifier.authToken ≠ "") (hhub : hub.notifyToken ≠ "")
    (now : ℤ) (event : Indexer.Event) :
    (∃ next, handleNotificationWebhook hub now (notifier.notify event) =
        .ok next) ↔
      trimSpace event.id ≠ "" ∧ hub.notifyToken = notifier.authToken := by
  have hmethod : ¬ (notifier.notify event).method ≠ "POST" := by
    simp [WebhookNotifier.notify]
  have hauthorization : trimSpace (notifier.notify event).authorization =
      "Bearer " ++ notifier.authToken := by
    have hkept := trimSpace_bearer (htrimmed.symm ▸ hset)
    rw [htrimmed] at hkept
    rw [WebhookNotifier.notify, if_pos hset, hkept]
  rw [handleNotificationWebhook, if_neg hmethod, hauthorization]
  by_cases htoken : hub.notifyToken = notifier.authToken
  · rw [htoken, if_neg (by simp)]
    simp only [WebhookNotifier.notify]
    by_cases hblank : trimSpace event.id = ""
    · simp [hblank]
    · simp [hblank]
  · have hdiffers : "Bearer " ++ notifier.authToken ≠
        "Bearer " ++ hub.notifyToken :=
      fun hsame => htoken (bearer_injective hsame).symm
    rw [if_pos ⟨hhub, hdiffers⟩]
    simp [htoken]

theorem notifierFor_authToken
    {url token : String} {retries : ℤ} {notifier : WebhookNotifier}
    (hnotifier : notifierFor url token retries = some notifier) :
    notifier.authToken = token ∧ url ≠ "" := by
  unfold notifierFor at hnotifier
  by_cases hunset : url = ""
  · rw [if_pos hunset] at hnotifier
    cases hnotifier
  · rw [if_neg hunset] at hnotifier
    cases hnotifier
    exact ⟨rfl, hunset⟩

theorem isSome_notifierFor_iff {url token : String} {retries : ℤ} :
    (notifierFor url token retries).isSome ↔ url ≠ "" := by
  unfold notifierFor
  by_cases hunset : url = ""
  · simp [hunset]
  · simp [hunset]

end Agreement

/-- Two processes that are made on one environment: the API reads from where the
indexer writes exactly under `ReadsWritten`, there is a notifier exactly when
a webhook is set, and the API takes its notifications of events with an id
exactly when it shares the token. -/
theorem processes_agree_iff
    {host : Host} {env : Environment} {cfg : IndexerConfig}
    {process : IndexerProcess} {api : APIConfig}
    (hindexer : IndexerBuilds host env cfg process)
    (hapi : loadAPIConfigFromEnv env = .ok api) :
    (∀ missing, (newServer api).loadEvents missing = .ok process.store ↔
      ReadsWritten env missing) ∧
    (process.notifier.isSome ↔ webhookURL env ≠ "") ∧
    ∀ notifier ∈ process.notifier, ∀ (hub : Hub NotificationMessage) now event,
      hub.notifyToken = (newServer api).hub.notifyToken →
      ((∃ next, handleNotificationWebhook hub now (notifier.notify event) =
          .ok next) ↔
        trimSpace event.id ≠ "" ∧
          SharesSecret env "API_NOTIFY_WEBHOOK_TOKEN"
            "INDEXER_NOTIFY_AUTH_TOKEN") := by
  obtain ⟨dsn, token, hdsn, htoken, -, hparts, hurl⟩ :=
    indexerBuilds_iff.mp hindexer
  have hwrites := hparts.writes
  have hnotifier := hparts.notifier
  obtain ⟨apiDSN, apiToken, hapiDSN, hapiToken, -, rfl⟩ := apiLoads_iff.mp hapi
  refine ⟨?_, ?_, ?_⟩
  · intro missing
    rw [loadEvents_ok_iff hapiDSN.trimmed]
    exact reads_iff missing hwrites hdsn hapiDSN
  · rw [hnotifier]
    exact isSome_notifierFor_iff
  · intro notifier hmem hub now event hhub
    rw [hnotifier] at hmem
    obtain ⟨hauth, hset⟩ := notifierFor_authToken hmem
    have htokenSet := hurl hset
    have hhubToken : hub.notifyToken = apiToken := by
      rw [hhub, newServer, Hub.initial, apiConfig, hapiToken.trimmed]
    have hapiSet : apiToken ≠ "" := by
      rcases hapiToken with ⟨hown, -⟩ | ⟨-, hshared⟩
      · exact hown
      · rwa [hshared.eq htoken]
    rw [accepts_iff (hauth ▸ htoken.trimmed) (hauth ▸ htokenSet)
      (hhubToken ▸ hapiSet), hhubToken, hauth,
      eq_iff_sharesSecret hapiToken htoken]

/-! ## An environment made for the indexer -/

/-- The indexer writes to a database and notifies; the API has no variables
of its own. -/
def indexerOnly : Environment where
  getenv key :=
    if key = "INDEXER_STORE_BACKEND" then "postgres"
    else if key = "INDEXER_POSTGRES_DSN" then "postgres://db"
    else if key = "INDEXER_NOTIFY_WEBHOOK_URL" then "http://api/hook"
    else if key = "INDEXER_NOTIFY_AUTH_TOKEN" then "secret"
    else ""
  readFile _ := .error "no such file"

/-- A host on which every queue and every store can be had. -/
def readyHost : Host where
  makeQueue _ := .ok ()
  openStore _ := .ok ()

theorem indexerOnly_dsn :
    Resolves indexerOnly "INDEXER_POSTGRES_DSN" "postgres://db" :=
  .env (by decide) (by decide)

theorem indexerOnly_token :
    Resolves indexerOnly "INDEXER_NOTIFY_AUTH_TOKEN" "secret" :=
  .env (by decide) (by decide)

theorem indexerOnly_unset :
    Resolves indexerOnly "API_POSTGRES_DSN" "" ∧
      Resolves indexerOnly "API_NOTIFY_WEBHOOK_TOKEN" "" :=
  ⟨.unset (by decide) (by decide), .unset (by decide) (by decide)⟩

/-- The API takes what the indexer notifies, and reads its events as long as
no file is left from another time. -/
theorem processes_agree_indexerOnly :
    ∃ cfg process api, IndexerStarts readyHost indexerOnly cfg process ∧
      loadAPIConfigFromEnv indexerOnly = .ok api ∧
      (∀ missing, (newServer api).loadEvents missing = .ok process.store ↔
        missing = true) ∧
      ∀ notifier ∈ process.notifier, ∀ now event,
        (∃ next, handleNotificationWebhook (newServer api).hub now
            (notifier.notify event) = .ok next) ↔
          trimSpace event.id ≠ "" := by
  have hpostgres : indexerStoreBackend indexerOnly = "postgres" := by decide
  have hauto : apiStoreBackend indexerOnly = "auto" := by decide
  have hbuilds : IndexerBuilds readyHost indexerOnly
      (indexerConfig indexerOnly "postgres://db" "secret")
      ⟨.memory (getEnvInt indexerOnly "INDEXER_QUEUE_BUFFER" 128),
        .postgres "postgres://db",
        notifierFor (webhookURL indexerOnly) "secret"
          (getEnvInt indexerOnly "INDEXER_NOTIFY_RETRIES" 2)⟩ :=
    indexerBuilds_of_parts indexerOnly_dsn indexerOnly_token
      (.memory (by decide) (by decide)) rfl (.postgres hpostgres (by decide))
      rfl fun _ => by decide
  have hruns : runWorker (indexerConfig indexerOnly "postgres://db" "secret") =
      .ok () :=
    (runWorker_indexerConfig_iff _ _).mpr ⟨by decide, by decide⟩
  have hapi : loadAPIConfigFromEnv indexerOnly =
      .ok (apiConfig indexerOnly "postgres://db" "secret") :=
    apiLoads_of_shared (Or.inr ⟨indexerOnly_unset.1, indexerOnly_dsn⟩)
      (Or.inr ⟨indexerOnly_unset.2, indexerOnly_token⟩) fun _ => by decide
  obtain ⟨hreads, -, haccepts⟩ := processes_agree_iff hbuilds hapi
  refine ⟨_, _, _, ⟨hbuilds, hruns⟩, hapi, ?_, ?_⟩
  · intro missing
    have hneverPostgres : ¬ apiStoreBackend indexerOnly = "postgres" := by
      rw [hauto]
      decide
    rw [hreads, ReadsWritten, if_pos hpostgres, or_iff_right hneverPostgres,
      and_iff_right hauto, and_iff_left]
    exact ⟨"", indexerOnly_unset.1, Or.inl rfl⟩
  · intro notifier hmem now event
    rw [haccepts notifier hmem _ now event rfl, and_iff_left]
    exact ⟨"", indexerOnly_unset.2, Or.inl rfl⟩

end SoulonWallet.Deployment
