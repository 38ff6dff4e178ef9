import SoulonWallet.ExceptResults
import SoulonWallet.GoStrings
import SoulonWallet.NotificationStream

/-!
# Configuration from the environment

A secret comes from its variable or from the file that a second variable
names, never from both; whatever is set is trimmed.  `Resolves` says what a
secret is, and the loaders fail exactly where a secret that they read has no
such value or one that they need is missing.
-/

namespace SoulonWallet.Config

open Chain (trimSpace)
open Api (atoi)

/-! ## The model -/

/-- An unset variable reads as the empty text. -/
structure Environment where
  getenv : String → String
  readFile : String → Except String String

inductive ConfigSource where
  | default
  | env
  | file
  deriving DecidableEq

structure ConfigFieldPolicy where
  key : String
  allowedSources : List ConfigSource

structure ConfigValidationError where
  key : String
  message : String
  deriving DecidableEq

def configFieldPolicies : List ConfigFieldPolicy :=
  [⟨"GATEWAY_LISTEN_ADDR", [.default, .env]⟩,
    ⟨"GATEWAY_NODE_ENDPOINTS", [.default, .env]⟩,
    ⟨"GATEWAY_HEALTH_CHECK_MS", [.default, .env]⟩,
    ⟨"GATEWAY_FORWARD_TIMEOUT_MS", [.default, .env]⟩,
    ⟨"INDEXER_STORE_BACKEND", [.default, .env]⟩,
    ⟨"INDEXER_POSTGRES_DSN", [.env, .file]⟩,
    ⟨"INDEXER_NOTIFY_AUTH_TOKEN", [.env, .file]⟩,
    ⟨"API_STORE_BACKEND", [.default, .env]⟩,
    ⟨"API_POSTGRES_DSN", [.env, .file]⟩,
    ⟨"API_NOTIFY_WEBHOOK_TOKEN", [.env, .file]⟩]

/-- What the policy of a key allows, if it has one. -/
def sourceAllowed (key : String) (source : ConfigSource) : Bool :=
  match configFieldPolicies.find? (·.key = key) with
  | none => true
  | some policy => source ∈ policy.allowedSources

def isAbs (path : String) : Bool :=
  ['/'].isPrefixOf path.toList

def getEnv (env : Environment) (key fallback : String) : String :=
  let value := trimSpace (env.getenv key)
  if value = "" then fallback else value

def getEnvInt (env : Environment) (key : String) (fallback : ℤ) : ℤ :=
  let value := trimSpace (env.getenv key)
  if value = "" then fallback else (atoi value).getD fallback

def loadConfigValue (env : Environment) (key fallback : String) :
    Except ConfigValidationError (String × ConfigSource) :=
  let value := trimSpace (env.getenv key)
  let filePath := trimSpace (env.getenv (key ++ "_FILE"))
  if value ≠ "" ∧ filePath ≠ "" then
    .error ⟨key, "only one source is allowed between env and file"⟩
  else if filePath ≠ "" then
    if sourceAllowed key .file = false then
      .error ⟨key, "file source is not allowed"⟩
    else if isAbs filePath = false then
      .error ⟨key, "file source must use absolute path"⟩
    else
      match env.readFile filePath with
      | .error err => .error ⟨key, "unable to read file source: " ++ err⟩
      | .ok content =>
          if trimSpace content = "" then
            .error ⟨key, "file source value is empty"⟩
          else .ok (trimSpace content, .file)
  else if value ≠ "" then
    if sourceAllowed key .env = false then
      .error ⟨key, "env source is not allowed"⟩
    else .ok (value, .env)
  else if fallback ≠ "" then
    if sourceAllowed key .default = false then
      .error ⟨key, "default source is not allowed"⟩
    else .ok (fallback, .default)
  else .ok ("", .default)

def splitCSV (value : String) : List String :=
  let result := ((value.toList.splitOn ',').map fun part =>
    trimSpace (String.ofList part)).filter (· ≠ "")
  if result = [] then ["http://127.0.0.1:26657"] else result

/-- A `time.Duration` of some milliseconds, in nanoseconds on 64 bits. -/
def milliseconds (count : ℤ) : ℤ :=
  (count * 1000000).bmod (2 ^ 64)

/-- `unicode.ToLower` as far as it ends in ASCII; the texts are compared with
ASCII words. -/
def toLowerRune (c : Char) : Char :=
  if c.isUpper then c.toLower
  else if c = '\u212a' then 'k'
  else if c = '\u0130' then 'i'
  else c

def toLower (text : String) : String :=
  String.ofList (text.toList.map toLowerRune)

/-- The ASCII letter that a rune folds to, if there is one. -/
def foldRune (c : Char) : Char :=
  if c.isUpper then c.toLower
  else if c = '\u212a' then 'k'
  else if c = '\u017f' then 's'
  else c

def equalFold (text word : String) : Bool :=
  text.toList.map foldRune == word.toList.map foldRune

structure GatewayConfig where
  listenAddr : String
  nodeEndpoints : List String
  healthCheckInterval : ℤ
  forwardTimeout : ℤ

structure IndexerConfig where
  pollInterval : ℤ
  reorgInterval : ℤ
  queueBackend : String
  kafkaBrokers : List String
  kafkaTopic : String
  kafkaDLQTopic : String
  kafkaGroupID : String
  kafkaKeyStrategy : String
  kafkaWriteTimeoutMs : ℤ
  kafkaWriteRetries : ℤ
  storeBackend : String
  postgresDSN : String
  postgresRetentionBlocks : ℤ
  queueBuffer : ℤ
  eventStorePath : String
  persistMaxRetries : ℤ
  persistRetryBackoffMs : ℤ
  persistFailurePolicy : String
  consumePauseMs : ℤ
  maintenanceIntervalMs : ℤ
  metricsListenAddr : String
  notifyWebhookURL : String
  notifyTimeoutMs : ℤ
  notifyRetries : ℤ
  notifyAuthToken : String

structure APIConfig where
  listenAddr : String
  eventStorePath : String
  storeBackend : String
  postgresDSN : String
  notifyWebhookToken : String
  notificationCapacity : ℤ

def loadGatewayConfigFromEnv (env : Environment) : GatewayConfig where
  listenAddr := getEnv env "GATEWAY_LISTEN_ADDR" ":8081"
  nodeEndpoints :=
    splitCSV (getEnv env "GATEWAY_NODE_ENDPOINTS" "http://127.0.0.1:26657")
  healthCheckInterval :=
    milliseconds (getEnvInt env "GATEWAY_HEALTH_CHECK_MS" 5000)
  forwardTimeout :=
    milliseconds (getEnvInt env "GATEWAY_FORWARD_TIMEOUT_MS" 4000)

def validateIndexerConfig (cfg : IndexerConfig) :
    Except ConfigValidationError Unit :=
  if equalFold (trimSpace cfg.storeBackend) "postgres" ∧
      trimSpace cfg.postgresDSN = "" then
    .error ⟨"INDEXER_POSTGRES_DSN",
      "required when INDEXER_STORE_BACKEND=postgres"⟩
  else if trimSpace cfg.notifyWebhookURL ≠ "" ∧
      trimSpace cfg.notifyAuthToken = "" then
    .error ⟨"INDEXER_NOTIFY_AUTH_TOKEN",
      "required when INDEXER_NOTIFY_WEBHOOK_URL is set"⟩
  else .ok ()

def validateAPIConfig (cfg : APIConfig) : Except ConfigValidationError Unit :=
  if equalFold (trimSpace cfg.storeBackend) "postgres" ∧
      trimSpace cfg.postgresDSN = "" then
    .error ⟨"API_POSTGRES_DSN", "required when API_STORE_BACKEND=postgres"⟩
  else .ok ()

/-- The configuration of the indexer with its two secrets. -/
def indexerConfig (env : Environment) (dsn token : String) : IndexerConfig where
  pollInterval := milliseconds (getEnvInt env "INDEXER_POLL_INTERVAL_MS" 2000)
  reorgInterval := getEnvInt env "INDEXER_REORG_INTERVAL" 0
  queueBackend := getEnv env "INDEXER_QUEUE_BACKEND" "memory"
  kafkaBrokers := splitCSV (getEnv env "INDEXER_KAFKA_BROKERS" "127.0.0.1:9092")
  kafkaTopic := getEnv env "INDEXER_KAFKA_TOPIC" "soulon.indexer.events"
  kafkaDLQTopic :=
    getEnv env "INDEXER_KAFKA_DLQ_TOPIC" "soulon.indexer.events.dlq"
  kafkaGroupID := getEnv env "INDEXER_KAFKA_GROUP_ID" "soulon-indexer"
  kafkaKeyStrategy := getEnv env "INDEXER_KAFKA_KEY_STRATEGY" "id"
  kafkaWriteTimeoutMs := getEnvInt env "INDEXER_KAFKA_WRITE_TIMEOUT_MS" 3000
  kafkaWriteRetries := getEnvInt env "INDEXER_KAFKA_WRITE_RETRIES" 3
  storeBackend := getEnv env "INDEXER_STORE_BACKEND" "file"
  postgresDSN := dsn
  postgresRetentionBlocks :=
    getEnvInt env "INDEXER_POSTGRES_RETENTION_BLOCKS" 0
  queueBuffer := getEnvInt env "INDEXER_QUEUE_BUFFER" 128
  eventStorePath :=
    getEnv env "INDEXER_EVENT_STORE_PATH" "data/indexer-events.jsonl"
  persistMaxRetries := getEnvInt env "INDEXER_PERSIST_MAX_RETRIES" 3
  persistRetryBackoffMs := getEnvInt env "INDEXER_PERSIST_RETRY_BACKOFF_MS" 500
  persistFailurePolicy := getEnv env "INDEXER_PERSIST_FAILURE_POLICY" "stop"
  consumePauseMs := getEnvInt env "INDEXER_CONSUME_PAUSE_MS" 3000
  maintenanceIntervalMs := getEnvInt env "INDEXER_MAINTENANCE_INTERVAL_MS" 60000
  metricsListenAddr := getEnv env "INDEXER_METRICS_LISTEN_ADDR" ""
  notifyWebhookURL := getEnv env "INDEXER_NOTIFY_WEBHOOK_URL" ""
  notifyTimeoutMs := getEnvInt env "INDEXER_NOTIFY_TIMEOUT_MS" 3000
  notifyRetries := getEnvInt env "INDEXER_NOTIFY_RETRIES" 2
  notifyAuthToken := token

def loadIndexerConfigFromEnv (env : Environment) :
    Except ConfigValidationError IndexerConfig := do
  let (postgresDSN, _) ← loadConfigValue env "INDEXER_POSTGRES_DSN" ""
  let (notifyAuthToken, _) ← loadConfigValue env "INDEXER_NOTIFY_AUTH_TOKEN" ""
  let cfg := indexerConfig env postgresDSN notifyAuthToken
  validateIndexerConfig cfg
  return cfg

/-- A secret of the API, or that of the indexer where it is blank. -/
def loadConfigValueOr (env : Environment) (key shared : String) :
    Except ConfigValidationError String := do
  let (value, _) ← loadConfigValue env key ""
  if trimSpace value = "" then
    let (other, _) ← loadConfigValue env shared ""
    return other
  else return value

def apiStoreBackend (env : Environment) : String :=
  let storeBackend := toLower (trimSpace (getEnv env "API_STORE_BACKEND" "auto"))
  if storeBackend ≠ "auto" ∧ storeBackend ≠ "file" ∧ storeBackend ≠ "postgres"
  then "auto"
  else storeBackend

def apiConfig (env : Environment) (dsn token : String) : APIConfig where
  listenAddr := getEnv env "API_LISTEN_ADDR" ":8082"
  eventStorePath :=
    getEnv env "INDEXER_EVENT_STORE_PATH" "data/indexer-events.jsonl"
  storeBackend := apiStoreBackend env
  postgresDSN := dsn
  notifyWebhookToken := token
  notificationCapacity := getEnvInt env "API_NOTIFICATION_CAPACITY" 200

def loadAPIConfigFromEnv (env : Environment) :
    Except ConfigValidationError APIConfig := do
  let postgresDSN ←
    loadConfigValueOr env "API_POSTGRES_DSN" "INDEXER_POSTGRES_DSN"
  let notifyWebhookToken ←
    loadConfigValueOr env "API_NOTIFY_WEBHOOK_TOKEN" "INDEXER_NOTIFY_AUTH_TOKEN"
  let cfg := apiConfig env postgresDSN notifyWebhookToken
  validateAPIConfig cfg
  return cfg

/-! ## What a secret is -/

/-- The trimmed value of a secret; it is empty when neither source is set. -/
inductive Resolves (env : Environment) (key : String) : String → Prop where
  | unset
      (hvalue : trimSpace (env.getenv key) = "")
      (hfile : trimSpace (env.getenv (key ++ "_FILE")) = "") :
      Resolves env key ""
  | env
      (hvalue : trimSpace (env.getenv key) ≠ "")
      (hfile : trimSpace (env.getenv (key ++ "_FILE")) = "") :
      Resolves env key (trimSpace (env.getenv key))
  | file (content : String)
      (hvalue : trimSpace (env.getenv key) = "")
      (hfile : trimSpace (env.getenv (key ++ "_FILE")) ≠ "")
      (habs : isAbs (trimSpace (env.getenv (key ++ "_FILE"))) = true)
      (hread : env.readFile (trimSpace (env.getenv (key ++ "_FILE"))) =
        .ok content)
      (hcontent : trimSpace content ≠ "") :
      Resolves env key (trimSpace content)

/-- The keys whose policy allows the environment and a file. -/
def IsSecret (key : String) : Prop :=
  sourceAllowed key .env = true ∧ sourceAllowed key .file = true

instance (key : String) : Decidable (IsSecret key) :=
  inferInstanceAs (Decidable (_ ∧ _))

theorem loadConfigValue_ok_iff
    {env : Environment} {key value : String} (hkey : IsSecret key) :
    (∃ source, loadConfigValue env key "" = .ok (value, source)) ↔
      Resolves env key value := by
  obtain ⟨henv, hfileAllowed⟩ := hkey
  constructor
  · rintro ⟨source, hload⟩
    unfold loadConfigValue at hload
    dsimp only at hload
    split at hload
    · cases hload
    · next hboth =>
      split at hload
      · next hfile =>
        have hvalue : trimSpace (env.getenv key) = "" := by
          by_contra hvalue
          exact hboth ⟨hvalue, hfile⟩
        split_ifs at hload with hallowed habs
        split at hload
        · cases hload
        · next content hread =>
          split_ifs at hload with hcontent
          cases hload
          exact .file content hvalue hfile (by simpa using habs) hread hcontent
      · next hfile =>
        rw [not_not] at hfile
        split at hload
        · next hvalue =>
          split_ifs at hload
          cases hload
          exact .env hvalue hfile
        · next hvalue =>
          rw [not_not] at hvalue
          rw [if_neg (not_not_intro rfl)] at hload
          cases hload
          exact .unset hvalue hfile
  · intro hresolves
    unfold loadConfigValue
    cases hresolves with
    | unset hvalue hfile => exact ⟨.default, by simp [hvalue, hfile]⟩
    | env hvalue hfile => exact ⟨.env, by simp [hvalue, hfile, henv]⟩
    | file content hvalue hfile habs hread hcontent =>
        exact ⟨.file,
          by simp [hvalue, hfile, hfileAllowed, habs, hread, hcontent]⟩

section Loaders

variable {env : Environment}

theorem Resolves.eq
    {key value other : String} (hvalue : Resolves env key value)
    (hother : Resolves env key other) : value = other := by
  cases hvalue with
  | unset hvalue hfile =>
      cases hother with
      | unset => rfl
      | env hset => exact absurd hvalue hset
      | file _ _ hset => exact absurd hfile hset
  | env hvalue hfile =>
      cases hother with
      | unset hunset => exact absurd hunset hvalue
      | env => rfl
      | file _ hunset => exact absurd hunset hvalue
  | file content hvalue hfile habs hread hcontent =>
      cases hother with
      | unset _ hunset => exact absurd hunset hfile
      | env hset => exact absurd hvalue hset
      | file other _ _ _ hsame =>
          rw [hread] at hsame
          cases hsame
          rfl

/-- A secret is trimmed. -/
theorem Resolves.trimmed
    {key value : String} (hvalue : Resolves env key value) :
    trimSpace value = value := by
  cases hvalue with
  | unset => decide
  | env => exact Chain.trimSpace_trimSpace _
  | file => exact Chain.trimSpace_trimSpace _

theorem loadConfigValue_bind_ok_iff
    {Value : Type} {key : String} (hkey : IsSecret key)
    {rest : String × ConfigSource → Except ConfigValidationError Value}
    (hrest : ∀ value source other,
      rest (value, source) = rest (value, other)) {result : Value} :
    (loadConfigValue env key "" >>= rest) = .ok result ↔
      ∃ value, Resolves env key value ∧
        rest (value, .default) = .ok result := by
  rw [bind_eq_ok_iff]
  constructor
  · rintro ⟨⟨value, source⟩, hload, hresult⟩
    exact ⟨value, (loadConfigValue_ok_iff hkey).mp ⟨source, hload⟩,
      (hrest value _ _).trans hresult⟩
  · rintro ⟨value, hresolves, hresult⟩
    obtain ⟨source, hload⟩ := (loadConfigValue_ok_iff hkey).mpr hresolves
    exact ⟨(value, source), hload, (hrest value _ _).trans hresult⟩

theorem validateIndexerConfig_ok_iff (cfg : IndexerConfig) :
    validateIndexerConfig cfg = .ok () ↔
      (equalFold (trimSpace cfg.storeBackend) "postgres" →
        trimSpace cfg.postgresDSN ≠ "") ∧
      (trimSpace cfg.notifyWebhookURL ≠ "" →
        trimSpace cfg.notifyAuthToken ≠ "") := by
  unfold validateIndexerConfig
  split_ifs with hdsn htoken
  · simp [hdsn]
  · simp [htoken]
  · simp only [true_iff]
    exact ⟨fun hbackend hempty => hdsn ⟨hbackend, hempty⟩,
      fun hurl hempty => htoken ⟨hurl, hempty⟩⟩

theorem validateAPIConfig_ok_iff (cfg : APIConfig) :
    validateAPIConfig cfg = .ok () ↔
      (equalFold (trimSpace cfg.storeBackend) "postgres" →
        trimSpace cfg.postgresDSN ≠ "") := by
  unfold validateAPIConfig
  split_ifs with hdsn
  · simp [hdsn]
  · simp only [true_iff]
    exact fun hbackend hempty => hdsn ⟨hbackend, hempty⟩

theorem loadIndexerConfigFromEnv_ok_iff {cfg : IndexerConfig} :
    loadIndexerConfigFromEnv env = .ok cfg ↔
      ∃ dsn token, Resolves env "INDEXER_POSTGRES_DSN" dsn ∧
        Resolves env "INDEXER_NOTIFY_AUTH_TOKEN" token ∧
        validateIndexerConfig (indexerConfig env dsn token) = .ok () ∧
        indexerConfig env dsn token = cfg := by
  unfold loadIndexerConfigFromEnv
  rw [loadConfigValue_bind_ok_iff (by decide) fun _ _ _ => rfl]
  apply exists_congr
  intro dsn
  dsimp only
  rw [loadConfigValue_bind_ok_iff (by decide) fun _ _ _ => rfl,
    ← exists_and_left]
  apply exists_congr
  intro token
  simp only [bind_eq_ok_iff]
  constructor
  · rintro ⟨hdsn, htoken, ⟨⟩, hvalid, hcfg⟩
    exact ⟨hdsn, htoken, hvalid, Except.ok.inj hcfg⟩
  · rintro ⟨hdsn, htoken, hvalid, rfl⟩
    exact ⟨hdsn, htoken, (), hvalid, rfl⟩

/-- What `loadConfigValueOr` gives. -/
def Shared (env : Environment) (key shared value : String) : Prop :=
  (value ≠ "" ∧ Resolves env key value) ∨
    (Resolves env key "" ∧ Resolves env shared value)

theorem Shared.trimmed
    {key shared value : String} (hvalue : Shared env key shared value) :
    trimSpace value = value := by
  rcases hvalue with ⟨-, hown⟩ | ⟨-, hother⟩
  · exact hown.trimmed
  · exact hother.trimmed

theorem loadConfigValueOr_ok_iff
    {key shared value : String} (hkey : IsSecret key)
    (hshared : IsSecret shared) :
    loadConfigValueOr env key shared = .ok value ↔
      Shared env key shared value := by
  unfold loadConfigValueOr
  rw [loadConfigValue_bind_ok_iff hkey fun _ _ _ => rfl]
  have hown : ∀ own, Resolves env key own →
      ((if trimSpace own = "" then
          (do
            let (other, _) ← loadConfigValue env shared ""
            return other)
        else return own) = (.ok value : Except ConfigValidationError String) ↔
        (own ≠ "" ∧ own = value) ∨ (own = "" ∧ Resolves env shared value)) := by
    intro own hresolves
    rw [hresolves.trimmed]
    split_ifs with hempty
    · rw [loadConfigValue_bind_ok_iff hshared fun _ _ _ => rfl]
      constructor
      · rintro ⟨other, hother, hvalue⟩
        obtain rfl := Except.ok.inj hvalue
        exact Or.inr ⟨hempty, hother⟩
      · rintro (⟨hset, -⟩ | ⟨-, hother⟩)
        · exact absurd hempty hset
        · exact ⟨value, hother, rfl⟩
    · constructor
      · intro hvalue
        exact Or.inl ⟨hempty, Except.ok.inj hvalue⟩
      · rintro (⟨-, rfl⟩ | ⟨hunset, -⟩)
        · rfl
        · exact absurd hunset hempty
  constructor
  · rintro ⟨own, hresolves, hvalue⟩
    rcases (hown own hresolves).mp hvalue with ⟨hset, rfl⟩ | ⟨rfl, hother⟩
    · exact Or.inl ⟨hset, hresolves⟩
    · exact Or.inr ⟨hresolves, hother⟩
  · rintro (⟨hset, hresolves⟩ | ⟨hresolves, hother⟩)
    · exact ⟨value, hresolves, (hown value hresolves).mpr (Or.inl ⟨hset, rfl⟩)⟩
    · exact ⟨"", hresolves, (hown "" hresolves).mpr (Or.inr ⟨rfl, hother⟩)⟩

theorem loadAPIConfigFromEnv_ok_iff {cfg : APIConfig} :
    loadAPIConfigFromEnv env = .ok cfg ↔
      ∃ dsn token,
        Shared env "API_POSTGRES_DSN" "INDEXER_POSTGRES_DSN" dsn ∧
        Shared env "API_NOTIFY_WEBHOOK_TOKEN" "INDEXER_NOTIFY_AUTH_TOKEN"
          token ∧
        validateAPIConfig (apiConfig env dsn token) = .ok () ∧
        apiConfig env dsn token = cfg := by
  have hdsn : IsSecret "API_POSTGRES_DSN" := by decide
  have hdsnShared : IsSecret "INDEXER_POSTGRES_DSN" := by decide
  have htoken : IsSecret "API_NOTIFY_WEBHOOK_TOKEN" := by decide
  have htokenShared : IsSecret "INDEXER_NOTIFY_AUTH_TOKEN" := by decide
  unfold loadAPIConfigFromEnv
  simp only [bind_eq_ok_iff, loadConfigValueOr_ok_iff hdsn hdsnShared,
    loadConfigValueOr_ok_iff htoken htokenShared]
  constructor
  · rintro ⟨dsn, hdsn, token, htoken, ⟨⟩, hvalid, hcfg⟩
    exact ⟨dsn, token, hdsn, htoken, hvalid, Except.ok.inj hcfg⟩
  · rintro ⟨dsn, token, hdsn, htoken, hvalid, rfl⟩
    exact ⟨dsn, hdsn, token, htoken, (), hvalid, rfl⟩

end Loaders

/-! ## Plain values -/

section Values

variable (env : Environment)

theorem getEnv_ne_empty {key fallback : String} (hfallback : fallback ≠ "") :
    getEnv env key fallback ≠ "" := by
  unfold getEnv
  dsimp only
  split_ifs with hvalue
  · exact hfallback
  · exact hvalue

theorem trimSpace_getEnv
    {key fallback : String} (hfallback : trimSpace fallback = fallback) :
    trimSpace (getEnv env key fallback) = getEnv env key fallback := by
  unfold getEnv
  dsimp only
  split_ifs with hvalue
  · exact hfallback
  · exact Chain.trimSpace_trimSpace _

theorem apiStoreBackend_cases :
    apiStoreBackend env = "auto" ∨ apiStoreBackend env = "file" ∨
      apiStoreBackend env = "postgres" := by
  unfold apiStoreBackend
  dsimp only
  split_ifs with hother
  · exact Or.inl rfl
  · rwa [not_and_or, not_and_or, not_not, not_not, not_not] at hother

theorem splitCSV_ne_nil (value : String) : splitCSV value ≠ [] := by
  unfold splitCSV
  dsimp only
  split_ifs with hnone
  · exact List.cons_ne_nil _ _
  · exact hnone

theorem trimmed_of_mem_splitCSV
    {value part : String} (hpart : part ∈ splitCSV value) :
    trimSpace part = part ∧ part ≠ "" := by
  unfold splitCSV at hpart
  dsimp only at hpart
  split_ifs at hpart with hnone
  · rw [List.mem_singleton.mp hpart]
    decide
  · obtain ⟨hmem, hset⟩ := List.mem_filter.mp hpart
    obtain ⟨piece, -, rfl⟩ := List.mem_map.mp hmem
    exact ⟨Chain.trimSpace_trimSpace _, of_decide_eq_true hset⟩

/-- The gateway has a node to ask, whatever the variable holds. -/
theorem nodeEndpoints_ne_nil :
    (loadGatewayConfigFromEnv env).nodeEndpoints ≠ [] := by
  dsimp only [loadGatewayConfigFromEnv]
  exact splitCSV_ne_nil _

end Values

end SoulonWallet.Config
