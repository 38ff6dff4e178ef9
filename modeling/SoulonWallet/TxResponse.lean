import SoulonWallet.ModuleIsolation

/-!
# Versioned responses of the deep chain

`ExecuteTxResponseWithVersion` wraps `ExecuteTx` into a response of one of two
versions.  A version that is not supported is answered without executing the
transaction.  The schema of a v2 response comes from a registry that is shared
by the whole process, which can be extended and reset at any time.

`formatTime` stands for the RFC 3339 form of a clock reading.
-/

namespace SoulonWallet.Chain

open LabelledRun ComponentRun

variable (formatTime : ℤ → String)

def txResponseVersion : String := "v1"
def txResponseVersionLatest : String := "latest"
def txResponseVersionV2 : String := "v2"
def txMetaSchemaV2 : String := "soulon.tx.meta.v2"

def ErrorCode.text : ErrorCode → String
  | .invalidTx => "INVALID_TX"
  | .invalidField => "INVALID_FIELD"
  | .invalidVersion => "INVALID_VERSION"
  | .executionFailed => "EXECUTION_FAILED"

structure TxMeta where
  txType : String
  requestedVersion : String
  resolvedVersion : String := ""
  generatedAt : String
  metaSchema : String := ""
  requestID : String := ""
  deriving DecidableEq

structure TxDataMeta where
  schema : String
  encoding : String
  payloadType : String
  deriving DecidableEq

structure TxError where
  code : ErrorCode
  message : String
  deriving DecidableEq

/-- One case for every `...Data` type, and the map of an unknown type. -/
inductive TxResponseData where
  | bankSend (message : String)
  | stakingDelegate (message : String)
  | stakingRedelegate (message : String)
  | govSubmit (message : String) (proposalID : UInt64)
  | govVote (message : String)
  | govTally (message : String) (accepted quorumMet : Bool)
  | rewardsAdd (message : String)
  | rewardsClaim (message : String) (claimedReward : Int64)
  | unknown (result : TxResult)
  deriving DecidableEq

structure TxResponse where
  version : String
  code : String
  message : String
  status : String := ""
  txMeta : TxMeta
  dataMeta : Option TxDataMeta := none
  data : Option TxResponseData := none
  error : Option TxError := none
  deriving DecidableEq

abbrev SchemaRegistry := KeyedMap String String

def defaultTxDataSchemaV2Registry : SchemaRegistry :=
  [⟨txBankSend, "soulon.tx.data.bank_send.v2"⟩,
    ⟨txStakingDelegate, "soulon.tx.data.staking_delegate.v2"⟩,
    ⟨txStakingRedelegate, "soulon.tx.data.staking_redelegate.v2"⟩,
    ⟨txGovSubmit, "soulon.tx.data.gov_submit.v2"⟩,
    ⟨txGovVote, "soulon.tx.data.gov_vote.v2"⟩,
    ⟨txGovTally, "soulon.tx.data.gov_tally.v2"⟩,
    ⟨txRewardsAdd, "soulon.tx.data.rewards_add.v2"⟩,
    ⟨txRewardsClaim, "soulon.tx.data.rewards_claim.v2"⟩].toAList

def registerTxDataSchemaV2 (registry : SchemaRegistry)
    (txType schema : String) : SchemaRegistry × Except AppError Unit :=
  if txType = "" then
    (registry, .error (newInvalidFieldError "tx type is required"))
  else if schema = "" then
    (registry, .error (newInvalidFieldError "schema is required"))
  else (registry.insert txType schema, .ok ())

def resolveTxResponseVersion (version : String) : Except String String :=
  if version = "" ∨ version = txResponseVersionLatest then
    .ok txResponseVersion
  else if version = txResponseVersion then .ok txResponseVersion
  else if version = txResponseVersionV2 then .ok txResponseVersionV2
  else .error ("unsupported response version: " ++ version)

def resolveResponseStatus (version : String) (success : Bool) : String :=
  if version ≠ txResponseVersionV2 then ""
  else if success then "ok"
  else "error"

def resolveTxDataSchemaV2 (registry : SchemaRegistry) (txType : String) :
    String :=
  registry.get txType "soulon.tx.data.unknown.v2"

def resolveResponseDataMeta (registry : SchemaRegistry)
    (version txType : String) : Option TxDataMeta :=
  if version ≠ txResponseVersionV2 then none
  else some {
    schema := resolveTxDataSchemaV2 registry txType
    encoding := "json"
    payloadType := txType }

/-- The readings of the clock in the course of one call: two for the meta
data and one for a submitted proposal. -/
structure Clock where
  generated : ℤ
  requested : ℤ
  executed : ℤ
  deriving DecidableEq

def newTxMeta (clock : Clock) (txType requestedVersion : String) : TxMeta :=
  if requestedVersion = txResponseVersionV2 then {
    txType, requestedVersion
    generatedAt := formatTime clock.generated
    metaSchema := txMetaSchemaV2
    requestID := "req-" ++ toString clock.requested }
  else {
    txType, requestedVersion
    generatedAt := formatTime clock.generated }

def toTxResponseData (txType : String) (result : TxResult) :
    TxResponseData :=
  if txType = txBankSend then .bankSend result.message
  else if txType = txStakingDelegate then .stakingDelegate result.message
  else if txType = txStakingRedelegate then .stakingRedelegate result.message
  else if txType = txGovSubmit then
    .govSubmit result.message result.proposalID
  else if txType = txGovVote then .govVote result.message
  else if txType = txGovTally then
    .govTally result.message result.accepted result.quorumMet
  else if txType = txRewardsAdd then .rewardsAdd result.message
  else if txType = txRewardsClaim then
    .rewardsClaim result.message result.claimedReward
  else .unknown result

/-- The errors of `ExecuteTx` are all of type `AppError`, so the last branch
of the source has no counterpart. -/
def ChainApp.executeTxResponseWithVersion (app : ChainApp)
    (registry : SchemaRegistry) (clock : Clock) (version : String) (tx : Tx) :
    ChainApp × TxResponse :=
  let txMeta := newTxMeta formatTime clock tx.type version
  match resolveTxResponseVersion version with
  | .error err =>
      (app, {
        version := txResponseVersion
        code := ErrorCode.invalidVersion.text
        message := "failed"
        status := resolveResponseStatus "" false
        txMeta
        dataMeta := resolveResponseDataMeta registry "" tx.type
        error := some ⟨.invalidVersion, err⟩ })
  | .ok resolvedVersion =>
      let txMeta := { txMeta with resolvedVersion }
      match app.executeTx clock.executed tx with
      | (next, .ok result) =>
          (next, {
            version := resolvedVersion
            code := "OK"
            message := "success"
            status := resolveResponseStatus resolvedVersion true
            txMeta
            dataMeta := resolveResponseDataMeta registry resolvedVersion tx.type
            data := some (toTxResponseData tx.type result) })
      | (next, .error err) =>
          (next, {
            version := resolvedVersion
            code := err.code.text
            message := "failed"
            status := resolveResponseStatus resolvedVersion false
            txMeta
            dataMeta := resolveResponseDataMeta registry resolvedVersion tx.type
            error := some ⟨err.code, err.message⟩ })

def ChainApp.executeTxResponse (app : ChainApp)
    (registry : SchemaRegistry) (clock : Clock) (tx : Tx) :
    ChainApp × TxResponse :=
  app.executeTxResponseWithVersion formatTime registry clock
    txResponseVersionLatest tx

def validateTxResponseVersion (version : String) : Except String Unit :=
  (resolveTxResponseVersion version).map fun _ => ()

/-! ## Reading a response -/

def TxResponseData.result : TxResponseData → TxResult
  | .bankSend message | .stakingDelegate message | .stakingRedelegate message
  | .govVote message | .rewardsAdd message => { message }
  | .govSubmit message proposalID => { message, proposalID }
  | .govTally message accepted quorumMet => { message, accepted, quorumMet }
  | .rewardsClaim message claimedReward => { message, claimedReward }
  | .unknown result => result

/-- What a reader of a response learns: the outcome of the call and, from a
v2 response, the schema that it was labelled with. -/
structure Reading where
  outcome : Option (Except AppError TxResult)
  schema : Option String
  deriving DecidableEq

def TxResponse.outcome (response : TxResponse) :
    Option (Except AppError TxResult) :=
  match response.error, response.data with
  | some err, none => some (.error ⟨err.code, err.message⟩)
  | none, some data => some (.ok data.result)
  | _, _ => none

def TxResponse.reading (response : TxResponse) : Reading where
  outcome := response.outcome
  schema := response.dataMeta.map TxDataMeta.schema

theorem exists_ok_of_wrapOutcome
    {α : Type} {onOk : α → TxResult} {outcome : Except String α}
    {result : TxResult} (houtcome : .ok result = wrapOutcome onOk outcome) :
    ∃ value, onOk value = result := by
  cases outcome with
  | error message => cases houtcome
  | ok value => exact ⟨value, (Except.ok.inj houtcome).symm⟩

/-- The typed data of a successful call leaves out only fields that are
zero. -/
theorem ChainApp.Executes.result_toTxResponseData
    {app next : ChainApp} {now : ℤ} {tx : Tx} {result : TxResult}
    (hexecutes : app.Executes now tx next (.ok result)) :
    (toTxResponseData tx.type result).result = result := by
  generalize houtcome : (Except.ok result : Except AppError TxResult) =
    outcome at hexecutes
  cases hexecutes with
  | refused hvalid => cases houtcome
  | rewardsClaim hvalid htype =>
      obtain rfl := Except.ok.inj houtcome
      rw [htype]
      rfl
  | bankSend hvalid htype | stakingDelegate hvalid htype
  | stakingRedelegate hvalid htype | govSubmit hvalid htype
  | govVote hvalid htype | govTally hvalid htype
  | rewardsAdd hvalid htype =>
      obtain ⟨value, rfl⟩ := exists_ok_of_wrapOutcome houtcome
      rw [htype]
      rfl

/-! ## What a response says -/

/-- The outcome, the schema and the version of a response belong together. -/
structure TxResponse.WellFormed (response : TxResponse) : Prop where
  version : response.version = txResponseVersion ∨
    response.version = txResponseVersionV2
  code : response.code =
    response.error.elim "OK" fun err => err.code.text
  message : response.message =
    if response.error = none then "success" else "failed"
  data : response.data = none ↔ response.error ≠ none
  status : response.status =
    if response.version = txResponseVersionV2 then
      if response.error = none then "ok" else "error"
    else ""
  dataMeta : response.dataMeta = none ↔
    response.version ≠ txResponseVersionV2

/-! ## The service -/

inductive Request where
  | execute (version : String) (tx : Tx) (clock : Clock)
  | register (txType schema : String)
  | reset
  deriving DecidableEq

structure Service where
  app : ChainApp
  registry : SchemaRegistry

inductive Answer where
  | response (response : TxResponse)
  | registered (outcome : Except AppError Unit)
  | done

def Service.serve (service : Service) : Request → Answer × Service
  | .execute version tx clock =>
      let (app, response) :=
        service.app.executeTxResponseWithVersion formatTime service.registry
          clock version tx
      (.response response, { service with app })
  | .register txType schema =>
      let (registry, outcome) :=
        registerTxDataSchemaV2 service.registry txType schema
      (.registered outcome, { service with registry })
  | .reset =>
      (.done, { service with registry := defaultTxDataSchemaV2Registry })

/-! ## The service that it refines -/

/-- The chain, and the schemas as a function of the transaction type. -/
structure PlainService where
  app : ChainApp
  schemas : String → String

inductive PlainAnswer where
  | executed (reading : Reading)
  | registered (outcome : Except AppError Unit)
  | done

def defaultSchemas (txType : String) : String :=
  if (moduleOf txType).isSome then "soulon.tx.data." ++ txType ++ ".v2"
  else "soulon.tx.data.unknown.v2"

def supportedVersions : List String :=
  ["", txResponseVersionLatest, txResponseVersion, txResponseVersionV2]

def PlainService.serve (service : PlainService) :
    Request → PlainAnswer × PlainService
  | .execute version tx clock =>
      if version ∈ supportedVersions then
        let (app, outcome) := service.app.executeTx clock.executed tx
        (.executed {
            outcome := some outcome
            schema := if version = txResponseVersionV2 then
              some (service.schemas tx.type) else none },
          { service with app })
      else
        (.executed {
            outcome := some (.error ⟨.invalidVersion,
              "unsupported response version: " ++ version⟩)
            schema := none },
          service)
  | .register txType schema =>
      if txType = "" then
        (.registered (.error ⟨.invalidField, "tx type is required"⟩), service)
      else if schema = "" then
        (.registered (.error ⟨.invalidField, "schema is required"⟩), service)
      else
        (.registered (.ok ()),
          { service with
            schemas := Function.update service.schemas txType schema })
  | .reset => (.done, { service with schemas := defaultSchemas })

def Answer.read : Answer → PlainAnswer
  | .response answered => .executed answered.reading
  | .registered outcome => .registered outcome
  | .done => .done

def Answer.WellFormed : Answer → Prop
  | .response answered => answered.WellFormed
  | _ => True

/-- The calls of `ExecuteTx` that are made for a list of requests. -/
def callsOf (requests : List Request) : List Call :=
  requests.filterMap fun
    | .execute version tx clock =>
        if version ∈ supportedVersions then some (clock.executed, tx) else none
    | _ => none

structure Service.Refines (service : Service) (plain : PlainService) :
    Prop where
  app : service.app = plain.app
  schemas : ∀ txType,
    resolveTxDataSchemaV2 service.registry txType = plain.schemas txType

theorem resolveTxDataSchemaV2_default (txType : String) :
    resolveTxDataSchemaV2 defaultTxDataSchemaV2Registry txType =
      defaultSchemas txType := by
  by_cases hknown : txType ∈ [txBankSend, txStakingDelegate,
      txStakingRedelegate, txGovSubmit, txGovVote, txGovTally, txRewardsAdd,
      txRewardsClaim]
  · fin_cases hknown <;> decide
  · simp only [List.mem_cons, List.not_mem_nil, or_false, not_or] at hknown
    obtain ⟨hbank, hdelegate, hredelegate, hsubmit, hvote, htally, hadd,
      hclaim⟩ := hknown
    have hmodule : moduleOf txType = none := by
      simp [moduleOf, hbank, hdelegate, hredelegate, hsubmit, hvote, htally,
        hadd, hclaim]
    have hlookup : defaultTxDataSchemaV2Registry.lookup txType = none := by
      unfold defaultTxDataSchemaV2Registry
      rw [AList.lookup_to_alist, List.dlookup_eq_none]
      simp [List.keys, hbank, hdelegate, hredelegate, hsubmit, hvote, htally,
        hadd, hclaim]
    simp [resolveTxDataSchemaV2, KeyedMap.get, hlookup, defaultSchemas,
      hmodule]

theorem resolveTxResponseVersion_of_mem
    {version : String} (hversion : version ∈ supportedVersions) :
    resolveTxResponseVersion version =
      .ok (if version = txResponseVersionV2 then txResponseVersionV2
        else txResponseVersion) := by
  fin_cases hversion <;> rfl

theorem resolveTxResponseVersion_of_notMem
    {version : String} (hversion : version ∉ supportedVersions) :
    resolveTxResponseVersion version =
      .error ("unsupported response version: " ++ version) := by
  simp only [supportedVersions, List.mem_cons, List.not_mem_nil, or_false,
    not_or] at hversion
  obtain ⟨hempty, hlatest, hfirst, hsecond⟩ := hversion
  simp [resolveTxResponseVersion, hempty, hlatest, hfirst, hsecond]

/-- A version that is not supported leaves the chain alone. -/
theorem ChainApp.executeTxResponseWithVersion_of_notMem
    (app : ChainApp) (registry : SchemaRegistry) (clock : Clock) (tx : Tx)
    {version : String} (hversion : version ∉ supportedVersions) :
    let answered := app.executeTxResponseWithVersion formatTime registry clock
      version tx
    answered.1 = app ∧ answered.2.WellFormed ∧
      answered.2.reading = {
        outcome := some (.error ⟨.invalidVersion,
          "unsupported response version: " ++ version⟩)
        schema := none } := by
  unfold ChainApp.executeTxResponseWithVersion
  rw [resolveTxResponseVersion_of_notMem hversion]
  refine ⟨rfl, ?_, rfl⟩
  exact {
    version := Or.inl rfl
    code := rfl
    message := rfl
    data := by simp
    status := rfl
    dataMeta := by simp [resolveResponseDataMeta, txResponseVersion,
      txResponseVersionV2] }

/-- A supported version answers with what `ExecuteTx` does. -/
theorem ChainApp.executeTxResponseWithVersion_of_mem
    (app : ChainApp) (registry : SchemaRegistry) (clock : Clock) (tx : Tx)
    {version : String} (hversion : version ∈ supportedVersions) :
    let answered := app.executeTxResponseWithVersion formatTime registry clock
      version tx
    answered.1 = (app.executeTx clock.executed tx).1 ∧
      answered.2.WellFormed ∧
      answered.2.reading = {
        outcome := some (app.executeTx clock.executed tx).2
        schema := if version = txResponseVersionV2 then
          some (resolveTxDataSchemaV2 registry tx.type) else none } := by
  have hexecutes := app.executeTx_executes clock.executed tx
  unfold ChainApp.executeTxResponseWithVersion
  rw [resolveTxResponseVersion_of_mem hversion]
  rcases hexecute : app.executeTx clock.executed tx with ⟨next, err | result⟩
  · refine ⟨rfl, ?_, ?_⟩
    · split_ifs with hsecond
      · exact ⟨Or.inr rfl, rfl, rfl, by simp, rfl, by
          simp [resolveResponseDataMeta]⟩
      · exact ⟨Or.inl rfl, rfl, rfl, by simp, rfl, by
          simp [resolveResponseDataMeta, txResponseVersion,
            txResponseVersionV2]⟩
    · split_ifs with hsecond
      · rfl
      · rfl
  · rw [hexecute] at hexecutes
    have hdata := hexecutes.result_toTxResponseData
    refine ⟨rfl, ?_, ?_⟩
    · split_ifs with hsecond
      · exact ⟨Or.inr rfl, rfl, rfl, by simp, rfl, by
          simp [resolveResponseDataMeta]⟩
      · exact ⟨Or.inl rfl, rfl, rfl, by simp, rfl, by
          simp [resolveResponseDataMeta, txResponseVersion,
            txResponseVersionV2]⟩
    · split_ifs with hsecond
      · simp [TxResponse.reading, TxResponse.outcome, hdata,
          resolveResponseDataMeta]
      · simp [TxResponse.reading, TxResponse.outcome, hdata,
          resolveResponseDataMeta, txResponseVersion, txResponseVersionV2]

/-- One request, answered alike by the service and by the plain one. -/
theorem Service.Refines.serve
    {service : Service} {plain : PlainService}
    (hrefines : service.Refines plain) (request : Request) :
    (service.serve formatTime request).1.read = (plain.serve request).1 ∧
      (service.serve formatTime request).1.WellFormed ∧
      (service.serve formatTime request).2.Refines (plain.serve request).2 := by
  obtain ⟨app, registry⟩ := service
  obtain ⟨app', schemas⟩ := plain
  obtain rfl : app = app' := hrefines.app
  cases request with
  | execute version tx clock =>
      by_cases hversion : version ∈ supportedVersions
      · obtain ⟨happ, hformed, hreading⟩ :=
          app.executeTxResponseWithVersion_of_mem formatTime registry clock tx
            hversion
        rw [hrefines.schemas tx.type] at hreading
        simp only [Service.serve, PlainService.serve, hversion, if_true]
        exact ⟨congrArg PlainAnswer.executed hreading, hformed, happ,
          hrefines.schemas⟩
      · obtain ⟨happ, hformed, hreading⟩ :=
          app.executeTxResponseWithVersion_of_notMem formatTime registry clock
            tx hversion
        simp only [Service.serve, PlainService.serve, hversion, if_false]
        exact ⟨congrArg PlainAnswer.executed hreading, hformed, happ,
          hrefines.schemas⟩
  | register txType schema =>
      simp only [Service.serve, PlainService.serve, registerTxDataSchemaV2]
      split_ifs with htype hschema
      · exact ⟨rfl, trivial, hrefines⟩
      · exact ⟨rfl, trivial, hrefines⟩
      · refine ⟨rfl, trivial, rfl, fun other => ?_⟩
        have hother := hrefines.schemas other
        simp only [resolveTxDataSchemaV2, KeyedMap.get,
          KeyedMap.lookup_insert_eq, Function.update_apply] at hother ⊢
        split_ifs with heq
        · rfl
        · exact hother
  | reset =>
      exact ⟨rfl, trivial, rfl, resolveTxDataSchemaV2_default⟩

/-- What the plain service has executed are the calls with a supported
version. -/
theorem PlainService.after_app
    (plain : PlainService) (requests : List Request) :
    (after PlainService.serve plain requests).app =
      plain.app.afterCalls (callsOf requests) := by
  induction requests generalizing plain with
  | nil => rfl
  | cons request rest ih =>
      rw [after_cons, ih]
      cases request with
      | execute version tx clock =>
          by_cases hversion : version ∈ supportedVersions
          · simp [PlainService.serve, callsOf, hversion, ChainApp.afterCalls,
              ChainApp.call]
          · simp [PlainService.serve, callsOf, hversion]
      | register txType schema =>
          have happ : (plain.serve (.register txType schema)).2.app =
              plain.app := by
            simp only [PlainService.serve]
            split_ifs
            · rfl
            · rfl
            · rfl
          rw [happ]
          rfl
      | reset => rfl

/-- In every sequence of requests the service answers as the plain one: each
response is well formed, a reader gets from it exactly the outcome of
`ExecuteTx` and the schema registered last, and the chain has executed the
calls with a supported version and no others. -/
theorem service_refines_plain (app : ChainApp) (requests : List Request) :
    (observations (Service.serve formatTime)
        ⟨app, defaultTxDataSchemaV2Registry⟩ requests).map Answer.read =
        observations PlainService.serve ⟨app, defaultSchemas⟩ requests ∧
      (∀ answer ∈ observations (Service.serve formatTime)
        ⟨app, defaultTxDataSchemaV2Registry⟩ requests, answer.WellFormed) ∧
      (after (Service.serve formatTime)
        ⟨app, defaultTxDataSchemaV2Registry⟩ requests).app =
        app.afterCalls (callsOf requests) := by
  have hstart : Service.Refines ⟨app, defaultTxDataSchemaV2Registry⟩
      ⟨app, defaultSchemas⟩ := ⟨rfl, resolveTxDataSchemaV2_default⟩
  obtain ⟨hafter, hreadings, hformed⟩ :=
    after_related Service.Refines
      (fun _ _ request hrefines => hrefines.serve formatTime request)
      hstart requests
  exact ⟨hreadings, hformed, hafter.app.trans
    (PlainService.after_app ⟨app, defaultSchemas⟩ requests)⟩

end SoulonWallet.Chain
