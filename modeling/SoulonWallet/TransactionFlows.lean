import SoulonWallet.HistoryCsv
import SoulonWallet.StakeGovernance

/-!
# Transfers and multisig submissions

`submitTransfer` reads the state of the indexer, signs a challenge and
broadcasts the transfer; `remoteSubmitter` broadcasts a multisig task that has
its signatures.  Unlike staking and voting neither catches what fails.

As there, the answers of the API are given, and the calls that are made are
listed; a call of `getJson` has no body.  Integers are those of 64 bits.
-/

namespace SoulonWallet.TransactionFlows

open Dapp (JsonValue JsonMap Answer PostFailure asMap authSignatureChallenge
  authSignatureConfirm)
open Export (HistoryRecord Timestamp signatureDigest)
open Ibc (intText jsonEncode responseHash valueText)
open Multisig (MultisigTask MultisigOnChainReceipt)
open StakeGovernance (ApiCall Platform base64Encode chainBroadcastTx
  requestIdText toInt utf8Encode)

def indexerState : Utf16 := "/v1/indexer/state"

/-- A sum of integers of 64 bits. -/
def wrapped (value : ℤ) : ℤ :=
  value.bmod (2 ^ 64)

/-- The body of a broadcast. -/
def broadcastBody (txBytes : Utf16) : JsonValue :=
  .map [("tx_bytes", .string txBytes),
    ("mode", .string "BROADCAST_MODE_SYNC")]

variable (platform : Platform)

/-! ## Transfers -/

structure TransferRequest where
  recipientAddress : Utf16
  amount : Binary64
  memo : Utf16

structure FeeTierSuggestion where
  label : Utf16
  gasPrice : Utf16
  estimatedFee : Utf16

structure BuildResult where
  accountNumber : ℤ
  sequence : ℤ
  memo : Utf16

structure SimulationResult where
  gasUsed : ℤ
  feeSuggestions : List FeeTierSuggestion

structure SignResult where
  signerAddress : Utf16
  signatureDigest : Utf16

structure BroadcastResult where
  txHash : Utf16
  height : ℤ
  status : Utf16

structure TransferExecutionSnapshot where
  buildResult : BuildResult
  simulationResult : SimulationResult
  signResult : SignResult
  broadcastResult : BroadcastResult
  historyRecord : HistoryRecord

/-- What the API would answer to the four calls. -/
structure TransferAnswers where
  indexerState : Answer
  challenge : Answer
  confirm : Answer
  broadcast : Answer

/-- The two readings of the clock, the first in milliseconds. -/
structure Clock where
  milliseconds : ℤ
  now : Timestamp

/-- `double.round`, which throws on what is not finite. -/
def round : Binary64 → Except PostFailure ℤ
  | .finite value =>
      .ok (max Dapp.minInt (min Dapp.maxInt
        (if 0 ≤ value then ⌊value + 1 / 2⌋ else ⌈value - 1 / 2⌉)))
  | _ => .error .other

def feeTier (gasUsed : ℤ) (label gasPrice : Utf16) (price : ℚ) :
    FeeTierSuggestion where
  label := label
  gasPrice := gasPrice ++ " uSOUL/gas"
  estimatedFee :=
    platform.toStringAsFixed
      (Binary64.mul (.ofInt gasUsed) (.round price)) 2 ++ " uSOUL"

def simulationResult (gasUsed : ℤ) : SimulationResult where
  gasUsed := gasUsed
  feeSuggestions :=
    [feeTier platform gasUsed "低" "0.015" (15 / 1000),
      feeTier platform gasUsed "中" "0.022" (22 / 1000),
      feeTier platform gasUsed "高" "0.031" (31 / 1000)]

namespace TransferRequest

def gasUsed (request : TransferRequest) : Except PostFailure ℤ :=
  (round (Binary64.mul request.amount (.ofInt 30000))).map fun gas =>
    wrapped (56000 + gas)

def buildResult (request : TransferRequest) (state : JsonMap) :
    BuildResult where
  accountNumber := wrapped (toInt platform (state.get "total") + 102400)
  sequence := wrapped (toInt platform (state.get "tipHeight") + 1)
  memo := request.memo

/-- What is signed, behind the request id. -/
def seed (request : TransferRequest) : Utf16 :=
  request.recipientAddress ++ "|" ++ platform.doubleText request.amount ++
    "|" ++ request.memo

def txPayload (request : TransferRequest) (walletAddress : Utf16)
    (sequence : ℤ) : JsonValue :=
  .map
    [("from", .string walletAddress),
      ("to", .string request.recipientAddress),
      ("amount", .string (platform.toStringAsFixed request.amount 6)),
      ("denom", .string "usoul"),
      ("memo", .string request.memo),
      ("sequence", .int sequence)]

/-- The hash that stands in for a missing one. -/
def localHash (signature : Utf16) (sequence : ℤ) : Utf16 :=
  ((signatureDigest (signature ++ "|" ++ intText sequence)).padRight 64
    0x30).take 64

def snapshot (request : TransferRequest) (walletAddress : Utf16)
    (build : BuildResult) (gasUsed : ℤ) (digest signature : Utf16)
    (response : JsonMap) (clock : Clock) : TransferExecutionSnapshot :=
  let txResult : JsonMap := asMap (response.get "tx_response")
  let txHash := responseHash platform.toPlatform txResult
  let code := toInt platform (txResult.get "code")
  let broadcast : BroadcastResult :=
    { txHash :=
        if txHash.isEmpty then localHash signature build.sequence else txHash
      height := toInt platform (txResult.get "height")
      status := if code = 0 then "已广播并确认" else "广播成功，待链上确认" }
  { buildResult := build
    simulationResult := simulationResult platform gasUsed
    signResult := ⟨walletAddress, digest⟩
    broadcastResult := broadcast
    historyRecord :=
      { id := "HIS-" ++ intText clock.milliseconds
        type := "原生转账"
        toAddress := request.recipientAddress
        amount := platform.toStringAsFixed request.amount 2 ++ " SOUL"
        txHash := broadcast.txHash
        status := if code = 0 then "已确认" else "待确认"
        timestamp := clock.now } }

end TransferRequest

/-- The calls that are made, and what is returned or thrown. -/
def submitTransfer (walletAddress : Utf16) (request : TransferRequest)
    (answers : TransferAnswers) (clock : Clock) :
    List ApiCall × Except PostFailure TransferExecutionSnapshot :=
  let read : ApiCall := ⟨indexerState, .null, answers.indexerState⟩
  match answers.indexerState with
  | .error failure => ([read], .error failure)
  | .ok state =>
      let build := request.buildResult platform state
      match request.gasUsed with
      | .error failure => ([read], .error failure)
      | .ok gasUsed =>
          let challenged : ApiCall :=
            ⟨authSignatureChallenge,
              .map [("accountId", .string walletAddress)],
              answers.challenge⟩
          match answers.challenge with
          | .error failure => ([read, challenged], .error failure)
          | .ok challenge =>
              let requestId := requestIdText platform challenge
              if requestId.isEmpty then ([read, challenged], .error .format)
              else
                let digest :=
                  signatureDigest (requestId ++ "|" ++ request.seed platform)
                let signature :=
                  requestId ++ "." ++ walletAddress ++ "." ++ digest
                let confirmed : ApiCall :=
                  ⟨authSignatureConfirm,
                    .map
                      [("accountId", .string walletAddress),
                        ("requestId", .string requestId),
                        ("signature", .string signature)],
                    answers.confirm⟩
                match answers.confirm with
                | .error failure =>
                    ([read, challenged, confirmed], .error failure)
                | .ok _ =>
                    match jsonEncode platform.toPlatform
                        (request.txPayload platform walletAddress
                          build.sequence) with
                    | .error _ => ([read, challenged, confirmed], .error .other)
                    | .ok text =>
                        let sent : ApiCall :=
                          ⟨chainBroadcastTx,
                            broadcastBody (base64Encode (utf8Encode text)),
                            answers.broadcast⟩
                        ([read, challenged, confirmed, sent],
                          answers.broadcast.map fun response =>
                            request.snapshot platform walletAddress build
                              gasUsed digest signature response clock)

/-! ## Transfers to other chains -/

/-- What `transfer` of the IBC store broadcasts. -/
def ibcPayload (walletAddress : Utf16) (transfer : Ibc.Transfer) : JsonValue :=
  .map
    [("from", .string walletAddress),
      ("to", .string transfer.normalizedReceiver),
      ("amount", .string (platform.toStringAsFixed transfer.amount 6)),
      ("denom", .string "usoul"),
      ("memo",
        .string ("ibc:" ++ transfer.request.chainId ++ ":" ++
          transfer.request.channelId)),
      ("channel_id", .string transfer.request.channelId),
      ("destination_chain_id", .string transfer.request.chainId)]

/-- The broadcast of a transfer that has passed its checks. -/
def ibcBroadcast (walletAddress : Utf16) (transfer : Ibc.Transfer)
    (answer : Answer) : List ApiCall :=
  match jsonEncode platform.toPlatform
      (ibcPayload platform walletAddress transfer) with
  | .error _ => []
  | .ok text =>
      [⟨chainBroadcastTx, broadcastBody (base64Encode (utf8Encode text)),
        answer⟩]

/-! ## Multisig tasks -/

structure MultisigAnswers where
  indexerState : Answer
  broadcast : Answer

/-- `_toInt` of the multisig store. -/
def toIntOrThrow : JsonValue → Except PostFailure ℤ
  | .int value => .ok value
  | .double value => (Dapp.truncate value).mapError fun _ => .other
  | .null => .ok ((platform.tryParseInt "").getD 0)
  | value =>
      .ok ((platform.tryParseInt (valueText platform.toPlatform value)).getD 0)

def fallbackHash (seed : Utf16) : Utf16 :=
  let hash := seed.units.foldl
    (fun current code => ((current * 41) ^^^ code.toNat) &&& 0x7fffffff) 0
  (((Utf16.ofNatHex hash).padLeft 16 0x30).padRight 64 0x30).take 64

def taskPayload (task : MultisigTask) (sequence : ℤ) : JsonValue :=
  .map
    [("taskId", .string task.id),
      ("txDigest", .string task.txDigest),
      ("approvedSigners", .list (task.approvedSigners.map .string)),
      ("threshold", .int task.threshold),
      ("sequence", .int sequence)]

/-- `now` is in microseconds. -/
def receipt (task : MultisigTask) (response : JsonMap) (now : ℤ) :
    Except PostFailure MultisigOnChainReceipt := do
  let txResponse : JsonMap := asMap (response.get "tx_response")
  let txHashRaw := responseHash platform.toPlatform txResponse
  let height ← toIntOrThrow platform (txResponse.get "height")
  let code ← toIntOrThrow platform (txResponse.get "code")
  .ok
    { txHash :=
        if txHashRaw.isEmpty then
          fallbackHash
            (task.id ++ "|" ++ task.txDigest ++ "|" ++ intText now)
        else txHashRaw
      height := height
      confirmed := code = 0
      statusText := if code = 0 then "链上确认成功" else "已提交等待确认" }

/-- `_buildRemoteSubmitter`. -/
def remoteSubmitter (task : MultisigTask) (answers : MultisigAnswers)
    (now : ℤ) : List ApiCall × Except PostFailure MultisigOnChainReceipt :=
  let read : ApiCall := ⟨indexerState, .null, answers.indexerState⟩
  match answers.indexerState with
  | .error failure => ([read], .error failure)
  | .ok state =>
      match toIntOrThrow platform (state.get "tipHeight") with
      | .error failure => ([read], .error failure)
      | .ok tipHeight =>
          match jsonEncode platform.toPlatform
              (taskPayload task (wrapped (tipHeight + 1))) with
          | .error _ => ([read], .error .other)
          | .ok text =>
              let sent : ApiCall :=
                ⟨chainBroadcastTx,
                  broadcastBody (base64Encode (utf8Encode text)),
                  answers.broadcast⟩
              match answers.broadcast with
              | .error failure => ([read, sent], .error failure)
              | .ok response =>
                  ([read, sent], receipt platform task response now)

end SoulonWallet.TransactionFlows
