import SoulonWallet.IbcTransfer
import SoulonWallet.Utf16Scalars

/-!
# Staking and voting

`runStakeFlow` and `submitVote` ask for a signature challenge, confirm it with
a signature and broadcast a transaction.  Whatever fails on the way is caught,
and a result of local values is returned in its place.  Both functions are
`signedBroadcast` with their own texts, and what they made of the answer.

The answers of the API are given; a call that is not made leaves its answer
unread, and the calls that are made are listed with what they returned.
-/

namespace SoulonWallet.StakeGovernance

open Dapp (JsonValue JsonMap Answer asMap authSignatureChallenge
  authSignatureConfirm)
open Ibc (valueText intText jsonEncode responseHash)

structure Platform extends Ibc.Platform where
  toStringAsFixed : Binary64 → ℕ → Utf16

inductive StakeActionType where
  | delegate
  | undelegate
  | redelegate
  | claim
  deriving DecidableEq

inductive GovernanceVoteOption where
  | yes
  | no
  | abstain
  | noWithVeto
  deriving DecidableEq

structure StakeFlowResult where
  action : StakeActionType
  validator : Utf16
  destinationValidator : Option Utf16
  amount : Binary64
  txHash : Utf16
  height : ℤ
  status : Utf16
  contractPath : Utf16

structure StakeExecutionSnapshot where
  simulatedGas : ℤ
  feeSuggestion : Utf16
  txDigest : Utf16
  result : StakeFlowResult

structure GovernanceVoteResult where
  proposalId : ℤ
  option : GovernanceVoteOption
  txHash : Utf16
  status : Utf16
  height : ℤ
  contractPath : Utf16

structure StakeRequest where
  action : StakeActionType
  validator : Utf16
  destinationValidator : Option Utf16
  amount : Binary64

structure VoteRequest where
  proposalId : ℤ
  option : GovernanceVoteOption
  reason : Utf16

/-- What the API would answer to the three calls. -/
structure Answers where
  challenge : Answer
  confirm : Answer
  broadcast : Answer

/-- A call that was made. -/
structure ApiCall where
  path : Utf16
  body : JsonValue
  answer : Answer

def chainBroadcastTx : Utf16 := "/v1/chain/txs"

/-! ## Texts -/

/-- `toString` of the enumerations. -/
def StakeActionType.text : StakeActionType → Utf16
  | .delegate => "StakeActionType.delegate"
  | .undelegate => "StakeActionType.undelegate"
  | .redelegate => "StakeActionType.redelegate"
  | .claim => "StakeActionType.claim"

def GovernanceVoteOption.text : GovernanceVoteOption → Utf16
  | .yes => "GovernanceVoteOption.yes"
  | .no => "GovernanceVoteOption.no"
  | .abstain => "GovernanceVoteOption.abstain"
  | .noWithVeto => "GovernanceVoteOption.noWithVeto"

def actionLabel : StakeActionType → Utf16
  | .delegate => "delegate"
  | .undelegate => "undelegate"
  | .redelegate => "redelegate"
  | .claim => "claim"

def voteOption : GovernanceVoteOption → Utf16
  | .yes => "VOTE_OPTION_YES"
  | .no => "VOTE_OPTION_NO"
  | .abstain => "VOTE_OPTION_ABSTAIN"
  | .noWithVeto => "VOTE_OPTION_NO_WITH_VETO"

def digest (seed : Utf16) : Utf16 :=
  let raw := seed.units.foldl
    (fun hash code => ((hash * 31) ^^^ code.toNat) &&& 0x7fffffff) 0
  (Utf16.ofNatHex raw).padLeft 16 0x30

/-- The hash that stands in for a missing one. -/
def localHash (seed : Utf16) : Utf16 :=
  ((digest seed).padRight 64 0x30).take 64

def base64Digit (value : ℕ) : UInt16 :=
  if value < 26 then (0x41 + value).toUInt16
  else if value < 52 then (0x61 + (value - 26)).toUInt16
  else if value < 62 then (0x30 + (value - 52)).toUInt16
  else if value = 62 then 0x2B
  else 0x2F

def base64Units : List UInt8 → List UInt16
  | [] => []
  | [a] =>
      [base64Digit (a.toNat / 4), base64Digit (a.toNat % 4 * 16), 0x3D, 0x3D]
  | [a, b] =>
      [base64Digit (a.toNat / 4),
        base64Digit (a.toNat % 4 * 16 + b.toNat / 16),
        base64Digit (b.toNat % 16 * 4), 0x3D]
  | a :: b :: c :: rest =>
      base64Digit (a.toNat / 4) ::
        base64Digit (a.toNat % 4 * 16 + b.toNat / 16) ::
        base64Digit (b.toNat % 16 * 4 + c.toNat / 64) ::
        base64Digit (c.toNat % 64) :: base64Units rest

def base64Encode (bytes : List UInt8) : Utf16 :=
  ⟨base64Units bytes⟩

def utf8Encode (text : Utf16) : List UInt8 :=
  Utf8.encode text.toChars

variable (platform : Platform)

/-- The integer that a value is or that its text denotes. -/
def readInt : JsonValue → Option ℤ
  | .int value => some value
  | .null => platform.tryParseInt ""
  | value => platform.tryParseInt (valueText platform.toPlatform value)

/-- `_toInt` of this file. -/
def toInt (value : JsonValue) : ℤ :=
  (readInt platform value).getD 0

/-- `(challenge['requestId'] ?? '').toString()`. -/
def requestIdText (challenge : JsonMap) : Utf16 :=
  match challenge.get "requestId" with
  | .null => ""
  | value => valueText platform.toPlatform value

/-! ## The three calls -/

structure Broadcast where
  digest : Utf16
  signature : Utf16
  response : JsonMap

/-- The calls that are made, and what the function goes on with unless it
throws.  `seed` is what is signed, without the request id. -/
def signedBroadcast (walletAddress seed : Utf16) (txBody : JsonValue)
    (answers : Answers) : List ApiCall × Option Broadcast :=
  let challenged : ApiCall :=
    ⟨authSignatureChallenge, .map [("accountId", .string walletAddress)],
      answers.challenge⟩
  match answers.challenge with
  | .error _ => ([challenged], none)
  | .ok challenge =>
      let requestId := requestIdText platform challenge
      if requestId.isEmpty then ([challenged], none)
      else
        let signed := digest (requestId ++ "|" ++ seed)
        let signature := requestId ++ "." ++ walletAddress ++ "." ++ signed
        let confirmed : ApiCall :=
          ⟨authSignatureConfirm,
            .map
              [("accountId", .string walletAddress),
                ("requestId", .string requestId),
                ("signature", .string signature)],
            answers.confirm⟩
        match answers.confirm with
        | .error _ => ([challenged, confirmed], none)
        | .ok _ =>
            match jsonEncode platform.toPlatform txBody with
            | .error _ => ([challenged, confirmed], none)
            | .ok text =>
                let sent : ApiCall :=
                  ⟨chainBroadcastTx,
                    .map
                      [("tx_bytes", .string (base64Encode (utf8Encode text))),
                        ("mode", .string "BROADCAST_MODE_SYNC")],
                    answers.broadcast⟩
                match answers.broadcast with
                | .error _ => ([challenged, confirmed, sent], none)
                | .ok response =>
                    ([challenged, confirmed, sent],
                      some ⟨signed, signature, response⟩)

def optionalText : Option Utf16 → Utf16
  | none => "null"
  | some text => text

def optionalValue : Option Utf16 → JsonValue
  | none => .null
  | some text => .string text

/-- `modeAmount`. -/
def StakeRequest.modeAmount (request : StakeRequest) : Binary64 :=
  if request.action = .claim then .finite 0 else request.amount

def StakeRequest.gasUsed (request : StakeRequest) : ℤ :=
  if request.action = .claim then 56000 else 88000

def StakeRequest.txBody (request : StakeRequest) (walletAddress : Utf16) :
    JsonValue :=
  .map
    [("module", .string "staking"),
      ("action", .string (actionLabel request.action)),
      ("validator", .string request.validator),
      ("destinationValidator", optionalValue request.destinationValidator),
      ("amount", .string (platform.toStringAsFixed request.modeAmount 6)),
      ("denom", .string "usoul"),
      ("delegator", .string walletAddress)]

def StakeRequest.result (request : StakeRequest) (txHash : Utf16)
    (height : ℤ) (status : Utf16) : StakeFlowResult where
  action := request.action
  validator := request.validator
  destinationValidator := request.destinationValidator
  amount := request.modeAmount
  txHash := txHash
  height := height
  status := status
  contractPath := chainBroadcastTx

def StakeRequest.snapshot (request : StakeRequest) (broadcast : Broadcast) :
    StakeExecutionSnapshot :=
  let txResult : JsonMap := asMap (broadcast.response.get "tx_response")
  let txHash := responseHash platform.toPlatform txResult
  let fee := Binary64.mul (.ofInt request.gasUsed) (.round (21 / 1000))
  { simulatedGas := request.gasUsed
    feeSuggestion := platform.toStringAsFixed fee 0 ++ " uSOUL"
    txDigest := broadcast.digest
    result :=
      request.result
        (if txHash.isEmpty then localHash broadcast.signature else txHash)
        (toInt platform (txResult.get "height"))
        (if toInt platform (txResult.get "code") = 0 then "已上链确认"
          else "已广播，待确认") }

/-- The handler of `runStakeFlow`; `now` is in milliseconds. -/
def StakeRequest.fallback (request : StakeRequest) (now : ℤ) :
    StakeExecutionSnapshot :=
  let txDigest := digest
    (request.action.text ++ "|" ++ request.validator ++ "|" ++
      platform.doubleText request.modeAmount ++ "|" ++ intText now)
  { simulatedGas := request.gasUsed
    feeSuggestion := "1848 uSOUL"
    txDigest := txDigest
    result :=
      request.result (localHash ("fallback|" ++ txDigest)) 912345
        "已上链确认" }

def StakeRequest.outcome (request : StakeRequest) (now : ℤ) :
    Option Broadcast → StakeExecutionSnapshot
  | some broadcast => request.snapshot platform broadcast
  | none => request.fallback platform now

def runStakeFlow (walletAddress : Utf16) (request : StakeRequest)
    (answers : Answers) (now : ℤ) : List ApiCall × StakeExecutionSnapshot :=
  let seed :=
    request.action.text ++ "|" ++ request.validator ++ "|" ++
      optionalText request.destinationValidator ++ "|" ++
      platform.doubleText request.modeAmount
  let (calls, broadcast) := signedBroadcast platform walletAddress seed
    (request.txBody platform walletAddress) answers
  (calls, request.outcome platform now broadcast)

def VoteRequest.txBody (request : VoteRequest) (walletAddress : Utf16) :
    JsonValue :=
  .map
    [("module", .string "governance"),
      ("proposalId", .int request.proposalId),
      ("option", .string (voteOption request.option)),
      ("reason", .string request.reason.trim),
      ("voter", .string walletAddress)]

def VoteRequest.snapshot (request : VoteRequest) (broadcast : Broadcast) :
    GovernanceVoteResult :=
  let txResult : JsonMap := asMap (broadcast.response.get "tx_response")
  { proposalId := request.proposalId
    option := request.option
    txHash := responseHash platform.toPlatform txResult
    status :=
      if toInt platform (txResult.get "code") = 0 then "投票已确认"
      else "投票已提交，待确认"
    height := toInt platform (txResult.get "height")
    contractPath := chainBroadcastTx }

/-- The handler of `submitVote`. -/
def VoteRequest.fallback (request : VoteRequest) : GovernanceVoteResult where
  proposalId := request.proposalId
  option := request.option
  txHash :=
    localHash
      (intText request.proposalId ++ "|" ++ request.option.text ++ "|fallback")
  status := "投票已确认"
  height := 912888
  contractPath := chainBroadcastTx

def VoteRequest.outcome (request : VoteRequest) :
    Option Broadcast → GovernanceVoteResult
  | some broadcast => request.snapshot platform broadcast
  | none => request.fallback

def submitVote (walletAddress : Utf16) (request : VoteRequest)
    (answers : Answers) : List ApiCall × GovernanceVoteResult :=
  let seed :=
    intText request.proposalId ++ "|" ++ request.option.text ++ "|" ++
      request.reason.trim
  let (calls, broadcast) := signedBroadcast platform walletAddress seed
    (request.txBody walletAddress) answers
  (calls, request.outcome platform broadcast)

/-! ## Truthful reports -/

/-- The body has a `tx_response` whose code is 0: the number, or a text of
it. -/
def CodeIsZero (response : JsonMap) : Prop :=
  ∃ entries : JsonMap, response.get "tx_response" = .map entries ∧
    (readInt platform (entries.get "code") = some 0 ∨
      entries.get "code" = .double (.finite 0))

/-- The body has a `tx_response` whose code is an integer, or a text of one,
or the double 0. -/
def CodeReads (response : JsonMap) : Prop :=
  ∃ entries : JsonMap, response.get "tx_response" = .map entries ∧
    ((readInt platform (entries.get "code")).isSome ∨
      entries.get "code" = .double (.finite 0))

/-- A broadcast call was made and has returned the body. -/
def Returned (calls : List ApiCall) (response : JsonMap) : Prop :=
  ∃ call ∈ calls, call.path = chainBroadcastTx ∧ call.answer = .ok response

/-- A status is the confirmed one only if the broadcast call has returned the
code 0. -/
def Truthful (confirmed : Utf16) (calls : List ApiCall) (status : Utf16) :
    Prop :=
  status = confirmed →
    ∃ response, Returned calls response ∧ CodeIsZero platform response

/-- All three calls succeed, the challenge has a request id, and the code can
be read. -/
def Answers.Sound (answers : Answers) : Prop :=
  (∃ challenge, answers.challenge = .ok challenge ∧
      ¬ (requestIdText platform challenge).isEmpty) ∧
    (∃ confirmed, answers.confirm = .ok confirmed) ∧
    ∃ response, answers.broadcast = .ok response ∧ CodeReads platform response

variable {platform}

theorem codeReads_iff
    (hempty : platform.tryParseInt "" = none) (response : JsonMap) :
    (toInt platform
        (JsonMap.get (asMap (response.get "tx_response")) "code") = 0 →
      CodeIsZero platform response) ↔ CodeReads platform response := by
  constructor
  · intro hzero
    cases htx : response.get "tx_response" with
    | map entries =>
        refine ⟨entries, htx, ?_⟩
        rw [htx, asMap] at hzero
        cases hread : readInt platform (JsonMap.get entries "code") with
        | some value => exact Or.inl rfl
        | none =>
            obtain ⟨other, hother, hcode⟩ := hzero (by rw [toInt, hread]; rfl)
            rw [htx, JsonValue.map.injEq] at hother
            subst hother
            rw [hread] at hcode
            exact Or.inr (hcode.resolve_left (by simp))
    | null | bool | int | double | string | list =>
        rw [htx] at hzero
        obtain ⟨entries, hentries, -⟩ :=
          hzero (by simp [asMap, JsonMap.get, toInt, readInt, hempty])
        rw [htx] at hentries
        cases hentries
  · rintro ⟨entries, htx, hread⟩ hzero
    refine ⟨entries, htx, hread.imp_left ?_⟩
    intro hsome
    obtain ⟨value, hvalue⟩ := Option.isSome_iff_exists.mp hsome
    rw [htx, asMap, toInt, hvalue] at hzero
    rw [hvalue]
    exact congrArg some hzero

/-! ## The transactions can be written -/

/-- A text, an integer or null. -/
def IsPlain : JsonValue → Prop
  | .string _ | .int _ | .null => True
  | _ => False

theorem jsonEncode_of_plain
    {entries : List (Utf16 × JsonValue)} (parent : Ibc.Platform)
    (hplain : ∀ entry ∈ entries, IsPlain entry.2) :
    ∃ text, jsonEncode parent (.map entries) = .ok text := by
  have htexts : ∃ texts, Ibc.encodeEntries parent entries = .ok texts := by
    induction entries with
    | nil => exact ⟨_, rfl⟩
    | cons entry rest ih =>
        obtain ⟨hentry, hrest⟩ := List.forall_mem_cons.mp hplain
        obtain ⟨texts, htexts⟩ := ih hrest
        obtain ⟨key, value⟩ := entry
        have hvalue : ∃ text, jsonEncode parent value = .ok text := by
          cases value with
          | string text => exact ⟨_, rfl⟩
          | int value => exact ⟨_, rfl⟩
          | null => exact ⟨_, rfl⟩
          | bool | double | list | map => exact absurd hentry id
        obtain ⟨text, htext⟩ := hvalue
        refine ⟨(Ibc.quoted key ++ ":" ++ text) :: texts, ?_⟩
        rw [Ibc.encodeEntries, htext, htexts]
        rfl
  obtain ⟨texts, htexts⟩ := htexts
  refine ⟨⟨[0x7B]⟩ ++ Ibc.joined "," texts ++ ⟨[0x7D]⟩, ?_⟩
  rw [jsonEncode, htexts]
  rfl

theorem jsonEncode_stakeBody (request : StakeRequest) (walletAddress : Utf16) :
    ∃ text, jsonEncode platform.toPlatform
      (request.txBody platform walletAddress) = .ok text := by
  apply jsonEncode_of_plain
  cases request.destinationValidator with
  | none => simp [IsPlain, optionalValue]
  | some text => simp [IsPlain, optionalValue]

theorem jsonEncode_voteBody (request : VoteRequest) (walletAddress : Utf16) :
    ∃ text, jsonEncode platform.toPlatform (request.txBody walletAddress) =
      .ok text := by
  apply jsonEncode_of_plain
  simp [IsPlain]

/-! ## The three calls, answer by answer -/

theorem signedBroadcast_cases
    {txBody : JsonValue}
    (hbody : ∃ text, jsonEncode platform.toPlatform txBody = .ok text)
    (walletAddress seed : Utf16) (answers : Answers) :
    (¬ answers.Sound platform ∧
      (signedBroadcast platform walletAddress seed txBody answers).2 =
        none ∧
      ∀ response, ¬ Returned
        (signedBroadcast platform walletAddress seed txBody answers).1
        response) ∨
    ∃ broadcast,
      (answers.Sound platform ↔ CodeReads platform broadcast.response) ∧
      (signedBroadcast platform walletAddress seed txBody answers).2 =
        some broadcast ∧
      ∀ response,
        Returned (signedBroadcast platform walletAddress seed txBody
          answers).1 response ↔ response = broadcast.response := by
  obtain ⟨text, htext⟩ := hbody
  have hpaths : authSignatureChallenge ≠ chainBroadcastTx ∧
      authSignatureConfirm ≠ chainBroadcastTx := by decide
  unfold signedBroadcast
  cases hchallenge : answers.challenge with
  | error failure =>
      refine Or.inl ⟨?_, rfl, by simp [Returned, hpaths]⟩
      rintro ⟨⟨challenge, hok, -⟩, -⟩
      rw [hchallenge] at hok
      cases hok
  | ok challenge =>
      dsimp only
      split_ifs with hrequest
      · refine Or.inl ⟨?_, rfl, by simp [Returned, hpaths]⟩
        rintro ⟨⟨other, hok, hnonempty⟩, -⟩
        rw [hchallenge, Except.ok.injEq] at hok
        exact hnonempty (hok ▸ hrequest)
      · cases hconfirm : answers.confirm with
        | error failure =>
            refine Or.inl ⟨?_, rfl, by simp [Returned, hpaths]⟩
            rintro ⟨-, ⟨confirmed, hok⟩, -⟩
            rw [hconfirm] at hok
            cases hok
        | ok confirmed =>
            rw [htext]
            dsimp only
            cases hbroadcast : answers.broadcast with
            | error failure =>
                refine Or.inl ⟨?_, rfl, by simp [Returned, hpaths]⟩
                rintro ⟨-, -, response, hok, -⟩
                rw [hbroadcast] at hok
                cases hok
            | ok response =>
                refine Or.inr ⟨_, ?_, rfl, ?_⟩
                · constructor
                  · rintro ⟨-, -, other, hok, hreads⟩
                    rw [hbroadcast, Except.ok.injEq] at hok
                    exact hok ▸ hreads
                  · intro hreads
                    exact ⟨⟨challenge, hchallenge, hrequest⟩,
                      ⟨confirmed, hconfirm⟩, response, hbroadcast, hreads⟩
                · intro other
                  simp [Returned, hpaths, eq_comm]

/-- What a function reports of the broadcast, if its handler reports the
confirmed status. -/
theorem truthful_iff
    {txBody : JsonValue} {walletAddress seed confirmed : Utf16}
    {answers : Answers} (hempty : platform.tryParseInt "" = none)
    (hbody : ∃ text, jsonEncode platform.toPlatform txBody = .ok text)
    (status : Option Broadcast → Utf16) (hnone : status none = confirmed)
    (hsome : ∀ broadcast, status (some broadcast) = confirmed ↔
      toInt platform (JsonMap.get
        (asMap (broadcast.response.get "tx_response")) "code") = 0) :
    Truthful platform confirmed
        (signedBroadcast platform walletAddress seed txBody answers).1
        (status
          (signedBroadcast platform walletAddress seed txBody answers).2) ↔
      answers.Sound platform := by
  unfold Truthful
  rcases signedBroadcast_cases hbody walletAddress seed answers with
    ⟨hunsound, hresult, hnever⟩ | ⟨broadcast, hsound, hresult, hreturned⟩
  · rw [hresult]
    refine iff_of_false ?_ hunsound
    intro htruthful
    obtain ⟨response, hresponse, -⟩ := htruthful hnone
    exact hnever response hresponse
  · rw [hresult, hsome, hsound, ← codeReads_iff hempty]
    simp only [hreturned, exists_eq_left]

theorem ite_status_iff
    {condition : Prop} [Decidable condition] {confirmed pending : Utf16}
    (hne : pending ≠ confirmed) :
    (if condition then confirmed else pending) = confirmed ↔ condition := by
  rw [ite_eq_left_iff]
  constructor
  · intro hall
    by_contra hnot
    exact hne (hall hnot)
  · intro hcondition hnot
    exact absurd hcondition hnot

theorem runStakeFlow_truthful_iff
    (hempty : platform.tryParseInt "" = none) (walletAddress : Utf16)
    (request : StakeRequest) (answers : Answers) (now : ℤ) :
    Truthful platform "已上链确认"
        (runStakeFlow platform walletAddress request answers now).1
        (runStakeFlow platform walletAddress request answers
          now).2.result.status ↔
      answers.Sound platform :=
  truthful_iff hempty (jsonEncode_stakeBody request walletAddress)
    (fun broadcast => (request.outcome platform now broadcast).result.status)
    rfl fun _ => ite_status_iff (by decide)

theorem submitVote_truthful_iff
    (hempty : platform.tryParseInt "" = none) (walletAddress : Utf16)
    (request : VoteRequest) (answers : Answers) :
    Truthful platform "投票已确认"
        (submitVote platform walletAddress request answers).1
        (submitVote platform walletAddress request answers).2.status ↔
      answers.Sound platform :=
  truthful_iff hempty (jsonEncode_voteBody request walletAddress)
    (fun broadcast => (request.outcome platform broadcast).status)
    rfl fun _ => ite_status_iff (by decide)

/-- Both functions confirm truthfully exactly when all calls succeed, and the
code can be read. -/
theorem confirmations_truthful_iff
    (platform : Platform) (hempty : platform.tryParseInt "" = none)
    (walletAddress : Utf16) (answers : Answers) :
    (∀ request now,
      Truthful platform "已上链确认"
          (runStakeFlow platform walletAddress request answers now).1
          (runStakeFlow platform walletAddress request answers
            now).2.result.status ↔
        answers.Sound platform) ∧
      ∀ request,
        Truthful platform "投票已确认"
            (submitVote platform walletAddress request answers).1
            (submitVote platform walletAddress request answers).2.status ↔
          answers.Sound platform :=
  ⟨fun request now =>
      runStakeFlow_truthful_iff hempty walletAddress request answers now,
    fun request =>
      submitVote_truthful_iff hempty walletAddress request answers⟩

/-! ## Single requests -/

/-- The number formats, as far as the requests below use them. -/
def samplePlatform : Platform where
  toPlatform := Ibc.decimalPlatform
  toStringAsFixed _ digits := if digits = 6 then "8.000000" else "1848"

def delegation : StakeRequest where
  action := .delegate
  validator := "soulvaloper1alpha"
  destinationValidator := none
  amount := .finite 8

def yesVote : VoteRequest where
  proposalId := 201
  option := .yes
  reason := "ok"

def challengeAnswer : Answer :=
  .ok [("requestId", .string "req-1")]

def included : Answers where
  challenge := challengeAnswer
  confirm := .ok []
  broadcast := Ibc.txAnswer "A0B1"

theorem included_confirmed_truthfully :
    (runStakeFlow samplePlatform "soul1sender" delegation included
        0).2.result.status = "已上链确认" ∧
      Truthful samplePlatform "已上链确认"
        (runStakeFlow samplePlatform "soul1sender" delegation included 0).1
        (runStakeFlow samplePlatform "soul1sender" delegation included
          0).2.result.status ∧
      (submitVote samplePlatform "soul1sender" yesVote included).2.status =
        "投票已确认" ∧
      Truthful samplePlatform "投票已确认"
        (submitVote samplePlatform "soul1sender" yesVote included).1
        (submitVote samplePlatform "soul1sender" yesVote included).2.status := by
  have hsound : included.Sound samplePlatform :=
    ⟨⟨_, rfl, by decide⟩, ⟨_, rfl⟩, _, rfl, _, rfl, Or.inl rfl⟩
  obtain ⟨hstake, hvote⟩ := confirmations_truthful_iff samplePlatform rfl
    "soul1sender" included
  exact ⟨rfl, (hstake delegation 0).mpr hsound, rfl,
    (hvote yesVote).mpr hsound⟩

/-- No call gets through. -/
def unreachable : Answers where
  challenge := .error .other
  confirm := .error .other
  broadcast := .error .other

/-- The transaction was answered without a code. -/
def uncoded : Answers where
  challenge := challengeAnswer
  confirm := .ok []
  broadcast := .ok [("tx_response", .map [("txhash", .string "A0B1")])]

theorem confirmed_without_code_zero :
    (∀ answers ∈ [unreachable, uncoded],
      (runStakeFlow samplePlatform "soul1sender" delegation answers
          0).2.result.status = "已上链确认" ∧
        (submitVote samplePlatform "soul1sender" yesVote answers).2.status =
          "投票已确认") ∧
      ∀ answers ∈ [unreachable, uncoded],
        ¬ Truthful samplePlatform "已上链确认"
          (runStakeFlow samplePlatform "soul1sender" delegation answers 0).1
          (runStakeFlow samplePlatform "soul1sender" delegation answers
            0).2.result.status ∧
        ¬ Truthful samplePlatform "投票已确认"
          (submitVote samplePlatform "soul1sender" yesVote answers).1
          (submitVote samplePlatform "soul1sender" yesVote
            answers).2.status := by
  have hunsound : ∀ answers ∈ [unreachable, uncoded],
      ¬ answers.Sound samplePlatform := by
    refine List.forall_mem_cons.mpr ⟨?_, List.forall_mem_singleton.mpr ?_⟩
    · rintro ⟨⟨challenge, hok, -⟩, -⟩
      cases hok
    · rintro ⟨-, -, response, hok, entries, hentries, hcode⟩
      cases hok
      cases hentries
      rcases hcode with hread | hdouble
      · cases hread
      · cases hdouble
  refine ⟨?_, ?_⟩
  · refine List.forall_mem_cons.mpr ⟨⟨rfl, rfl⟩,
      List.forall_mem_singleton.mpr ⟨rfl, rfl⟩⟩
  · intro answers hanswers
    rw [runStakeFlow_truthful_iff rfl, submitVote_truthful_iff rfl]
    exact ⟨hunsound answers hanswers, hunsound answers hanswers⟩

end SoulonWallet.StakeGovernance
