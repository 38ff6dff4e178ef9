import SoulonWallet.ReorgTracking

/-!
# Tracking an IBC transfer

`IbcDemoStore.transfer` broadcasts a transfer, shows it as submitted and then
moves the shown packet on after three queries: for the transaction, for the
trace of the packet among the events, and for finality.  Any number of
transfers are under way at a time, and each of them moves on the packet that
is shown at that moment.  The calls interleave at the awaits, also at the one
at which a query returns to its transfer.

`Platform` has what the Dart library does beyond this model.  What was handed
to `bindTrackedTx` and the hashes of the queries that found their trace are
recorded beside the state.
-/

namespace SoulonWallet.Ibc

open LabelledRun
open Api (ApiClientException)
open Dapp (JsonValue JsonMap Answer asMap toInt)

/-- Number formats, and the case mappings beyond ASCII. -/
structure Platform where
  tryParseInt : Utf16 → Option ℤ
  tryParseDouble : Utf16 → Option Binary64
  doubleText : Binary64 → Utf16
  lowerCase : Utf16 → Utf16
  upperCase : Utf16 → Utf16

/-! ## Texts of JSON values -/

def intText (value : ℤ) : Utf16 :=
  Utf16.ofString (toString value)

def boolText (value : Bool) : Utf16 :=
  if value then "true" else "false"

def joined (separator : Utf16) : List Utf16 → Utf16
  | [] => ""
  | [text] => text
  | text :: rest => text ++ separator ++ joined separator rest

mutual

/-- `toString`. -/
def valueText (platform : Platform) : JsonValue → Utf16
  | .null => "null"
  | .bool value => boolText value
  | .int value => intText value
  | .double value => platform.doubleText value
  | .string text => text
  | .list items => "[" ++ joined ", " (itemTexts platform items) ++ "]"
  | .map entries =>
      ⟨[0x7B]⟩ ++ joined ", " (entryTexts platform entries) ++ ⟨[0x7D]⟩

def itemTexts (platform : Platform) : List JsonValue → List Utf16
  | [] => []
  | item :: rest => valueText platform item :: itemTexts platform rest

def entryTexts (platform : Platform) :
    List (Utf16 × JsonValue) → List Utf16
  | [] => []
  | (key, value) :: rest =>
      (key ++ ": " ++ valueText platform value) :: entryTexts platform rest

end

def isLead (unit : UInt16) : Bool :=
  unit &&& 0xFC00 == 0xD800

def isTrail (unit : UInt16) : Bool :=
  unit &&& 0xFC00 == 0xDC00

def hexDigit (digit : ℕ) : UInt16 :=
  (Nat.digitChar (digit % 16)).toNat.toUInt16

/-- The four digits after `\u`. -/
def escapedUnit (unit : UInt16) : List UInt16 :=
  [0x5C, 0x75, hexDigit (unit.toNat / 0x1000), hexDigit (unit.toNat / 0x100),
    hexDigit (unit.toNat / 0x10), hexDigit unit.toNat]

/-- One code unit of a string; a surrogate is escaped when the other half of
its pair is missing. -/
def encodeUnit (before : Option UInt16) (unit : UInt16)
    (after : Option UInt16) : List UInt16 :=
  if unit = 0x8 then [0x5C, 0x62]
  else if unit = 0x9 then [0x5C, 0x74]
  else if unit = 0xA then [0x5C, 0x6E]
  else if unit = 0xC then [0x5C, 0x66]
  else if unit = 0xD then [0x5C, 0x72]
  else if unit < 0x20 then escapedUnit unit
  else if unit = 0x22 ∨ unit = 0x5C then [0x5C, unit]
  else if isLead unit ∧ ¬ after.any isTrail then escapedUnit unit
  else if isTrail unit ∧ ¬ before.any isLead then escapedUnit unit
  else [unit]

def encodeUnits (before : Option UInt16) : List UInt16 → List UInt16
  | [] => []
  | unit :: rest =>
      encodeUnit before unit rest.head? ++ encodeUnits (some unit) rest

def quoted (text : Utf16) : Utf16 :=
  ⟨0x22 :: encodeUnits none text.units ++ [0x22]⟩

mutual

/-- `jsonEncode`, which throws on a double that is not finite. -/
def jsonEncode (platform : Platform) : JsonValue → Except Unit Utf16
  | .null => .ok "null"
  | .bool value => .ok (boolText value)
  | .int value => .ok (intText value)
  | .double (.finite value) => .ok (platform.doubleText (.finite value))
  | .double _ => .error ()
  | .string text => .ok (quoted text)
  | .list items => do
      let texts ← encodeItems platform items
      .ok ("[" ++ joined "," texts ++ "]")
  | .map entries => do
      let texts ← encodeEntries platform entries
      .ok (⟨[0x7B]⟩ ++ joined "," texts ++ ⟨[0x7D]⟩)

def encodeItems (platform : Platform) :
    List JsonValue → Except Unit (List Utf16)
  | [] => .ok []
  | item :: rest => do
      let text ← jsonEncode platform item
      let texts ← encodeItems platform rest
      .ok (text :: texts)

def encodeEntries (platform : Platform) :
    List (Utf16 × JsonValue) → Except Unit (List Utf16)
  | [] => .ok []
  | (key, value) :: rest => do
      let text ← jsonEncode platform value
      let texts ← encodeEntries platform rest
      .ok ((quoted key ++ ":" ++ text) :: texts)

end

def asList : JsonValue → List JsonValue
  | .list items => items
  | _ => []

/-! ## The store -/

inductive IbcPacketStep where
  | submitted
  | relayed
  | ackReceived
  | completed
  deriving DecidableEq

structure IbcChannelItem where
  chainId : Utf16
  channelId : Utf16
  portId : Utf16

structure IbcPacketResult where
  channelId : Utf16
  chainId : Utf16
  receiver : Utf16
  amount : Binary64
  sequence : ℕ
  txHash : Utf16
  steps : List IbcPacketStep
  currentStep : IbcPacketStep
  contractPath : Utf16

/-- The copy that every update makes of the packet. -/
def IbcPacketResult.moved (shown : IbcPacketResult)
    (move : IbcPacketStep → IbcPacketStep) : IbcPacketResult :=
  { shown with currentStep := move shown.currentStep }

structure IbcTransferState where
  channels : List IbcChannelItem
  loading : Bool := false
  result : Option IbcPacketResult := none
  errorText : Option Utf16 := none

structure TransferRequest where
  chainId : Utf16
  channelId : Utf16
  receiverAddress : Utf16
  amountText : Utf16

/-- The local variables of a transfer that has passed its checks. -/
structure Transfer where
  request : TransferRequest
  normalizedReceiver : Utf16
  amount : Binary64
  sequence : ℕ

inductive Query where
  | onChainAcknowledgement
  | packetTrace
  | finality
  deriving DecidableEq

/-- What a transfer waits for once its packet was shown: the delay before a
query, the answer to the query, for finality also the answer of the indexer,
and the return of the query. -/
inductive TrackingAwait where
  | delay (query : Query)
  | answer (query : Query)
  | indexerState (txBody : JsonMap)
  | returned (query : Query) (result : Bool)

inductive TransferCall where
  | broadcast (transfer : Transfer)
  | bound (transfer : Transfer) (txHash : Utf16) (txHeight : ℤ)
  | tracking (txHash : Utf16) (txHeight : ℤ) (await : TrackingAwait)

/-- `bound` has the hashes that were handed to `bindTrackedTx`, `traced` those
for which `_queryPacketTrace` has returned true. -/
structure IbcDemoStore where
  value : IbcTransferState
  calls : KeyedMap ℕ TransferCall
  nextCall : ℕ
  bound : List Utf16
  traced : List Utf16

/-- `draw` is what the random number generator gives for the sequence. -/
inductive IbcTurn where
  | transfer (request : TransferRequest) (draw : Fin 220)
  | answered (call : ℕ) (answer : Answer)
  | delayed (call : ℕ)
  | returned (call : ℕ)

/-! ## Starting a transfer -/

def isLowerLetter (unit : UInt16) : Bool :=
  0x61 ≤ unit && unit ≤ 0x7A

def isDigitOrLowerLetter (unit : UInt16) : Bool :=
  (0x30 ≤ unit && unit ≤ 0x39) || isLowerLetter unit

/-- `^[a-z]+1[0-9a-z]{20,}$`; the 1 is the first unit that is no letter. -/
def isReceiver (text : Utf16) : Bool :=
  match text.units.span isLowerLetter with
  | (_ :: _, 0x31 :: rest) =>
      20 ≤ rest.length && rest.all isDigitOrLowerLetter
  | _ => false

/-- `amount <= 0`, which is false of what is not a number. -/
def notPositive : Binary64 → Bool
  | .nan => false
  | .infinity negative => negative
  | .finite value => value ≤ 0

def validationError (message : String) : ApiClientException where
  kind := .validation
  message := some message

variable (platform : Platform)

def checkTransfer (channels : List IbcChannelItem)
    (request : TransferRequest) (draw : Fin 220) :
    Except ApiClientException Transfer :=
  let channel := channels.find? fun item =>
    item.chainId = request.chainId ∧ item.channelId = request.channelId
  let amount :=
    (platform.tryParseDouble request.amountText.trim).getD (.finite (-1))
  let normalizedReceiver :=
    request.receiverAddress.trim.toLowerCase platform.lowerCase
  if channel.isNone then
    .error (validationError "请选择有效的 IBC Channel")
  else if ¬ isReceiver normalizedReceiver then
    .error (validationError "接收地址格式错误")
  else if notPositive amount then
    .error (validationError "IBC 转账金额必须大于 0")
  else .ok ⟨request, normalizedReceiver, amount, 680 + draw⟩

def digest (seed : Utf16) : Utf16 :=
  let raw := seed.units.foldl
    (fun hash code => ((hash * 29) ^^^ code.toNat) &&& 0x7fffffff) 0
  (Utf16.ofNatHex raw).padLeft 16 0x30

/-- The hash that stands in for a missing one. -/
def Transfer.localHash (transfer : Transfer) : Utf16 :=
  ((digest
    ("ibc|" ++ transfer.request.chainId ++ "|" ++ transfer.request.channelId ++
      "|" ++ transfer.normalizedReceiver ++ "|" ++
      transfer.request.amountText)).padRight 64 0x30).take 64

def responseHash (txResult : JsonMap) : Utf16 :=
  match txResult.get "txhash" with
  | .null =>
      match txResult.get "txHash" with
      | .null => ""
      | value => valueText platform value
  | value => valueText platform value

/-- The hash and the height that `transfer` takes from the broadcast. -/
def Transfer.broadcastResult (transfer : Transfer) : Answer → Utf16 × ℤ
  | .error _ => (transfer.localHash, 0)
  | .ok response =>
      let txResult : JsonMap := asMap (response.get "tx_response")
      match toInt platform.tryParseInt (txResult.get "height") with
      | .error _ => (transfer.localHash, 0)
      | .ok txHeight =>
          let hash := responseHash platform txResult
          (if hash.isEmpty then transfer.localHash else hash, txHeight)

def Transfer.packetResult (transfer : Transfer) (txHash : Utf16) :
    IbcPacketResult where
  channelId := transfer.request.channelId
  chainId := transfer.request.chainId
  receiver := transfer.normalizedReceiver
  amount := transfer.amount
  sequence := transfer.sequence
  txHash := txHash
  steps := [.submitted, .relayed, .ackReceived, .completed]
  currentStep := .submitted
  contractPath := "/v1/chain/txs"

/-! ## The queries -/

def queryOnChainAcknowledgement : Answer → Bool
  | .error _ => true
  | .ok response =>
      let txResponse : JsonMap := asMap (response.get "tx_response")
      match toInt platform.tryParseInt (txResponse.get "code") with
      | .error _ => true
      | .ok code => code = 0 ∨ ¬ txResponse.isEmpty

/-- Whether the text of an event contains the hash. -/
def mentions (txHash : Utf16) (item : JsonValue) : Except Unit Bool := do
  let text ← jsonEncode platform item
  .ok ((text.toUpperCase platform.upperCase).includes
    (txHash.toUpperCase platform.upperCase))

def queryPacketTrace (txHash : Utf16) : Answer → Bool
  | .error _ => true
  | .ok events =>
      match (asList (events.get "events")).anyM (mentions platform txHash) with
      | .error _ => true
      | .ok found => found

/-- The end of `_queryFinality`, when the indexer has answered. -/
def queryFinality (txHeight : ℤ) (txBody : JsonMap) : Answer → Bool
  | .error _ => true
  | .ok indexer =>
      match toInt platform.tryParseInt (indexer.get "tipHeight") with
      | .error _ => true
      | .ok tipHeight =>
          match toInt platform.tryParseInt (txBody.get "height") with
          | .error _ => true
          | .ok chainHeight =>
              let committedHeight :=
                if 0 < chainHeight then chainHeight else txHeight
              if txHeight ≤ 0 then 0 < tipHeight
              else committedHeight ≤ tipHeight

namespace IbcDemoStore

def initial : IbcDemoStore where
  value :=
    { channels :=
        [⟨"osmosis-1", "channel-0", "transfer"⟩,
          ⟨"neutron-1", "channel-19", "transfer"⟩,
          ⟨"juno-1", "channel-26", "transfer"⟩] }
  calls := ∅
  nextCall := 0
  bound := []
  traced := []

def await (store : IbcDemoStore) (call : ℕ) (next : TransferCall) :
    IbcDemoStore :=
  { store with calls := store.calls.insert call next }

def start (store : IbcDemoStore) (transfer : Transfer) : IbcDemoStore :=
  { store with
    value :=
      { store.value with loading := true, result := none, errorText := none }
    calls := store.calls.insert store.nextCall (.broadcast transfer)
    nextCall := store.nextCall + 1 }

/-- The packet that is shown is moved on, whichever transfer it is of. -/
def showStep (store : IbcDemoStore)
    (move : IbcPacketStep → IbcPacketStep) : IbcDemoStore :=
  { store with
    value :=
      { store.value with
        result := store.value.result.map (·.moved move) } }

/-- The API answers the call. -/
def answered (store : IbcDemoStore) (call : ℕ) (answer : Answer) :
    TransferCall → Option IbcDemoStore
  | .broadcast transfer =>
      let (txHash, txHeight) := transfer.broadcastResult platform answer
      some
        { store.await call (.bound transfer txHash txHeight) with
          bound := store.bound ++ [txHash] }
  | .tracking txHash txHeight (.answer .onChainAcknowledgement) =>
      some (store.await call (.tracking txHash txHeight
        (.returned .onChainAcknowledgement
          (queryOnChainAcknowledgement platform answer))))
  | .tracking txHash txHeight (.answer .packetTrace) =>
      let found := queryPacketTrace platform txHash answer
      some
        { store.await call
            (.tracking txHash txHeight (.returned .packetTrace found)) with
          traced := if found then store.traced ++ [txHash] else store.traced }
  | .tracking txHash txHeight (.answer .finality) =>
      match answer with
      | .error _ =>
          some (store.await call
            (.tracking txHash txHeight (.returned .finality true)))
      | .ok txResponse =>
          some (store.await call (.tracking txHash txHeight
            (.indexerState (asMap (txResponse.get "tx_response")))))
  | .tracking txHash txHeight (.indexerState txBody) =>
      some (store.await call (.tracking txHash txHeight
        (.returned .finality (queryFinality platform txHeight txBody answer))))
  | _ => none

/-- A delay of the call is over. -/
def delayed (store : IbcDemoStore) (call : ℕ) :
    TransferCall → Option IbcDemoStore
  | .bound transfer txHash txHeight =>
      some
        { store.await call
            (.tracking txHash txHeight (.delay .onChainAcknowledgement)) with
          value :=
            { store.value with
              result := some (transfer.packetResult txHash) } }
  | .tracking txHash txHeight (.delay query) =>
      some (store.await call (.tracking txHash txHeight (.answer query)))
  | _ => none

/-- A query of the call returns, and the transfer goes on. -/
def returned (store : IbcDemoStore) (call : ℕ) :
    TransferCall → Option IbcDemoStore
  | .tracking txHash txHeight (.returned .onChainAcknowledgement relayed) =>
      some ((store.showStep fun _ =>
          if relayed then .relayed else .submitted).await call
        (.tracking txHash txHeight (.delay .packetTrace)))
  | .tracking txHash txHeight (.returned .packetTrace acked) =>
      some ((store.showStep fun currentStep =>
          if acked then .ackReceived else currentStep).await call
        (.tracking txHash txHeight (.delay .finality)))
  | .tracking _ _ (.returned .finality completed) =>
      let shown := store.showStep fun _ =>
        if completed then .completed else .ackReceived
      some
        { shown with
          value := { shown.value with loading := false }
          calls := store.calls.erase call }
  | _ => none

/-- A transfer that is refused throws and leaves no trace. -/
def step (store : IbcDemoStore) : IbcTurn → Option IbcDemoStore
  | .transfer request draw =>
      match checkTransfer platform store.value.channels request draw with
      | .error _ => some store
      | .ok transfer => some (store.start transfer)
  | .answered call answer =>
      (store.calls.lookup call).bind (store.answered platform call answer)
  | .delayed call => (store.calls.lookup call).bind (store.delayed call)
  | .returned call => (store.calls.lookup call).bind (store.returned call)

/-! ## Truthful progress -/

/-- A packet that is shown as acknowledged or completed has been found by a
query for its trace. -/
def Truthful (store : IbcDemoStore) : Prop :=
  ∀ shown, store.value.result = some shown →
    shown.currentStep = .ackReceived ∨ shown.currentStep = .completed →
    shown.txHash ∈ store.traced

/-- A transfer that resumes after a trace that was found, or with its last
write, finds no packet shown whose trace was not found. -/
def WritesTraced (store : IbcDemoStore) : IbcTurn → Prop
  | .returned call =>
      ∀ txHash txHeight query result shown,
        store.calls.lookup call =
          some (.tracking txHash txHeight (.returned query result)) →
        query = .packetTrace ∧ result = true ∨ query = .finality →
        store.value.result = some shown →
        shown.txHash ∈ store.traced
  | _ => True

variable {platform} {store next : IbcDemoStore} {turn : IbcTurn}

theorem Truthful.of_same
    (htruthful : store.Truthful)
    (hresult : next.value.result = store.value.result)
    (htraced : store.traced ⊆ next.traced) :
    next.Truthful := by
  intro shown hshown hstep
  rw [hresult] at hshown
  exact htraced (htruthful shown hshown hstep)

theorem truthful_of_submitted
    {txHash : Utf16} {transfer : Transfer}
    (hresult : next.value.result = some (transfer.packetResult txHash)) :
    next.Truthful := by
  intro shown hshown hstep
  rw [hresult] at hshown
  obtain rfl := Option.some.inj hshown
  simp [Transfer.packetResult] at hstep

theorem truthful_of_unacknowledged
    {result : Option IbcPacketResult} {move : IbcPacketStep → IbcPacketStep}
    (hresult : next.value.result = result.map (·.moved move))
    (hmove : ∀ step, move step = .relayed ∨ move step = .submitted) :
    next.Truthful := by
  intro shown hshown hstep
  rw [hresult, Option.map_eq_some_iff] at hshown
  obtain ⟨before, -, rfl⟩ := hshown
  rcases hmove before.currentStep with hmoved | hmoved
  · simp [IbcPacketResult.moved, hmoved] at hstep
  · simp [IbcPacketResult.moved, hmoved] at hstep

theorem truthful_iff_of_acknowledged
    {move : IbcPacketStep → IbcPacketStep}
    (hresult : next.value.result = store.value.result.map (·.moved move))
    (htraced : next.traced = store.traced)
    (hmove : ∀ step, move step = .ackReceived ∨ move step = .completed) :
    next.Truthful ↔
      ∀ shown, store.value.result = some shown →
        shown.txHash ∈ store.traced := by
  rw [← htraced]
  constructor
  · intro htruthful shown hshown
    have hmoved : next.value.result = some (shown.moved move) := by
      rw [hresult, hshown]
      rfl
    exact htruthful (shown.moved move) hmoved (hmove shown.currentStep)
  · intro hall shown hshown _
    rw [hresult, Option.map_eq_some_iff] at hshown
    obtain ⟨before, hbefore, rfl⟩ := hshown
    exact hall before hbefore

/-- An answer of the API leaves the packet that is shown, and at most finds
a trace. -/
theorem answered_keeps
    {call : ℕ} {answer : Answer} {await : TransferCall}
    (hanswered : store.answered platform call answer await = some next) :
    next.value = store.value ∧ store.traced ⊆ next.traced := by
  unfold answered at hanswered
  split at hanswered
  case h_3 =>
    obtain rfl := Option.some.inj hanswered
    refine ⟨rfl, ?_⟩
    dsimp only
    split
    · exact List.subset_append_left _ _
    · exact List.Subset.refl _
  case h_4 =>
    cases answer with
    | error failure =>
        obtain rfl := Option.some.inj hanswered
        exact ⟨rfl, List.Subset.refl _⟩
    | ok txResponse =>
        obtain rfl := Option.some.inj hanswered
        exact ⟨rfl, List.Subset.refl _⟩
  case h_6 => cases hanswered
  all_goals
    obtain rfl := Option.some.inj hanswered
    exact ⟨rfl, List.Subset.refl _⟩

theorem delayed_truthful
    {call : ℕ} {await : TransferCall}
    (hdelayed : store.delayed call await = some next)
    (htruthful : store.Truthful) :
    next.Truthful := by
  unfold delayed at hdelayed
  split at hdelayed
  · obtain rfl := Option.some.inj hdelayed
    exact truthful_of_submitted rfl
  · obtain rfl := Option.some.inj hdelayed
    exact htruthful.of_same rfl (List.Subset.refl _)
  · cases hdelayed

theorem writesTraced_iff_of_acknowledging
    {call : ℕ} {txHash : Utf16} {txHeight : ℤ} {query : Query} {result : Bool}
    (hcall : store.calls.lookup call =
      some (.tracking txHash txHeight (.returned query result)))
    (hquery : query = .packetTrace ∧ result = true ∨ query = .finality) :
    store.WritesTraced (.returned call) ↔
      ∀ shown, store.value.result = some shown →
        shown.txHash ∈ store.traced := by
  constructor
  · intro hwrites shown hshown
    exact hwrites txHash txHeight query result shown hcall hquery hshown
  · intro hall _ _ _ _ shown _ _ hshown
    exact hall shown hshown

theorem writesTraced_of_not_acknowledging
    {call : ℕ} {txHash : Utf16} {txHeight : ℤ} {query : Query} {result : Bool}
    (hcall : store.calls.lookup call =
      some (.tracking txHash txHeight (.returned query result)))
    (hquery : ¬ (query = .packetTrace ∧ result = true ∨ query = .finality)) :
    store.WritesTraced (.returned call) := by
  intro _ _ _ _ _ hother hacknowledges _
  rw [hcall] at hother
  cases hother
  exact absurd hacknowledges hquery

/-- The return of a query is the only turn that acknowledges a packet. -/
theorem returned_truthful_iff
    {call : ℕ} {await : TransferCall}
    (hcall : store.calls.lookup call = some await)
    (hreturned : store.returned call await = some next)
    (htruthful : store.Truthful) :
    next.Truthful ↔ store.WritesTraced (.returned call) := by
  unfold returned at hreturned
  split at hreturned
  case h_1 txHash txHeight relayed =>
    obtain rfl := Option.some.inj hreturned
    refine iff_of_true ?_ (writesTraced_of_not_acknowledging hcall (by simp))
    refine truthful_of_unacknowledged rfl fun step => ?_
    cases relayed with
    | true => exact Or.inl rfl
    | false => exact Or.inr rfl
  case h_2 txHash txHeight acked =>
    cases acked with
    | true =>
        obtain rfl := Option.some.inj hreturned
        rw [writesTraced_iff_of_acknowledging hcall (Or.inl ⟨rfl, rfl⟩)]
        exact truthful_iff_of_acknowledged rfl rfl fun _ => Or.inl rfl
    | false =>
        obtain rfl := Option.some.inj hreturned
        refine iff_of_true ?_ (writesTraced_of_not_acknowledging hcall (by simp))
        intro shown hshown hstep
        obtain ⟨before, hbefore, rfl⟩ := Option.map_eq_some_iff.mp hshown
        exact htruthful before hbefore hstep
  case h_3 txHash txHeight completed =>
    obtain rfl := Option.some.inj hreturned
    rw [writesTraced_iff_of_acknowledging hcall (Or.inr rfl)]
    refine truthful_iff_of_acknowledged rfl rfl fun _ => ?_
    cases completed with
    | true => exact Or.inr rfl
    | false => exact Or.inl rfl
  case h_4 => cases hreturned

theorem Truthful.step_iff
    (htruthful : store.Truthful)
    (hstep : store.step platform turn = some next) :
    next.Truthful ↔ store.WritesTraced turn := by
  cases turn with
  | transfer request draw =>
      refine iff_of_true ?_ trivial
      simp only [step] at hstep
      split at hstep
      · obtain rfl := Option.some.inj hstep
        exact htruthful
      · obtain rfl := Option.some.inj hstep
        intro shown hshown
        cases hshown
  | answered call answer =>
      obtain ⟨await, -, hanswered⟩ := Option.bind_eq_some_iff.mp hstep
      obtain ⟨hvalue, htraced⟩ := answered_keeps hanswered
      exact iff_of_true (htruthful.of_same (by rw [hvalue]) htraced) trivial
  | delayed call =>
      obtain ⟨await, -, hdelayed⟩ := Option.bind_eq_some_iff.mp hstep
      exact iff_of_true (delayed_truthful hdelayed htruthful) trivial
  | returned call =>
      obtain ⟨await, hcall, hreturned⟩ := Option.bind_eq_some_iff.mp hstep
      exact returned_truthful_iff hcall hreturned htruthful

/-- In every state of a run the progress is truthful, if and only if every
turn of the run is. -/
theorem packet_progress_truthful_iff
    (platform : Platform) (turns : List IbcTurn) :
    (∀ store, Visits (step platform) initial turns store → store.Truthful) ↔
      Guarded (step platform) WritesTraced initial turns := by
  apply forall_visits_iff_guarded (fun _ => True)
  · intro _ _ _ _ _
    trivial
  · intro _ _ _ _ htruthful hstep
    exact htruthful.step_iff hstep
  · trivial
  · intro shown hshown
    cases hshown

end IbcDemoStore

/-! ## Runs in which every call answers -/

def IbcTurn.Answered : IbcTurn → Prop
  | .answered _ (.error _) => False
  | _ => True

/-- The number formats, as far as the two runs use them. -/
def decimalPlatform : Platform where
  tryParseInt _ := none
  tryParseDouble text := if text = "8.00" then some (.finite 8) else none
  doubleText _ := "8.0"
  lowerCase := id
  upperCase := id

def osmosisRequest : TransferRequest where
  chainId := "osmosis-1"
  channelId := "channel-0"
  receiverAddress := "osmo1pl8t4jm9hsz9p6vrx4g2s0y7glk9n5ck9syv2w"
  amountText := "8.00"

def txAnswer (txHash : Utf16) : Answer :=
  .ok [("tx_response", .map
    [("txhash", .string txHash), ("height", .int 10), ("code", .int 0)])]

def eventsAnswer (txHashes : List Utf16) : Answer :=
  .ok [("events", .list (txHashes.map fun txHash =>
    .map [("txHash", .string txHash)]))]

/-- The events have no trace of the packet, and the transfer ends. -/
def untracedTransfer : List IbcTurn :=
  [.transfer osmosisRequest 0, .answered 0 (txAnswer "A0B1"), .delayed 0,
    .delayed 0, .answered 0 (txAnswer "A0B1"), .returned 0,
    .delayed 0, .answered 0 (eventsAnswer []), .returned 0,
    .delayed 0, .answered 0 (txAnswer "A0B1"),
    .answered 0 (.ok [("tipHeight", .int 12)]), .returned 0]

/-- The packet of the second transfer is shown while the query of the first
one, which has found its trace, returns. -/
def overlappingTransfers : List IbcTurn :=
  [.transfer osmosisRequest 0, .answered 0 (txAnswer "A0B1"), .delayed 0,
    .delayed 0, .answered 0 (txAnswer "A0B1"), .returned 0,
    .delayed 0, .answered 0 (eventsAnswer ["A0B1"]),
    .transfer osmosisRequest 1, .answered 1 (txAnswer "C2D3"), .delayed 1,
    .returned 0]

/-- All calls of the run answer, and it ends with progress that no trace
bears out. -/
def EndsUntruthful (turns : List IbcTurn) : Prop :=
  (∀ turn ∈ turns, turn.Answered) ∧
    ∃ store, exec (IbcDemoStore.step decimalPlatform) .initial turns =
      some store ∧ ¬ store.Truthful

theorem packet_progress_not_truthful :
    EndsUntruthful untracedTransfer ∧ EndsUntruthful overlappingTransfers := by
  refine ⟨⟨?_, _, rfl, ?_⟩, ⟨?_, _, rfl, ?_⟩⟩
  · simp [untracedTransfer, IbcTurn.Answered, txAnswer, eventsAnswer]
  · intro htruthful
    have hmem : ("A0B1" : Utf16) ∈ ([] : List Utf16) :=
      htruthful _ rfl (Or.inr rfl)
    cases hmem
  · simp [overlappingTransfers, IbcTurn.Answered, txAnswer, eventsAnswer]
  · intro htruthful
    have hmem : ("C2D3" : Utf16) ∈ [("A0B1" : Utf16)] :=
      htruthful _ rfl (Or.inl rfl)
    exact absurd hmem (by decide)

end SoulonWallet.Ibc
