import SoulonWallet.Binary64
import SoulonWallet.KeyedMap
import SoulonWallet.LabelledRun
import SoulonWallet.Utf16Text

/-!
# Confirming with PIN and biometrics

The calls on one `SecurityConfirmStore` interleave at their awaits.  A call of
`verifyBiometricFactor` waits for the verifier.  A call of `confirm` checks
the biometric assertion and reads the stored PIN at once, and waits; when
there was none it writes its own, and waits; then it returns.  The credential
store in memory reads and writes before its future completes.

Times are microseconds.  `double.tryParse` and the hash of `_digest` are
parameters.
-/

namespace SoulonWallet.Security

open LabelledRun

inductive BiometricMethod where
  | faceId
  | fingerprint
  deriving DecidableEq

inductive SecureCredentialBackend where
  | androidKeystore
  | iosKeychain
  | secureFallback
  deriving DecidableEq

inductive RiskLevel where
  | high
  | critical
  deriving DecidableEq

structure BiometricAssertion where
  method : BiometricMethod
  verified : Bool
  assertedAt : ℤ
  deriving DecidableEq

structure SecurityAuditEvent where
  eventId : Utf16
  operation : Utf16
  amount : Utf16
  riskLevel : RiskLevel
  pinVerified : Bool
  biometricVerified : Bool
  success : Bool
  createdAt : ℤ
  reason : Option Utf16 := none
  deriving DecidableEq

structure SecurityConfirmResult where
  operation : Utf16
  amount : Utf16
  biometricMethod : BiometricMethod
  requestId : Utf16
  auditEventId : Utf16
  storageBackend : SecureCredentialBackend
  authorizedAt : ℤ
  deriving DecidableEq

structure SecurityConfirmState where
  pinVerified : Bool := false
  biometricVerified : Bool := false
  pinProvisioned : Bool := false
  secureBackend : SecureCredentialBackend := .secureFallback
  auditEvents : List SecurityAuditEvent := []
  result : Option SecurityConfirmResult := none
  loading : Bool := false
  errorText : Option Utf16 := none
  deriving DecidableEq

structure Platform where
  tryParse : Utf16 → Option Binary64
  hash : Utf16 → Utf16

/-- The arguments of `confirm`. -/
structure ConfirmInput where
  operation : Utf16
  amount : Utf16
  pin : Utf16
  method : BiometricMethod
  deriving DecidableEq

/-- The clock readings and the random number of the rest of a call. -/
structure Readings where
  eventAt : ℤ
  createdAt : ℤ
  requestAt : ℤ
  authorizedAt : ℤ
  random : ℕ
  deriving DecidableEq

def pinAlias : Utf16 := "soulon_wallet_pin"

def biometricTtl : ℤ := 2 * 60 * 1000 * 1000

def highRiskOperations : List Utf16 :=
  ["转账", "质押", "治理投票", "IBC 跨链", "多签提交"]

namespace Platform

variable (platform : Platform)

def digest (seed : Utf16) : Utf16 :=
  platform.hash (("soulon.wallet.pin.v1:" : Utf16) ++ seed)

def requireOperation (operation : Utf16) : Except Utf16 Unit :=
  if operation.trim.isEmpty then .error "操作类型不能为空" else .ok ()

def requireAmount (amount : Utf16) : Except Utf16 Unit :=
  match platform.tryParse amount.trim with
  | none => .error "金额必须大于 0"
  | some parsed =>
      if Binary64.ge (.finite 0) parsed then .error "金额必须大于 0"
      else .ok ()

end Platform

def requirePin (pin : Utf16) : Except Utf16 Unit :=
  if pin.length ≠ 6 ∨
      ¬ pin.units.all (fun unit => 0x30 ≤ unit && unit ≤ 0x39) then
    .error "PIN 必须为 6 位数字"
  else .ok ()

def riskLevel (operation : Utf16) : RiskLevel :=
  if operation ∈ highRiskOperations then .high else .critical

def Readings.auditEventId (readings : Readings) : Utf16 :=
  "AUD-" ++ toString (readings.eventAt.tdiv 1000) ++ "-" ++
    toString readings.random

/-! ## The store -/

/-- What a call waits for. -/
inductive Await where
  | verifying (method : BiometricMethod)
  | retrieving (input : ConfirmInput) (stored : Option Utf16)
  | provisioning (input : ConfirmInput)
  | returning (input : ConfirmInput) (pinOk : Bool)
  deriving DecidableEq

inductive Event where
  | verifyStarted (call : ℕ)
  | verified (call : ℕ) (assertion : BiometricAssertion)
  | biometricReset
  | confirmStarted (call : ℕ) (now : ℤ) (input : ConfirmInput)
  | confirmSucceeded (call : ℕ) (input : ConfirmInput)
  | threw (call : ℕ) (message : Utf16)
  deriving DecidableEq

structure Store where
  pinStore : KeyedMap Utf16 Utf16
  lastBiometricAt : Option ℤ
  auditEvents : List SecurityAuditEvent
  value : SecurityConfirmState
  calls : KeyedMap ℕ Await
  nextCall : ℕ
  history : List Event

/-- How the verifier ends: with an assertion, a `FormatException` of its own
or another error. -/
abbrev Verification := Except (Option Utf16) BiometricAssertion

inductive Turn where
  | verifyBiometricFactor (method : BiometricMethod)
  | complete (call : ℕ) (verification : Verification)
  | resetBiometricFactor
  | confirm (input : ConfirmInput) (now : ℤ) (readings : Readings)
  | resume (call : ℕ) (readings : Readings)
  | reset

def ConfirmInput.auditEvent (input : ConfirmInput) (readings : Readings)
    (pinVerified biometricVerified success : Bool)
    (reason : Option Utf16) : SecurityAuditEvent where
  eventId := readings.auditEventId
  operation := input.operation
  amount := input.amount
  riskLevel := riskLevel input.operation
  pinVerified := pinVerified
  biometricVerified := biometricVerified
  success := success
  createdAt := readings.createdAt
  reason := reason

def validateBiometricAssertion (lastBiometricAt : Option ℤ) (now : ℤ) :
    Bool :=
  match lastBiometricAt with
  | none => false
  | some assertedAt => now - assertedAt ≤ biometricTtl

namespace Store

def initial : Store where
  pinStore := ∅
  lastBiometricAt := none
  auditEvents := []
  value := {}
  calls := ∅
  nextCall := 0
  history := []

/-- A call begins and runs up to its first await. -/
def enter (store : Store) (stage : Await) (event : Event) : Store :=
  { store with
    calls := store.calls.insert store.nextCall stage
    nextCall := store.nextCall + 1
    history := store.history ++ [event] }

/-- A call runs up to its next await. -/
def pause (store : Store) (call : ℕ) (stage : Await) : Store :=
  { store with calls := store.calls.insert call stage }

/-- A call returns or throws. -/
def leave (store : Store) (call : ℕ) (event : Event) : Store :=
  { store with
    calls := store.calls.erase call
    history := store.history ++ [event] }

/-- A call throws before its first await. -/
def refuse (store : Store) (message : Utf16) : Store :=
  { store with
    nextCall := store.nextCall + 1
    history := store.history ++ [.threw store.nextCall message] }

theorem lookup_enter (store : Store) (stage : Await) (event : Event)
    (call : ℕ) :
    (store.enter stage event).calls.lookup call =
      if call = store.nextCall then some stage
      else store.calls.lookup call :=
  KeyedMap.lookup_insert_eq _ _ _ _

theorem lookup_pause (store : Store) (call : ℕ) (stage : Await)
    (other : ℕ) :
    (store.pause call stage).calls.lookup other =
      if other = call then some stage else store.calls.lookup other :=
  KeyedMap.lookup_insert_eq _ _ _ _

theorem lookup_leave (store : Store) (call : ℕ) (event : Event)
    (other : ℕ) :
    (store.leave call event).calls.lookup other =
      if other = call then none else store.calls.lookup other :=
  KeyedMap.lookup_erase_eq _ _ _

def append (store : Store) (event : SecurityAuditEvent) : Store :=
  { store with auditEvents := event :: store.auditEvents }

def verifyBiometricFactor (store : Store) (method : BiometricMethod) :
    Store :=
  enter
    { store with
      value := { store.value with loading := true, errorText := none } }
    (.verifying method) (.verifyStarted store.nextCall)

def failVerification (store : Store) (call : ℕ) (message : Utf16) : Store :=
  leave { store with value := { store.value with loading := false } } call
    (.threw call message)

def accept (store : Store) (call : ℕ) (assertion : BiometricAssertion) :
    Store :=
  leave
    { store with
      lastBiometricAt := some assertion.assertedAt
      value :=
        { store.value with biometricVerified := true, loading := false } }
    call (.verified call assertion)

/-- The rest of `verifyBiometricFactor` after its await. -/
def complete (store : Store) (call : ℕ) : Verification → Store
  | .error none => store.failVerification call "生物识别校验失败"
  | .error (some message) => store.failVerification call message
  | .ok assertion =>
      if ¬ assertion.verified then
        store.failVerification call "生物识别校验失败"
      else store.accept call assertion

def resetBiometricFactor (store : Store) : Store :=
  { store with
    lastBiometricAt := none
    value :=
      { store.value with
        biometricVerified := false, result := none, errorText := none }
    history := store.history ++ [.biometricReset] }

def reset (store : Store) : Store :=
  { store with lastBiometricAt := none, auditEvents := [], value := {} }

/-- `confirm` has passed its checks; the credential store is read at once. -/
def retrievePin (store : Store) (input : ConfirmInput) (now : ℤ) : Store :=
  enter
    { store with
      value := { store.value with loading := true, errorText := none } }
    (.retrieving input (store.pinStore.lookup pinAlias))
    (.confirmStarted store.nextCall now input)

/-- The credential store is written at once. -/
def provisionPin (store : Store) (call : ℕ) (input : ConfirmInput)
    (digest : Utf16) : Store :=
  pause { store with pinStore := store.pinStore.insert pinAlias digest } call
    (.provisioning input)

end Store

namespace Platform

variable (platform : Platform)

def requireInput (input : ConfirmInput) : Except Utf16 Unit := do
  requireOperation input.operation
  platform.requireAmount input.amount
  requirePin input.pin

/-- `confirm` up to its first await. -/
def confirm (store : Store) (input : ConfirmInput) (now : ℤ)
    (readings : Readings) : Store :=
  match platform.requireInput input with
  | .error message => store.refuse message
  | .ok () =>
      if ¬ validateBiometricAssertion store.lastBiometricAt now then
        let audited := store.append
          (input.auditEvent readings false false false
            (some ("生物识别未通过或已过期" : Utf16)))
        Store.refuse
          { audited with
            value := { store.value with auditEvents := audited.auditEvents } }
          "请先完成生物识别校验"
      else store.retrievePin input now

/-- The rest of `_verifyOrProvisionPin` after the stored digest was read. -/
def verifyOrProvisionPin (store : Store) (call : ℕ) (input : ConfirmInput) :
    Option Utf16 → Store
  | none => store.provisionPin call input (platform.digest input.pin)
  | some stored =>
      store.pause call (.returning input (stored = platform.digest input.pin))

def authorize (input : ConfirmInput) (readings : Readings) :
    SecurityConfirmResult where
  operation := input.operation
  amount := input.amount
  biometricMethod := input.method
  requestId :=
    platform.digest
      ((toString readings.requestAt : Utf16) ++ ("|" : Utf16) ++
        input.operation ++ ("|" : Utf16) ++ input.amount)
  auditEventId := readings.auditEventId
  storageBackend := .secureFallback
  authorizedAt := readings.authorizedAt

/-- The rest of `confirm` after `_verifyOrProvisionPin`. -/
def finishConfirm (store : Store) (call : ℕ) (input : ConfirmInput)
    (pinOk : Bool) (readings : Readings) : Store :=
  if ¬ pinOk then
    let audited := store.append
      (input.auditEvent readings false true false
        (some ("PIN 校验失败" : Utf16)))
    Store.leave
      { audited with
        value :=
          { store.value with
            loading := false, auditEvents := audited.auditEvents } }
      call (.threw call "PIN 校验失败")
  else
    let audited :=
      store.append (input.auditEvent readings true true true none)
    Store.leave
      { audited with
        value :=
          { store.value with
            pinVerified := true
            pinProvisioned := true
            loading := false
            result := some (platform.authorize input readings)
            auditEvents := audited.auditEvents } }
      call (.confirmSucceeded call input)

def step (store : Store) : Turn → Option Store
  | .verifyBiometricFactor method => some (store.verifyBiometricFactor method)
  | .complete call verification =>
      match store.calls.lookup call with
      | some (.verifying _) => some (store.complete call verification)
      | _ => none
  | .resetBiometricFactor => some store.resetBiometricFactor
  | .confirm input now readings =>
      some (platform.confirm store input now readings)
  | .resume call readings =>
      match store.calls.lookup call with
      | some (.retrieving input stored) =>
          some (platform.verifyOrProvisionPin store call input stored)
      | some (.provisioning input) =>
          some (store.pause call (.returning input true))
      | some (.returning input pinOk) =>
          some (platform.finishConfirm store call input pinOk readings)
      | _ => none
  | .reset => some store.reset

/-- What a turn can do. -/
inductive Moves (store : Store) : Turn → Store → Prop
  | verify {method : BiometricMethod} :
      Moves store (.verifyBiometricFactor method)
        (store.verifyBiometricFactor method)
  | fail {call : ℕ} {method : BiometricMethod} {verification : Verification}
      {message : Utf16}
      (hstage : store.calls.lookup call = some (.verifying method)) :
      Moves store (.complete call verification)
        (store.failVerification call message)
  | accept {call : ℕ} {method : BiometricMethod}
      {assertion : BiometricAssertion}
      (hstage : store.calls.lookup call = some (.verifying method))
      (hverified : assertion.verified) :
      Moves store (.complete call (.ok assertion))
        (store.accept call assertion)
  | resetBiometric :
      Moves store .resetBiometricFactor store.resetBiometricFactor
  | refuse {input : ConfirmInput} {now : ℤ} {readings : Readings}
      {auditEvents : List SecurityAuditEvent} {value : SecurityConfirmState}
      {message : Utf16} :
      Moves store (.confirm input now readings)
        (Store.refuse
          { store with auditEvents := auditEvents, value := value } message)
  | confirm {input : ConfirmInput} {now : ℤ} {readings : Readings}
      (hinput : platform.requireInput input = .ok ())
      (hbiometric : validateBiometricAssertion store.lastBiometricAt now) :
      Moves store (.confirm input now readings) (store.retrievePin input now)
  | provision {call : ℕ} {input : ConfirmInput} {readings : Readings}
      (hstage : store.calls.lookup call = some (.retrieving input none)) :
      Moves store (.resume call readings)
        (store.provisionPin call input (platform.digest input.pin))
  | compare {call : ℕ} {input : ConfirmInput} {readings : Readings}
      {stored : Utf16}
      (hstage : store.calls.lookup call =
        some (.retrieving input (some stored))) :
      Moves store (.resume call readings)
        (store.pause call
          (.returning input (stored = platform.digest input.pin)))
  | provisioned {call : ℕ} {input : ConfirmInput} {readings : Readings}
      (hstage : store.calls.lookup call = some (.provisioning input)) :
      Moves store (.resume call readings)
        (store.pause call (.returning input true))
  | reject {call : ℕ} {input : ConfirmInput} {readings : Readings}
      {auditEvents : List SecurityAuditEvent} {value : SecurityConfirmState}
      {message : Utf16}
      (hstage : store.calls.lookup call = some (.returning input false)) :
      Moves store (.resume call readings)
        (Store.leave
          { store with auditEvents := auditEvents, value := value } call
          (.threw call message))
  | succeed {call : ℕ} {input : ConfirmInput} {readings : Readings}
      {auditEvents : List SecurityAuditEvent} {value : SecurityConfirmState}
      (hstage : store.calls.lookup call = some (.returning input true)) :
      Moves store (.resume call readings)
        (Store.leave
          { store with auditEvents := auditEvents, value := value } call
          (.confirmSucceeded call input))
  | reset : Moves store .reset store.reset

variable {platform} {store next : Store} {turn : Turn}

theorem moves_of_step (hstep : platform.step store turn = some next) :
    platform.Moves store turn next := by
  cases turn with
  | verifyBiometricFactor method =>
      obtain rfl := Option.some.inj hstep
      exact .verify
  | complete call verification =>
      simp only [step] at hstep
      split at hstep
      next method hstage =>
        obtain rfl := Option.some.inj hstep
        cases verification with
        | error error => cases error <;> exact .fail hstage
        | ok assertion =>
            simp only [Store.complete]
            split_ifs with hverified
            · exact .accept hstage hverified
            · exact .fail hstage
      next => cases hstep
  | resetBiometricFactor =>
      obtain rfl := Option.some.inj hstep
      exact .resetBiometric
  | confirm input now readings =>
      obtain rfl := Option.some.inj hstep
      unfold confirm
      split
      next => exact .refuse
      next hinput =>
        split_ifs with hbiometric
        · exact .confirm hinput hbiometric
        · exact .refuse
  | resume call readings =>
      simp only [step] at hstep
      split at hstep
      next input stored hstage =>
        obtain rfl := Option.some.inj hstep
        cases stored with
        | none => exact .provision hstage
        | some stored => exact .compare hstage
      next input hstage =>
        obtain rfl := Option.some.inj hstep
        exact .provisioned hstage
      next input pinOk hstage =>
        obtain rfl := Option.some.inj hstep
        cases pinOk with
        | false => exact .reject hstage
        | true => exact .succeed hstage
      next => cases hstep
  | reset =>
      obtain rfl := Option.some.inj hstep
      exact .reset

end Platform

end SoulonWallet.Security
