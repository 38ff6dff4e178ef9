import Mathlib.Order.Interval.Finset.Nat
import Mathlib.Tactic
import SoulonWallet.Binary64
import SoulonWallet.WalletErrors

/-!
# Broadcasting with retries

`broadcastWithRetry` calls a broadcast until it answers with code zero or
fails in a way that is not retried.  `sendNativeToken` puts it around
`signAndBroadcast`, which signs afresh with the current sequence on every
call, so every call that takes effect is a transfer of its own.  A thrown
error does not tell whether the call took effect: the behaviour of the node
says it.
-/

namespace SoulonWallet.Wallet

structure DeliverTxResponse where
  code : ℤ
  rawLog : Option Utf16 := none
  transactionHash : Utf16
  deriving DecidableEq

inductive Outcome where
  | returns (result : DeliverTxResponse)
  | throws (error : Thrown)
  deriving DecidableEq

structure BroadcastRetryOptions where
  maxAttempts : Option ℤ := none
  baseDelayMs : Option Binary64 := none
  retriableCodes : Option (List ℤ) := none
  retriableErrorCodes : Option (List Utf16) := none

structure RetryPolicy where
  maxAttempts : ℤ
  baseDelayMs : Binary64
  retriableCodes : List ℤ
  retriableErrorCodes : List Utf16

def defaultRetriableCodes : List ℤ := [11, 32]

def defaultRetriableErrorCodes : List Utf16 :=
  ["NODE_UNAVAILABLE", "INVALID_SEQUENCE"]

def BroadcastRetryOptions.policy (options : BroadcastRetryOptions) :
    RetryPolicy where
  maxAttempts := options.maxAttempts.getD 3
  baseDelayMs := options.baseDelayMs.getD (Binary64.ofInt 1200)
  retriableCodes := options.retriableCodes.getD defaultRetriableCodes
  retriableErrorCodes :=
    options.retriableErrorCodes.getD defaultRetriableErrorCodes

/-- What one call of `broadcastWithRetry` does: the number of its calls of
`execute`, the pauses between them, and how it ends. -/
structure RetryRun where
  calls : ℕ
  sleeps : List Binary64
  result : Except SoulonWalletError DeliverTxResponse

def RetryRun.afterRetry (rest : RetryRun) (delayMs : Binary64) :
    RetryRun where
  calls := rest.calls + 1
  sleeps := delayMs :: rest.sleeps
  result := rest.result

section Retry

variable (toLowerCase : Utf16 → Utf16) (policy : RetryPolicy)
variable (execute : ℕ → Outcome)

/-- The loop with `remaining` turns to go; `execute attempt` is the outcome
of the call number `attempt`, counted from one. -/
def retryLoop :
    (remaining attempt : ℕ) → Option SoulonWalletError → RetryRun
  | 0, _, lastError =>
      { calls := 0
        sleeps := []
        result := .error (lastError.getD
          { code := "TX_REJECTED", message := "transaction rejected" }) }
  | remaining + 1, attempt, _ =>
      let delayMs := policy.baseDelayMs.mul (Binary64.ofInt attempt)
      match execute attempt with
      | .throws error =>
          let mapped := mapBroadcastError toLowerCase error
          if mapped.code ∈ policy.retriableErrorCodes ∧
              attempt < policy.maxAttempts then
            (retryLoop remaining (attempt + 1) (some mapped)).afterRetry
              delayMs
          else { calls := 1, sleeps := [], result := .error mapped }
      | .returns result =>
          if result.code = 0 then
            { calls := 1, sleeps := [], result := .ok result }
          else
            let mapped := rejectedTxError toLowerCase result.code result.rawLog
            if result.code ∈ policy.retriableCodes ∧
                attempt < policy.maxAttempts then
              (retryLoop remaining (attempt + 1) (some mapped)).afterRetry
                delayMs
            else { calls := 1, sleeps := [], result := .error mapped }

end Retry

def broadcastWithRetry (toLowerCase : Utf16 → Utf16)
    (execute : ℕ → Outcome) (options : BroadcastRetryOptions) : RetryRun :=
  retryLoop toLowerCase options.policy execute
    options.policy.maxAttempts.toNat 1 none

/-- The outcomes after which the loop goes on while attempts are left. -/
def Retried (toLowerCase : Utf16 → Utf16) (policy : RetryPolicy) :
    Outcome → Prop
  | .returns result => result.code ≠ 0 ∧ result.code ∈ policy.retriableCodes
  | .throws error =>
      (mapBroadcastError toLowerCase error).code ∈ policy.retriableErrorCodes

def failure (toLowerCase : Utf16 → Utf16) : Outcome → SoulonWalletError
  | .returns result => rejectedTxError toLowerCase result.code result.rawLog
  | .throws error => mapBroadcastError toLowerCase error

/-- How a call ends with the outcome of its last attempt. -/
def ending (toLowerCase : Utf16 → Utf16) :
    Outcome → Except SoulonWalletError DeliverTxResponse
  | .returns result =>
      match mapTxError toLowerCase result.code result.rawLog with
      | none => .ok result
      | some error => .error error
  | .throws error => .error (mapBroadcastError toLowerCase error)

section Calls

variable {toLowerCase : Utf16 → Utf16} {policy : RetryPolicy}
variable {execute : ℕ → Outcome}

theorem retryLoop_of_retried
    {remaining attempt : ℕ} (lastError : Option SoulonWalletError)
    (hretried : Retried toLowerCase policy (execute attempt))
    (hleft : attempt < policy.maxAttempts) :
    retryLoop toLowerCase policy execute (remaining + 1) attempt lastError =
      (retryLoop toLowerCase policy execute remaining (attempt + 1)
        (some (failure toLowerCase (execute attempt)))).afterRetry
          (policy.baseDelayMs.mul (Binary64.ofInt attempt)) := by
  cases houtcome : execute attempt with
  | returns result =>
      rw [houtcome, Retried] at hretried
      simp [retryLoop, houtcome, hretried.1, hretried.2, hleft, failure]
  | throws error =>
      rw [houtcome, Retried] at hretried
      simp [retryLoop, houtcome, hretried, hleft, failure]

/-- The last turn of the loop ends the call with its own outcome. -/
theorem retryLoop_of_final
    {remaining attempt : ℕ} (lastError : Option SoulonWalletError)
    (hfinal : ¬ (Retried toLowerCase policy (execute attempt) ∧
      attempt < policy.maxAttempts)) :
    retryLoop toLowerCase policy execute (remaining + 1) attempt lastError =
      { calls := 1
        sleeps := []
        result := ending toLowerCase (execute attempt) } := by
  cases houtcome : execute attempt with
  | returns result =>
      rw [houtcome, Retried] at hfinal
      by_cases hcode : result.code = 0
      · simp [retryLoop, houtcome, hcode, ending, mapTxError]
      · have hstop : ¬ (result.code ∈ policy.retriableCodes ∧
            attempt < policy.maxAttempts) := by
          intro hretry
          exact hfinal ⟨⟨hcode, hretry.1⟩, hretry.2⟩
        simp only [retryLoop, houtcome, hcode, if_neg hstop, if_false, ending,
          mapTxError]
  | throws error =>
      rw [houtcome, Retried] at hfinal
      simp only [retryLoop, houtcome, if_neg hfinal, ending]

theorem retryLoop_calls_of_final
    {remaining attempt : ℕ} (lastError : Option SoulonWalletError)
    (hfinal : ¬ (Retried toLowerCase policy (execute attempt) ∧
      attempt < policy.maxAttempts)) :
    (retryLoop toLowerCase policy execute (remaining + 1) attempt
      lastError).calls = 1 := by
  rw [retryLoop_of_final lastError hfinal]

/-- The loop makes one more call after `offset` of them exactly when turns are
left and all of them were retried. -/
theorem lt_retryLoop_calls_iff
    {remaining attempt : ℕ} (lastError : Option SoulonWalletError)
    (hturns : (attempt : ℤ) + remaining = policy.maxAttempts + 1)
    (offset : ℕ) :
    offset < (retryLoop toLowerCase policy execute remaining attempt
        lastError).calls ↔
      offset < remaining ∧ ∀ earlier < offset,
        Retried toLowerCase policy (execute (attempt + earlier)) := by
  induction remaining generalizing attempt lastError offset with
  | zero => simp [retryLoop]
  | succ remaining ih =>
      by_cases hretry : Retried toLowerCase policy (execute attempt) ∧
          attempt < policy.maxAttempts
      · rw [retryLoop_of_retried lastError hretry.1 hretry.2,
          RetryRun.afterRetry]
        cases offset with
        | zero => simp
        | succ offset =>
            have hnext : ((attempt + 1 : ℕ) : ℤ) + remaining =
                policy.maxAttempts + 1 := by
              push_cast at hturns ⊢
              omega
            rw [Nat.add_lt_add_iff_right, Nat.add_lt_add_iff_right,
              ih _ hnext offset, Nat.forall_lt_succ_left]
            simp only [Nat.add_zero, hretry.1, true_and, Nat.add_assoc,
              Nat.add_comm 1]
      · rw [retryLoop_calls_of_final lastError hretry]
        constructor
        · intro hzero
          have heq : offset = 0 := by omega
          subst offset
          exact ⟨by omega, by simp⟩
        · intro hcalls
          rcases hcalls with ⟨hlt, hearlier⟩
          by_contra hmore
          have hfirst := hearlier 0 (by omega)
          refine hretry ⟨hfirst, ?_⟩
          omega

theorem le_broadcastWithRetry_calls_iff
    {options : BroadcastRetryOptions}
    (hattempts : 0 ≤ options.policy.maxAttempts)
    {attempt : ℕ} (hpositive : 1 ≤ attempt) :
    attempt ≤ (broadcastWithRetry toLowerCase execute options).calls ↔
      attempt ≤ options.policy.maxAttempts ∧
        ∀ earlier, 1 ≤ earlier → earlier < attempt →
          Retried toLowerCase options.policy (execute earlier) := by
  have hturns : ((1 : ℕ) : ℤ) + options.policy.maxAttempts.toNat =
      options.policy.maxAttempts + 1 := by
    omega
  have hle : attempt ≤ (broadcastWithRetry toLowerCase execute options).calls ↔
      attempt - 1 < (broadcastWithRetry toLowerCase execute options).calls := by
    omega
  rw [hle, broadcastWithRetry, lt_retryLoop_calls_iff none hturns]
  constructor
  · rintro ⟨hlt, hretried⟩
    refine ⟨by omega, ?_⟩
    intro earlier hone hearlier
    have hstep := hretried (earlier - 1) (by omega)
    rwa [Nat.add_sub_cancel' hone] at hstep
  · rintro ⟨hle, hretried⟩
    refine ⟨by omega, ?_⟩
    intro earlier hearlier
    exact hretried (1 + earlier) (by omega) (by omega)

end Calls

/-! ## Transfers -/

structure Coin where
  denom : Utf16
  amount : Utf16
  deriving DecidableEq

structure MsgSend where
  fromAddress : Utf16
  toAddress : Utf16
  amount : List Coin
  deriving DecidableEq

structure EncodeObject where
  typeUrl : Utf16
  value : MsgSend
  deriving DecidableEq

structure TransferInput where
  fromAddress : Utf16
  toAddress : Utf16
  amount : Utf16
  memo : Option Utf16 := none
  deriving DecidableEq

/-- The message of a transfer; `coin` of cosmjs refuses malformed amounts. -/
def buildNativeTransferMessage
    (coin : Utf16 → Utf16 → Except Thrown Coin) (denom : Utf16)
    (input : TransferInput) : Except Thrown EncodeObject :=
  match coin input.amount denom with
  | .error error => .error error
  | .ok amount =>
      .ok
        { typeUrl := "/cosmos.bank.v1beta1.MsgSend"
          value :=
            { fromAddress := input.fromAddress
              toAddress := input.toAddress
              amount := [amount] } }

structure SignAndBroadcast where
  signerAddress : Utf16
  messages : List EncodeObject
  fee : Utf16
  memo : Utf16
  deriving DecidableEq

/-- What the node does with a call: it answers, and code zero means that the
transfer took effect, or the call throws and it may have taken effect. -/
inductive Behaviour where
  | returns (result : DeliverTxResponse)
  | throws (error : Thrown) (tookEffect : Bool)
  deriving DecidableEq

namespace Behaviour

def outcome : Behaviour → Outcome
  | .returns result => .returns result
  | .throws error _ => .throws error

def takesEffect : Behaviour → Bool
  | .returns result => decide (result.code = 0)
  | .throws _ tookEffect => tookEffect

end Behaviour

structure Transfer where
  requests : List SignAndBroadcast
  result : Except Thrown DeliverTxResponse

def transferRequest (input : TransferInput) (message : EncodeObject) :
    SignAndBroadcast where
  signerAddress := input.fromAddress
  messages := [message]
  fee := "auto"
  memo := input.memo.getD ""

def sendNativeToken (toLowerCase : Utf16 → Utf16)
    (coin : Utf16 → Utf16 → Except Thrown Coin)
    (signAndBroadcast : ℕ → SignAndBroadcast → Behaviour)
    (denom : Utf16) (input : TransferInput) : Transfer :=
  match buildNativeTransferMessage coin denom input with
  | .error error => { requests := [], result := .error error }
  | .ok message =>
      let request := transferRequest input message
      let run := broadcastWithRetry toLowerCase
        (fun attempt => (signAndBroadcast attempt request).outcome) {}
      { requests := List.replicate run.calls request
        result := run.result.mapError Thrown.walletError }

def effects (signAndBroadcast : ℕ → SignAndBroadcast → Behaviour)
    (requests : List SignAndBroadcast) : ℕ :=
  (requests.zipIdx 1).countP fun request =>
    (signAndBroadcast request.2 request.1).takesEffect

theorem effects_replicate
    (signAndBroadcast : ℕ → SignAndBroadcast → Behaviour)
    (request : SignAndBroadcast) (calls : ℕ) :
    effects signAndBroadcast (List.replicate calls request) =
      ((Finset.Icc 1 calls).filter fun attempt =>
        (signAndBroadcast attempt request).takesEffect).card := by
  induction calls with
  | zero => simp [effects]
  | succ calls ih =>
      have hinsert : Finset.Icc 1 (calls + 1) =
          insert (calls + 1) (Finset.Icc 1 calls) := by
        ext attempt
        simp only [Finset.mem_Icc, Finset.mem_insert]
        omega
      have hlast : effects signAndBroadcast
            (List.replicate (calls + 1) request) =
          effects signAndBroadcast (List.replicate calls request) +
            if (signAndBroadcast (calls + 1) request).takesEffect
            then 1 else 0 := by
        simp [effects, List.replicate_succ', List.zipIdx_append,
          List.countP_append, List.countP_cons, Nat.add_comm]
      rw [hlast, ih, hinsert, Finset.filter_insert]
      split
      · rw [Finset.card_insert_of_notMem (by simp)]
      · rfl

/-- No two of the three calls take effect such that every call before the
second of them is retried. -/
def EffectEndsRetries (toLowerCase : Utf16 → Utf16)
    (behaviour : ℕ → Behaviour) : Prop :=
  ∀ first second, 1 ≤ first → first < second → second ≤ 3 →
    (behaviour first).takesEffect → (behaviour second).takesEffect →
      ∃ earlier, 1 ≤ earlier ∧ earlier < second ∧
        ¬ Retried toLowerCase ({} : BroadcastRetryOptions).policy
          (behaviour earlier).outcome

/-- A transfer takes effect at most once exactly when no call that took effect
is followed, through retried calls only, by another one. -/
theorem sendNativeToken_once_iff
    (toLowerCase : Utf16 → Utf16)
    (coin : Utf16 → Utf16 → Except Thrown Coin)
    (signAndBroadcast : ℕ → SignAndBroadcast → Behaviour)
    (denom : Utf16) (input : TransferInput) :
    effects signAndBroadcast
        (sendNativeToken toLowerCase coin signAndBroadcast denom
          input).requests ≤ 1 ↔
      ∀ message,
        buildNativeTransferMessage coin denom input = .ok message →
          EffectEndsRetries toLowerCase fun attempt =>
            signAndBroadcast attempt (transferRequest input message) := by
  cases hmessage : buildNativeTransferMessage coin denom input with
  | error error =>
      simp [sendNativeToken, hmessage, effects]
  | ok message =>
      let behaviour := fun attempt =>
        signAndBroadcast attempt (transferRequest input message)
      let options : BroadcastRetryOptions := {}
      let run := broadcastWithRetry toLowerCase
        (fun attempt => (behaviour attempt).outcome) options
      have hrequests : effects signAndBroadcast
          (sendNativeToken toLowerCase coin signAndBroadcast denom
            input).requests =
          ((Finset.Icc 1 run.calls).filter fun attempt =>
            (behaviour attempt).takesEffect).card := by
        rw [← effects_replicate]
        simp only [sendNativeToken, hmessage, run, behaviour, options]
      have hcalls : ∀ attempt, 1 ≤ attempt →
          (attempt ≤ run.calls ↔ (attempt : ℤ) ≤ 3 ∧
            ∀ earlier, 1 ≤ earlier → earlier < attempt →
              Retried toLowerCase options.policy
                (behaviour earlier).outcome) := by
        intro attempt hpositive
        exact le_broadcastWithRetry_calls_iff (by decide) hpositive
      rw [hrequests, Finset.card_le_one]
      simp only [Finset.mem_filter, Finset.mem_Icc, Except.ok.injEq,
        forall_eq']
      constructor
      · intro hsame first second hone hlt hthree hfirst hsecond
        by_contra hretried
        push Not at hretried
        have hmade : second ≤ run.calls :=
          (hcalls second (by omega)).mpr ⟨by omega, hretried⟩
        have heq := hsame first ⟨⟨hone, by omega⟩, hfirst⟩
          second ⟨⟨by omega, hmade⟩, hsecond⟩
        omega
      · intro honce
        have hordered : ∀ first second, 1 ≤ first → first < second →
            second ≤ run.calls → (behaviour first).takesEffect →
              ¬ (behaviour second).takesEffect := by
          intro first second hone hlt hmade hfirst hsecond
          obtain ⟨hthree, hretried⟩ := (hcalls second (by omega)).mp hmade
          obtain ⟨earlier, hpositive, hearlier, hstops⟩ :=
            honce first second hone hlt (by omega) hfirst hsecond
          exact hstops (hretried earlier hpositive hearlier)
        intro left hleft right hright
        rcases lt_trichotomy left right with hlt | heq | hgt
        · exact absurd hright.2
            (hordered left right hleft.1.1 hlt hright.1.2 hleft.2)
        · exact heq
        · exact absurd hleft.2
            (hordered right left hright.1.1 hgt hleft.1.2 hright.2)

def asciiToLowerCase (text : Utf16) : Utf16 :=
  ⟨text.units.map fun unit =>
    if 65 ≤ unit ∧ unit ≤ 90 then unit + 32 else unit⟩

def plainTransfer : TransferInput where
  fromAddress := "cosmos1sender"
  toAddress := "cosmos1receiver"
  amount := "12345"

/-- The first call takes effect but its answer is lost, the second one
succeeds. -/
def lostAnswer : ℕ → SignAndBroadcast → Behaviour
  | 1, _ => .throws (.error "fetch failed") true
  | _, _ => .returns { code := 0, transactionHash := "TX_HASH_2" }

theorem sendNativeToken_twice_lostAnswer :
    effects lostAnswer
      (sendNativeToken asciiToLowerCase
        (fun amount denom => .ok { denom, amount }) lostAnswer "usoul"
        plainTransfer).requests = 2 := by
  decide

end SoulonWallet.Wallet
