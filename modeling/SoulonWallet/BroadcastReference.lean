import SoulonWallet.BroadcastRetry

/-!
# The reference semantics of broadcasting with retries

The loop of `broadcastWithRetry` has two criteria for a retry, one for the
codes of results and one for the codes of mapped errors, and keeps the last
error.  The reference names the attempt at which the loop stops: the first
one whose outcome is not retried, or else the last one.  Everything that a
call does follows from that number.
-/

namespace SoulonWallet.Wallet

section Reference

variable (toLowerCase : Utf16 → Utf16) (policy : RetryPolicy)
variable (execute : ℕ → Outcome)

instance (outcome : Outcome) :
    Decidable (Retried toLowerCase policy outcome) :=
  match outcome with
  | .returns result =>
      inferInstanceAs
        (Decidable (result.code ≠ 0 ∧ result.code ∈ policy.retriableCodes))
  | .throws error =>
      inferInstanceAs (Decidable
        ((mapBroadcastError toLowerCase error).code ∈
          policy.retriableErrorCodes))

/-- The first of `remaining` attempts from `attempt` on whose outcome is not
retried, or the attempt after them. -/
def stopFrom (attempt remaining : ℕ) : ℕ :=
  ((List.range' attempt remaining).find? fun attempt =>
    ¬ Retried toLowerCase policy (execute attempt)).getD (attempt + remaining)

def delay (attempt : ℕ) : Binary64 :=
  policy.baseDelayMs.mul (Binary64.ofInt attempt)

end Reference

def broadcastReference (toLowerCase : Utf16 → Utf16)
    (execute : ℕ → Outcome) (options : BroadcastRetryOptions) : RetryRun :=
  if options.policy.maxAttempts ≤ 0 then
    { calls := 0
      sleeps := []
      result :=
        .error { code := "TX_REJECTED", message := "transaction rejected" } }
  else
    let stop := stopFrom toLowerCase options.policy execute 1
      (options.policy.maxAttempts.toNat - 1)
    { calls := stop
      sleeps := (List.range' 1 (stop - 1)).map (delay options.policy)
      result := ending toLowerCase (execute stop) }

section Loop

variable {toLowerCase : Utf16 → Utf16} {policy : RetryPolicy}
variable {execute : ℕ → Outcome}

theorem stopFrom_zero (attempt : ℕ) :
    stopFrom toLowerCase policy execute attempt 0 = attempt := by
  simp [stopFrom]

theorem stopFrom_of_retried
    {attempt : ℕ} (remaining : ℕ)
    (hretried : Retried toLowerCase policy (execute attempt)) :
    stopFrom toLowerCase policy execute attempt (remaining + 1) =
      stopFrom toLowerCase policy execute (attempt + 1) remaining := by
  simp [stopFrom, List.range'_succ, hretried, Nat.add_right_comm, Nat.add_assoc]

theorem stopFrom_of_final
    {attempt : ℕ} (remaining : ℕ)
    (hfinal : ¬ Retried toLowerCase policy (execute attempt)) :
    stopFrom toLowerCase policy execute attempt remaining = attempt := by
  cases remaining with
  | zero => exact stopFrom_zero attempt
  | succ remaining => simp [stopFrom, List.range'_succ, hfinal]

theorem le_stopFrom (attempt remaining : ℕ) :
    attempt ≤ stopFrom toLowerCase policy execute attempt remaining := by
  induction remaining generalizing attempt with
  | zero => rw [stopFrom_zero]
  | succ remaining ih =>
      by_cases hretried : Retried toLowerCase policy (execute attempt)
      · rw [stopFrom_of_retried remaining hretried]
        have hnext := ih (attempt + 1)
        omega
      · rw [stopFrom_of_final _ hretried]

/-- The loop on an attempt that is made stops where the reference says. -/
theorem retryLoop_eq_stopFrom
    {remaining attempt : ℕ} (lastError : Option SoulonWalletError)
    (hturns : (attempt : ℤ) + remaining = policy.maxAttempts) :
    let stop := stopFrom toLowerCase policy execute attempt remaining
    retryLoop toLowerCase policy execute (remaining + 1) attempt lastError =
      { calls := stop + 1 - attempt
        sleeps :=
          (List.range' attempt (stop - attempt)).map (delay policy)
        result := ending toLowerCase (execute stop) } := by
  intro stop
  induction remaining generalizing attempt lastError with
  | zero =>
      have hstop : stop = attempt := stopFrom_zero attempt
      have hlast : ¬ (Retried toLowerCase policy (execute attempt) ∧
          attempt < policy.maxAttempts) := by
        omega
      rw [retryLoop_of_final lastError hlast, hstop]
      simp
  | succ remaining ih =>
      by_cases hretried : Retried toLowerCase policy (execute attempt)
      · have hleft : (attempt : ℤ) < policy.maxAttempts := by
          push_cast at hturns
          omega
        have hnext : ((attempt + 1 : ℕ) : ℤ) + remaining =
            policy.maxAttempts := by
          push_cast at hturns ⊢
          omega
        have hstop : stop =
            stopFrom toLowerCase policy execute (attempt + 1) remaining :=
          stopFrom_of_retried remaining hretried
        have hle : attempt + 1 ≤ stop :=
          hstop ▸ le_stopFrom (attempt + 1) remaining
        have hcalls : stop + 1 - attempt = (stop + 1 - (attempt + 1)) + 1 := by
          omega
        have hsleeps : stop - attempt = (stop - (attempt + 1)) + 1 := by
          omega
        rw [retryLoop_of_retried lastError hretried hleft, ih _ hnext,
          ← hstop, RetryRun.afterRetry, hcalls, hsleeps, List.range'_succ,
          List.map_cons]
        rfl
      · have hstop : stop = attempt := stopFrom_of_final _ hretried
        have hlast : ¬ (Retried toLowerCase policy (execute attempt) ∧
            attempt < policy.maxAttempts) :=
          fun hboth => hretried hboth.1
        rw [retryLoop_of_final lastError hlast, hstop]
        simp

end Loop

theorem broadcastWithRetry_eq_reference
    (toLowerCase : Utf16 → Utf16) (execute : ℕ → Outcome)
    (options : BroadcastRetryOptions) :
    broadcastWithRetry toLowerCase execute options =
      broadcastReference toLowerCase execute options := by
  unfold broadcastWithRetry broadcastReference
  by_cases hnone : options.policy.maxAttempts ≤ 0
  · have hzero : options.policy.maxAttempts.toNat = 0 := by omega
    rw [hzero, if_pos hnone]
    rfl
  · obtain ⟨remaining, hremaining⟩ :
        ∃ remaining, options.policy.maxAttempts.toNat = remaining + 1 :=
      ⟨options.policy.maxAttempts.toNat - 1, by omega⟩
    have hturns : ((1 : ℕ) : ℤ) + remaining =
        options.policy.maxAttempts := by
      omega
    rw [if_neg hnone, hremaining, retryLoop_eq_stopFrom none hturns]
    simp

end SoulonWallet.Wallet
