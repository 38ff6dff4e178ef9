import SoulonWallet.ChainKeepers

/-!
# Transactions of the deep chain

`executeTx` validates a transaction and hands it to one of the four keepers.
The transaction type is free text in the source, so an unknown type is one
more error path.  Texts are valid UTF-8, and `now` is the clock reading that
a submitted proposal is stamped with.
-/

namespace SoulonWallet.Chain

def isSpace (c : Char) : Bool :=
  c ∈ ['\t', '\n', '\u000b', '\u000c', '\r', ' ', '\u0085', '\u00a0',
    '\u1680', '\u2028', '\u2029', '\u202f', '\u205f', '\u3000'] ||
  ('\u2000' ≤ c && c ≤ '\u200a')

def trimSpace (text : String) : String :=
  String.ofList
    (((text.toList.dropWhile isSpace).reverse.dropWhile isSpace).reverse)

inductive ErrorCode where
  | invalidTx
  | invalidField
  | invalidVersion
  | executionFailed
  deriving DecidableEq

structure AppError where
  code : ErrorCode
  message : String
  deriving DecidableEq

def newInvalidFieldError (message : String) : AppError :=
  ⟨.invalidField, message⟩

def newInvalidTxError (message : String) : AppError :=
  ⟨.invalidTx, message⟩

def wrapExecutionError (message : String) : AppError :=
  ⟨.executionFailed, message⟩

def txBankSend : String := "bank_send"
def txStakingDelegate : String := "staking_delegate"
def txStakingRedelegate : String := "staking_redelegate"
def txGovSubmit : String := "gov_submit"
def txGovVote : String := "gov_vote"
def txGovTally : String := "gov_tally"
def txRewardsAdd : String := "rewards_add"
def txRewardsClaim : String := "rewards_claim"

/-- Fields a transaction leaves out have Go's zero values. -/
structure Tx where
  type : String := ""
  fromAddress : String := ""
  toAddress : String := ""
  amount : Int64 := 0
  delegator : String := ""
  validator : String := ""
  fromValidator : String := ""
  toValidator : String := ""
  title : String := ""
  proposalID : UInt64 := 0
  option : Gov.VoteOption := ""
  votingPower : Int64 := 0
  deriving DecidableEq

structure TxResult where
  message : String := ""
  proposalID : UInt64 := 0
  accepted : Bool := false
  quorumMet : Bool := false
  claimedReward : Int64 := 0
  deriving DecidableEq

structure ChainApp where
  bankKeeper : Bank.Keeper
  stakingKeeper : Staking.Keeper
  distributionKeeper : Distribution.Keeper
  govKeeper : Gov.Keeper
  deriving DecidableEq

def newChainApp : ChainApp where
  bankKeeper := Bank.newKeeper
  stakingKeeper := Staking.newKeeper
  distributionKeeper := Distribution.newKeeper
  govKeeper := Gov.newKeeper

def validateTx (tx : Tx) : Except AppError Unit :=
  if trimSpace tx.type = "" then
    .error (newInvalidFieldError "tx type is required")
  else if tx.type = txBankSend then
    if trimSpace tx.fromAddress = "" ∨ trimSpace tx.toAddress = "" then
      .error (newInvalidFieldError "bank send requires from and to")
    else if tx.amount ≤ 0 then
      .error (newInvalidFieldError "bank send amount must be positive")
    else .ok ()
  else if tx.type = txStakingDelegate then
    if trimSpace tx.delegator = "" ∨ trimSpace tx.validator = "" then
      .error (newInvalidFieldError
        "staking delegate requires delegator and validator")
    else if tx.amount ≤ 0 then
      .error (newInvalidFieldError "staking delegate amount must be positive")
    else .ok ()
  else if tx.type = txStakingRedelegate then
    if trimSpace tx.delegator = "" then
      .error (newInvalidFieldError "staking redelegate requires delegator")
    else if trimSpace tx.fromValidator = "" ∨
        trimSpace tx.toValidator = "" then
      .error (newInvalidFieldError
        "staking redelegate requires from_validator and to_validator")
    else if tx.amount ≤ 0 then
      .error (newInvalidFieldError "staking redelegate amount must be positive")
    else .ok ()
  else if tx.type = txGovSubmit then
    if trimSpace tx.fromAddress = "" ∨ trimSpace tx.title = "" then
      .error (newInvalidFieldError "gov submit requires proposer and title")
    else .ok ()
  else if tx.type = txGovVote then
    if tx.proposalID = 0 then
      .error (newInvalidFieldError "gov vote requires proposal_id")
    else if tx.amount ≤ 0 then
      .error (newInvalidFieldError "gov vote amount must be positive")
    else if ¬ tx.option.valid then
      .error (newInvalidFieldError "gov vote option is invalid")
    else .ok ()
  else if tx.type = txGovTally then
    if tx.proposalID = 0 then
      .error (newInvalidFieldError "gov tally requires proposal_id")
    else if tx.votingPower ≤ 0 then
      .error (newInvalidFieldError "gov tally voting_power must be positive")
    else .ok ()
  else if tx.type = txRewardsAdd then
    if trimSpace tx.delegator = "" then
      .error (newInvalidFieldError "reward add requires delegator")
    else if tx.amount ≤ 0 then
      .error (newInvalidFieldError "reward add amount must be positive")
    else .ok ()
  else if tx.type = txRewardsClaim then
    if trimSpace tx.delegator = "" then
      .error (newInvalidFieldError "reward claim requires delegator")
    else .ok ()
  else
    .error (newInvalidTxError ("unknown tx type: " ++ tx.type))

def wrapOutcome {α : Type} (onOk : α → TxResult) :
    Except String α → Except AppError TxResult
  | .error message => .error (wrapExecutionError message)
  | .ok value => .ok (onOk value)

def ChainApp.executeTx (app : ChainApp) (now : ℤ) (tx : Tx) :
    ChainApp × Except AppError TxResult :=
  match validateTx tx with
  | .error err => (app, .error err)
  | .ok () =>
      if tx.type = txBankSend then
        let (keeper, outcome) :=
          app.bankKeeper.send tx.fromAddress tx.toAddress tx.amount
        ({ app with bankKeeper := keeper },
          wrapOutcome (fun _ => { message := "bank send ok" }) outcome)
      else if tx.type = txStakingDelegate then
        let (keeper, outcome) :=
          app.stakingKeeper.delegate tx.delegator tx.validator tx.amount
        ({ app with stakingKeeper := keeper },
          wrapOutcome (fun _ => { message := "staking delegate ok" }) outcome)
      else if tx.type = txStakingRedelegate then
        let (keeper, outcome) :=
          app.stakingKeeper.redelegate tx.delegator tx.fromValidator
            tx.toValidator tx.amount
        ({ app with stakingKeeper := keeper },
          wrapOutcome (fun _ => { message := "staking redelegate ok" }) outcome)
      else if tx.type = txGovSubmit then
        let (keeper, outcome) :=
          app.govKeeper.submitProposal now tx.fromAddress tx.title
        ({ app with govKeeper := keeper },
          wrapOutcome
            (fun proposal =>
              { message := "gov submit ok", proposalID := proposal.id })
            outcome)
      else if tx.type = txGovVote then
        let (keeper, outcome) :=
          app.govKeeper.vote tx.proposalID tx.option tx.amount
        ({ app with govKeeper := keeper },
          wrapOutcome (fun _ => { message := "gov vote ok" }) outcome)
      else if tx.type = txGovTally then
        (app,
          wrapOutcome
            (fun tally =>
              { message := "gov tally ok"
                accepted := tally.accepted
                quorumMet := tally.quorumMet })
            (app.govKeeper.tally tx.proposalID tx.votingPower))
      else if tx.type = txRewardsAdd then
        let (keeper, outcome) :=
          app.distributionKeeper.addReward tx.delegator tx.amount
        ({ app with distributionKeeper := keeper },
          wrapOutcome (fun _ => { message := "reward add ok" }) outcome)
      else if tx.type = txRewardsClaim then
        let (keeper, claimed) := app.distributionKeeper.claimReward tx.delegator
        ({ app with distributionKeeper := keeper },
          .ok { message := "reward claim ok", claimedReward := claimed })
      else
        (app, .error (newInvalidTxError ("unknown tx type: " ++ tx.type)))

/-! ## What a call can do to the state -/

theorem wrapOutcome_eq_error
    {α : Type} {onOk : α → TxResult} {outcome : Except String α}
    {err : AppError} (h : wrapOutcome onOk outcome = .error err) :
    ∃ message, outcome = .error message := by
  cases outcome with
  | error message => exact ⟨message, rfl⟩
  | ok value => simp [wrapOutcome] at h

theorem ChainApp.executeTx_of_invalid
    (app : ChainApp) (now : ℤ) {tx : Tx} {err : AppError}
    (hvalid : validateTx tx = .error err) :
    app.executeTx now tx = (app, .error err) := by
  simp [ChainApp.executeTx, hvalid]

theorem ChainApp.executeTx_bankSend
    (app : ChainApp) (now : ℤ) {tx : Tx}
    (hvalid : validateTx tx = .ok ()) (htype : tx.type = txBankSend) :
    (app.executeTx now tx).1 = { app with
      bankKeeper :=
        (app.bankKeeper.send tx.fromAddress tx.toAddress tx.amount).1 } := by
  simp [ChainApp.executeTx, hvalid, htype]

theorem ChainApp.executeTx_stakingRedelegate
    (app : ChainApp) (now : ℤ) {tx : Tx}
    (hvalid : validateTx tx = .ok ())
    (htype : tx.type = txStakingRedelegate) :
    app.executeTx now tx =
      ({ app with
          stakingKeeper :=
            (app.stakingKeeper.redelegate tx.delegator tx.fromValidator
              tx.toValidator tx.amount).1 },
        wrapOutcome (fun _ => { message := "staking redelegate ok" })
          (app.stakingKeeper.redelegate tx.delegator tx.fromValidator
            tx.toValidator tx.amount).2) := by
  have hbank : txStakingRedelegate ≠ txBankSend := by decide
  have hdelegate : txStakingRedelegate ≠ txStakingDelegate := by decide
  simp [ChainApp.executeTx, hvalid, htype, hbank, hdelegate]

/-- Only a valid bank transaction touches the bank keeper. -/
theorem ChainApp.executeTx_bankKeeper_of_ne
    (app : ChainApp) (now : ℤ) {tx : Tx} (htype : tx.type ≠ txBankSend) :
    (app.executeTx now tx).1.bankKeeper = app.bankKeeper := by
  unfold ChainApp.executeTx
  cases hvalid : validateTx tx with
  | error err => rfl
  | ok _ =>
      simp only [htype, if_false]
      split_ifs <;> rfl

/-- Everything that a call can do, with the outcome that it reports. -/
inductive ChainApp.Executes (app : ChainApp) (now : ℤ) (tx : Tx) :
    ChainApp → Except AppError TxResult → Prop
  | refused {err : AppError} (hvalid : validateTx tx = .error err) :
      Executes app now tx app (.error err)
  | bankSend (hvalid : validateTx tx = .ok ())
      (htype : tx.type = txBankSend) :
      Executes app now tx
        { app with
          bankKeeper :=
            (app.bankKeeper.send tx.fromAddress tx.toAddress tx.amount).1 }
        (wrapOutcome (fun _ => { message := "bank send ok" })
          (app.bankKeeper.send tx.fromAddress tx.toAddress tx.amount).2)
  | stakingDelegate (hvalid : validateTx tx = .ok ())
      (htype : tx.type = txStakingDelegate) :
      Executes app now tx
        { app with
          stakingKeeper :=
            (app.stakingKeeper.delegate tx.delegator tx.validator
              tx.amount).1 }
        (wrapOutcome (fun _ => { message := "staking delegate ok" })
          (app.stakingKeeper.delegate tx.delegator tx.validator tx.amount).2)
  | stakingRedelegate (hvalid : validateTx tx = .ok ())
      (htype : tx.type = txStakingRedelegate) :
      Executes app now tx
        { app with
          stakingKeeper :=
            (app.stakingKeeper.redelegate tx.delegator tx.fromValidator
              tx.toValidator tx.amount).1 }
        (wrapOutcome (fun _ => { message := "staking redelegate ok" })
          (app.stakingKeeper.redelegate tx.delegator tx.fromValidator
            tx.toValidator tx.amount).2)
  | govSubmit (hvalid : validateTx tx = .ok ())
      (htype : tx.type = txGovSubmit) :
      Executes app now tx
        { app with
          govKeeper :=
            (app.govKeeper.submitProposal now tx.fromAddress tx.title).1 }
        (wrapOutcome
          (fun proposal =>
            { message := "gov submit ok", proposalID := proposal.id })
          (app.govKeeper.submitProposal now tx.fromAddress tx.title).2)
  | govVote (hvalid : validateTx tx = .ok ()) (htype : tx.type = txGovVote) :
      Executes app now tx
        { app with
          govKeeper :=
            (app.govKeeper.vote tx.proposalID tx.option tx.amount).1 }
        (wrapOutcome (fun _ => { message := "gov vote ok" })
          (app.govKeeper.vote tx.proposalID tx.option tx.amount).2)
  | govTally (hvalid : validateTx tx = .ok ())
      (htype : tx.type = txGovTally) :
      Executes app now tx app
        (wrapOutcome
          (fun tally =>
            { message := "gov tally ok"
              accepted := tally.accepted
              quorumMet := tally.quorumMet })
          (app.govKeeper.tally tx.proposalID tx.votingPower))
  | rewardsAdd (hvalid : validateTx tx = .ok ())
      (htype : tx.type = txRewardsAdd) :
      Executes app now tx
        { app with
          distributionKeeper :=
            (app.distributionKeeper.addReward tx.delegator tx.amount).1 }
        (wrapOutcome (fun _ => { message := "reward add ok" })
          (app.distributionKeeper.addReward tx.delegator tx.amount).2)
  | rewardsClaim (hvalid : validateTx tx = .ok ())
      (htype : tx.type = txRewardsClaim) :
      Executes app now tx
        { app with
          distributionKeeper :=
            (app.distributionKeeper.claimReward tx.delegator).1 }
        (.ok
          { message := "reward claim ok"
            claimedReward :=
              (app.distributionKeeper.claimReward tx.delegator).2 })

theorem ChainApp.executeTx_executes
    (app : ChainApp) (now : ℤ) (tx : Tx) :
    app.Executes now tx (app.executeTx now tx).1
      (app.executeTx now tx).2 := by
  unfold ChainApp.executeTx
  cases hvalid : validateTx tx with
  | error err => exact .refused hvalid
  | ok _ =>
      simp only
      split_ifs with hbank hdelegate hredelegate hsubmit hvote htally hadd
        hclaim
      · exact .bankSend hvalid hbank
      · exact .stakingDelegate hvalid hdelegate
      · exact .stakingRedelegate hvalid hredelegate
      · exact .govSubmit hvalid hsubmit
      · exact .govVote hvalid hvote
      · exact .govTally hvalid htally
      · exact .rewardsAdd hvalid hadd
      · exact .rewardsClaim hvalid hclaim
      · simp [validateTx, hbank, hdelegate, hredelegate, hsubmit, hvote,
          htally, hadd, hclaim] at hvalid
        split_ifs at hvalid

end SoulonWallet.Chain
