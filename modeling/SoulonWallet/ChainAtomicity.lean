import SoulonWallet.GoStrings

/-!
# Atomicity of transactions

A failed transaction leaves the keepers as they were, with one exception.
`Redelegate` takes the amount from the old validator before `Delegate`
decides whether the new one may join the validator set, and does not give it
back.  The exact condition for a call to be atomic is that it does not run
into this refusal.
-/

namespace SoulonWallet.Chain

/-! ## Keeper operations that check before they write -/

theorem Bank.Keeper.send_unchanged_of_error
    {keeper : Bank.Keeper} {fromAddress toAddress : String} {amount : Int64}
    {message : String}
    (herr : (keeper.send fromAddress toAddress amount).2 = .error message) :
    (keeper.send fromAddress toAddress amount).1 = keeper := by
  unfold Bank.Keeper.send at herr ⊢
  split_ifs at herr ⊢ <;> rfl

theorem Gov.Keeper.submitProposal_unchanged_of_error
    {keeper : Gov.Keeper} {now : ℤ} {proposer title message : String}
    (herr : (keeper.submitProposal now proposer title).2 = .error message) :
    (keeper.submitProposal now proposer title).1 = keeper := by
  unfold Gov.Keeper.submitProposal at herr ⊢
  split_ifs at herr ⊢
  rfl

theorem Gov.Keeper.vote_unchanged_of_error
    {keeper : Gov.Keeper} {proposalID : UInt64} {option : Gov.VoteOption}
    {weight : Int64} {message : String}
    (herr : (keeper.vote proposalID option weight).2 = .error message) :
    (keeper.vote proposalID option weight).1 = keeper := by
  unfold Gov.Keeper.vote at herr ⊢
  by_cases hweight : weight ≤ 0
  · simp [hweight]
  · simp only [hweight, if_false] at herr ⊢
    cases hlookup : keeper.proposals.lookup proposalID with
    | none => rfl
    | some proposal =>
        simp only [hlookup] at herr ⊢
        split_ifs at herr ⊢
        rfl

theorem Distribution.Keeper.addReward_unchanged_of_error
    {keeper : Distribution.Keeper} {delegator : String} {amount : Int64}
    {message : String}
    (herr : (keeper.addReward delegator amount).2 = .error message) :
    (keeper.addReward delegator amount).1 = keeper := by
  unfold Distribution.Keeper.addReward at herr ⊢
  split_ifs at herr ⊢ <;> rfl

/-! ## Admission to the validator set -/

def Staking.Keeper.Refuses
    (keeper : Staking.Keeper) (validator : String) : Prop :=
  ¬ keeper.validators.card < keeper.params.maxValidators ∧
    validator ∉ keeper.validators

instance (keeper : Staking.Keeper) (validator : String) :
    Decidable (keeper.Refuses validator) := by
  unfold Staking.Keeper.Refuses
  infer_instance

theorem Staking.Keeper.mem_join_iff
    (keeper : Staking.Keeper) (validator : String) :
    validator ∈ (keeper.join validator).validators ↔
      ¬ keeper.Refuses validator := by
  unfold Staking.Keeper.join Staking.Keeper.Refuses
  split_ifs with hroom
  · simp [hroom]
  · simp [hroom]

theorem Staking.Keeper.join_of_refuses
    {keeper : Staking.Keeper} {validator : String}
    (hrefuses : keeper.Refuses validator) :
    keeper.join validator = keeper := by
  simp [Staking.Keeper.join, hrefuses.1]

/-- With well-formed arguments `Delegate` fails exactly when the validator is
refused, and then it has not written anything. -/
theorem Staking.Keeper.delegate_of_refuses
    {keeper : Staking.Keeper} {delegator validator : String} {amount : Int64}
    (hdelegator : delegator ≠ "") (hvalidator : validator ≠ "")
    (hamount : ¬ amount ≤ 0) (hrefuses : keeper.Refuses validator) :
    keeper.delegate delegator validator amount =
      (keeper, .error "staking validator capacity reached") := by
  have hmem := hrefuses.2
  simp [Staking.Keeper.delegate, hdelegator, hvalidator, hamount,
    join_of_refuses hrefuses, hmem]

theorem Staking.Keeper.delegate_ok_of_not_refuses
    {keeper : Staking.Keeper} {delegator validator : String} {amount : Int64}
    (hdelegator : delegator ≠ "") (hvalidator : validator ≠ "")
    (hamount : ¬ amount ≤ 0) (hrefuses : ¬ keeper.Refuses validator) :
    (keeper.delegate delegator validator amount).2 = .ok () := by
  have hmem := (keeper.mem_join_iff validator).mpr hrefuses
  simp [Staking.Keeper.delegate, hdelegator, hvalidator, hamount, hmem]

theorem Staking.Keeper.delegate_unchanged_of_error
    {keeper : Staking.Keeper} {delegator validator : String} {amount : Int64}
    {message : String}
    (herr : (keeper.delegate delegator validator amount).2 =
      .error message) :
    (keeper.delegate delegator validator amount).1 = keeper := by
  by_cases hempty : delegator = "" ∨ validator = ""
  · simp [Staking.Keeper.delegate, hempty]
  · by_cases hamount : amount ≤ 0
    · simp [Staking.Keeper.delegate, hempty, hamount]
    · obtain ⟨hdelegator, hvalidator⟩ := not_or.mp hempty
      by_cases hrefuses : keeper.Refuses validator
      · rw [delegate_of_refuses hdelegator hvalidator hamount hrefuses]
      · rw [delegate_ok_of_not_refuses hdelegator hvalidator hamount
          hrefuses] at herr
        simp at herr

/-! ## Redelegation -/

def Staking.Keeper.RefusesAfterDebit (keeper : Staking.Keeper)
    (delegator fromValidator toValidator : String) (amount : Int64) : Prop :=
  ¬ (keeper.delegationsOf delegator).get fromValidator 0 < amount ∧
    keeper.Refuses toValidator

instance (keeper : Staking.Keeper)
    (delegator fromValidator toValidator : String) (amount : Int64) :
    Decidable (keeper.RefusesAfterDebit delegator fromValidator toValidator
      amount) := by
  unfold Staking.Keeper.RefusesAfterDebit
  infer_instance

/-- A redelegation with well-formed arguments either fails before it writes,
or debits the old validator and delegates to the new one. -/
theorem Staking.Keeper.redelegate_eq
    {keeper : Staking.Keeper} {delegator fromValidator toValidator : String}
    {amount : Int64} (hfrom : fromValidator ≠ "") (hto : toValidator ≠ "")
    (hamount : 0 < amount) :
    keeper.redelegate delegator fromValidator toValidator amount =
      if (keeper.delegationsOf delegator).get fromValidator 0 < amount then
        (keeper, .error "staking insufficient delegation")
      else
        (keeper.setDelegation delegator fromValidator
          ((keeper.delegationsOf delegator).get fromValidator 0 -
            amount)).delegate delegator toValidator amount := by
  have hpos : ¬ amount ≤ 0 := by
    simpa using hamount
  cases hlookup : keeper.delegations.lookup delegator with
  | none =>
      have hof : keeper.delegationsOf delegator = ∅ := by
        simp [Staking.Keeper.delegationsOf, KeyedMap.get, hlookup]
      simp [Staking.Keeper.redelegate, hpos, hfrom, hto, hlookup, hof,
        KeyedMap.get_empty, hamount]
  | some validatorDelegations =>
      have hof :
          keeper.delegationsOf delegator = validatorDelegations := by
        simp [Staking.Keeper.delegationsOf, KeyedMap.get, hlookup]
      simp [Staking.Keeper.redelegate, hpos, hfrom, hto, hlookup, hof]

theorem Staking.Keeper.setDelegation_ne
    {keeper : Staking.Keeper} {delegator validator : String} {amount : Int64}
    (hne : amount ≠ (keeper.delegationsOf delegator).get validator 0) :
    keeper.setDelegation delegator validator amount ≠ keeper := by
  intro heq
  apply hne
  have hread :
      ((keeper.setDelegation delegator validator amount).delegationsOf
        delegator).get validator 0 = amount := by
    simp [Staking.Keeper.setDelegation, Staking.Keeper.delegationsOf,
      KeyedMap.get_insert_self]
  rw [heq] at hread
  exact hread.symm

theorem Staking.Keeper.redelegate_of_refusesAfterDebit
    {keeper : Staking.Keeper} {delegator fromValidator toValidator : String}
    {amount : Int64} (hdelegator : delegator ≠ "")
    (hfrom : fromValidator ≠ "") (hto : toValidator ≠ "")
    (hamount : 0 < amount)
    (hrefuses : keeper.RefusesAfterDebit delegator fromValidator toValidator
      amount) :
    (keeper.redelegate delegator fromValidator toValidator amount).2 =
        .error "staking validator capacity reached" ∧
      (keeper.redelegate delegator fromValidator toValidator amount).1 ≠
        keeper := by
  have hpos : ¬ amount ≤ 0 := by
    simpa using hamount
  have hrefusesDebited :
      (keeper.setDelegation delegator fromValidator
        ((keeper.delegationsOf delegator).get fromValidator 0 -
          amount)).Refuses toValidator :=
    hrefuses.2
  rw [redelegate_eq hfrom hto hamount, if_neg hrefuses.1,
    delegate_of_refuses hdelegator hto hpos hrefusesDebited]
  refine ⟨rfl, setDelegation_ne ?_⟩
  intro heq
  have hzero : amount = 0 := by grind
  rw [hzero] at hamount
  exact absurd hamount (by decide)

theorem Staking.Keeper.redelegate_unchanged_of_error
    {keeper : Staking.Keeper} {delegator fromValidator toValidator : String}
    {amount : Int64} {message : String} (hdelegator : delegator ≠ "")
    (hfrom : fromValidator ≠ "") (hto : toValidator ≠ "")
    (hamount : 0 < amount)
    (hrefuses : ¬ keeper.RefusesAfterDebit delegator fromValidator
      toValidator amount)
    (herr : (keeper.redelegate delegator fromValidator toValidator
      amount).2 = .error message) :
    (keeper.redelegate delegator fromValidator toValidator amount).1 =
      keeper := by
  have hpos : ¬ amount ≤ 0 := by
    simpa using hamount
  rw [redelegate_eq hfrom hto hamount] at herr ⊢
  by_cases henough :
      (keeper.delegationsOf delegator).get fromValidator 0 < amount
  · rw [if_pos henough]
  · have hadmitted :
        ¬ (keeper.setDelegation delegator fromValidator
          ((keeper.delegationsOf delegator).get fromValidator 0 -
            amount)).Refuses toValidator := by
      intro hbad
      exact hrefuses ⟨henough, hbad⟩
    rw [if_neg henough, delegate_ok_of_not_refuses hdelegator hto hpos
      hadmitted] at herr
    simp at herr

/-! ## Transactions -/

theorem validateTx_stakingRedelegate
    {tx : Tx} (hvalid : validateTx tx = .ok ())
    (htype : tx.type = txStakingRedelegate) :
    tx.delegator ≠ "" ∧ tx.fromValidator ≠ "" ∧ tx.toValidator ≠ "" ∧
      0 < tx.amount := by
  have hblank : trimSpace txStakingRedelegate ≠ "" := by decide
  have hbank : txStakingRedelegate ≠ txBankSend := by decide
  have hdelegate : txStakingRedelegate ≠ txStakingDelegate := by decide
  simp only [validateTx, htype, hblank, hbank, hdelegate, if_false,
    if_true] at hvalid
  split_ifs at hvalid with hdelegator hvalidators hamount
  obtain ⟨hfrom, hto⟩ := not_or.mp hvalidators
  exact ⟨ne_empty_of_trimSpace_ne hdelegator,
    ne_empty_of_trimSpace_ne hfrom, ne_empty_of_trimSpace_ne hto,
    by simpa using hamount⟩

/-- The call is a valid redelegation whose new validator is refused after
the old one has been debited. -/
def ChainApp.LosesDelegation (app : ChainApp) (tx : Tx) : Prop :=
  tx.type = txStakingRedelegate ∧ validateTx tx = .ok () ∧
    app.stakingKeeper.RefusesAfterDebit tx.delegator tx.fromValidator
      tx.toValidator tx.amount

/-- A failed call leaves all four keepers as they were, for every state and
every transaction, except when a redelegation is refused after the debit. -/
theorem ChainApp.executeTx_atomic_iff
    (app : ChainApp) (now : ℤ) (tx : Tx) :
    (∀ err, (app.executeTx now tx).2 = .error err →
        (app.executeTx now tx).1 = app) ↔
      ¬ app.LosesDelegation tx := by
  constructor
  · intro hatomic hloses
    rcases hloses with ⟨htype, hvalid, hrefuses⟩
    obtain ⟨hdelegator, hfrom, hto, hamount⟩ :=
      validateTx_stakingRedelegate hvalid htype
    rcases Staking.Keeper.redelegate_of_refusesAfterDebit hdelegator hfrom
      hto hamount hrefuses with ⟨herr, hchanged⟩
    rw [executeTx_stakingRedelegate app now hvalid htype] at hatomic
    have happ := hatomic _ (by rw [herr]; rfl)
    exact hchanged (congrArg ChainApp.stakingKeeper happ)
  · intro hkeeps err herr
    cases hvalid : validateTx tx with
    | error invalid => rw [executeTx_of_invalid app now hvalid]
    | ok _ =>
        by_cases htype : tx.type = txStakingRedelegate
        · obtain ⟨hdelegator, hfrom, hto, hamount⟩ :=
            validateTx_stakingRedelegate hvalid htype
          rw [executeTx_stakingRedelegate app now hvalid htype] at herr ⊢
          obtain ⟨message, hmessage⟩ := wrapOutcome_eq_error herr
          have hrefuses :
              ¬ app.stakingKeeper.RefusesAfterDebit tx.delegator
                tx.fromValidator tx.toValidator tx.amount := by
            intro hbad
            exact hkeeps ⟨htype, hvalid, hbad⟩
          rw [Staking.Keeper.redelegate_unchanged_of_error hdelegator hfrom
            hto hamount hrefuses hmessage]
        · unfold ChainApp.executeTx at herr ⊢
          simp only [hvalid, htype, if_false] at herr ⊢
          split_ifs at herr ⊢
          all_goals
            first
              | rfl
              | rcases wrapOutcome_eq_error herr with ⟨message, hmessage⟩
          · rw [Bank.Keeper.send_unchanged_of_error hmessage]
          · rw [Staking.Keeper.delegate_unchanged_of_error hmessage]
          · rw [Gov.Keeper.submitProposal_unchanged_of_error hmessage]
          · rw [Gov.Keeper.vote_unchanged_of_error hmessage]
          · rw [Distribution.Keeper.addReward_unchanged_of_error hmessage]

/-- One validator seat, taken; Alice moves part of her delegation to a second
validator. -/
def fullSetApp : ChainApp :=
  { newChainApp with
    stakingKeeper := {
      params := ⟨"usoul", 1, "1814400s"⟩
      unbonding := 1814400000000000
      validators := {"v1"}
      delegations := AList.insert "alice" (AList.insert "v1" 10 ∅) ∅ } }

def redelegateToSecond : Tx where
  type := "staking_redelegate"
  delegator := "alice"
  fromValidator := "v1"
  toValidator := "v2"
  amount := 4

theorem redelegate_not_atomic :
    ¬ ∀ (app : ChainApp) (now : ℤ) (tx : Tx) (err : AppError),
      (app.executeTx now tx).2 = .error err →
        (app.executeTx now tx).1 = app := by
  intro hatomic
  have herr : (fullSetApp.executeTx 0 redelegateToSecond).2 =
      .error ⟨.executionFailed, "staking validator capacity reached"⟩ := by
    decide
  have hstate := hatomic fullSetApp 0 redelegateToSecond _ herr
  have hdelegation :
      ((fullSetApp.executeTx 0 redelegateToSecond).1.stakingKeeper.delegationsOf
        "alice").get "v1" 0 = 6 := by
    decide
  rw [hstate] at hdelegation
  exact absurd hdelegation (by decide)

end SoulonWallet.Chain
