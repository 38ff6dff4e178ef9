import SoulonWallet.BankConservation
import SoulonWallet.ChainAtomicity
import SoulonWallet.ChainGenesis

/-!
# The validator set

A validator joins the set only while there is room, never leaves it, and gets
its first delegation after it has joined.  A successful redelegation moves an
amount between two validators of one delegator, whose wrapping total stays
the same, also when both validators are one.
-/

namespace SoulonWallet.Chain

open LabelledRun
open WrappingInt64

namespace Staking

namespace Keeper

/-- The delegation entry of a validator under a delegator. -/
def entry (keeper : Keeper) (delegator validator : String) : Option Int64 :=
  (keeper.delegationsOf delegator).lookup validator

variable {keeper : Keeper}
variable {delegator validator fromValidator toValidator : String}
variable {amount : Int64}

@[simp] theorem setDelegation_params
    (keeper : Keeper) (delegator validator : String) (amount : Int64) :
    (keeper.setDelegation delegator validator amount).params =
      keeper.params := rfl

@[simp] theorem setDelegation_validators
    (keeper : Keeper) (delegator validator : String) (amount : Int64) :
    (keeper.setDelegation delegator validator amount).validators =
      keeper.validators := rfl

@[simp] theorem join_params (keeper : Keeper) (validator : String) :
    (keeper.join validator).params = keeper.params := by
  unfold join
  split_ifs <;> rfl

@[simp] theorem join_delegations (keeper : Keeper) (validator : String) :
    (keeper.join validator).delegations = keeper.delegations := by
  unfold join
  split_ifs <;> rfl

theorem join_delegationsOf (keeper : Keeper) (validator : String) :
    (keeper.join validator).delegationsOf = keeper.delegationsOf := by
  funext delegator
  simp [delegationsOf]

theorem delegationsOf_setDelegation_self
    (keeper : Keeper) (delegator validator : String) (amount : Int64) :
    (keeper.setDelegation delegator validator amount).delegationsOf
        delegator =
      (keeper.delegationsOf delegator).insert validator amount := by
  simp [setDelegation, delegationsOf, KeyedMap.get_insert_self]

theorem lookup_setDelegation_of_ne
    {other : String} (keeper : Keeper) (validator : String) (amount : Int64)
    (hne : other ≠ delegator) :
    (keeper.setDelegation delegator validator amount).delegations.lookup
        other =
      keeper.delegations.lookup other :=
  AList.lookup_insert_ne hne

theorem entry_setDelegation
    (keeper : Keeper) (delegator validator : String) (amount : Int64)
    (other otherValidator : String) :
    (keeper.setDelegation delegator validator amount).entry other
        otherValidator =
      if other = delegator ∧ otherValidator = validator then some amount
      else keeper.entry other otherValidator := by
  unfold entry
  by_cases hsame : other = delegator
  · subst hsame
    rw [delegationsOf_setDelegation_self, KeyedMap.lookup_insert_eq]
    simp
  · have hkept :
        (keeper.setDelegation delegator validator amount).delegationsOf
          other = keeper.delegationsOf other :=
      KeyedMap.get_insert_of_ne keeper.delegations _ _ hsame
    rw [hkept, if_neg fun hboth => hsame hboth.1]

/-! ## What the operations do -/

theorem delegate_cases
    (keeper : Keeper) (delegator validator : String) (amount : Int64) :
    (∃ message,
        keeper.delegate delegator validator amount =
          (keeper, .error message)) ∨
      (validator ∈ (keeper.join validator).validators ∧
        keeper.delegate delegator validator amount =
          ((keeper.join validator).setDelegation delegator validator
            ((keeper.delegationsOf delegator).get validator 0 + amount),
            .ok ())) := by
  cases houtcome : (keeper.delegate delegator validator amount).2 with
  | error message =>
      exact Or.inl ⟨message,
        Prod.ext (delegate_unchanged_of_error houtcome) houtcome⟩
  | ok _ =>
      right
      unfold delegate at houtcome ⊢
      simp only at houtcome ⊢
      split_ifs at houtcome ⊢ with hempty hamount hmem
      exact ⟨hmem, by rw [join_delegationsOf]⟩

theorem redelegate_cases
    (keeper : Keeper) (delegator fromValidator toValidator : String)
    (amount : Int64) :
    (∃ message,
        keeper.redelegate delegator fromValidator toValidator amount =
          (keeper, .error message)) ∨
      (0 < amount ∧
        ¬ (keeper.delegationsOf delegator).get fromValidator 0 < amount ∧
        keeper.redelegate delegator fromValidator toValidator amount =
          (keeper.setDelegation delegator fromValidator
            ((keeper.delegationsOf delegator).get fromValidator 0 -
              amount)).delegate delegator toValidator amount) := by
  by_cases hamount : amount ≤ 0
  · exact Or.inl ⟨_, by simp only [redelegate, hamount, if_true]; rfl⟩
  · by_cases hempty : fromValidator = "" ∨ toValidator = ""
    · exact Or.inl ⟨_, by
        simp only [redelegate, hamount, hempty, if_true, if_false]; rfl⟩
    · obtain ⟨hfrom, hto⟩ := not_or.mp hempty
      have hpos : 0 < amount := by simpa using hamount
      rw [redelegate_eq hfrom hto hpos]
      split_ifs with henough
      · exact Or.inl ⟨_, rfl⟩
      · exact Or.inr ⟨hpos, henough, rfl⟩

/-! ## The invariant -/

structure Valid (keeper : Keeper) (params : Params) : Prop where
  params_eq : keeper.params = params
  capacity : keeper.validators.card ≤ params.maxValidators
  bonded : ∀ delegator validator amount,
    keeper.entry delegator validator = some amount →
    validator ∈ keeper.validators

variable {params : Params}

theorem Valid.join (hvalid : keeper.Valid params) (validator : String) :
    (keeper.join validator).Valid params := by
  have hcapacity := hvalid.capacity
  rw [← hvalid.params_eq] at hcapacity
  refine ⟨(join_params keeper validator).trans hvalid.params_eq, ?_, ?_⟩
  · rw [← hvalid.params_eq]
    unfold Keeper.join
    split_ifs with hroom
    · have hinsert := Finset.card_insert_le validator keeper.validators
      show ((insert validator keeper.validators).card : ℤ) ≤ _
      omega
    · exact hcapacity
  · intro delegator other amount hentry
    unfold entry at hentry
    rw [join_delegationsOf] at hentry
    have hmem := hvalid.bonded delegator other amount hentry
    unfold Keeper.join
    split_ifs with hroom
    · exact Finset.mem_insert_of_mem hmem
    · exact hmem

theorem Valid.setDelegation
    (hvalid : keeper.Valid params) (hmem : validator ∈ keeper.validators)
    (delegator : String) (amount : Int64) :
    (keeper.setDelegation delegator validator amount).Valid params := by
  refine ⟨hvalid.params_eq, hvalid.capacity, ?_⟩
  intro other otherValidator otherAmount hentry
  rw [entry_setDelegation] at hentry
  split_ifs at hentry with hsame
  · rw [hsame.2]
    exact hmem
  · exact hvalid.bonded other otherValidator otherAmount hentry

theorem Valid.delegate
    (hvalid : keeper.Valid params) (delegator validator : String)
    (amount : Int64) :
    (keeper.delegate delegator validator amount).1.Valid params := by
  rcases keeper.delegate_cases delegator validator amount with
    ⟨message, hresult⟩ | ⟨hmem, hresult⟩
  · rw [hresult]
    exact hvalid
  · rw [hresult]
    exact (hvalid.join validator).setDelegation hmem delegator _

/-- A delegation that covers a positive amount has an entry. -/
theorem entry_of_covers
    (hpos : 0 < amount)
    (hcovers : ¬ (keeper.delegationsOf delegator).get validator 0 < amount) :
    ∃ held, keeper.entry delegator validator = some held := by
  cases hentry : keeper.entry delegator validator with
  | some held => exact ⟨held, rfl⟩
  | none =>
      unfold entry at hentry
      rw [KeyedMap.get, hentry] at hcovers
      exact absurd hpos hcovers

theorem Valid.redelegate
    (hvalid : keeper.Valid params)
    (delegator fromValidator toValidator : String) (amount : Int64) :
    (keeper.redelegate delegator fromValidator toValidator amount).1.Valid
      params := by
  rcases keeper.redelegate_cases delegator fromValidator toValidator amount
    with ⟨message, hresult⟩ | ⟨hpos, hcovers, hresult⟩
  · rw [hresult]
    exact hvalid
  · rw [hresult]
    obtain ⟨held, hentry⟩ := entry_of_covers hpos hcovers
    have hmem := hvalid.bonded delegator fromValidator held hentry
    exact (hvalid.setDelegation hmem delegator _).delegate delegator
      toValidator amount

/-! ## The total of a delegator -/

theorem totalDelegation_eq (keeper : Keeper) (delegator : String) :
    keeper.totalDelegation delegator =
      Int64.ofInt
        ((keeper.delegationsOf delegator).weight Int64.toInt) := by
  unfold totalDelegation
  rw [foldl_add_eq_ofInt fun entry : Sigma fun _ : String => Int64 =>
    entry.2]
  simp [KeyedMap.weight]

theorem totalDelegation_setDelegation
    (keeper : Keeper) (delegator validator : String) (amount : Int64) :
    (keeper.setDelegation delegator validator amount).totalDelegation
        delegator =
      keeper.totalDelegation delegator + amount -
        (keeper.delegationsOf delegator).get validator 0 := by
  have hweight := KeyedMap.weight_insert Int64.toInt
    (keeper.delegationsOf delegator) validator amount 0 toInt_zero
  rw [totalDelegation_eq, totalDelegation_eq,
    delegationsOf_setDelegation_self, eq_sub_of_add_eq hweight,
    Int64.ofInt_sub, Int64.ofInt_add, Int64.ofInt_toInt, Int64.ofInt_toInt]

theorem totalDelegation_redelegate
    (hok : (keeper.redelegate delegator fromValidator toValidator
      amount).2 = .ok ()) :
    (keeper.redelegate delegator fromValidator toValidator
        amount).1.totalDelegation delegator =
      keeper.totalDelegation delegator := by
  rcases keeper.redelegate_cases delegator fromValidator toValidator amount
    with ⟨message, hresult⟩ | ⟨-, -, hresult⟩
  · rw [hresult] at hok
    cases hok
  · rw [hresult] at hok ⊢
    generalize hdebited : keeper.setDelegation delegator fromValidator
      ((keeper.delegationsOf delegator).get fromValidator 0 - amount) =
        debited at hok ⊢
    rcases debited.delegate_cases delegator toValidator amount with
      ⟨message, hcredit⟩ | ⟨-, hcredit⟩
    · rw [hcredit] at hok
      cases hok
    · have hjoined :
          (debited.join toValidator).totalDelegation delegator =
            debited.totalDelegation delegator := by
        rw [totalDelegation_eq, totalDelegation_eq, join_delegationsOf]
      rw [hcredit, totalDelegation_setDelegation, join_delegationsOf,
        hjoined, ← hdebited, totalDelegation_setDelegation]
      grind

theorem lookup_redelegate_of_ne
    {other : String} (hne : other ≠ delegator) :
    (keeper.redelegate delegator fromValidator toValidator
        amount).1.delegations.lookup other =
      keeper.delegations.lookup other := by
  rcases keeper.redelegate_cases delegator fromValidator toValidator amount
    with ⟨message, hresult⟩ | ⟨-, -, hresult⟩
  · rw [hresult]
  · rw [hresult]
    generalize hdebited : keeper.setDelegation delegator fromValidator
      ((keeper.delegationsOf delegator).get fromValidator 0 - amount) =
        debited
    have hkept : debited.delegations.lookup other =
        keeper.delegations.lookup other := by
      rw [← hdebited]
      exact lookup_setDelegation_of_ne keeper fromValidator _ hne
    rcases debited.delegate_cases delegator toValidator amount with
      ⟨message, hcredit⟩ | ⟨-, hcredit⟩
    · rw [hcredit, hkept]
    · rw [hcredit, lookup_setDelegation_of_ne _ _ _ hne, join_delegations,
        hkept]

theorem initGenesis_valid
    {parseDuration : String → Except String ℤ} {state : GenesisState}
    (haccepted : (keeper.initGenesis parseDuration state).2 = .ok ()) :
    (keeper.initGenesis parseDuration state).1.Valid state.params := by
  unfold initGenesis at haccepted ⊢
  split_ifs at haccepted ⊢ with hdenom hmax
  cases hparse : parseDuration state.params.unbondingTime with
  | error err => simp [hparse] at haccepted
  | ok unbonding =>
      refine ⟨rfl, ?_, ?_⟩
      · show ((∅ : Finset String).card : ℤ) ≤ state.params.maxValidators
        rw [Finset.card_empty]
        omega
      · intro delegator validator amount hentry
        cases hentry

end Keeper

end Staking

/-! ## Runs -/

def ChainApp.initStaking (parseDuration : String → Except String ℤ)
    (app : ChainApp) (state : Staking.GenesisState) : ChainApp :=
  { app with
    stakingKeeper :=
      (app.stakingKeeper.initGenesis parseDuration state).1 }

theorem ChainApp.step_staking_valid
    {app next : ChainApp} {call : ℤ × Tx} {params : Staking.Params}
    (hvalid : app.stakingKeeper.Valid params)
    (hstep : app.step call = some next) :
    next.stakingKeeper.Valid params := by
  obtain ⟨outcome, hexecutes⟩ := executes_of_step hstep
  cases hexecutes with
  | stakingDelegate => exact hvalid.delegate _ _ _
  | stakingRedelegate => exact hvalid.redelegate _ _ _ _
  | _ => exact hvalid

/-- A redelegation keeps the total of its delegator, and what every other
delegator has. -/
def ChainApp.RedelegationKeeps (app : ChainApp) (now : ℤ) (tx : Tx) : Prop :=
  (app.executeTx now tx).1.stakingKeeper.totalDelegation tx.delegator =
      app.stakingKeeper.totalDelegation tx.delegator ∧
    ∀ other, other ≠ tx.delegator →
      (app.executeTx now tx).1.stakingKeeper.delegations.lookup other =
        app.stakingKeeper.delegations.lookup other

theorem ChainApp.redelegationKeeps_of_ok
    {app : ChainApp} {now : ℤ} {tx : Tx} {result : TxResult}
    (htype : tx.type = txStakingRedelegate)
    (hok : (app.executeTx now tx).2 = .ok result) :
    app.RedelegationKeeps now tx := by
  cases hvalid : validateTx tx with
  | error err =>
      rw [executeTx_of_invalid app now hvalid] at hok
      cases hok
  | ok _ =>
      unfold RedelegationKeeps
      rw [executeTx_stakingRedelegate app now hvalid htype] at hok ⊢
      have hkeeper : (app.stakingKeeper.redelegate tx.delegator
          tx.fromValidator tx.toValidator tx.amount).2 = .ok () := by
        cases houtcome : (app.stakingKeeper.redelegate tx.delegator
            tx.fromValidator tx.toValidator tx.amount).2 with
        | error message =>
            rw [houtcome] at hok
            cases hok
        | ok _ => rfl
      exact ⟨Staking.Keeper.totalDelegation_redelegate hkeeper,
        fun _ hne => Staking.Keeper.lookup_redelegate_of_ne hne⟩

/-- In every state of a run after an accepted staking genesis, the set has
room for its members, every delegation is to a member, and a redelegation
that succeeds keeps the totals. -/
theorem staking_invariant_after_genesis
    {parseDuration : String → Except String ℤ} {app reached : ChainApp}
    {state : Staking.GenesisState} {calls : List (ℤ × Tx)}
    (haccepted :
      (app.stakingKeeper.initGenesis parseDuration state).2 = .ok ())
    (hrun : exec ChainApp.step (app.initStaking parseDuration state) calls =
      some reached) :
    reached.stakingKeeper.validators.card ≤ state.params.maxValidators ∧
      (∀ delegator validator amount,
        reached.stakingKeeper.entry delegator validator = some amount →
        validator ∈ reached.stakingKeeper.validators) ∧
      ∀ now tx result, tx.type = txStakingRedelegate →
        (reached.executeTx now tx).2 = .ok result →
        reached.RedelegationKeeps now tx := by
  have hvalid : reached.stakingKeeper.Valid state.params :=
    invariant_of_step
      (fun visited : ChainApp => visited.stakingKeeper.Valid state.params)
      (fun _ _ _ hinv hstep => ChainApp.step_staking_valid hinv hstep)
      (Staking.Keeper.initGenesis_valid haccepted) hrun
  exact ⟨hvalid.capacity, hvalid.bonded, fun _ _ _ htype hok =>
    ChainApp.redelegationKeeps_of_ok htype hok⟩

def oneSeat : Staking.GenesisState where
  params := ⟨"usoul", 1, "1814400s"⟩

def parseThreeWeeks (text : String) : Except String ℤ :=
  if text = "1814400s" then .ok 1814400000000000
  else .error "time: invalid duration"

def delegateToFirst : Tx where
  type := "staking_delegate"
  delegator := "alice"
  validator := "v1"
  amount := 10

def redelegateToFirst : Tx where
  type := "staking_redelegate"
  delegator := "alice"
  fromValidator := "v1"
  toValidator := "v1"
  amount := 4

/-- The only seat is taken, and the delegation moves to where it is. -/
theorem staking_invariant_of_oneSeat :
    ∃ reached,
      exec ChainApp.step (newChainApp.initStaking parseThreeWeeks oneSeat)
          [(0, delegateToFirst)] = some reached ∧
        reached.stakingKeeper.entry "alice" "v1" = some 10 ∧
        "v1" ∈ reached.stakingKeeper.validators ∧
        reached.RedelegationKeeps 1 redelegateToFirst := by
  have haccepted : (newChainApp.stakingKeeper.initGenesis parseThreeWeeks
      oneSeat).2 = .ok () := by
    decide
  obtain ⟨reached, hrun, hentry, hok⟩ : ∃ reached,
      exec ChainApp.step (newChainApp.initStaking parseThreeWeeks oneSeat)
          [(0, delegateToFirst)] = some reached ∧
        reached.stakingKeeper.entry "alice" "v1" = some 10 ∧
        (reached.executeTx 1 redelegateToFirst).2 =
          .ok { message := "staking redelegate ok" } :=
    ⟨_, rfl, by decide, by decide⟩
  obtain ⟨-, hbonded, hredelegates⟩ :=
    staking_invariant_after_genesis haccepted hrun
  exact ⟨reached, hrun, hentry, hbonded "alice" "v1" 10 hentry,
    hredelegates 1 redelegateToFirst _ rfl hok⟩

end SoulonWallet.Chain
