import SoulonWallet.GenesisAtomicity
import SoulonWallet.GoStrings

/-!
# The ledger of rewards

The calls of a run are recorded with the outcomes that `ExecuteTx` reports.
What a delegator has claimed and what is outstanding is what was added for
it, as long as no addition takes its reward past `2 ^ 63 - 1`: such an
addition wraps, loses `2 ^ 64` from the ledger, and leaves a negative reward
to be claimed.
-/

namespace SoulonWallet.Chain

open LabelledRun
open WrappingInt64

/-! ## Recorded runs -/

abbrev Executed := Tx × Except AppError TxResult

structure Recorded where
  app : ChainApp
  history : List Executed

def Recorded.step (state : Recorded) (call : ℤ × Tx) : Option Recorded :=
  let (app, outcome) := state.app.executeTx call.1 call.2
  some ⟨app, state.history ++ [(call.2, outcome)]⟩

theorem Recorded.step_eq (state : Recorded) (call : ℤ × Tx) :
    state.step call =
      some
        { app := (state.app.executeTx call.1 call.2).1
          history := state.history ++
            [(call.2, (state.app.executeTx call.1 call.2).2)] } := by
  rcases hexec : state.app.executeTx call.1 call.2 with ⟨app, outcome⟩
  simp only [Recorded.step, hexec]

theorem Recorded.executes_of_step
    {state next : Recorded} {call : ℤ × Tx}
    (hstep : state.step call = some next) :
    ∃ outcome,
      state.app.Executes call.1 call.2 next.app outcome ∧
        next.history = state.history ++ [(call.2, outcome)] := by
  rw [Recorded.step_eq, Option.some.injEq] at hstep
  subst next
  exact ⟨_, state.app.executeTx_executes call.1 call.2, rfl⟩

/-- A successful call of a kind moves its amount, and other calls nothing. -/
def movedBy (type : String) (amount : Tx → TxResult → ℤ)
    (delegator : String) : Executed → ℤ
  | (_, .error _) => 0
  | (tx, .ok result) =>
      if tx.type = type ∧ tx.delegator = delegator then amount tx result
      else 0

def added (delegator : String) (history : List Executed) : ℤ :=
  (history.map
    (movedBy txRewardsAdd (fun tx _ => tx.amount.toInt) delegator)).sum

def claimed (delegator : String) (history : List Executed) : ℤ :=
  (history.map
    (movedBy txRewardsClaim (fun _ result => result.claimedReward.toInt)
      delegator)).sum

theorem movedBy_of_type_ne
    {type : String} {amount : Tx → TxResult → ℤ} {tx : Tx}
    (hne : tx.type ≠ type) (delegator : String)
    (outcome : Except AppError TxResult) :
    movedBy type amount delegator (tx, outcome) = 0 := by
  cases outcome with
  | error err => rfl
  | ok result => exact if_neg fun hboth => hne hboth.1

theorem added_concat
    (delegator : String) (history : List Executed) (call : Executed) :
    added delegator (history ++ [call]) =
      added delegator history +
        movedBy txRewardsAdd (fun tx _ => tx.amount.toInt) delegator
          call := by
  simp [added]

theorem claimed_concat
    (delegator : String) (history : List Executed) (call : Executed) :
    claimed delegator (history ++ [call]) =
      claimed delegator history +
        movedBy txRewardsClaim (fun _ result => result.claimedReward.toInt)
          delegator call := by
  simp [claimed]

/-! ## The distribution keeper -/

namespace Distribution.Keeper

variable {keeper : Keeper} {delegator : String} {amount : Int64}

theorem addReward_of_valid
    (keeper : Keeper) (hdelegator : delegator ≠ "") (hamount : 0 < amount) :
    keeper.addReward delegator amount =
      (⟨keeper.rewards.insert delegator
        (keeper.queryReward delegator + amount)⟩, .ok ()) := by
  have hpositive : ¬ amount ≤ 0 := by simpa using hamount
  simp [addReward, hdelegator, hpositive]

theorem queryReward_insert
    (keeper : Keeper) (delegator other : String) (amount : Int64) :
    (⟨keeper.rewards.insert delegator amount⟩ : Keeper).queryReward other =
      if other = delegator then amount else keeper.queryReward other := by
  unfold queryReward KeyedMap.get
  rw [KeyedMap.lookup_insert_eq]
  split_ifs <;> rfl

theorem queryReward_claimReward
    (keeper : Keeper) (delegator other : String) :
    (keeper.claimReward delegator).1.queryReward other =
      if other = delegator then 0 else keeper.queryReward other := by
  unfold claimReward queryReward KeyedMap.get
  rw [KeyedMap.lookup_erase_eq]
  split_ifs <;> rfl

end Distribution.Keeper

theorem validateTx_rewardsAdd
    {tx : Tx} (hvalid : validateTx tx = .ok ())
    (htype : tx.type = txRewardsAdd) :
    tx.delegator ≠ "" ∧ 0 < tx.amount := by
  simp only [validateTx, htype] at hvalid
  simp only [txRewardsAdd, txBankSend, txStakingDelegate,
    txStakingRedelegate, txGovSubmit, txGovVote, txGovTally,
    String.reduceEq, if_false, if_true] at hvalid
  split_ifs at hvalid with hblank hdelegator hamount
  exact ⟨ne_empty_of_trimSpace_ne hdelegator, by simpa using hamount⟩

/-! ## One call -/

namespace Recorded

/-- Everything added has been claimed or is outstanding, and no claim made
now returns a negative amount. -/
structure PaysOut (state : Recorded) : Prop where
  balanced : ∀ delegator,
    claimed delegator state.history +
        (state.app.distributionKeeper.queryReward delegator).toInt =
      added delegator state.history
  nonneg : ∀ delegator,
    0 ≤ (state.app.distributionKeeper.claimReward delegator).2.toInt

/-- A reward that will be added stays within `int64`. -/
def AddFits (state : Recorded) (call : ℤ × Tx) : Prop :=
  call.2.type = txRewardsAdd → validateTx call.2 = .ok () →
    (state.app.distributionKeeper.queryReward call.2.delegator).toInt +
      call.2.amount.toInt < 2 ^ 63

variable {state next : Recorded} {call : ℤ × Tx}
variable {outcome : Except AppError TxResult}

theorem PaysOut.kept
    (hpays : state.PaysOut)
    (hhistory : next.history = state.history ++ [(call.2, outcome)])
    (hkeeper : next.app.distributionKeeper = state.app.distributionKeeper)
    (hadd : ∀ delegator,
      movedBy txRewardsAdd (fun tx _ => tx.amount.toInt) delegator
        (call.2, outcome) = 0)
    (hclaim : ∀ delegator,
      movedBy txRewardsClaim (fun _ result => result.claimedReward.toInt)
        delegator (call.2, outcome) = 0) :
    next.PaysOut := by
  constructor
  · intro delegator
    rw [hhistory, added_concat, claimed_concat, hadd, hclaim, hkeeper,
      add_zero, add_zero]
    exact hpays.balanced delegator
  · rw [hkeeper]
    exact hpays.nonneg

theorem PaysOut.kept_of_type
    (hpays : state.PaysOut)
    (hhistory : next.history = state.history ++ [(call.2, outcome)])
    (hkeeper : next.app.distributionKeeper = state.app.distributionKeeper)
    (hadd : call.2.type ≠ txRewardsAdd)
    (hclaim : call.2.type ≠ txRewardsClaim) :
    next.PaysOut ↔ state.AddFits call :=
  iff_of_true
    (hpays.kept hhistory hkeeper
      (fun delegator => movedBy_of_type_ne hadd delegator outcome)
      (fun delegator => movedBy_of_type_ne hclaim delegator outcome))
    (fun htype => absurd htype hadd)

theorem PaysOut.add_iff
    {result : TxResult} (hpays : state.PaysOut)
    (hvalid : validateTx call.2 = .ok ())
    (htype : call.2.type = txRewardsAdd)
    (hhistory : next.history = state.history ++ [(call.2, .ok result)])
    (hkeeper : next.app.distributionKeeper =
      ⟨state.app.distributionKeeper.rewards.insert call.2.delegator
        (state.app.distributionKeeper.queryReward call.2.delegator +
          call.2.amount)⟩) :
    next.PaysOut ↔ state.AddFits call := by
  obtain ⟨-, hamount⟩ := validateTx_rewardsAdd hvalid htype
  have hpositive : 0 < call.2.amount.toInt := by
    rwa [Int64.lt_iff_toInt_lt, toInt_zero] at hamount
  have houtstanding : 0 ≤ (state.app.distributionKeeper.queryReward
      call.2.delegator).toInt := hpays.nonneg call.2.delegator
  have hclaim : call.2.type ≠ txRewardsClaim := by
    rw [htype]
    decide
  have hadded : ∀ delegator, added delegator next.history =
      added delegator state.history +
        if call.2.delegator = delegator then call.2.amount.toInt else 0 := by
    intro delegator
    rw [hhistory, added_concat]
    simp [movedBy, htype]
  have hclaimed : ∀ delegator,
      claimed delegator next.history = claimed delegator state.history := by
    intro delegator
    rw [hhistory, claimed_concat, movedBy_of_type_ne hclaim, add_zero]
  constructor
  · intro hnext _ _
    have hbalanced := hnext.balanced call.2.delegator
    have hbefore := hpays.balanced call.2.delegator
    rw [hadded, hclaimed, hkeeper,
      Distribution.Keeper.queryReward_insert, if_pos rfl, if_pos rfl]
      at hbalanced
    have hlt := (state.app.distributionKeeper.queryReward call.2.delegator +
      call.2.amount).toInt_lt
    omega
  · intro hfits
    have hsum := toInt_add_of_lt (a := state.app.distributionKeeper.queryReward
      call.2.delegator) (b := call.2.amount) (by omega)
      (hfits htype hvalid)
    constructor
    · intro delegator
      have hbefore := hpays.balanced delegator
      rw [hadded, hclaimed, hkeeper, Distribution.Keeper.queryReward_insert]
      by_cases hsame : delegator = call.2.delegator
      · subst hsame
        rw [if_pos rfl, if_pos rfl, hsum]
        omega
      · rw [if_neg hsame, if_neg (Ne.symm hsame)]
        omega
    · intro delegator
      have hbefore : 0 ≤ (state.app.distributionKeeper.queryReward
          delegator).toInt := hpays.nonneg delegator
      show 0 ≤ (next.app.distributionKeeper.queryReward delegator).toInt
      rw [hkeeper, Distribution.Keeper.queryReward_insert]
      split_ifs
      · omega
      · exact hbefore

theorem PaysOut.claim
    {result : TxResult} (hpays : state.PaysOut)
    (htype : call.2.type = txRewardsClaim)
    (hhistory : next.history = state.history ++ [(call.2, .ok result)])
    (hresult : result.claimedReward =
      (state.app.distributionKeeper.claimReward call.2.delegator).2)
    (hkeeper : next.app.distributionKeeper =
      (state.app.distributionKeeper.claimReward call.2.delegator).1) :
    next.PaysOut := by
  have hadd : call.2.type ≠ txRewardsAdd := by
    rw [htype]
    decide
  constructor
  · intro delegator
    have hbefore := hpays.balanced delegator
    rw [hhistory, added_concat, movedBy_of_type_ne hadd, claimed_concat,
      hkeeper, Distribution.Keeper.queryReward_claimReward, add_zero]
    by_cases hsame : delegator = call.2.delegator
    · subst hsame
      simp only [movedBy, htype, hresult, and_self, if_true, toInt_zero]
      rw [add_zero]
      exact hbefore
    · simp [movedBy, hsame, Ne.symm hsame, hbefore]
  · intro delegator
    show 0 ≤ (next.app.distributionKeeper.queryReward delegator).toInt
    rw [hkeeper, Distribution.Keeper.queryReward_claimReward]
    split_ifs
    · rfl
    · exact hpays.nonneg delegator

theorem PaysOut.step_iff
    (hpays : state.PaysOut) (hstep : state.step call = some next) :
    next.PaysOut ↔ state.AddFits call := by
  obtain ⟨outcome, hexecutes, hhistory⟩ := executes_of_step hstep
  obtain ⟨app, history⟩ := next
  simp only at hexecutes hhistory
  cases hexecutes with
  | refused hvalid =>
      refine iff_of_true (hpays.kept hhistory rfl (fun _ => rfl)
        fun _ => rfl) ?_
      intro _ hok
      rw [hvalid] at hok
      cases hok
  | rewardsAdd hvalid htype =>
      obtain ⟨hdelegator, hamount⟩ := validateTx_rewardsAdd hvalid htype
      have hresult := state.app.distributionKeeper.addReward_of_valid
        hdelegator hamount
      rw [hresult] at hhistory
      exact hpays.add_iff hvalid htype hhistory
        (congrArg Prod.fst hresult)
  | rewardsClaim hvalid htype =>
      refine iff_of_true (hpays.claim htype hhistory rfl rfl) ?_
      intro hadd
      rw [htype] at hadd
      exact absurd hadd (by decide)
  | bankSend hvalid htype | stakingDelegate hvalid htype
  | stakingRedelegate hvalid htype | govSubmit hvalid htype
  | govVote hvalid htype | govTally hvalid htype =>
      apply hpays.kept_of_type
      · exact hhistory
      · rfl
      · rw [htype]
        decide
      · rw [htype]
        decide

end Recorded

/-! ## Runs -/

def ChainApp.recorded (app : ChainApp) : Recorded := ⟨app, []⟩

/-- After an accepted genesis, the runs in which rewards are paid out exactly
once are those in which no addition takes a reward past `int64`. -/
theorem rewards_paid_once_iff
    {parseDuration : String → Except String ℤ}
    {parseFloat : String → Except String Binary64} {app : ChainApp}
    {genesis : Genesis} (calls : List (ℤ × Tx))
    (haccepted :
      (app.initFromGenesis parseDuration parseFloat genesis).2 = .ok ()) :
    (∀ reached,
        Visits Recorded.step
          (app.initFromGenesis parseDuration parseFloat genesis).1.recorded
          calls reached →
        reached.PaysOut) ↔
      Guarded Recorded.step Recorded.AddFits
        (app.initFromGenesis parseDuration parseFloat genesis).1.recorded
        calls := by
  have hempty := (ChainApp.empty_of_initFromGenesis parseDuration parseFloat
    haccepted).1
  apply forall_visits_iff_guarded (fun _ : Recorded => True)
  · exact fun _ _ _ _ _ => trivial
  · exact fun _ _ _ _ hpays hstep => hpays.step_iff hstep
  · trivial
  · constructor
    · intro delegator
      simp only [ChainApp.recorded, hempty]
      rfl
    · intro delegator
      simp only [ChainApp.recorded, hempty]
      exact le_refl 0

def parsePeriod (text : String) : Except String ℤ :=
  if text = "1814400s" then .ok 1814400000000000
  else if text = "172800s" then .ok 172800000000000
  else .error "time: invalid duration"

def parseOne (text : String) : Except String Binary64 :=
  if text = "1" then .ok (.finite 1)
  else .error "strconv.ParseFloat: invalid syntax"

def testGenesis : Genesis where
  chainID := "soulon-test-1"
  genesisTime := 1
  appState := {
    bank := ⟨⟨true⟩, []⟩
    staking := ⟨⟨"usoul", 100, "1814400s"⟩⟩
    gov := ⟨⟨"172800s", "1"⟩⟩ }

theorem testGenesis_accepted :
    (newChainApp.initFromGenesis parsePeriod parseOne testGenesis).2 =
      .ok () := by
  rfl

def rewardAlice (amount : Int64) : Tx where
  type := "rewards_add"
  delegator := "alice"
  amount := amount

def claimAlice : Tx where
  type := "rewards_claim"
  delegator := "alice"

theorem rewards_paid_once_in_claimAlice :
    ∃ reached,
      exec Recorded.step
          (newChainApp.initFromGenesis parsePeriod parseOne
            testGenesis).1.recorded
          [(0, rewardAlice 5), (1, claimAlice)] = some reached ∧
        claimed "alice" reached.history = 5 ∧ reached.PaysOut := by
  have hguarded :
      Guarded Recorded.step Recorded.AddFits
        (newChainApp.initFromGenesis parsePeriod parseOne
          testGenesis).1.recorded [(0, rewardAlice 5), (1, claimAlice)] := by
    refine ⟨?_, ?_, trivial⟩
    · intro _ _
      decide
    · intro htype
      exact absurd htype (by decide)
  have hpays := (rewards_paid_once_iff [(0, rewardAlice 5), (1, claimAlice)]
    testGenesis_accepted).mpr hguarded
  exact ⟨_, rfl, by decide,
    hpays _ ⟨[(0, rewardAlice 5), (1, claimAlice)], List.prefix_rfl, rfl⟩⟩

/-- The second reward takes the first one past the top. -/
theorem rewards_lost :
    ¬ ∀ parseDuration parseFloat (app : ChainApp) genesis calls reached,
      (app.initFromGenesis parseDuration parseFloat genesis).2 = .ok () →
      exec Recorded.step
        (app.initFromGenesis parseDuration parseFloat genesis).1.recorded
        calls = some reached →
      reached.PaysOut := by
  intro hall
  obtain ⟨reached, hrun, houtstanding⟩ : ∃ reached,
      exec Recorded.step
          (newChainApp.initFromGenesis parsePeriod parseOne
            testGenesis).1.recorded
          [(0, rewardAlice 9223372036854775807), (1, rewardAlice 1)] =
        some reached ∧
      (reached.app.distributionKeeper.claimReward "alice").2.toInt =
        -9223372036854775808 :=
    ⟨_, rfl, by decide⟩
  have hnonneg := (hall parsePeriod parseOne newChainApp testGenesis _
    reached testGenesis_accepted hrun).nonneg "alice"
  omega

end SoulonWallet.Chain
