import SoulonWallet.ChainTx
import SoulonWallet.ComponentRun

/-!
# Isolation of the chain modules

Every transaction type belongs to one of the four modules.  In a run of
transactions of all kinds each keeper becomes what its own transactions make
of it, and these get the outcomes that they would get if no transaction of
another module came between them.
-/

namespace SoulonWallet.Chain

open ComponentRun

inductive Module where
  | bank
  | staking
  | distribution
  | gov
  deriving DecidableEq

abbrev Module.Keeper : Module → Type
  | .bank => Bank.Keeper
  | .staking => Staking.Keeper
  | .distribution => Distribution.Keeper
  | .gov => Gov.Keeper

def ChainApp.keeper : (module : Module) → ChainApp → module.Keeper
  | .bank, app => app.bankKeeper
  | .staking, app => app.stakingKeeper
  | .distribution, app => app.distributionKeeper
  | .gov, app => app.govKeeper

/-- The module that a transaction type belongs to, none for unknown types. -/
def moduleOf (type : String) : Option Module :=
  if type = txBankSend then some .bank
  else if type = txStakingDelegate ∨ type = txStakingRedelegate then
    some .staking
  else if type = txGovSubmit ∨ type = txGovVote ∨ type = txGovTally then
    some .gov
  else if type = txRewardsAdd ∨ type = txRewardsClaim then
    some .distribution
  else none

/-- A call of `ExecuteTx` at a clock reading. -/
abbrev Call := ℤ × Tx

def Call.owner (call : Call) : Option Module := moduleOf call.2.type

def ChainApp.call (app : ChainApp) (call : Call) :
    Except AppError TxResult × ChainApp :=
  (app.executeTx call.1 call.2).swap

theorem ChainApp.ext_keepers
    {app other : ChainApp}
    (hkeepers : ∀ module, app.keeper module = other.keeper module) :
    app = other := by
  obtain ⟨bank, staking, distribution, gov⟩ := app
  obtain ⟨bank', staking', distribution', gov'⟩ := other
  obtain rfl : bank = bank' := hkeepers .bank
  obtain rfl : staking = staking' := hkeepers .staking
  obtain rfl : distribution = distribution' := hkeepers .distribution
  obtain rfl : gov = gov' := hkeepers .gov
  rfl

/-! ## One call -/

/-- A call that is not refused acts on the keeper of its module. -/
theorem ChainApp.Executes.keeper_eq
    {app next : ChainApp} {now : ℤ} {tx : Tx}
    {outcome : Except AppError TxResult}
    (hexecutes : app.Executes now tx next outcome) {module : Module}
    (howner : moduleOf tx.type ≠ some module) :
    next.keeper module = app.keeper module := by
  cases hexecutes with
  | refused hvalid => rfl
  | govTally hvalid htype => rfl
  | bankSend hvalid htype | stakingDelegate hvalid htype
  | stakingRedelegate hvalid htype | govSubmit hvalid htype
  | govVote hvalid htype | rewardsAdd hvalid htype
  | rewardsClaim hvalid htype =>
      rw [htype] at howner
      cases module with
      | bank | staking | distribution | gov =>
          first
          | rfl
          | exact absurd (by decide) howner

/-- What a call does to the keeper of its module, and reports, it reads off
that keeper. -/
theorem ChainApp.call_congr
    {app other : ChainApp} {call : Call} {module : Module}
    (howner : call.owner = some module)
    (hkeeper : app.keeper module = other.keeper module) :
    (app.call call).1 = (other.call call).1 ∧
      (app.call call).2.keeper module = (other.call call).2.keeper module := by
  unfold Call.owner moduleOf at howner
  unfold ChainApp.call ChainApp.executeTx
  cases hvalid : validateTx call.2 with
  | error err => exact ⟨rfl, hkeeper⟩
  | ok _ =>
      split_ifs at howner with hbank hstaking hgov hrewards
      · obtain rfl := Option.some.inj howner
        have hkeeper : app.bankKeeper = other.bankKeeper := hkeeper
        simp [hbank, ChainApp.keeper, hkeeper]
      · obtain rfl := Option.some.inj howner
        have hkeeper : app.stakingKeeper = other.stakingKeeper := hkeeper
        rcases hstaking with htype | htype
        · simp [htype, txStakingDelegate, txBankSend, ChainApp.keeper,
            hkeeper]
        · simp [htype, txStakingRedelegate, txStakingDelegate, txBankSend,
            ChainApp.keeper, hkeeper]
      · obtain rfl := Option.some.inj howner
        have hkeeper : app.govKeeper = other.govKeeper := hkeeper
        rcases hgov with htype | htype | htype
        · simp [htype, txGovSubmit, txStakingRedelegate, txStakingDelegate,
            txBankSend, ChainApp.keeper, hkeeper]
        · simp [htype, txGovVote, txGovSubmit, txStakingRedelegate,
            txStakingDelegate, txBankSend, ChainApp.keeper, hkeeper]
        · simp [htype, txGovTally, txGovVote, txGovSubmit,
            txStakingRedelegate, txStakingDelegate, txBankSend,
            ChainApp.keeper, hkeeper]
      · obtain rfl := Option.some.inj howner
        have hkeeper : app.distributionKeeper = other.distributionKeeper :=
          hkeeper
        rcases hrewards with htype | htype
        · simp [htype, txRewardsAdd, txGovTally, txGovVote, txGovSubmit,
            txStakingRedelegate, txStakingDelegate, txBankSend,
            ChainApp.keeper, hkeeper]
        · simp [htype, txRewardsClaim, txRewardsAdd, txGovTally, txGovVote,
            txGovSubmit, txStakingRedelegate, txStakingDelegate, txBankSend,
            ChainApp.keeper, hkeeper]

theorem call_separate :
    Separate ChainApp.call ChainApp.keeper Call.owner where
  frame app call _ howner :=
    (app.executeTx_executes call.1 call.2).keeper_eq howner
  own _ _ _ _ howner hkeeper := ChainApp.call_congr howner hkeeper

/-! ## Runs -/

def ChainApp.afterCalls (app : ChainApp) (calls : List Call) : ChainApp :=
  after ChainApp.call app calls

/-- The calls of one module in a run, each with its outcome. -/
def ChainApp.outcomesOf (module : Module) (app : ChainApp)
    (calls : List Call) : List (Call × Except AppError TxResult) :=
  ownAnswers Call.owner module (answers ChainApp.call app calls)

/-- What a module does is not influenced by the other modules: two runs with
the same calls of the module, from states that have the same keeper of it,
leave the same keeper and give these calls the same outcomes, whatever the
other keepers are and whatever calls come in between. -/
theorem modules_isolated
    (module : Module) (app other : ChainApp) (calls calls' : List Call)
    (hkeeper : app.keeper module = other.keeper module)
    (hcalls : ownLabels Call.owner module calls =
      ownLabels Call.owner module calls') :
    (app.afterCalls calls).keeper module =
        (other.afterCalls calls').keeper module ∧
      app.outcomesOf module calls = other.outcomesOf module calls' :=
  call_separate.agree module hkeeper hcalls

def mixedCalls : List Call :=
  [(1, { type := txRewardsAdd, delegator := "alice", amount := 5 }),
    (2, { type := txGovSubmit, fromAddress := "alice", title := "upgrade" }),
    (3, { type := txRewardsClaim, delegator := "alice" })]

def rewardCalls : List Call :=
  [(1, { type := txRewardsAdd, delegator := "alice", amount := 5 }),
    (3, { type := txRewardsClaim, delegator := "alice" })]

theorem modules_isolated_rewards :
    (newChainApp.afterCalls mixedCalls).keeper .distribution =
        (newChainApp.afterCalls rewardCalls).keeper .distribution ∧
      newChainApp.outcomesOf .distribution mixedCalls =
        newChainApp.outcomesOf .distribution rewardCalls :=
  modules_isolated .distribution newChainApp newChainApp mixedCalls
    rewardCalls rfl (by decide)

/-- Calls of different modules can be reordered. -/
theorem afterCalls_eq_of_reordered
    (app : ChainApp) {calls calls' : List Call}
    (hcalls : ∀ module, ownLabels Call.owner module calls =
      ownLabels Call.owner module calls') :
    app.afterCalls calls = app.afterCalls calls' :=
  ChainApp.ext_keepers fun module =>
    (call_separate.agree module rfl (hcalls module)).1

end SoulonWallet.Chain
