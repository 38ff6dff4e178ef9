import SoulonWallet.ChainTx

/-!
# Genesis of the deep chain

`InitFromGenesis` hands the genesis to the four keepers one after another and
stops at the first error.  The bank keeper is emptied before its list is
checked, and is filled line by line; the staking and governance keepers check
everything before they write.

`parseDuration` and `parseFloat` stand for the functions of Go's standard
library; no result depends on what they accept.  Times are counted from Go's
zero time.
-/

namespace SoulonWallet.Chain

variable (parseDuration : String → Except String ℤ)
variable (parseFloat : String → Except String Binary64)

/-! ## Keepers -/

namespace Staking

structure GenesisState where
  params : Params

def Keeper.initGenesis (keeper : Keeper) (state : GenesisState) :
    Keeper × Except String Unit :=
  if state.params.bondDenom = "" then
    (keeper, .error "staking bond_denom is empty")
  else if state.params.maxValidators ≤ 0 then
    (keeper, .error "staking max_validators must be positive")
  else
    match parseDuration state.params.unbondingTime with
    | .error err =>
        (keeper, .error ("staking invalid unbonding_time: " ++ err))
    | .ok unbonding =>
        ({ params := state.params
           unbonding := unbonding
           validators := ∅
           delegations := ∅ }, .ok ())

end Staking

namespace Distribution

def Keeper.initGenesis (_ : Keeper) : Keeper × Except String Unit :=
  (⟨∅⟩, .ok ())

end Distribution

namespace Gov

structure GenesisState where
  params : Params

/-- `quorum <= 0 || quorum > 1`, which is false of a NaN. -/
def quorumOutOfRange (quorum : Binary64) : Bool :=
  (Binary64.finite 0).ge quorum ||
    (quorum.ge (Binary64.finite 1) && !(Binary64.finite 1).ge quorum)

def Keeper.initGenesis (keeper : Keeper) (state : GenesisState) :
    Keeper × Except String Unit :=
  match parseDuration state.params.votingPeriod with
  | .error err => (keeper, .error ("gov invalid voting_period: " ++ err))
  | .ok votingPeriod =>
      match parseFloat state.params.quorum with
      | .error err => (keeper, .error ("gov invalid quorum: " ++ err))
      | .ok quorum =>
          if quorumOutOfRange quorum then
            (keeper, .error "gov quorum out of range")
          else
            ({ params := state.params
               votingPeriod := votingPeriod
               quorum := quorum
               proposals := ∅
               nextID := 1 }, .ok ())

end Gov

/-! ## The application -/

structure AppState where
  bank : Bank.GenesisState
  staking : Staking.GenesisState
  gov : Gov.GenesisState

structure Genesis where
  chainID : String
  genesisTime : ℤ
  appState : AppState

structure ModuleInitializer where
  name : String
  init : ChainApp → Genesis → ChainApp × Except String Unit

/-- `ModuleManager.InitGenesis`. -/
def initModules (genesis : Genesis) :
    List ModuleInitializer → ChainApp → ChainApp × Except String Unit
  | [], app => (app, .ok ())
  | module :: rest, app =>
      match module.init app genesis with
      | (next, .error err) =>
          (next, .error (module.name ++ " init genesis failed: " ++ err))
      | (next, .ok ()) => initModules genesis rest next

def bankModule : ModuleInitializer where
  name := "bank"
  init app genesis :=
    let (keeper, outcome) :=
      app.bankKeeper.initGenesis genesis.appState.bank
    ({ app with bankKeeper := keeper }, outcome)

def stakingModule : ModuleInitializer where
  name := "staking"
  init app genesis :=
    let (keeper, outcome) :=
      app.stakingKeeper.initGenesis parseDuration genesis.appState.staking
    ({ app with stakingKeeper := keeper }, outcome)

def distributionModule : ModuleInitializer where
  name := "distribution"
  init app _ :=
    let (keeper, outcome) := app.distributionKeeper.initGenesis
    ({ app with distributionKeeper := keeper }, outcome)

def govModule : ModuleInitializer where
  name := "gov"
  init app genesis :=
    let (keeper, outcome) :=
      app.govKeeper.initGenesis parseDuration parseFloat genesis.appState.gov
    ({ app with govKeeper := keeper }, outcome)

def modules : List ModuleInitializer :=
  [bankModule, stakingModule parseDuration, distributionModule,
    govModule parseDuration parseFloat]

namespace ChainApp

def initFromGenesis (app : ChainApp) (genesis : Genesis) :
    ChainApp × Except String Unit :=
  if genesis.chainID = "" then (app, .error "chain_id is empty")
  else if genesis.genesisTime = 0 then (app, .error "genesis_time is empty")
  else initModules genesis (modules parseDuration parseFloat) app

/-- `loaded` is what `LoadGenesisFromFile` returns. -/
def validateGenesis (app : ChainApp) (loaded : Except String Genesis) :
    ChainApp × Except String Unit :=
  match loaded with
  | .error err => (app, .error err)
  | .ok genesis => app.initFromGenesis parseDuration parseFloat genesis

end ChainApp

end SoulonWallet.Chain
