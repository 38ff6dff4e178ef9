import SoulonWallet.BankConservation
import SoulonWallet.ChainGenesis

/-!
# A failed genesis

A genesis that is refused by one keeper has already replaced the state of the
keepers before it, and a bad line of the bank list leaves the lines above it
in the bank keeper.  Loading is atomic exactly when the error comes from the
header, or when there is none, or when the application already holds all that
is written before the error.

States are compared as Go compares the contents of maps, by what is stored
under each key.
-/

namespace SoulonWallet.Chain

variable (parseDuration : String → Except String ℤ)
variable (parseFloat : String → Except String Binary64)

/-! ## Contents of the keepers -/

def Bank.Keeper.contents (keeper : Bank.Keeper) :
    Bank.Params × (String → Option Int64) :=
  (keeper.params, fun address => keeper.balances.lookup address)

def Staking.Keeper.contents (keeper : Staking.Keeper) :
    Staking.Params × ℤ × Finset String ×
      (String → Option (String → Option Int64)) :=
  (keeper.params, keeper.unbonding, keeper.validators,
    fun delegator => (keeper.delegations.lookup delegator).map
      fun delegations validator => delegations.lookup validator)

def Distribution.Keeper.contents (keeper : Distribution.Keeper) :
    String → Option Int64 :=
  fun delegator => keeper.rewards.lookup delegator

def Gov.Proposal.contents (proposal : Gov.Proposal) :
    UInt64 × String × String × ℤ × (Gov.VoteOption → Option Int64) :=
  (proposal.id, proposal.title, proposal.proposer, proposal.submittedAt,
    fun option => proposal.votes.lookup option)

def Gov.Keeper.contents (keeper : Gov.Keeper) :
    Gov.Params × ℤ × Binary64 × UInt64 ×
      (UInt64 → Option
        (UInt64 × String × String × ℤ × (Gov.VoteOption → Option Int64))) :=
  (keeper.params, keeper.votingPeriod, keeper.quorum, keeper.nextID,
    fun proposalID =>
      (keeper.proposals.lookup proposalID).map Gov.Proposal.contents)

/-- Both applications have the same state in all four keepers. -/
def ChainApp.SameState (app other : ChainApp) : Prop :=
  app.bankKeeper.contents = other.bankKeeper.contents ∧
    app.stakingKeeper.contents = other.stakingKeeper.contents ∧
    app.distributionKeeper.contents = other.distributionKeeper.contents ∧
    app.govKeeper.contents = other.govKeeper.contents

theorem ChainApp.SameState.refl (app : ChainApp) : app.SameState app :=
  ⟨rfl, rfl, rfl, rfl⟩

/-! ## What a genesis list writes -/

namespace Bank

def Balance.Accepted (balance : Balance) : Prop :=
  balance.address ≠ "" ∧ ¬ balance.amount < 0

instance (balance : Balance) : Decidable balance.Accepted := by
  unfold Balance.Accepted
  infer_instance

def GenesisState.Accepted (state : GenesisState) : Prop :=
  ∀ balance ∈ state.balances, balance.Accepted

/-- The lines above the first bad one. -/
def GenesisState.written (state : GenesisState) : List Balance :=
  state.balances.takeWhile fun balance => balance.Accepted

/-- What the lines of an address add to its balance. -/
def credited (address : String) (lines : List Balance) (start : Int64) :
    Int64 :=
  (lines.filter fun balance => balance.address = address).foldl
    (fun amount balance => amount + balance.amount) start

/-- The entry of an address after the lines, when there was none before. -/
def listedEntry (address : String) (lines : List Balance) : Option Int64 :=
  if ∃ balance ∈ lines, balance.address = address then
    some (credited address lines 0)
  else none

def Keeper.credit (keeper : Keeper) (balance : Balance) : Keeper :=
  keeper.setBalance balance.address
    (keeper.balance balance.address + balance.amount)

theorem addBalances_cons_of_accepted
    {balance : Balance} (haccepted : balance.Accepted)
    (keeper : Keeper) (rest : List Balance) :
    keeper.addBalances (balance :: rest) =
      (keeper.credit balance).addBalances rest := by
  simp [Keeper.addBalances, Keeper.credit, haccepted.1, haccepted.2]

theorem addBalances_cons_of_not_accepted
    {balance : Balance} (haccepted : ¬ balance.Accepted)
    (keeper : Keeper) (rest : List Balance) :
    ∃ err, keeper.addBalances (balance :: rest) = (keeper, .error err) := by
  simp only [Keeper.addBalances]
  split_ifs with haddress hamount
  · exact ⟨_, rfl⟩
  · exact ⟨_, rfl⟩
  · exact absurd ⟨haddress, hamount⟩ haccepted

theorem addBalances_written (keeper : Keeper) (balances : List Balance) :
    (keeper.addBalances balances).1 =
      (balances.takeWhile fun balance => balance.Accepted).foldl
        Keeper.credit keeper := by
  induction balances generalizing keeper with
  | nil => rfl
  | cons balance rest ih =>
      by_cases haccepted : balance.Accepted
      · rw [addBalances_cons_of_accepted haccepted, ih,
          List.takeWhile_cons_of_pos (by simpa using haccepted),
          List.foldl_cons]
      · obtain ⟨err, herr⟩ :=
          addBalances_cons_of_not_accepted haccepted keeper rest
        rw [herr, List.takeWhile_cons_of_neg (by simpa using haccepted),
          List.foldl_nil]

theorem addBalances_ok_iff (keeper : Keeper) (balances : List Balance) :
    (keeper.addBalances balances).2 = .ok () ↔
      ∀ balance ∈ balances, balance.Accepted := by
  induction balances generalizing keeper with
  | nil => simp [Keeper.addBalances]
  | cons balance rest ih =>
      by_cases haccepted : balance.Accepted
      · rw [addBalances_cons_of_accepted haccepted, ih,
          List.forall_mem_cons]
        exact (and_iff_right haccepted).symm
      · obtain ⟨err, herr⟩ :=
          addBalances_cons_of_not_accepted haccepted keeper rest
        simp [herr, haccepted]

theorem lookup_foldl_credit
    (keeper : Keeper) (lines : List Balance) (address : String) :
    (lines.foldl Keeper.credit keeper).balances.lookup address =
      if ∃ balance ∈ lines, balance.address = address then
        some (credited address lines (keeper.balance address))
      else keeper.balances.lookup address := by
  induction lines generalizing keeper with
  | nil => simp
  | cons balance rest ih =>
      rw [List.foldl_cons, ih]
      by_cases hsame : balance.address = address
      · subst hsame
        have hbalance : (keeper.credit balance).balance balance.address =
            keeper.balance balance.address + balance.amount :=
          balance_setBalance_self keeper balance.address _
        have hlookup :
            (keeper.credit balance).balances.lookup balance.address =
              some (keeper.balance balance.address + balance.amount) :=
          AList.lookup_insert _
        by_cases hrest : ∃ other ∈ rest, other.address = balance.address
        · simp [hrest, hbalance, credited]
        · have hnone : rest.filter
              (fun other => other.address = balance.address) = [] := by
            simpa [List.filter_eq_nil_iff] using hrest
          simp [hrest, hlookup, credited, hnone]
      · have hbalance :
            (keeper.credit balance).balance address =
              keeper.balance address :=
          balance_setBalance_of_ne keeper _ (Ne.symm hsame)
        have hlookup :
            (keeper.credit balance).balances.lookup address =
              keeper.balances.lookup address :=
          AList.lookup_insert_ne (Ne.symm hsame)
        simp [hbalance, hlookup, credited, hsame]

theorem initGenesis_contents (keeper : Keeper) (state : GenesisState) :
    (keeper.initGenesis state).1.contents =
      (state.params, fun address => listedEntry address state.written) := by
  have hparams : ∀ (start : Keeper) (lines : List Balance),
      (lines.foldl Keeper.credit start).params = start.params := by
    intro start lines
    induction lines generalizing start with
    | nil => rfl
    | cons balance rest ih => exact ih (start.credit balance)
  unfold Keeper.initGenesis Keeper.contents
  rw [addBalances_written, hparams]
  congr 1
  funext address
  exact lookup_foldl_credit _ _ address

theorem initGenesis_ok_iff (keeper : Keeper) (state : GenesisState) :
    (keeper.initGenesis state).2 = .ok () ↔ state.Accepted :=
  addBalances_ok_iff _ state.balances

end Bank

/-! ## Staking and governance -/

namespace Staking

def GenesisState.Accepted (state : GenesisState) : Prop :=
  state.params.bondDenom ≠ "" ∧ 0 < state.params.maxValidators ∧
    ∃ unbonding, parseDuration state.params.unbondingTime = .ok unbonding

/-- The keeper is as an accepted genesis leaves it. -/
def Keeper.Fresh (keeper : Keeper) (state : GenesisState) : Prop :=
  keeper.params = state.params ∧
    parseDuration state.params.unbondingTime = .ok keeper.unbonding ∧
    keeper.validators = ∅ ∧ keeper.delegations = ∅

theorem initGenesis_of_accepted
    {state : GenesisState} (haccepted : state.Accepted parseDuration)
    (keeper : Keeper) :
    (keeper.initGenesis parseDuration state).2 = .ok () ∧
      (keeper.initGenesis parseDuration state).1.Fresh parseDuration
        state := by
  obtain ⟨hdenom, hmax, unbonding, hparse⟩ := haccepted
  have hpositive : ¬ state.params.maxValidators ≤ 0 := by omega
  simp [Keeper.initGenesis, Keeper.Fresh, hdenom, hpositive, hparse]

theorem initGenesis_of_not_accepted
    {state : GenesisState} (haccepted : ¬ state.Accepted parseDuration)
    (keeper : Keeper) :
    ∃ err, keeper.initGenesis parseDuration state = (keeper, .error err) := by
  unfold Keeper.initGenesis
  split_ifs with hdenom hmax
  · exact ⟨_, rfl⟩
  · exact ⟨_, rfl⟩
  · cases hparse : parseDuration state.params.unbondingTime with
    | error err => exact ⟨_, rfl⟩
    | ok unbonding =>
        exact absurd ⟨hdenom, by omega, unbonding, hparse⟩ haccepted

theorem contents_eq_iff_fresh
    {fresh keeper : Keeper} {state : GenesisState}
    (hfresh : fresh.Fresh parseDuration state) :
    fresh.contents = keeper.contents ↔
      keeper.Fresh parseDuration state := by
  obtain ⟨hparams, hparse, hvalidators, hdelegations⟩ := hfresh
  constructor
  · intro hsame
    simp only [Keeper.contents, Prod.mk.injEq] at hsame
    obtain ⟨hsameParams, hunbonding, hsameValidators, hentries⟩ := hsame
    refine ⟨hsameParams ▸ hparams, hunbonding ▸ hparse,
      hsameValidators ▸ hvalidators, KeyedMap.eq_empty_of_lookup ?_⟩
    intro delegator
    have hentry := congrFun hentries delegator
    simpa [hdelegations] using hentry.symm
  · rintro ⟨hsameParams, hsameParse, hsameValidators, hsameDelegations⟩
    have hunbonding : fresh.unbonding = keeper.unbonding :=
      Except.ok.inj (hparse.symm.trans hsameParse)
    simp [Keeper.contents, hparams, hsameParams, hunbonding, hvalidators,
      hsameValidators, hdelegations, hsameDelegations]

end Staking

theorem Distribution.contents_empty_iff {keeper : Distribution.Keeper} :
    (⟨∅⟩ : Distribution.Keeper).contents = keeper.contents ↔
      keeper.rewards = ∅ := by
  constructor
  · intro hsame
    apply KeyedMap.eq_empty_of_lookup
    intro delegator
    exact (congrFun hsame delegator).symm
  · intro hempty
    unfold Distribution.Keeper.contents
    rw [hempty]

namespace Gov

def GenesisState.Accepted (state : GenesisState) : Prop :=
  (∃ votingPeriod,
      parseDuration state.params.votingPeriod = .ok votingPeriod) ∧
    ∃ quorum, parseFloat state.params.quorum = .ok quorum ∧
      quorumOutOfRange quorum = false

theorem initGenesis_of_accepted
    {state : GenesisState} (haccepted : state.Accepted parseDuration parseFloat)
    (keeper : Keeper) :
    (keeper.initGenesis parseDuration parseFloat state).2 = .ok () := by
  obtain ⟨⟨votingPeriod, hperiod⟩, quorum, hquorum, hrange⟩ := haccepted
  simp [Keeper.initGenesis, hperiod, hquorum, hrange]

theorem initGenesis_proposals
    {state : GenesisState} (haccepted : state.Accepted parseDuration parseFloat)
    (keeper : Keeper) :
    (keeper.initGenesis parseDuration parseFloat state).1.proposals = ∅ := by
  obtain ⟨⟨votingPeriod, hperiod⟩, quorum, hquorum, hrange⟩ := haccepted
  simp [Keeper.initGenesis, hperiod, hquorum, hrange]

theorem initGenesis_of_not_accepted
    {state : GenesisState}
    (haccepted : ¬ state.Accepted parseDuration parseFloat)
    (keeper : Keeper) :
    ∃ err, keeper.initGenesis parseDuration parseFloat state =
      (keeper, .error err) := by
  unfold Keeper.initGenesis
  cases hperiod : parseDuration state.params.votingPeriod with
  | error err => exact ⟨_, rfl⟩
  | ok votingPeriod =>
      cases hquorum : parseFloat state.params.quorum with
      | error err => exact ⟨_, rfl⟩
      | ok quorum =>
          cases hrange : quorumOutOfRange quorum with
          | true => exact ⟨_, by simp [hrange]; rfl⟩
          | false =>
              exact absurd ⟨⟨votingPeriod, hperiod⟩, quorum, hquorum, hrange⟩
                haccepted

end Gov

/-! ## Loading -/

def Genesis.HasHeader (genesis : Genesis) : Prop :=
  genesis.chainID ≠ "" ∧ genesis.genesisTime ≠ 0

def Genesis.Accepted (genesis : Genesis) : Prop :=
  genesis.appState.bank.Accepted ∧
    genesis.appState.staking.Accepted parseDuration ∧
    genesis.appState.gov.Accepted parseDuration parseFloat

section Modules

variable {genesis : Genesis} {module : ModuleInitializer}
variable {rest : List ModuleInitializer} {app : ChainApp}

theorem initModules_cons_of_ok
    (hok : (module.init app genesis).2 = .ok ()) :
    initModules genesis (module :: rest) app =
      initModules genesis rest (module.init app genesis).1 := by
  rw [initModules]
  split
  next next err hinit => simp [hinit] at hok
  next next hinit => rw [hinit]

theorem initModules_cons_of_error
    {err : String} (herror : (module.init app genesis).2 = .error err) :
    initModules genesis (module :: rest) app =
      ((module.init app genesis).1,
        .error (module.name ++ " init genesis failed: " ++ err)) := by
  rw [initModules]
  split
  next next other hinit =>
    rw [hinit] at herror
    rw [hinit, Except.error.inj herror]
  next next hinit => simp [hinit] at herror

end Modules

namespace ChainApp

/-- The four ways in which loading can end. -/
inductive Loads (app : ChainApp) (genesis : Genesis) :
    ChainApp × Except String Unit → Prop
  | header {err : String} (hheader : ¬ genesis.HasHeader) :
      Loads app genesis (app, .error err)
  | early {err : String} (hheader : genesis.HasHeader)
      (hrefused : ¬ (genesis.appState.bank.Accepted ∧
        genesis.appState.staking.Accepted parseDuration)) :
      Loads app genesis
        ({ app with
          bankKeeper :=
            (app.bankKeeper.initGenesis genesis.appState.bank).1 },
          .error err)
  | late {err : String} {next : ChainApp} (hheader : genesis.HasHeader)
      (hbank : genesis.appState.bank.Accepted)
      (hstaking : genesis.appState.staking.Accepted parseDuration)
      (hrefused : ¬ genesis.appState.gov.Accepted parseDuration parseFloat)
      (hnextBank : next.bankKeeper =
        (app.bankKeeper.initGenesis genesis.appState.bank).1)
      (hnextStaking : next.stakingKeeper.Fresh parseDuration
        genesis.appState.staking)
      (hnextRewards : next.distributionKeeper = ⟨∅⟩)
      (hnextGov : next.govKeeper = app.govKeeper) :
      Loads app genesis (next, .error err)
  | loaded {next : ChainApp}
      (haccepted : genesis.Accepted parseDuration parseFloat)
      (hnextRewards : next.distributionKeeper = ⟨∅⟩)
      (hnextProposals : next.govKeeper.proposals = ∅) :
      Loads app genesis (next, .ok ())

theorem initFromGenesis_loads (app : ChainApp) (genesis : Genesis) :
    app.Loads parseDuration parseFloat genesis
      (app.initFromGenesis parseDuration parseFloat genesis) := by
  unfold initFromGenesis
  split_ifs with hchain htime
  · exact .header fun hheader => hheader.1 hchain
  · exact .header fun hheader => hheader.2 htime
  have hheader : genesis.HasHeader := ⟨hchain, htime⟩
  unfold modules
  by_cases hbank : genesis.appState.bank.Accepted
  · have hbankOk := (Bank.initGenesis_ok_iff app.bankKeeper
      genesis.appState.bank).mpr hbank
    rw [initModules_cons_of_ok hbankOk]
    by_cases hstaking : genesis.appState.staking.Accepted parseDuration
    · obtain ⟨hstakingOk, hfresh⟩ :=
        Staking.initGenesis_of_accepted parseDuration hstaking
          app.stakingKeeper
      rw [initModules_cons_of_ok hstakingOk, initModules_cons_of_ok rfl]
      by_cases hgov :
          genesis.appState.gov.Accepted parseDuration parseFloat
      · rw [initModules_cons_of_ok (Gov.initGenesis_of_accepted parseDuration
          parseFloat hgov app.govKeeper)]
        exact .loaded ⟨hbank, hstaking, hgov⟩ rfl
          (Gov.initGenesis_proposals parseDuration parseFloat hgov
            app.govKeeper)
      · obtain ⟨err, herr⟩ :=
          Gov.initGenesis_of_not_accepted parseDuration parseFloat hgov
            app.govKeeper
        rw [initModules_cons_of_error (congrArg Prod.snd herr)]
        exact .late hheader hbank hstaking hgov rfl hfresh rfl
          (congrArg Prod.fst herr)
    · obtain ⟨err, herr⟩ :=
        Staking.initGenesis_of_not_accepted parseDuration hstaking
          app.stakingKeeper
      have hkept : (stakingModule parseDuration).init
          (bankModule.init app genesis).1 genesis =
          ((bankModule.init app genesis).1, .error err) := by
        simp [stakingModule, bankModule, herr]
      rw [initModules_cons_of_error (congrArg Prod.snd hkept), hkept]
      exact .early hheader fun hboth => hstaking hboth.2
  · cases houtcome :
        (app.bankKeeper.initGenesis genesis.appState.bank).2 with
    | ok _ =>
        exact absurd ((Bank.initGenesis_ok_iff _ _).mp houtcome) hbank
    | error err =>
        rw [initModules_cons_of_error houtcome]
        exact .early hheader fun hboth => hbank hboth.1

/-- An accepted genesis leaves no rewards and no proposals. -/
theorem empty_of_initFromGenesis
    {app : ChainApp} {genesis : Genesis}
    (haccepted :
      (app.initFromGenesis parseDuration parseFloat genesis).2 = .ok ()) :
    (app.initFromGenesis parseDuration parseFloat
        genesis).1.distributionKeeper = ⟨∅⟩ ∧
      (app.initFromGenesis parseDuration parseFloat
        genesis).1.govKeeper.proposals = ∅ := by
  generalize hresult :
    app.initFromGenesis parseDuration parseFloat genesis = result
      at haccepted ⊢
  have hloads := app.initFromGenesis_loads parseDuration parseFloat genesis
  rw [hresult] at hloads
  clear hresult
  cases hloads with
  | loaded _ hnextRewards hnextProposals =>
      exact ⟨hnextRewards, hnextProposals⟩
  | _ => cases haccepted

/-- The application already has what a genesis writes before its error: the
bank lines above the first bad one and, when only governance refuses it, an
empty staking keeper with the new parameters and no rewards. -/
def HoldsWritten (app : ChainApp) (genesis : Genesis) : Prop :=
  (app.bankKeeper.params = genesis.appState.bank.params ∧
    ∀ address, app.bankKeeper.balances.lookup address =
      Bank.listedEntry address genesis.appState.bank.written) ∧
    (genesis.appState.bank.Accepted →
      genesis.appState.staking.Accepted parseDuration →
      app.stakingKeeper.Fresh parseDuration genesis.appState.staking ∧
        app.distributionKeeper.rewards = ∅)

end ChainApp

theorem Bank.contents_initGenesis_eq_iff
    {keeper : Bank.Keeper} {state : Bank.GenesisState} :
    (keeper.initGenesis state).1.contents = keeper.contents ↔
      keeper.params = state.params ∧
        ∀ address, keeper.balances.lookup address =
          Bank.listedEntry address state.written := by
  rw [initGenesis_contents, Keeper.contents, Prod.mk.injEq, funext_iff]
  constructor
  · rintro ⟨hparams, hentries⟩
    exact ⟨hparams.symm, fun address => (hentries address).symm⟩
  · rintro ⟨hparams, hentries⟩
    exact ⟨hparams.symm, fun address => (hentries address).symm⟩

namespace ChainApp

theorem initFromGenesis_atomic_iff (app : ChainApp) (genesis : Genesis) :
    (∀ err,
        (app.initFromGenesis parseDuration parseFloat genesis).2 =
          .error err →
        (app.initFromGenesis parseDuration parseFloat genesis).1.SameState
          app) ↔
      (genesis.HasHeader → genesis.Accepted parseDuration parseFloat ∨
        app.HoldsWritten parseDuration genesis) := by
  generalize hresult :
    app.initFromGenesis parseDuration parseFloat genesis = result
  have hloads := app.initFromGenesis_loads parseDuration parseFloat genesis
  rw [hresult] at hloads
  clear hresult
  cases hloads with
  | header hheader =>
      simp only [hheader, false_implies, iff_true]
      exact fun _ _ => SameState.refl app
  | @early err hheader hrefused =>
      have hnot : ¬ genesis.Accepted parseDuration parseFloat :=
        fun haccepted => hrefused ⟨haccepted.1, haccepted.2.1⟩
      simp only [hheader, hnot, forall_const, false_or]
      constructor
      · intro hatomic
        have hsame := hatomic err rfl
        refine ⟨Bank.contents_initGenesis_eq_iff.mp hsame.1, ?_⟩
        intro hbank hstaking
        exact absurd ⟨hbank, hstaking⟩ hrefused
      · rintro ⟨hwritten, -⟩ _ _
        exact ⟨Bank.contents_initGenesis_eq_iff.mpr hwritten, rfl, rfl, rfl⟩
  | @late err next hheader hbank hstaking hrefused hnextBank hnextStaking
      hnextRewards hnextGov =>
      have hnot : ¬ genesis.Accepted parseDuration parseFloat :=
        fun haccepted => hrefused haccepted.2.2
      simp only [hheader, hnot, forall_const, false_or]
      constructor
      · intro hatomic
        obtain ⟨hsameBank, hsameStaking, hsameRewards, -⟩ := hatomic err rfl
        rw [hnextBank] at hsameBank
        rw [hnextRewards] at hsameRewards
        exact ⟨Bank.contents_initGenesis_eq_iff.mp hsameBank, fun _ _ =>
          ⟨(Staking.contents_eq_iff_fresh parseDuration hnextStaking).mp
            hsameStaking, Distribution.contents_empty_iff.mp hsameRewards⟩⟩
      · rintro ⟨hwritten, hrest⟩ _ _
        obtain ⟨hfresh, hrewards⟩ := hrest hbank hstaking
        refine ⟨?_, ?_, ?_, ?_⟩
        · rw [hnextBank]
          exact Bank.contents_initGenesis_eq_iff.mpr hwritten
        · exact (Staking.contents_eq_iff_fresh parseDuration
            hnextStaking).mpr hfresh
        · rw [hnextRewards]
          exact Distribution.contents_empty_iff.mpr hrewards
        · rw [hnextGov]
  | loaded haccepted hnextRewards hnextProposals => simp [haccepted]

/-- A failed `InitFromGenesis`, and a failed `ValidateGenesis`, leaves the four
keepers as they were exactly when the header is refused, or nothing is, or
the application already holds what is written before the error. -/
theorem genesis_loading_atomic_iff
    (app : ChainApp) (genesis : Genesis) (loaded : Except String Genesis) :
    ((∀ err,
        (app.initFromGenesis parseDuration parseFloat genesis).2 =
          .error err →
        (app.initFromGenesis parseDuration parseFloat genesis).1.SameState
          app) ↔
      (genesis.HasHeader → genesis.Accepted parseDuration parseFloat ∨
        app.HoldsWritten parseDuration genesis)) ∧
    ((∀ err,
        (app.validateGenesis parseDuration parseFloat loaded).2 =
          .error err →
        (app.validateGenesis parseDuration parseFloat loaded).1.SameState
          app) ↔
      ∀ genesis, loaded = .ok genesis → genesis.HasHeader →
        genesis.Accepted parseDuration parseFloat ∨
          app.HoldsWritten parseDuration genesis) := by
  refine ⟨app.initFromGenesis_atomic_iff parseDuration parseFloat genesis, ?_⟩
  cases loaded with
  | error err =>
      simp only [reduceCtorEq, false_implies, implies_true, iff_true]
      exact fun _ _ => SameState.refl app
  | ok genesis =>
      simp only [Except.ok.injEq, forall_eq']
      exact app.initFromGenesis_atomic_iff parseDuration parseFloat genesis

end ChainApp

/-- The second line of the bank list has no address. -/
def unaddressedGenesis : Genesis where
  chainID := "soulon-test-1"
  genesisTime := 1
  appState := {
    bank := ⟨⟨true⟩, [⟨"alice", 10⟩, ⟨"", 5⟩]⟩
    staking := ⟨⟨"usoul", 100, "1814400s"⟩⟩
    gov := ⟨⟨"172800s", "0.334"⟩⟩ }

theorem genesis_loading_not_atomic :
    ¬ ∃ parseDuration parseFloat,
      ∀ (app : ChainApp) (genesis : Genesis) err,
        (app.initFromGenesis parseDuration parseFloat genesis).2 =
          .error err →
        (app.initFromGenesis parseDuration parseFloat genesis).1.SameState
          app := by
  rintro ⟨parseDuration, parseFloat, hatomic⟩
  have hsame := hatomic newChainApp unaddressedGenesis
    "bank init genesis failed: bank balance address is empty" rfl
  have halice := congrFun (congrArg Prod.snd hsame.1) "alice"
  have hloaded :
      (newChainApp.initFromGenesis parseDuration parseFloat
        unaddressedGenesis).1.bankKeeper.balances.lookup "alice" =
        some 10 := rfl
  exact absurd (hloaded.symm.trans halice) (by decide)

end SoulonWallet.Chain
