import Mathlib.Data.List.TakeWhile
import SoulonWallet.QuorumReached
import SoulonWallet.GenesisAtomicity
import SoulonWallet.TxResponse

/-!
# The demo command of the deep chain

`soulond demo` loads a genesis file into a fresh application and executes five
transactions on it.  The bank transaction may fail, the others may not.
-/

namespace SoulonWallet.Chain

variable (parseDuration : String → Except String ℤ)
variable (parseFloat : String → Except String Binary64)
variable (formatTime : ℤ → String)

/-- What the command prints: the responses, and lines of its own. -/
inductive DemoLine where
  | response (step : String) (response : TxResponse)
  | text (line : String)

/-- The readings of the clock for the five transactions. -/
structure DemoClocks where
  send : Clock
  delegate : Clock
  submit : Clock
  vote : Clock
  tally : Clock

def demoSend : Tx where
  type := txBankSend
  fromAddress := "alice"
  toAddress := "bob"
  amount := 1

def demoDelegate : Tx where
  type := txStakingDelegate
  delegator := "alice"
  validator := "validator-1"
  amount := 10

def demoSubmit : Tx where
  type := txGovSubmit
  fromAddress := "alice"
  title := "enable ibc transfer"

def demoVote (proposalID : UInt64) : Tx where
  type := txGovVote
  proposalID := proposalID
  option := "yes"
  amount := 10

def demoTally (proposalID : UInt64) : Tx where
  type := txGovTally
  proposalID := proposalID
  votingPower := 20

def demoCompleted (proposalID : UInt64) (accepted quorumMet : Bool) :
    DemoLine :=
  .text ("demo completed: proposal=" ++ toString proposalID ++ " accepted=" ++
    toString accepted ++ " quorum=" ++ toString quorumMet)

/-- The governance part, which follows the proposal that it has submitted. -/
def runDemoGov (registry : SchemaRegistry) (clocks : DemoClocks)
    (version : String) (app : ChainApp) : List DemoLine × Except String Unit :=
  let (app, submitted) := app.executeTxResponseWithVersion formatTime registry
    clocks.submit version demoSubmit
  let lines := [.response "gov_submit" submitted]
  match submitted.data with
  | some (.govSubmit _ proposalID) =>
      if submitted.code ≠ "OK" then (lines, .error "gov submit failed")
      else
        let (app, voted) := app.executeTxResponseWithVersion formatTime
          registry clocks.vote version (demoVote proposalID)
        let lines := lines ++ [.response "gov_vote" voted]
        if voted.code ≠ "OK" then (lines, .error "gov vote failed")
        else
          let (_, tallied) := app.executeTxResponseWithVersion formatTime
            registry clocks.tally version (demoTally proposalID)
          let lines := lines ++ [.response "gov_tally" tallied]
          match tallied.data with
          | some (.govTally _ accepted quorumMet) =>
              if tallied.code ≠ "OK" then (lines, .error "gov tally failed")
              else
                (lines ++ [demoCompleted proposalID accepted quorumMet],
                  .ok ())
          | _ => (lines, .error "gov tally failed")
  | _ => (lines, .error "gov submit failed")

def runDemoSteps (registry : SchemaRegistry) (clocks : DemoClocks)
    (version : String) (app : ChainApp) : List DemoLine × Except String Unit :=
  let (app, sent) := app.executeTxResponseWithVersion formatTime registry
    clocks.send version demoSend
  let lines := .response "bank_send" sent ::
    if sent.code ≠ "OK" then [.text "bank demo skipped"] else []
  let (app, delegated) := app.executeTxResponseWithVersion formatTime registry
    clocks.delegate version demoDelegate
  let lines := lines ++ [.response "staking_delegate" delegated]
  if delegated.code ≠ "OK" then (lines, .error "staking delegate failed")
  else
    let (rest, outcome) := runDemoGov formatTime registry clocks version app
    (lines ++ rest, outcome)

/-- `loaded` is what `LoadGenesisFromFile` returns. -/
def runDemo (registry : SchemaRegistry) (clocks : DemoClocks)
    (version : String) (loaded : Except String Genesis) :
    List DemoLine × Except String Unit :=
  match validateTxResponseVersion version with
  | .error err => ([], .error err)
  | .ok () =>
      match loaded with
      | .error err => ([], .error err)
      | .ok genesis =>
          match newChainApp.initFromGenesis parseDuration parseFloat
              genesis with
          | (_, .error err) => ([], .error err)
          | (app, .ok ()) =>
              runDemoSteps formatTime registry clocks version app

/-! ## One response -/

theorem ErrorCode.text_ne_ok (code : ErrorCode) : code.text ≠ "OK" := by
  cases code <;> decide

section Responses

variable (registry : SchemaRegistry) {clock : Clock}
variable {version : String} {app next : ChainApp} {tx : Tx}

theorem executeTxResponse_of_ok
    {result : TxResult} (hversion : version ∈ supportedVersions)
    (hexecute : app.executeTx clock.executed tx = (next, .ok result)) :
    ∃ response : TxResponse,
      app.executeTxResponseWithVersion formatTime registry clock version tx =
          (next, response) ∧ response.code = "OK" ∧
        response.data = some (toTxResponseData tx.type result) := by
  unfold ChainApp.executeTxResponseWithVersion
  rw [resolveTxResponseVersion_of_mem hversion]
  simp only [hexecute]
  exact ⟨_, rfl, rfl, rfl⟩

theorem executeTxResponse_of_error
    {err : AppError} (hversion : version ∈ supportedVersions)
    (hexecute : app.executeTx clock.executed tx = (next, .error err)) :
    ∃ response : TxResponse,
      app.executeTxResponseWithVersion formatTime registry clock version tx =
          (next, response) ∧ response.code ≠ "OK" := by
  unfold ChainApp.executeTxResponseWithVersion
  rw [resolveTxResponseVersion_of_mem hversion]
  simp only [hexecute]
  exact ⟨_, rfl, err.code.text_ne_ok⟩

end Responses

/-! ## The transactions -/

section Transactions

variable {app : ChainApp} {now : ℤ} {tx : Tx} {proposal : Gov.Proposal}

theorem executeTx_of_stakingDelegate
    (hvalid : validateTx tx = .ok ()) (htype : tx.type = txStakingDelegate) :
    app.executeTx now tx =
      ({ app with
          stakingKeeper :=
            (app.stakingKeeper.delegate tx.delegator tx.validator
              tx.amount).1 },
        wrapOutcome (fun _ => { message := "staking delegate ok" })
          (app.stakingKeeper.delegate tx.delegator tx.validator
            tx.amount).2) := by
  simp [ChainApp.executeTx, hvalid, htype, txStakingDelegate, txBankSend]

theorem executeTx_of_govSubmit
    (hvalid : validateTx tx = .ok ()) (htype : tx.type = txGovSubmit) :
    app.executeTx now tx =
      ({ app with
          govKeeper :=
            (app.govKeeper.submitProposal now tx.fromAddress tx.title).1 },
        wrapOutcome
          (fun submitted =>
            { message := "gov submit ok", proposalID := submitted.id })
          (app.govKeeper.submitProposal now tx.fromAddress tx.title).2) := by
  simp [ChainApp.executeTx, hvalid, htype, txGovSubmit, txStakingRedelegate,
    txStakingDelegate, txBankSend]

theorem executeTx_of_govVote
    (hvalid : validateTx tx = .ok ()) (htype : tx.type = txGovVote) :
    app.executeTx now tx =
      ({ app with
          govKeeper :=
            (app.govKeeper.vote tx.proposalID tx.option tx.amount).1 },
        wrapOutcome (fun _ => { message := "gov vote ok" })
          (app.govKeeper.vote tx.proposalID tx.option tx.amount).2) := by
  simp [ChainApp.executeTx, hvalid, htype, txGovVote, txGovSubmit,
    txStakingRedelegate, txStakingDelegate, txBankSend]

theorem executeTx_of_govTally
    (hvalid : validateTx tx = .ok ()) (htype : tx.type = txGovTally) :
    app.executeTx now tx =
      (app,
        wrapOutcome
          (fun tally =>
            { message := "gov tally ok"
              accepted := tally.accepted
              quorumMet := tally.quorumMet })
          (app.govKeeper.tally tx.proposalID tx.votingPower)) := by
  simp [ChainApp.executeTx, hvalid, htype, txGovTally, txGovVote, txGovSubmit,
    txStakingRedelegate, txStakingDelegate, txBankSend]

/-- The bank transaction of the demo goes through. -/
def ChainApp.DemoSends (app : ChainApp) : Prop :=
  app.bankKeeper.params.defaultSendEnabled = true ∧
    1 ≤ app.bankKeeper.balance "alice"

theorem executeTx_demoSend (app : ChainApp) (now : ℤ) :
    (app.executeTx now demoSend).1.stakingKeeper = app.stakingKeeper ∧
      (app.executeTx now demoSend).1.govKeeper = app.govKeeper ∧
      ((∃ result, (app.executeTx now demoSend).2 = .ok result) ↔
        app.DemoSends) := by
  have hexecute : app.executeTx now demoSend =
      ({ app with bankKeeper := (app.bankKeeper.send "alice" "bob" 1).1 },
        wrapOutcome (fun _ => { message := "bank send ok" })
          (app.bankKeeper.send "alice" "bob" 1).2) := by
    simp only [ChainApp.executeTx]
    rfl
  rw [hexecute]
  refine ⟨rfl, rfl, ?_⟩
  unfold ChainApp.DemoSends Bank.Keeper.send
  have hpositive : ¬ (1 : Int64) ≤ 0 := by decide
  cases henabled : app.bankKeeper.params.defaultSendEnabled with
  | false => simp [wrapOutcome]
  | true =>
      by_cases hbalance : app.bankKeeper.balance "alice" < 1
      · have hshort : ¬ 1 ≤ app.bankKeeper.balance "alice" := by
          simpa using hbalance
        simp [hpositive, hbalance, hshort, wrapOutcome]
      · have henough : 1 ≤ app.bankKeeper.balance "alice" := by
          simpa using hbalance
        simp [hpositive, hbalance, henough, wrapOutcome]

theorem executeTx_demoDelegate
    (now : ℤ) (hvalidators : app.stakingKeeper.validators = ∅)
    (hmax : 0 < app.stakingKeeper.params.maxValidators) :
    ∃ stakingKeeper result,
      app.executeTx now demoDelegate =
        ({ app with stakingKeeper }, .ok result) := by
  have hjoined : "validator-1" ∈
      (app.stakingKeeper.join "validator-1").validators := by
    simp [Staking.Keeper.join, hvalidators, hmax]
  have hpositive : ¬ (10 : Int64) ≤ 0 := by decide
  obtain ⟨stakingKeeper, hdelegated⟩ : ∃ stakingKeeper,
      app.stakingKeeper.delegate demoDelegate.delegator
        demoDelegate.validator demoDelegate.amount =
          (stakingKeeper, .ok ()) := by
    simp [demoDelegate, Staking.Keeper.delegate, hjoined, hpositive]
  rw [executeTx_of_stakingDelegate rfl rfl, hdelegated]
  exact ⟨_, _, rfl⟩

theorem executeTx_demoSubmit (app : ChainApp) (now : ℤ) :
    ∃ next proposal,
      app.executeTx now demoSubmit =
          (next, .ok {
            message := "gov submit ok"
            proposalID := app.govKeeper.nextID }) ∧
        next.govKeeper.proposals.lookup app.govKeeper.nextID = some proposal ∧
        proposal.votes = Gov.noVotes ∧
        next.govKeeper.quorum = app.govKeeper.quorum := by
  obtain ⟨proposal, hvotes, hsubmit, hid⟩ :=
    Gov.Keeper.submitProposal_of_valid app.govKeeper now
      (by decide : demoSubmit.fromAddress ≠ "")
      (by decide : demoSubmit.title ≠ "")
  rw [executeTx_of_govSubmit rfl rfl, hsubmit, ← hid]
  exact ⟨_, proposal, rfl, AList.lookup_insert _, hvotes, rfl⟩

theorem executeTx_demoVote
    (now : ℤ) {proposalID : UInt64} (hid : proposalID ≠ 0)
    (hproposal : app.govKeeper.proposals.lookup proposalID = some proposal) :
    ∃ next,
      app.executeTx now (demoVote proposalID) =
          (next, .ok { message := "gov vote ok" }) ∧
        next.govKeeper.proposals.lookup proposalID =
          some (proposal.cast Gov.voteYes 10) ∧
        next.govKeeper.quorum = app.govKeeper.quorum := by
  have hvalid : validateTx (demoVote proposalID) = .ok () := by
    have hoption : Gov.VoteOption.valid "yes" := by decide
    have hpositive : ¬ (10 : Int64) ≤ 0 := by decide
    have hblank : trimSpace "gov_vote" ≠ "" := by decide
    simp [validateTx, demoVote, hblank, hid, hoption, hpositive, txGovVote,
      txGovSubmit, txStakingRedelegate, txStakingDelegate, txBankSend]
  have hvote : app.govKeeper.vote (demoVote proposalID).proposalID
      (demoVote proposalID).option (demoVote proposalID).amount = _ :=
    Gov.Keeper.vote_of_some (by decide : (0 : Int64) < 10)
      (by decide : Gov.VoteOption.valid Gov.voteYes) hproposal
  rw [executeTx_of_govVote hvalid rfl, hvote]
  exact ⟨_, rfl, AList.lookup_insert _, rfl⟩

/-- One vote of weight ten out of a voting power of twenty. -/
theorem executeTx_demoTally
    (now : ℤ) {proposalID : UInt64} (hid : proposalID ≠ 0)
    (hproposal : app.govKeeper.proposals.lookup proposalID = some proposal)
    (hvotes : proposal.votes = Gov.noVotes.insert Gov.voteYes 10) :
    app.executeTx now (demoTally proposalID) =
      (app, .ok {
        message := "gov tally ok"
        accepted := (Binary64.finite (1 / 2)).ge app.govKeeper.quorum
        quorumMet := (Binary64.finite (1 / 2)).ge app.govKeeper.quorum }) := by
  have hvalid : validateTx (demoTally proposalID) = .ok () := by
    have hpositive : ¬ (20 : Int64) ≤ 0 := by decide
    have hblank : trimSpace "gov_tally" ≠ "" := by decide
    simp [validateTx, demoTally, hblank, hid, hpositive, txGovTally, txGovVote,
      txGovSubmit, txStakingRedelegate, txStakingDelegate, txBankSend]
  have hhalf : (Binary64.ofInt (10 : Int64).toInt).div
      (Binary64.ofInt (20 : Int64).toInt) = Binary64.finite (1 / 2) := by
    decide +kernel
  have htally : ∃ result : Gov.TallyResult,
      app.govKeeper.tally proposalID 20 = .ok result ∧
      result.accepted = (Binary64.finite (1 / 2)).ge app.govKeeper.quorum ∧
      result.quorumMet =
        (Binary64.finite (1 / 2)).ge app.govKeeper.quorum := by
    have hpositive : ¬ (20 : Int64) ≤ 0 := by decide
    have htotal : (Gov.noVotes.insert Gov.voteYes 10).entries.foldl
        (fun (total : Int64) entry => total + entry.2) 0 = 10 := by decide
    simp only [Gov.Keeper.tally, hproposal, if_neg hpositive, hvotes, htotal,
      hhalf]
    exact ⟨_, rfl, Bool.and_true _, rfl⟩
  obtain ⟨result, hresult, haccepted, hquorum⟩ := htally
  have houtcome : app.govKeeper.tally (demoTally proposalID).proposalID
      (demoTally proposalID).votingPower = .ok result := hresult
  rw [executeTx_of_govTally hvalid rfl, houtcome, ← haccepted]
  simp only [wrapOutcome, hquorum, haccepted]

end Transactions

/-! ## The run -/

/-- What an accepted genesis makes of an application. -/
def ChainApp.loadedFrom (app : ChainApp) (genesis : Genesis) : ChainApp where
  bankKeeper := (app.bankKeeper.initGenesis genesis.appState.bank).1
  stakingKeeper :=
    (app.stakingKeeper.initGenesis parseDuration genesis.appState.staking).1
  distributionKeeper := ⟨∅⟩
  govKeeper :=
    (app.govKeeper.initGenesis parseDuration parseFloat
      genesis.appState.gov).1

section Run

variable {parseDuration parseFloat}

theorem initFromGenesis_of_accepted
    (app : ChainApp) {genesis : Genesis} (hheader : genesis.HasHeader)
    (haccepted : genesis.Accepted parseDuration parseFloat) :
    app.initFromGenesis parseDuration parseFloat genesis =
      (app.loadedFrom parseDuration parseFloat genesis, .ok ()) := by
  obtain ⟨hbank, hstaking, hgov⟩ := haccepted
  have hbankOk : (bankModule.init app genesis).2 = .ok () :=
    (Bank.initGenesis_ok_iff app.bankKeeper genesis.appState.bank).mpr hbank
  have hstakingOk := (Staking.initGenesis_of_accepted parseDuration hstaking
    app.stakingKeeper).1
  have hgovOk := Gov.initGenesis_of_accepted parseDuration parseFloat hgov
    app.govKeeper
  unfold ChainApp.initFromGenesis modules
  rw [if_neg hheader.1, if_neg hheader.2, initModules_cons_of_ok hbankOk,
    initModules_cons_of_ok hstakingOk, initModules_cons_of_ok rfl,
    initModules_cons_of_ok hgovOk]
  rfl

theorem initFromGenesis_ok_iff (app : ChainApp) (genesis : Genesis) :
    (app.initFromGenesis parseDuration parseFloat genesis).2 = .ok () ↔
      genesis.HasHeader ∧ genesis.Accepted parseDuration parseFloat := by
  constructor
  · intro hok
    have hheader : genesis.HasHeader := by
      by_contra hheader
      unfold ChainApp.initFromGenesis at hok
      split_ifs at hok with hchain htime
      exact hheader ⟨hchain, htime⟩
    have hloads := app.initFromGenesis_loads parseDuration parseFloat genesis
    generalize app.initFromGenesis parseDuration parseFloat genesis =
      result at hok hloads
    cases hloads with
    | loaded haccepted _ _ => exact ⟨hheader, haccepted⟩
    | _ => cases hok
  · rintro ⟨hheader, haccepted⟩
    rw [initFromGenesis_of_accepted app hheader haccepted]

/-- The quorum that an accepted genesis sets. -/
theorem loadedFrom_gov
    (app : ChainApp) {genesis : Genesis}
    (haccepted : genesis.appState.gov.Accepted parseDuration parseFloat) :
    (app.loadedFrom parseDuration parseFloat genesis).govKeeper.nextID = 1 ∧
      parseFloat genesis.appState.gov.params.quorum =
        .ok (app.loadedFrom parseDuration parseFloat
          genesis).govKeeper.quorum := by
  obtain ⟨⟨votingPeriod, hperiod⟩, quorum, hquorum, hrange⟩ := haccepted
  simp [ChainApp.loadedFrom, Gov.Keeper.initGenesis, hperiod, hquorum, hrange]

/-- The governance part always goes through with the first proposal. -/
theorem runDemoGov_completes
    (registry : SchemaRegistry) (clocks : DemoClocks) {version : String}
    (hversion : version ∈ supportedVersions) {app : ChainApp}
    (hnext : app.govKeeper.nextID = 1) :
    ∃ submitted voted tallied,
      runDemoGov formatTime registry clocks version app =
        ([.response "gov_submit" submitted, .response "gov_vote" voted,
          .response "gov_tally" tallied,
          demoCompleted 1
            ((Binary64.finite (1 / 2)).ge app.govKeeper.quorum)
            ((Binary64.finite (1 / 2)).ge app.govKeeper.quorum)],
          .ok ()) := by
  obtain ⟨afterSubmit, proposal, hsubmit, hproposal, hvotes, hquorum⟩ :=
    executeTx_demoSubmit app clocks.submit.executed
  rw [hnext] at hsubmit hproposal
  obtain ⟨submitted, hsubmitted, hsubmitCode, hsubmitData⟩ :=
    executeTxResponse_of_ok formatTime registry hversion hsubmit
  obtain ⟨afterVote, hvote, hcast, hsameQuorum⟩ :=
    executeTx_demoVote clocks.vote.executed
      (by decide : (1 : UInt64) ≠ 0) hproposal
  obtain ⟨voted, hvoted, hvoteCode, -⟩ :=
    executeTxResponse_of_ok formatTime registry hversion hvote
  have htally := executeTx_demoTally clocks.tally.executed
    (by decide : (1 : UInt64) ≠ 0) hcast
    (by rw [Gov.Proposal.cast, hvotes]; rfl)
  obtain ⟨tallied, htallied, htallyCode, htallyData⟩ :=
    executeTxResponse_of_ok formatTime registry hversion htally
  rw [hsameQuorum, hquorum] at htallyData
  have hsubmitted' : submitted.data = some (.govSubmit "gov submit ok" 1) :=
    hsubmitData
  have htallied' : tallied.data = some (.govTally "gov tally ok"
      ((Binary64.finite (1 / 2)).ge app.govKeeper.quorum)
      ((Binary64.finite (1 / 2)).ge app.govKeeper.quorum)) :=
    htallyData
  refine ⟨submitted, voted, tallied, ?_⟩
  unfold runDemoGov
  simp [hsubmitted, hsubmitted', hsubmitCode, hvoted, hvoteCode, htallied,
    htallied', htallyCode]

/-- The lines of a demo that completes. -/
structure DemoReport where
  sent : TxResponse
  delegated : TxResponse
  submitted : TxResponse
  voted : TxResponse
  tallied : TxResponse

def DemoReport.lines (report : DemoReport) (quorumMet : Bool) :
    List DemoLine :=
  [.response "bank_send" report.sent] ++
    (if report.sent.code ≠ "OK" then [.text "bank demo skipped"] else []) ++
    [.response "staking_delegate" report.delegated,
      .response "gov_submit" report.submitted,
      .response "gov_vote" report.voted,
      .response "gov_tally" report.tallied,
      demoCompleted 1 quorumMet quorumMet]

/-- With a supported version the steps go through on what an accepted genesis
leaves; only the bank transaction can fail. -/
theorem runDemoSteps_completes
    (registry : SchemaRegistry) (clocks : DemoClocks) {version : String}
    (hversion : version ∈ supportedVersions) {app : ChainApp}
    (hvalidators : app.stakingKeeper.validators = ∅)
    (hmax : 0 < app.stakingKeeper.params.maxValidators)
    (hnext : app.govKeeper.nextID = 1) :
    ∃ report : DemoReport,
      runDemoSteps formatTime registry clocks version app =
        (report.lines ((Binary64.finite (1 / 2)).ge app.govKeeper.quorum),
          .ok ()) ∧
        (report.sent.code = "OK" ↔ app.DemoSends) := by
  obtain ⟨hsameStaking, hsameGov, hsends⟩ :=
    executeTx_demoSend app clocks.send.executed
  obtain ⟨sent, hsent, hsentCode⟩ : ∃ sent : TxResponse,
      app.executeTxResponseWithVersion formatTime registry clocks.send version
          demoSend = ((app.executeTx clocks.send.executed demoSend).1, sent) ∧
        (sent.code = "OK" ↔ app.DemoSends) := by
    rcases hexecute : app.executeTx clocks.send.executed demoSend with
      ⟨next, err | result⟩
    · rw [hexecute] at hsends
      obtain ⟨sent, hsent, hcode⟩ :=
        executeTxResponse_of_error formatTime registry hversion hexecute
      refine ⟨sent, hsent, ?_⟩
      rw [← hsends]
      simp [hcode]
    · rw [hexecute] at hsends
      obtain ⟨sent, hsent, hcode, -⟩ :=
        executeTxResponse_of_ok formatTime registry hversion hexecute
      refine ⟨sent, hsent, ?_⟩
      rw [← hsends]
      simp [hcode]
  generalize (app.executeTx clocks.send.executed demoSend).1 = afterSend
    at hsameStaking hsameGov hsent
  rw [← hsameStaking] at hvalidators hmax
  rw [← hsameGov] at hnext ⊢
  obtain ⟨stakingKeeper, result, hdelegate⟩ :=
    executeTx_demoDelegate clocks.delegate.executed hvalidators hmax
  obtain ⟨delegated, hdelegated, hdelegateCode, -⟩ :=
    executeTxResponse_of_ok formatTime registry hversion hdelegate
  obtain ⟨submitted, voted, tallied, hgov⟩ :=
    runDemoGov_completes formatTime registry clocks hversion
      (show ({ afterSend with stakingKeeper } : ChainApp).govKeeper.nextID = 1
        from hnext)
  refine ⟨⟨sent, delegated, submitted, voted, tallied⟩, ?_, hsentCode⟩
  unfold runDemoSteps DemoReport.lines
  simp [hsent, hdelegated, hdelegateCode, hgov]

theorem validateTxResponseVersion_ok_iff (version : String) :
    validateTxResponseVersion version = .ok () ↔
      version ∈ supportedVersions := by
  unfold validateTxResponseVersion
  by_cases hversion : version ∈ supportedVersions
  · simp [resolveTxResponseVersion_of_mem hversion, hversion, Except.map]
  · simp [resolveTxResponseVersion_of_notMem hversion, hversion, Except.map]

theorem loadedFrom_demoSends
    {genesis : Genesis} (hbank : genesis.appState.bank.Accepted) :
    (newChainApp.loadedFrom parseDuration parseFloat genesis).DemoSends ↔
      genesis.appState.bank.params.defaultSendEnabled = true ∧
        1 ≤ Bank.credited "alice" genesis.appState.bank.balances 0 := by
  have hcontents := Bank.initGenesis_contents newChainApp.bankKeeper
    genesis.appState.bank
  have hwritten : genesis.appState.bank.written =
      genesis.appState.bank.balances :=
    List.takeWhile_eq_self_iff.mpr fun balance hmem => by
      simpa using hbank balance hmem
  rw [hwritten] at hcontents
  have hparams : (newChainApp.loadedFrom parseDuration parseFloat
      genesis).bankKeeper.params = genesis.appState.bank.params :=
    congrArg Prod.fst hcontents
  have hlookup : (newChainApp.loadedFrom parseDuration parseFloat
      genesis).bankKeeper.balances.lookup "alice" =
        Bank.listedEntry "alice" genesis.appState.bank.balances :=
    congrFun (congrArg Prod.snd hcontents) "alice"
  have hbalance : (newChainApp.loadedFrom parseDuration parseFloat
      genesis).bankKeeper.balance "alice" =
        Bank.credited "alice" genesis.appState.bank.balances 0 := by
    unfold Bank.Keeper.balance KeyedMap.get
    rw [hlookup]
    unfold Bank.listedEntry
    split_ifs with hlisted
    · rfl
    · have hnone : genesis.appState.bank.balances.filter
          (fun balance => balance.address = "alice") = [] := by
        simpa [List.filter_eq_nil_iff] using hlisted
      simp [Bank.credited, hnone]
  unfold ChainApp.DemoSends
  rw [hbalance, hparams]

theorem runDemo_of_accepted
    (registry : SchemaRegistry) (clocks : DemoClocks) {version : String}
    (hversion : version ∈ supportedVersions) {genesis : Genesis}
    (hheader : genesis.HasHeader)
    (haccepted : genesis.Accepted parseDuration parseFloat) :
    ∃ report quorum,
      runDemo parseDuration parseFloat formatTime registry clocks version
          (.ok genesis) =
        (DemoReport.lines report ((Binary64.finite (1 / 2)).ge quorum),
          .ok ()) ∧
        parseFloat genesis.appState.gov.params.quorum = .ok quorum ∧
        (report.sent.code = "OK" ↔
          genesis.appState.bank.params.defaultSendEnabled = true ∧
            1 ≤ Bank.credited "alice" genesis.appState.bank.balances 0) := by
  obtain ⟨hnext, hquorum⟩ := loadedFrom_gov newChainApp haccepted.2.2
  obtain ⟨-, hparams, -, hvalidators, -⟩ :=
    Staking.initGenesis_of_accepted parseDuration haccepted.2.1
      newChainApp.stakingKeeper
  have hmax := haccepted.2.1.2.1
  rw [← hparams] at hmax
  obtain ⟨report, hsteps, hsends⟩ :=
    runDemoSteps_completes formatTime registry clocks hversion hvalidators hmax
      hnext
  refine ⟨report, _, ?_, hquorum, hsends.trans (loadedFrom_demoSends haccepted.1)⟩
  have hload := initFromGenesis_of_accepted newChainApp hheader haccepted
  unfold runDemo
  rw [(validateTxResponseVersion_ok_iff version).mpr hversion]
  simp only [hload]
  exact hsteps

/-- The demo completes exactly for a supported version and a genesis that the
chain accepts, whatever the genesis holds.  It then reports proposal 1, which
is accepted when half of the voting power is a quorum, and it has skipped the
bank transaction exactly when sending is disabled or the genesis gives
`alice` less than one coin. -/
theorem runDemo_completes_iff
    (registry : SchemaRegistry) (clocks : DemoClocks) (version : String)
    (loaded : Except String Genesis) :
    ((runDemo parseDuration parseFloat formatTime registry clocks version
        loaded).2 = .ok () ↔
      version ∈ supportedVersions ∧ ∃ genesis, loaded = .ok genesis ∧
        genesis.HasHeader ∧ genesis.Accepted parseDuration parseFloat) ∧
      ∀ genesis, loaded = .ok genesis →
        (runDemo parseDuration parseFloat formatTime registry clocks version
          loaded).2 = .ok () →
        ∃ (report : DemoReport) (quorum : Binary64),
          parseFloat genesis.appState.gov.params.quorum = .ok quorum ∧
          (runDemo parseDuration parseFloat formatTime registry clocks version
            loaded).1 =
              report.lines ((Binary64.finite (1 / 2)).ge quorum) ∧
          (report.sent.code = "OK" ↔
            genesis.appState.bank.params.defaultSendEnabled = true ∧
              1 ≤ Bank.credited "alice" genesis.appState.bank.balances 0) := by
  have haccepted : (runDemo parseDuration parseFloat formatTime registry clocks
      version loaded).2 = .ok () →
        version ∈ supportedVersions ∧ ∃ genesis, loaded = .ok genesis ∧
          genesis.HasHeader ∧ genesis.Accepted parseDuration parseFloat := by
    intro hok
    unfold runDemo at hok
    cases hversion : validateTxResponseVersion version with
    | error err => simp [hversion] at hok
    | ok _ =>
        refine ⟨(validateTxResponseVersion_ok_iff version).mp hversion, ?_⟩
        cases loaded with
        | error err => simp [hversion] at hok
        | ok genesis =>
            refine ⟨genesis, rfl,
              (initFromGenesis_ok_iff newChainApp genesis).mp ?_⟩
            rcases hload : newChainApp.initFromGenesis parseDuration parseFloat
              genesis with ⟨app, err | _⟩
            · simp [hversion, hload] at hok
            · rfl
  refine ⟨⟨haccepted, ?_⟩, ?_⟩
  · rintro ⟨hversion, genesis, rfl, hheader, hgenesis⟩
    obtain ⟨report, quorum, hrun, -⟩ :=
      runDemo_of_accepted formatTime registry clocks hversion hheader hgenesis
    rw [hrun]
  · rintro genesis rfl hok
    obtain ⟨hversion, other, hother, hheader, hgenesis⟩ := haccepted hok
    obtain rfl := Except.ok.inj hother
    obtain ⟨report, quorum, hrun, hquorum, hsends⟩ :=
      runDemo_of_accepted formatTime registry clocks hversion hheader hgenesis
    exact ⟨report, quorum, hquorum, congrArg Prod.fst hrun, hsends⟩

end Run

end SoulonWallet.Chain
