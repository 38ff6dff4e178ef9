import SoulonWallet.RewardLedger

/-!
# Exact tallies

What a proposal has for each option is compared with the successful votes
that have been cast for it since it was submitted, and the total that `Tally`
reports with the sum of the four options.  Both are exact, and another yes
vote never turns an accepted proposal down, as long as every vote leaves the
sum of its proposal within `int64`.

The quorum is compared as an exact ratio here.
-/

namespace SoulonWallet.Chain

open LabelledRun
open WrappingInt64

namespace Gov

/-! ## Proposals -/

namespace Proposal

def total (proposal : Proposal) (option : VoteOption) : ℤ :=
  (proposal.votes.get option 0).toInt

def grandTotal (proposal : Proposal) : ℤ :=
  proposal.total voteYes + proposal.total voteNo +
    proposal.total voteAbstain + proposal.total voteVeto

/-- The proposal after a vote. -/
def cast (proposal : Proposal) (option : VoteOption) (weight : Int64) :
    Proposal :=
  { proposal with
    votes :=
      proposal.votes.insert option (proposal.votes.get option 0 + weight) }

/-- No other options than the four have votes. -/
def Balanced (proposal : Proposal) : Prop :=
  proposal.votes.weight Int64.toInt = proposal.grandTotal

/-- The total that `Tally` computes. -/
def totalVoted (proposal : Proposal) : Int64 :=
  Int64.ofInt (proposal.votes.weight Int64.toInt)

variable {proposal : Proposal} {option : VoteOption} {weight : Int64}

theorem total_cast_self
    (proposal : Proposal) (option : VoteOption) (weight : Int64) :
    (proposal.cast option weight).total option =
      (proposal.votes.get option 0 + weight).toInt := by
  simp [total, cast, KeyedMap.get_insert_self]

theorem total_cast_of_ne
    {other : VoteOption} (proposal : Proposal) (weight : Int64)
    (hne : other ≠ option) :
    (proposal.cast option weight).total other = proposal.total other := by
  simp [total, cast, KeyedMap.get_insert_of_ne _ _ _ hne]

theorem grandTotal_cast
    (hvalid : option.valid) (proposal : Proposal) (weight : Int64) :
    (proposal.cast option weight).grandTotal =
      proposal.grandTotal +
        (proposal.votes.get option 0 + weight).toInt -
        proposal.total option := by
  have hself := total_cast_self proposal option weight
  have hother : ∀ other, other ≠ option →
      (proposal.cast option weight).total other = proposal.total other :=
    fun _ hne => total_cast_of_ne proposal weight hne
  unfold grandTotal
  rcases hvalid with rfl | rfl | rfl | rfl
  · rw [hself, hother voteNo (by decide), hother voteAbstain (by decide),
      hother voteVeto (by decide)]
    ring
  · rw [hself, hother voteYes (by decide), hother voteAbstain (by decide),
      hother voteVeto (by decide)]
    ring
  · rw [hself, hother voteYes (by decide), hother voteNo (by decide),
      hother voteVeto (by decide)]
    ring
  · rw [hself, hother voteYes (by decide), hother voteNo (by decide),
      hother voteAbstain (by decide)]
    ring

theorem Balanced.cast
    (hbalanced : proposal.Balanced) (hvalid : option.valid)
    (weight : Int64) : (proposal.cast option weight).Balanced := by
  have hweight := KeyedMap.weight_insert Int64.toInt proposal.votes option
    (proposal.votes.get option 0 + weight) 0 toInt_zero
  unfold Balanced at hbalanced ⊢
  rw [grandTotal_cast hvalid, ← hbalanced]
  exact eq_sub_of_add_eq hweight

theorem totalVoted_toInt
    (hbalanced : proposal.Balanced) (hlow : 0 ≤ proposal.grandTotal)
    (hhigh : proposal.grandTotal < 2 ^ 63) :
    proposal.totalVoted.toInt = proposal.grandTotal := by
  unfold totalVoted
  rw [hbalanced]
  exact Int64.toInt_ofInt_of_le (by omega) hhigh

theorem total_le_grandTotal
    (hnonneg : ∀ option, option.valid → 0 ≤ proposal.total option)
    (hvalid : option.valid) :
    proposal.total option ≤ proposal.grandTotal := by
  have hyes := hnonneg voteYes (Or.inl rfl)
  have hno := hnonneg voteNo (Or.inr (Or.inl rfl))
  have habstain := hnonneg voteAbstain (Or.inr (Or.inr (Or.inl rfl)))
  have hveto := hnonneg voteVeto (Or.inr (Or.inr (Or.inr rfl)))
  unfold grandTotal
  rcases hvalid with rfl | rfl | rfl | rfl <;> omega

theorem fresh_totals (hvotes : proposal.votes = noVotes) :
    (∀ option, option.valid → proposal.total option = 0) ∧
      proposal.Balanced ∧
      proposal.totalVoted.toInt = proposal.grandTotal := by
  unfold total Balanced totalVoted grandTotal total
  rw [hvotes]
  refine ⟨?_, by decide, by decide⟩
  rintro option (rfl | rfl | rfl | rfl) <;> decide

end Proposal

/-! ## The keeper -/

namespace Keeper

variable {keeper : Keeper} {proposalID : UInt64} {proposal : Proposal}
variable {votingPower : Int64}

theorem tally_of_lookup
    (hlookup : keeper.proposals.lookup proposalID = some proposal)
    (hpower : 0 < votingPower) :
    ∃ result, keeper.tally proposalID votingPower = .ok result := by
  have hpositive : ¬ votingPower ≤ 0 := by simpa using hpower
  simp [tally, hlookup, hpositive]

theorem tally_totalVoted
    {result : TallyResult}
    (hlookup : keeper.proposals.lookup proposalID = some proposal)
    (hresult : keeper.tally proposalID votingPower = .ok result) :
    result.totalVoted = proposal.totalVoted ∧ 0 < votingPower := by
  simp only [tally, hlookup] at hresult
  by_cases hpower : votingPower ≤ 0
  · rw [if_pos hpower] at hresult
    cases hresult
  rw [if_neg hpower] at hresult
  obtain rfl := Except.ok.inj hresult
  refine ⟨?_, by simpa using hpower⟩
  show proposal.votes.entries.foldl (fun total entry => total + entry.2) 0 =
    proposal.totalVoted
  rw [foldl_add_eq_ofInt fun entry : Sigma fun _ : VoteOption => Int64 =>
    entry.2]
  simp [Proposal.totalVoted, KeyedMap.weight]

/-- The proposal is accepted, with the quorum compared as an exact ratio. -/
def AcceptsExactly (keeper : Keeper) (proposalID : UInt64)
    (votingPower : Int64) : Prop :=
  ∃ proposal result quorum,
    keeper.proposals.lookup proposalID = some proposal ∧
    keeper.tally proposalID votingPower = .ok result ∧
    keeper.quorum = .finite quorum ∧
    quorum ≤ (result.totalVoted.toInt : ℚ) / votingPower.toInt ∧
    proposal.votes.get voteNo 0 < proposal.votes.get voteYes 0

theorem acceptsExactly_iff :
    keeper.AcceptsExactly proposalID votingPower ↔
      ∃ proposal quorum,
        keeper.proposals.lookup proposalID = some proposal ∧
        0 < votingPower ∧ keeper.quorum = .finite quorum ∧
        quorum ≤
          (proposal.totalVoted.toInt : ℚ) / votingPower.toInt ∧
        proposal.total voteNo < proposal.total voteYes := by
  constructor
  · rintro ⟨proposal, result, quorum, hlookup, hresult, hquorum, hreached,
      hyes⟩
    obtain ⟨htotal, hpower⟩ := tally_totalVoted hlookup hresult
    rw [htotal] at hreached
    exact ⟨proposal, quorum, hlookup, hpower, hquorum, hreached,
      Int64.lt_iff_toInt_lt.mp hyes⟩
  · rintro ⟨proposal, quorum, hlookup, hpower, hquorum, hreached, hyes⟩
    obtain ⟨result, hresult⟩ := tally_of_lookup hlookup hpower
    rw [← (tally_totalVoted hlookup hresult).1] at hreached
    exact ⟨proposal, result, quorum, hlookup, hresult, hquorum, hreached,
      Int64.lt_iff_toInt_lt.mpr hyes⟩

theorem submitProposal_of_valid
    (keeper : Keeper) (now : ℤ) {proposer title : String}
    (hproposer : proposer ≠ "") (htitle : title ≠ "") :
    ∃ proposal, proposal.votes = noVotes ∧
      keeper.submitProposal now proposer title =
        ({ keeper with
            nextID := keeper.nextID + 1
            proposals := keeper.proposals.insert keeper.nextID proposal },
          .ok proposal) ∧ proposal.id = keeper.nextID := by
  simp [submitProposal, hproposer, htitle]

theorem vote_of_none
    (option : VoteOption) {weight : Int64} (hweight : 0 < weight)
    (hlookup : keeper.proposals.lookup proposalID = none) :
    keeper.vote proposalID option weight =
      (keeper, .error "gov proposal not found") := by
  have hpositive : ¬ weight ≤ 0 := by simpa using hweight
  simp [vote, hpositive, hlookup]

theorem vote_of_some
    {option : VoteOption} {weight : Int64} (hweight : 0 < weight)
    (hvalid : option.valid)
    (hlookup : keeper.proposals.lookup proposalID = some proposal) :
    keeper.vote proposalID option weight =
      ({ keeper with
          proposals :=
            keeper.proposals.insert proposalID
              (proposal.cast option weight) },
        .ok ()) := by
  have hpositive : ¬ weight ≤ 0 := by simpa using hweight
  simp [vote, hpositive, hlookup, hvalid, Proposal.cast]

end Keeper

end Gov

theorem validateTx_govSubmit
    {tx : Tx} (hvalid : validateTx tx = .ok ())
    (htype : tx.type = txGovSubmit) :
    tx.fromAddress ≠ "" ∧ tx.title ≠ "" := by
  simp only [validateTx, htype] at hvalid
  simp only [txBankSend, txStakingDelegate, txStakingRedelegate, txGovSubmit,
    String.reduceEq, if_false, if_true] at hvalid
  split_ifs at hvalid with hblank hfields
  obtain ⟨hproposer, htitle⟩ := not_or.mp hfields
  exact ⟨ne_empty_of_trimSpace_ne hproposer, ne_empty_of_trimSpace_ne htitle⟩

theorem validateTx_govVote
    {tx : Tx} (hvalid : validateTx tx = .ok ())
    (htype : tx.type = txGovVote) :
    0 < tx.amount ∧ tx.option.valid := by
  simp only [validateTx, htype] at hvalid
  simp only [txBankSend, txStakingDelegate, txStakingRedelegate, txGovSubmit,
    txGovVote, String.reduceEq, if_false, if_true] at hvalid
  split_ifs at hvalid with hblank hproposal hamount hoption
  exact ⟨by simpa using hamount, hoption⟩

/-! ## Votes of a run -/

/-- A submission under the id starts a new count, and a vote adds to it. -/
def counted (proposalID : UInt64) (option : Gov.VoteOption) (count : ℤ) :
    Executed → ℤ
  | (_, .error _) => count
  | (tx, .ok result) =>
      if tx.type = txGovSubmit ∧ result.proposalID = proposalID then 0
      else if tx.type = txGovVote ∧ tx.proposalID = proposalID ∧
          tx.option = option then
        count + tx.amount.toInt
      else count

/-- The weights of the successful votes for an option of the proposal that
was last submitted under the id. -/
def votedFor (proposalID : UInt64) (option : Gov.VoteOption)
    (history : List Executed) : ℤ :=
  history.foldl (counted proposalID option) 0

theorem votedFor_concat
    (proposalID : UInt64) (option : Gov.VoteOption)
    (history : List Executed) (call : Executed) :
    votedFor proposalID option (history ++ [call]) =
      counted proposalID option (votedFor proposalID option history) call := by
  simp [votedFor]

theorem counted_of_type_ne
    {tx : Tx} (hsubmit : tx.type ≠ txGovSubmit) (hvote : tx.type ≠ txGovVote)
    (proposalID : UInt64) (option : Gov.VoteOption) (count : ℤ)
    (outcome : Except AppError TxResult) :
    counted proposalID option count (tx, outcome) = count := by
  cases outcome with
  | error err => rfl
  | ok result => simp [counted, hsubmit, hvote]

theorem counted_submit
    {tx : Tx} (htype : tx.type = txGovSubmit) (proposalID : UInt64)
    (option : Gov.VoteOption) (count : ℤ) (result : TxResult) :
    counted proposalID option count (tx, .ok result) =
      if proposalID = result.proposalID then 0 else count := by
  have hvote : ¬ txGovSubmit = txGovVote := by decide
  by_cases hsame : proposalID = result.proposalID
  · simp [counted, htype, hsame]
  · simp [counted, htype, hvote, hsame, Ne.symm hsame]

theorem counted_vote
    {tx : Tx} (htype : tx.type = txGovVote) (proposalID : UInt64)
    (option : Gov.VoteOption) (count : ℤ) (result : TxResult) :
    counted proposalID option count (tx, .ok result) =
      count +
        if proposalID = tx.proposalID ∧ option = tx.option then
          tx.amount.toInt
        else 0 := by
  have hsubmit : ¬ txGovVote = txGovSubmit := by decide
  simp only [counted, htype, hsubmit, false_and, if_false, true_and]
  by_cases hsame : proposalID = tx.proposalID ∧ option = tx.option
  · rw [if_pos hsame, if_pos ⟨hsame.1.symm, hsame.2.symm⟩]
  · rw [if_neg hsame, add_zero, if_neg]
    exact fun hboth => hsame ⟨hboth.1.symm, hboth.2.symm⟩

namespace Recorded

/-- What a call does to the proposals and to the counts of their votes. -/
inductive GovMoves (state : Recorded) (tx : Tx) (next : Recorded) : Prop
  | kept (hkeeper : next.app.govKeeper = state.app.govKeeper)
      (hcount : ∀ proposalID option,
        votedFor proposalID option next.history =
          votedFor proposalID option state.history)
      (hquiet : tx.type = txGovVote → validateTx tx = .ok () →
        state.app.govKeeper.proposals.lookup tx.proposalID = none)
  | submitted (proposal : Gov.Proposal) (htype : tx.type = txGovSubmit)
      (hvotes : proposal.votes = Gov.noVotes)
      (hkeeper : next.app.govKeeper =
        { state.app.govKeeper with
          nextID := state.app.govKeeper.nextID + 1
          proposals :=
            state.app.govKeeper.proposals.insert
              state.app.govKeeper.nextID proposal })
      (hcount : ∀ proposalID option,
        votedFor proposalID option next.history =
          if proposalID = state.app.govKeeper.nextID then 0
          else votedFor proposalID option state.history)
  | voted (proposal : Gov.Proposal) (htype : tx.type = txGovVote)
      (hvalid : validateTx tx = .ok ())
      (hlookup : state.app.govKeeper.proposals.lookup tx.proposalID =
        some proposal)
      (hkeeper : next.app.govKeeper =
        { state.app.govKeeper with
          proposals :=
            state.app.govKeeper.proposals.insert tx.proposalID
              (proposal.cast tx.option tx.amount) })
      (hcount : ∀ proposalID option,
        votedFor proposalID option next.history =
          votedFor proposalID option state.history +
            if proposalID = tx.proposalID ∧ option = tx.option then
              tx.amount.toInt
            else 0)

variable {state next : Recorded} {call : ℤ × Tx}

theorem govMoves_of_step (hstep : state.step call = some next) :
    state.GovMoves call.2 next := by
  obtain ⟨outcome, hexecutes, hhistory⟩ := executes_of_step hstep
  obtain ⟨app, history⟩ := next
  simp only at hexecutes hhistory
  have hcount : ∀ proposalID option,
      votedFor proposalID option history =
        counted proposalID option
          (votedFor proposalID option state.history) (call.2, outcome) := by
    intro proposalID option
    rw [hhistory, votedFor_concat]
  cases hexecutes with
  | refused hvalid =>
      apply GovMoves.kept
      · rfl
      · exact hcount
      · intro _ hok
        rw [hvalid] at hok
        cases hok
  | govSubmit hvalid htype =>
      obtain ⟨hproposer, htitle⟩ := validateTx_govSubmit hvalid htype
      obtain ⟨proposal, hvotes, hresult, hid⟩ :=
        state.app.govKeeper.submitProposal_of_valid call.1 hproposer htitle
      apply GovMoves.submitted proposal htype hvotes
      · exact congrArg Prod.fst hresult
      · intro proposalID option
        rw [hcount, hresult, ← hid]
        exact counted_submit htype proposalID option _ _
  | govVote hvalid htype =>
      obtain ⟨hamount, hoption⟩ := validateTx_govVote hvalid htype
      cases hlookup :
          state.app.govKeeper.proposals.lookup call.2.proposalID with
      | none =>
          have hresult := Gov.Keeper.vote_of_none call.2.option hamount
            hlookup
          apply GovMoves.kept
          · exact congrArg Prod.fst hresult
          · intro proposalID option
            rw [hcount, hresult]
            rfl
          · exact fun _ _ => hlookup
      | some proposal =>
          have hresult := Gov.Keeper.vote_of_some hamount hoption hlookup
          apply GovMoves.voted proposal htype hvalid hlookup
          · exact congrArg Prod.fst hresult
          · intro proposalID option
            rw [hcount, hresult]
            exact counted_vote htype proposalID option _ _
  | bankSend hvalid htype | stakingDelegate hvalid htype
  | stakingRedelegate hvalid htype | govTally hvalid htype
  | rewardsAdd hvalid htype | rewardsClaim hvalid htype =>
      have hsubmit : call.2.type ≠ txGovSubmit := by
        rw [htype]
        decide
      have hvote : call.2.type ≠ txGovVote := by
        rw [htype]
        decide
      apply GovMoves.kept
      · rfl
      · intro proposalID option
        rw [hcount, counted_of_type_ne hsubmit hvote]
      · exact fun hgov => absurd hgov hvote

/-! ## Exactness -/

/-- What holds in every state of a run, also when votes have wrapped. -/
structure Sound (state : Recorded) : Prop where
  balanced : ∀ proposalID proposal,
    state.app.govKeeper.proposals.lookup proposalID = some proposal →
    proposal.Balanced
  nonneg : ∀ proposalID option,
    0 ≤ votedFor proposalID option state.history

/-- The totals of every proposal are those of its successful votes, and
`Tally` reports their sum. -/
structure Exact (state : Recorded) : Prop where
  options : ∀ proposalID proposal,
    state.app.govKeeper.proposals.lookup proposalID = some proposal →
    ∀ option, option.valid →
      proposal.total option = votedFor proposalID option state.history
  tallied : ∀ proposalID proposal votingPower result,
    state.app.govKeeper.proposals.lookup proposalID = some proposal →
    state.app.govKeeper.tally proposalID votingPower = .ok result →
    result.totalVoted.toInt = proposal.grandTotal

/-- A vote that will be counted leaves the sum of its proposal within
`int64`. -/
def VoteFits (state : Recorded) (call : ℤ × Tx) : Prop :=
  call.2.type = txGovVote → validateTx call.2 = .ok () →
    ∀ proposal,
      state.app.govKeeper.proposals.lookup call.2.proposalID =
        some proposal →
      proposal.grandTotal + call.2.amount.toInt < 2 ^ 63

/-- When the call is one more successful yes vote, what was accepted still
is. -/
def KeepsAccepted (state : Recorded) (call : ℤ × Tx) : Prop :=
  call.2.type = txGovVote → call.2.option = Gov.voteYes →
    ∀ result, (state.app.executeTx call.1 call.2).2 = .ok result →
    ∀ proposalID votingPower,
      state.app.govKeeper.AcceptsExactly proposalID votingPower →
      (state.app.executeTx call.1
        call.2).1.govKeeper.AcceptsExactly proposalID votingPower

/-- The totals of one proposal are right. -/
def Counts (state : Recorded) (proposalID : UInt64)
    (proposal : Gov.Proposal) : Prop :=
  (∀ option, option.valid →
      proposal.total option = votedFor proposalID option state.history) ∧
    proposal.totalVoted.toInt = proposal.grandTotal

theorem exact_iff :
    state.Exact ↔ ∀ proposalID proposal,
      state.app.govKeeper.proposals.lookup proposalID = some proposal →
      state.Counts proposalID proposal := by
  constructor
  · intro hexact proposalID proposal hlookup
    refine ⟨hexact.options proposalID proposal hlookup, ?_⟩
    obtain ⟨result, hresult⟩ :=
      Gov.Keeper.tally_of_lookup hlookup (show (0 : Int64) < 1 by decide)
    rw [← (Gov.Keeper.tally_totalVoted hlookup hresult).1]
    exact hexact.tallied proposalID proposal 1 result hlookup hresult
  · intro hcounts
    constructor
    · exact fun proposalID proposal hlookup =>
        (hcounts proposalID proposal hlookup).1
    · intro proposalID proposal votingPower result hlookup hresult
      rw [(Gov.Keeper.tally_totalVoted hlookup hresult).1]
      exact (hcounts proposalID proposal hlookup).2

theorem Sound.grandTotal_nonneg
    {proposalID : UInt64} {proposal : Gov.Proposal} (hsound : state.Sound)
    (hcounts : state.Counts proposalID proposal) :
    (∀ option, option.valid → 0 ≤ proposal.total option) ∧
      0 ≤ proposal.grandTotal := by
  have hnonneg : ∀ option, option.valid → 0 ≤ proposal.total option := by
    intro option hvalid
    rw [hcounts.1 option hvalid]
    exact hsound.nonneg proposalID option
  refine ⟨hnonneg, ?_⟩
  exact (hnonneg Gov.voteYes (Or.inl rfl)).trans
    (Gov.Proposal.total_le_grandTotal hnonneg (Or.inl rfl))

theorem Sound.moves
    (hsound : state.Sound) (hmoves : state.GovMoves call.2 next) :
    next.Sound := by
  cases hmoves with
  | kept hkeeper hcount hquiet =>
      constructor
      · rw [hkeeper]
        exact hsound.balanced
      · intro proposalID option
        rw [hcount]
        exact hsound.nonneg proposalID option
  | submitted proposal htype hvotes hkeeper hcount =>
      constructor
      · intro proposalID other hlookup
        rw [hkeeper] at hlookup
        simp only [KeyedMap.lookup_insert_eq] at hlookup
        split_ifs at hlookup with hsame
        · obtain rfl := Option.some.inj hlookup
          exact (Gov.Proposal.fresh_totals hvotes).2.1
        · exact hsound.balanced proposalID other hlookup
      · intro proposalID option
        rw [hcount]
        split_ifs
        · exact le_refl 0
        · exact hsound.nonneg proposalID option
  | voted proposal htype hvalid hlookup hkeeper hcount =>
      obtain ⟨hamount, hoption⟩ := validateTx_govVote hvalid htype
      constructor
      · intro proposalID other hother
        rw [hkeeper] at hother
        simp only [KeyedMap.lookup_insert_eq] at hother
        split_ifs at hother with hsame
        · obtain rfl := Option.some.inj hother
          exact (hsound.balanced _ proposal hlookup).cast hoption _
        · exact hsound.balanced proposalID other hother
      · intro proposalID option
        have hbefore := hsound.nonneg proposalID option
        have hpositive := Int64.lt_iff_toInt_lt.mp hamount
        rw [toInt_zero] at hpositive
        rw [hcount]
        split_ifs
        · omega
        · omega

/-- A vote is counted right exactly when it fits. -/
theorem counts_cast_iff
    {proposal : Gov.Proposal} (hsound : state.Sound)
    (hoption : call.2.option.valid) (hamount : 0 < call.2.amount)
    (hlookup : state.app.govKeeper.proposals.lookup call.2.proposalID =
      some proposal)
    (hcounts : state.Counts call.2.proposalID proposal)
    (hcount : ∀ proposalID option,
      votedFor proposalID option next.history =
        votedFor proposalID option state.history +
          if proposalID = call.2.proposalID ∧ option = call.2.option then
            call.2.amount.toInt
          else 0) :
    next.Counts call.2.proposalID
        (proposal.cast call.2.option call.2.amount) ↔
      proposal.grandTotal + call.2.amount.toInt < 2 ^ 63 := by
  have hpositive := Int64.lt_iff_toInt_lt.mp hamount
  rw [toInt_zero] at hpositive
  obtain ⟨hnonneg, hgrand⟩ := hsound.grandTotal_nonneg hcounts
  have hpart := Gov.Proposal.total_le_grandTotal hnonneg hoption
  have hold := hcounts.1 call.2.option hoption
  have hlow := hnonneg call.2.option hoption
  have hbalanced :=
    (hsound.balanced _ proposal hlookup).cast hoption call.2.amount
  have hcast := Gov.Proposal.grandTotal_cast hoption proposal call.2.amount
  have hvotes : proposal.total call.2.option =
      (proposal.votes.get call.2.option 0).toInt := rfl
  constructor
  · rintro ⟨hoptions, htallied⟩
    have hexact := hoptions call.2.option hoption
    rw [Gov.Proposal.total_cast_self, hcount, if_pos ⟨rfl, rfl⟩, ← hold]
      at hexact
    have hlt :=
      (proposal.cast call.2.option call.2.amount).totalVoted.toInt_lt
    omega
  · intro hfits
    have hsum := toInt_add_of_lt (a := proposal.votes.get call.2.option 0)
      (b := call.2.amount) (by omega) (by omega)
    constructor
    · intro option hvalid
      rw [hcount]
      by_cases hsame : option = call.2.option
      · subst hsame
        rw [Gov.Proposal.total_cast_self, if_pos ⟨rfl, rfl⟩, ← hold, hsum]
        rfl
      · rw [Gov.Proposal.total_cast_of_ne _ _ hsame,
          if_neg fun hboth => hsame hboth.2, add_zero]
        exact hcounts.1 option hvalid
    · exact Gov.Proposal.totalVoted_toInt hbalanced (by omega) (by omega)

/-- A proposal that no vote is counted for stays as right as it is. -/
theorem Counts.of_votedFor
    {proposalID : UInt64} {proposal : Gov.Proposal}
    (hcounts : state.Counts proposalID proposal)
    (hcount : ∀ option,
      votedFor proposalID option next.history =
        votedFor proposalID option state.history) :
    next.Counts proposalID proposal := by
  obtain ⟨hoptions, htallied⟩ := hcounts
  refine ⟨?_, htallied⟩
  intro option hvalid
  rw [hcount]
  exact hoptions option hvalid

theorem counts_fresh
    {proposalID : UInt64} {proposal : Gov.Proposal}
    (hvotes : proposal.votes = Gov.noVotes)
    (hcount : ∀ option, votedFor proposalID option next.history = 0) :
    next.Counts proposalID proposal := by
  obtain ⟨htotals, -, htallied⟩ := Gov.Proposal.fresh_totals hvotes
  refine ⟨?_, htallied⟩
  intro option hvalid
  rw [hcount, htotals option hvalid]

theorem Exact.moves_iff
    (hsound : state.Sound) (hexact : state.Exact)
    (hmoves : state.GovMoves call.2 next) :
    next.Exact ↔ state.VoteFits call := by
  rw [exact_iff] at hexact ⊢
  cases hmoves with
  | kept hkeeper hcount hquiet =>
      apply iff_of_true
      · intro proposalID proposal hlookup
        rw [hkeeper] at hlookup
        exact (hexact proposalID proposal hlookup).of_votedFor
          (hcount proposalID)
      · intro htype hvalid proposal hlookup
        rw [hquiet htype hvalid] at hlookup
        cases hlookup
  | submitted proposal htype hvotes hkeeper hcount =>
      apply iff_of_true
      · intro proposalID other hlookup
        rw [hkeeper] at hlookup
        simp only [KeyedMap.lookup_insert_eq] at hlookup
        split_ifs at hlookup with hsame
        · obtain rfl := Option.some.inj hlookup
          apply counts_fresh hvotes
          intro option
          rw [hcount, if_pos hsame]
        · apply (hexact proposalID other hlookup).of_votedFor
          intro option
          rw [hcount, if_neg hsame]
      · intro hvote
        rw [htype] at hvote
        exact absurd hvote (by decide)
  | voted proposal htype hvalid hlookup hkeeper hcount =>
      obtain ⟨hamount, hoption⟩ := validateTx_govVote hvalid htype
      have hcounts := hexact call.2.proposalID proposal hlookup
      have hcast := counts_cast_iff hsound hoption hamount hlookup hcounts
        hcount
      have hnext : next.app.govKeeper.proposals.lookup call.2.proposalID =
          some (proposal.cast call.2.option call.2.amount) := by
        rw [hkeeper]
        exact AList.lookup_insert _
      constructor
      · intro hall _ _ other hother
        rw [hlookup, Option.some.injEq] at hother
        rw [← hother]
        exact hcast.mp (hall call.2.proposalID _ hnext)
      · intro hfits proposalID other hother
        by_cases hsame : proposalID = call.2.proposalID
        · subst hsame
          rw [hnext, Option.some.injEq] at hother
          rw [← hother]
          exact hcast.mpr (hfits htype hvalid proposal hlookup)
        · rw [hkeeper] at hother
          simp only [AList.lookup_insert_ne hsame] at hother
          apply (hexact proposalID other hother).of_votedFor
          intro option
          rw [hcount, if_neg fun hboth => hsame hboth.1, add_zero]

/-- A yes vote that is counted right raises the total and the lead of yes. -/
theorem cast_yes_raises
    {proposalID : UInt64} {proposal : Gov.Proposal} {weight : Int64}
    (hpositive : 0 < weight.toInt)
    (hcounts : state.Counts proposalID proposal)
    (hnext : next.Counts proposalID (proposal.cast Gov.voteYes weight))
    (hcount : ∀ option,
      votedFor proposalID option next.history =
        votedFor proposalID option state.history +
          if option = Gov.voteYes then weight.toInt else 0) :
    proposal.totalVoted.toInt ≤
        (proposal.cast Gov.voteYes weight).totalVoted.toInt ∧
      (proposal.cast Gov.voteYes weight).total Gov.voteNo =
        proposal.total Gov.voteNo ∧
      proposal.total Gov.voteYes ≤
        (proposal.cast Gov.voteYes weight).total Gov.voteYes := by
  have hyes : (proposal.cast Gov.voteYes weight).total Gov.voteYes =
      proposal.total Gov.voteYes + weight.toInt := by
    rw [hnext.1 _ (Or.inl rfl), hcount, if_pos rfl,
      ← hcounts.1 _ (Or.inl rfl)]
  have hgrand := Gov.Proposal.grandTotal_cast (Or.inl rfl) proposal weight
  rw [← Gov.Proposal.total_cast_self, hyes] at hgrand
  refine ⟨?_, Gov.Proposal.total_cast_of_ne proposal weight (by decide), ?_⟩
  · rw [hcounts.2, hnext.2, hgrand]
    omega
  · omega

theorem keepsAccepted_of_fits
    (hsound : state.Sound) (hexact : state.Exact)
    (hfits : state.VoteFits call) : state.KeepsAccepted call := by
  intro hvote hyes result _ proposalID votingPower haccepts
  obtain ⟨next, hstep⟩ : ∃ next, state.step call = some next := ⟨_, rfl⟩
  have hmoves := govMoves_of_step hstep
  have hnextExact := (Exact.moves_iff hsound hexact hmoves).mpr hfits
  have happ : next.app = (state.app.executeTx call.1 call.2).1 := by
    rw [Recorded.step_eq, Option.some.injEq] at hstep
    rw [← hstep]
  rw [← happ]
  rw [Gov.Keeper.acceptsExactly_iff] at haccepts ⊢
  obtain ⟨proposal, quorum, hlookup, hpower, hquorum, hreached, hlead⟩ :=
    haccepts
  cases hmoves with
  | kept hkeeper =>
      rw [hkeeper]
      exact ⟨proposal, quorum, hlookup, hpower, hquorum, hreached, hlead⟩
  | submitted _ htype =>
      rw [hvote] at htype
      exact absurd htype (by decide)
  | voted voted htype hvalid hvoted hkeeper hcount =>
      by_cases hsame : proposalID = call.2.proposalID
      · subst hsame
        obtain rfl : proposal = voted :=
          Option.some.inj (hlookup.symm.trans hvoted)
        rw [hyes] at hkeeper hcount
        have hnext : next.app.govKeeper.proposals.lookup
            call.2.proposalID =
              some (proposal.cast Gov.voteYes call.2.amount) := by
          rw [hkeeper]
          exact AList.lookup_insert _
        have hamount :=
          Int64.lt_iff_toInt_lt.mp (validateTx_govVote hvalid htype).1
        obtain ⟨htotal, hno, hmore⟩ := cast_yes_raises hamount
          (exact_iff.mp hexact _ _ hlookup)
          (exact_iff.mp hnextExact _ _ hnext)
          (fun option => by simpa using hcount call.2.proposalID option)
        have hpower' : (0 : ℚ) < votingPower.toInt := by
          exact_mod_cast Int64.lt_iff_toInt_lt.mp hpower
        refine ⟨_, quorum, hnext, hpower, ?_, ?_, ?_⟩
        · rw [hkeeper]
          exact hquorum
        · refine hreached.trans ?_
          gcongr
        · omega
      · refine ⟨proposal, quorum, ?_, hpower, ?_, hreached, hlead⟩
        · rw [hkeeper]
          exact (AList.lookup_insert_ne hsame).trans hlookup
        · rw [hkeeper]
          exact hquorum

theorem Sound.step (hsound : state.Sound)
    (hstep : state.step call = some next) : next.Sound :=
  hsound.moves (govMoves_of_step hstep)

end Recorded

/-! ## Runs -/

/-- After an accepted genesis, the runs in which every tally is exact and no
yes vote turns an accepted proposal down are those in which every vote leaves
the sum of its proposal within `int64`. -/
theorem gov_tally_exact_iff
    {parseDuration : String → Except String ℤ}
    {parseFloat : String → Except String Binary64} {app : ChainApp}
    {genesis : Genesis} (calls : List (ℤ × Tx))
    (haccepted :
      (app.initFromGenesis parseDuration parseFloat genesis).2 = .ok ()) :
    ((∀ reached,
        Visits Recorded.step
          (app.initFromGenesis parseDuration parseFloat genesis).1.recorded
          calls reached →
        reached.Exact) ∧
      Guarded Recorded.step Recorded.KeepsAccepted
        (app.initFromGenesis parseDuration parseFloat genesis).1.recorded
        calls) ↔
      Guarded Recorded.step Recorded.VoteFits
        (app.initFromGenesis parseDuration parseFloat genesis).1.recorded
        calls := by
  have hempty := (ChainApp.empty_of_initFromGenesis parseDuration parseFloat
    haccepted).2
  generalize (app.initFromGenesis parseDuration parseFloat
    genesis).1 = start at hempty ⊢
  have hsound : start.recorded.Sound := by
    constructor
    · intro proposalID proposal hlookup
      simp [ChainApp.recorded, hempty] at hlookup
    · exact fun _ _ => le_refl 0
  have hexact : start.recorded.Exact := by
    rw [Recorded.exact_iff]
    intro proposalID proposal hlookup
    simp [ChainApp.recorded, hempty] at hlookup
  have hiff : (∀ reached,
        Visits Recorded.step start.recorded calls reached →
        reached.Exact) ↔
      Guarded Recorded.step Recorded.VoteFits start.recorded calls := by
    apply forall_visits_iff_guarded Recorded.Sound
    · exact fun _ _ _ hinv hstep => hinv.step hstep
    · exact fun _ _ _ hinv hgood hstep =>
        Recorded.Exact.moves_iff hinv hgood
          (Recorded.govMoves_of_step hstep)
    · exact hsound
    · exact hexact
  constructor
  · exact fun hall => hiff.mp hall.1
  · intro hguarded
    refine ⟨hiff.mpr hguarded, ?_⟩
    apply hguarded.imp_of_invariant
      (fun state : Recorded => state.Sound ∧ state.Exact)
    · intro state call next hinv hfits hstep
      exact ⟨hinv.1.step hstep, (Recorded.Exact.moves_iff hinv.1 hinv.2
        (Recorded.govMoves_of_step hstep)).mpr hfits⟩
    · exact fun state call hinv hfits =>
        Recorded.keepsAccepted_of_fits hinv.1 hinv.2 hfits
    · exact ⟨hsound, hexact⟩

def submitTransfer : Tx where
  type := "gov_submit"
  fromAddress := "alice"
  title := "enable transfer"

def voteYesOnFirst (weight : Int64) : Tx where
  type := "gov_vote"
  proposalID := 1
  option := "yes"
  amount := weight

theorem gov_tally_exact_of_voteYes :
    ∃ reached,
      exec Recorded.step
          (newChainApp.initFromGenesis parsePeriod parseOne
            testGenesis).1.recorded
          [(0, submitTransfer), (1, voteYesOnFirst 60)] = some reached ∧
        votedFor 1 "yes" reached.history = 60 ∧ reached.Exact := by
  have hguarded :
      Guarded Recorded.step Recorded.VoteFits
        (newChainApp.initFromGenesis parsePeriod parseOne
          testGenesis).1.recorded
        [(0, submitTransfer), (1, voteYesOnFirst 60)] := by
    refine ⟨?_, ?_, trivial⟩
    · intro htype
      exact absurd htype (by decide)
    · intro _ _ proposal hlookup
      obtain rfl := Option.some.inj hlookup
      decide
  have hexact := ((gov_tally_exact_iff
    [(0, submitTransfer), (1, voteYesOnFirst 60)]
    testGenesis_accepted).mpr hguarded).1
  exact ⟨_, rfl, by decide, hexact _
    ⟨[(0, submitTransfer), (1, voteYesOnFirst 60)], List.prefix_rfl, rfl⟩⟩

/-- The second yes vote takes the first one past the top. -/
theorem gov_tally_not_exact :
    ¬ ∀ parseDuration parseFloat (app : ChainApp) genesis calls reached,
      (app.initFromGenesis parseDuration parseFloat genesis).2 = .ok () →
      exec Recorded.step
        (app.initFromGenesis parseDuration parseFloat genesis).1.recorded
        calls = some reached →
      reached.Exact := by
  intro hall
  obtain ⟨reached, hrun, proposal, hlookup, htotal, hvoted⟩ :
      ∃ reached,
        exec Recorded.step
          (newChainApp.initFromGenesis parsePeriod parseOne
            testGenesis).1.recorded
          [(0, submitTransfer), (1, voteYesOnFirst 9223372036854775807),
            (2, voteYesOnFirst 1)] = some reached ∧
        ∃ proposal : Gov.Proposal,
          reached.app.govKeeper.proposals.lookup 1 = some proposal ∧
          proposal.total "yes" = -9223372036854775808 ∧
          votedFor 1 "yes" reached.history = 9223372036854775808 :=
    ⟨_, rfl, _, rfl, by decide, by decide⟩
  have hexact := (hall parsePeriod parseOne newChainApp testGenesis _
    reached testGenesis_accepted hrun).options 1 proposal hlookup "yes"
    (Or.inl rfl)
  omega

end SoulonWallet.Chain
