import SoulonWallet.Binary64Order
import SoulonWallet.GovTally

/-!
# Reaching the quorum

A genesis keeps the quorums that are not above zero or above one out, but
every comparison with a NaN is false: the text `NaN` is a quorum.  With any
other quorum a proposal meets it as soon as the voting power has been cast,
whatever is rounded on the way.  With this one no proposal ever does.
-/

namespace SoulonWallet.Chain.Gov

open LabelledRun
open WrappingInt64

/-! ## Runs of the keeper -/

inductive Call where
  | submitProposal (now : ℤ) (proposer title : String)
  | vote (proposalID : UInt64) (option : VoteOption) (weight : Int64)

/-- The keeper, and the weight that has been cast on each proposal since it
was submitted. -/
structure Ballot where
  keeper : Keeper
  weight : UInt64 → ℤ

def Keeper.ballot (keeper : Keeper) : Ballot where
  keeper := keeper
  weight := fun _ => 0

namespace Ballot

def step (ballot : Ballot) : Call → Option Ballot
  | .submitProposal now proposer title =>
      match ballot.keeper.submitProposal now proposer title with
      | (keeper, .error _) => some { ballot with keeper }
      | (keeper, .ok proposal) =>
          some
            { keeper
              weight := Function.update ballot.weight proposal.id 0 }
  | .vote proposalID option weight =>
      match ballot.keeper.vote proposalID option weight with
      | (keeper, .error _) => some { ballot with keeper }
      | (keeper, .ok ()) =>
          some
            { keeper
              weight := Function.update ballot.weight proposalID
                (ballot.weight proposalID + weight.toInt) }

/-- No successful vote takes the weight of its proposal past `int64`. -/
def Fits (ballot : Ballot) : Call → Prop
  | .submitProposal _ _ _ => True
  | .vote proposalID option weight =>
      (ballot.keeper.vote proposalID option weight).2 = .ok () →
        ballot.weight proposalID + weight.toInt < 2 ^ 63

/-- The calls that change the keeper. -/
inductive Moves (ballot : Ballot) : Call → Ballot → Prop where
  | failed {call : Call} : Moves ballot call ballot
  | submitted (now : ℤ) (proposer title : String) (proposal : Proposal)
      (hvotes : proposal.votes = noVotes) (nextID : UInt64) :
      Moves ballot (.submitProposal now proposer title)
        { keeper :=
            { ballot.keeper with
              proposals :=
                ballot.keeper.proposals.insert proposal.id proposal
              nextID }
          weight := Function.update ballot.weight proposal.id 0 }
  | voted (proposalID : UInt64) (option : VoteOption) (weight : Int64)
      (proposal : Proposal) (hweight : 0 < weight) (hvalid : option.valid)
      (hlookup : ballot.keeper.proposals.lookup proposalID = some proposal) :
      Moves ballot (.vote proposalID option weight)
        { keeper :=
            { ballot.keeper with
              proposals := ballot.keeper.proposals.insert proposalID
                (proposal.cast option weight) }
          weight := Function.update ballot.weight proposalID
            (ballot.weight proposalID + weight.toInt) }

variable {ballot next : Ballot} {call : Call}

theorem moves_of_step (hstep : ballot.step call = some next) :
    ballot.Moves call next := by
  cases call with
  | submitProposal now proposer title =>
      by_cases hempty : proposer = "" ∨ title = ""
      · simp only [step, Keeper.submitProposal, if_pos hempty,
          Option.some.injEq] at hstep
        exact hstep ▸ .failed
      · simp only [step, Keeper.submitProposal, if_neg hempty,
          Option.some.injEq] at hstep
        let proposal : Proposal :=
          { id := ballot.keeper.nextID
            title := title
            proposer := proposer
            submittedAt := now
            votes := noVotes }
        exact hstep ▸ .submitted now proposer title proposal rfl _
  | vote proposalID option weight =>
      by_cases hweight : weight ≤ 0
      · simp only [step, Keeper.vote, if_pos hweight,
          Option.some.injEq] at hstep
        exact hstep ▸ .failed
      · have hpositive : 0 < weight := by simpa using hweight
        cases hlookup : ballot.keeper.proposals.lookup proposalID with
        | none =>
            simp only [step, Keeper.vote_of_none option hpositive hlookup,
              Option.some.injEq] at hstep
            exact hstep ▸ .failed
        | some proposal =>
            by_cases hvalid : option.valid
            · simp only [step, Keeper.vote_of_some hpositive hvalid hlookup,
                Option.some.injEq] at hstep
              exact hstep ▸ .voted proposalID option weight proposal
                hpositive hvalid hlookup
            · simp only [step, Keeper.vote, if_neg hweight, hlookup,
                if_pos hvalid, Option.some.injEq] at hstep
              exact hstep ▸ .failed

/-- The weight of a proposal is what its options have together. -/
structure Counts (ballot : Ballot) (proposalID : UInt64)
    (proposal : Proposal) : Prop where
  balanced : proposal.Balanced
  nonneg : ∀ option, option.valid → 0 ≤ proposal.total option
  weighed : proposal.grandTotal = ballot.weight proposalID
  fits : proposal.grandTotal < 2 ^ 63

structure Sound (quorum : Binary64) (ballot : Ballot) : Prop where
  quorum_eq : ballot.keeper.quorum = quorum
  counts : ∀ proposalID proposal,
    ballot.keeper.proposals.lookup proposalID = some proposal →
      ballot.Counts proposalID proposal

theorem counts_fresh
    {proposalID : UInt64} {proposal : Proposal}
    (hvotes : proposal.votes = noVotes)
    (hweight : ballot.weight proposalID = 0) :
    ballot.Counts proposalID proposal := by
  obtain ⟨htotals, hbalanced, -⟩ := Proposal.fresh_totals hvotes
  have hzero : proposal.grandTotal = 0 := by
    unfold Proposal.grandTotal
    rw [htotals voteYes (.inl rfl), htotals voteNo (.inr (.inl rfl)),
      htotals voteAbstain (.inr (.inr (.inl rfl))),
      htotals voteVeto (.inr (.inr (.inr rfl)))]
    rfl
  refine ⟨hbalanced, ?_, by rw [hzero, hweight], by omega⟩
  intro option hvalid
  rw [htotals option hvalid]

theorem Counts.of_weight
    {proposalID : UInt64} {proposal : Proposal}
    (hcounts : ballot.Counts proposalID proposal)
    (hweight : next.weight proposalID = ballot.weight proposalID) :
    next.Counts proposalID proposal :=
  { hcounts with weighed := hcounts.weighed.trans hweight.symm }

theorem Counts.cast
    {proposalID : UInt64} {proposal : Proposal} {option : VoteOption}
    {weight : Int64} (hcounts : ballot.Counts proposalID proposal)
    (hpositive : 0 < weight) (hvalid : option.valid)
    (hfits : ballot.weight proposalID + weight.toInt < 2 ^ 63)
    (hweight : next.weight proposalID =
      ballot.weight proposalID + weight.toInt) :
    next.Counts proposalID (proposal.cast option weight) := by
  have hadded : 0 < weight.toInt := Int64.lt_iff_toInt_lt.mp hpositive
  have hle := Proposal.total_le_grandTotal hcounts.nonneg hvalid
  have hold := hcounts.nonneg option hvalid
  have hweighed := hcounts.weighed
  have hsum : (proposal.votes.get option 0 + weight).toInt =
      proposal.total option + weight.toInt :=
    toInt_add_of_lt (by unfold Proposal.total at hle hold; omega)
      (by unfold Proposal.total at hle hold; omega)
  have hgrand := Proposal.grandTotal_cast hvalid proposal weight
  rw [hsum] at hgrand
  refine ⟨hcounts.balanced.cast hvalid weight, ?_, by omega, by omega⟩
  intro other hother
  by_cases hsame : other = option
  · subst hsame
    rw [Proposal.total_cast_self, hsum]
    omega
  · rw [Proposal.total_cast_of_ne _ _ hsame]
    exact hcounts.nonneg other hother

theorem Sound.step
    {quorum : Binary64} (hsound : ballot.Sound quorum)
    (hfits : ballot.Fits call) (hstep : ballot.step call = some next) :
    next.Sound quorum := by
  cases moves_of_step hstep with
  | failed => exact hsound
  | submitted now proposer title proposal hvotes nextID =>
      refine ⟨hsound.quorum_eq, ?_⟩
      intro proposalID other hlookup
      simp only [KeyedMap.lookup_insert_eq] at hlookup
      split_ifs at hlookup with hsame
      · obtain rfl := Option.some.inj hlookup
        exact counts_fresh hvotes (by simp [hsame])
      · apply (hsound.counts proposalID other hlookup).of_weight
        exact Function.update_of_ne hsame _ _
  | voted proposalID option weight proposal hweight hvalid hvoted =>
      refine ⟨hsound.quorum_eq, ?_⟩
      intro otherID other hlookup
      simp only [KeyedMap.lookup_insert_eq] at hlookup
      split_ifs at hlookup with hsame
      · obtain rfl := Option.some.inj hlookup
        subst hsame
        have hok : (ballot.keeper.vote otherID option weight).2 = .ok () := by
          rw [Keeper.vote_of_some hweight hvalid hvoted]
        apply (hsound.counts otherID proposal hvoted).cast hweight hvalid
          (hfits hok)
        exact Function.update_self _ _ _
      · apply (hsound.counts otherID other hlookup).of_weight
        exact Function.update_of_ne hsame _ _

end Ballot

/-! ## Genesis -/

section Genesis

variable {parseDuration : String → Except String ℤ}
variable {parseFloat : String → Except String Binary64}

/-- A quorum that a genesis accepts is a NaN or a value up to one. -/
theorem quorum_cases
    {quorum : Binary64} (haccepted : quorumOutOfRange quorum = false) :
    quorum = .nan ∨ ∃ value ≤ 1, quorum = .finite value := by
  cases quorum with
  | nan => exact .inl rfl
  | infinity negative =>
      cases negative <;>
        simp [quorumOutOfRange, Binary64.ge] at haccepted
  | finite value =>
      refine .inr ⟨value, ?_, rfl⟩
      by_contra hlarge
      have hone : 1 ≤ value := by linarith
      simp [quorumOutOfRange, Binary64.ge, hone, hlarge] at haccepted

theorem initGenesis_quorum
    {keeper start : Keeper} {state : GenesisState}
    (haccepted : keeper.initGenesis parseDuration parseFloat state =
      (start, .ok ())) :
    start.proposals = ∅ ∧
      parseFloat state.params.quorum = .ok start.quorum ∧
      quorumOutOfRange start.quorum = false := by
  unfold Keeper.initGenesis at haccepted
  cases hperiod : parseDuration state.params.votingPeriod with
  | error err => simp [hperiod] at haccepted
  | ok votingPeriod =>
      cases hquorum : parseFloat state.params.quorum with
      | error err => simp [hperiod, hquorum] at haccepted
      | ok quorum =>
          cases hrange : quorumOutOfRange quorum with
          | true => simp [hperiod, hquorum, hrange] at haccepted
          | false =>
              simp only [hperiod, hquorum, hrange, Bool.false_eq_true,
                if_false, Prod.mk.injEq, and_true] at haccepted
              obtain rfl := haccepted
              exact ⟨rfl, rfl, hrange⟩

end Genesis

/-! ## Tallies -/

theorem tally_quorumMet
    {keeper : Keeper} {proposalID : UInt64} {votingPower : Int64}
    {result : TallyResult}
    (hresult : keeper.tally proposalID votingPower = .ok result) :
    result.quorumMet =
      ((Binary64.ofInt result.totalVoted.toInt).div
        (Binary64.ofInt votingPower.toInt)).ge keeper.quorum := by
  unfold Keeper.tally at hresult
  cases hlookup : keeper.proposals.lookup proposalID with
  | none => simp [hlookup] at hresult
  | some proposal =>
      by_cases hpower : votingPower ≤ 0
      · simp [hlookup, hpower] at hresult
      · simp only [hlookup, if_neg hpower, Except.ok.injEq] at hresult
        rw [← hresult]

/-- When the voting power has been cast, a proposal meets every quorum but a
NaN. -/
theorem tally_quorumMet_iff
    {parseDuration : String → Except String ℤ}
    {parseFloat : String → Except String Binary64}
    {keeper start : Keeper} {state : GenesisState}
    {calls : List Call} {reached : Ballot}
    {proposalID : UInt64} {proposal : Proposal} {votingPower : Int64}
    (haccepted : keeper.initGenesis parseDuration parseFloat state =
      (start, .ok ()))
    (hfits : Guarded Ballot.step Ballot.Fits start.ballot calls)
    (hrun : exec Ballot.step start.ballot calls = some reached)
    (hproposal : reached.keeper.proposals.lookup proposalID = some proposal)
    (hpower : 0 < votingPower)
    (hcast : votingPower.toInt ≤ reached.weight proposalID) :
    ∃ result, reached.keeper.tally proposalID votingPower = .ok result ∧
      (result.quorumMet = true ↔
        parseFloat state.params.quorum ≠ .ok .nan) := by
  obtain ⟨hempty, hparse, hrange⟩ := initGenesis_quorum haccepted
  have hsound : reached.Sound start.quorum := by
    refine invariant_of_guarded (Ballot.Sound start.quorum)
      (fun _ _ _ hsound hfits hstep => hsound.step hfits hstep) ⟨rfl, ?_⟩
      hfits hrun
    intro proposalID proposal hlookup
    simp [Keeper.ballot, hempty] at hlookup
  have hcounts := hsound.counts proposalID proposal hproposal
  obtain ⟨result, hresult⟩ := Keeper.tally_of_lookup hproposal hpower
  refine ⟨result, hresult, ?_⟩
  have hpositive : 0 < votingPower.toInt := Int64.lt_iff_toInt_lt.mp hpower
  have hgrand : votingPower.toInt ≤ proposal.grandTotal := by
    rw [hcounts.weighed]
    exact hcast
  have htotal : result.totalVoted.toInt = proposal.grandTotal := by
    rw [(Keeper.tally_totalVoted hproposal hresult).1]
    exact Proposal.totalVoted_toInt hcounts.balanced
      (hpositive.le.trans hgrand) hcounts.fits
  rw [tally_quorumMet hresult, htotal, hsound.quorum_eq, hparse, Ne,
    Except.ok.injEq]
  rcases quorum_cases hrange with hnan | ⟨value, hvalue, hfinite⟩
  · simp [hnan]
  · rw [hfinite, Binary64.div_ofInt_ge hpositive hgrand hcounts.fits hvalue]
    simp

/-! ## The quorum that is not a number -/

/-- What Go reads in two texts. -/
def parseQuorum (text : String) : Except String Binary64 :=
  if text = "NaN" then .ok .nan
  else if text = "1" then .ok (.finite 1)
  else .error "strconv.ParseFloat: invalid syntax"

def quorumGenesis (quorum : String) : GenesisState where
  params :=
    { votingPeriod := "172800s"
      quorum := quorum }

def quorumStart (quorum : String) : Keeper :=
  (newKeeper.initGenesis parsePeriod parseQuorum (quorumGenesis quorum)).1

def everyoneVotes : List Call :=
  [.submitProposal 0 "alice" "enable transfer", .vote 1 voteYes 10]

/-- What the tally says when the whole voting power has voted. -/
def metByEveryone (quorum : String) : Option Bool :=
  (exec Ballot.step (quorumStart quorum).ballot everyoneVotes).bind
    fun reached => (reached.keeper.tally 1 10).toOption.map (·.quorumMet)

theorem quorumStart_run
    (quorum : String)
    (haccepted : quorumStart quorum =
      { params := (quorumGenesis quorum).params
        votingPeriod := 172800000000000
        quorum := (quorumStart quorum).quorum
        proposals := ∅
        nextID := 1 }) :
    ∃ reached proposal,
      exec Ballot.step (quorumStart quorum).ballot everyoneVotes =
          some reached ∧
        reached.keeper.proposals.lookup 1 = some proposal ∧
        reached.weight 1 = 10 ∧
        reached.keeper.quorum = (quorumStart quorum).quorum := by
  rw [haccepted]
  exact ⟨_, _, rfl, rfl, rfl, rfl⟩

theorem tally_quorumMet_one : metByEveryone "1" = some true := by
  obtain ⟨reached, proposal, hrun, hlookup, hweight, -⟩ :=
    quorumStart_run "1" rfl
  have hfits : Guarded Ballot.step Ballot.Fits (quorumStart "1").ballot
      everyoneVotes := by
    refine ⟨trivial, ?_, trivial⟩
    intro _
    decide
  have haccepted : newKeeper.initGenesis parsePeriod parseQuorum
      (quorumGenesis "1") = (quorumStart "1", .ok ()) := rfl
  obtain ⟨result, hresult, hmet⟩ := tally_quorumMet_iff haccepted hfits hrun
    hlookup (by decide : (0 : Int64) < 10) (by rw [hweight]; decide)
  have htrue : result.quorumMet = true := hmet.mpr (by decide)
  simp [metByEveryone, hrun, hresult, htrue, Except.toOption]

/-- The whole voting power is not enough for the quorum `NaN`. -/
theorem tally_quorumMet_nan :
    (newKeeper.initGenesis parsePeriod parseQuorum
      (quorumGenesis "NaN")).2 = .ok () ∧
    metByEveryone "NaN" = some false := by
  obtain ⟨reached, proposal, hrun, hlookup, -, hquorum⟩ :=
    quorumStart_run "NaN" rfl
  obtain ⟨result, hresult⟩ := Keeper.tally_of_lookup hlookup
    (by decide : (0 : Int64) < 10)
  have hnan : (quorumStart "NaN").quorum = .nan := rfl
  have hmet : result.quorumMet = false := by
    rw [tally_quorumMet hresult, hquorum, hnan, Binary64.ge_nan]
  refine ⟨rfl, ?_⟩
  simp [metByEveryone, hrun, hresult, hmet, Except.toOption]

end SoulonWallet.Chain.Gov
