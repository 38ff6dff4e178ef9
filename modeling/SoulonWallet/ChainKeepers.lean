import Mathlib.Data.Finset.Card
import SoulonWallet.Binary64
import SoulonWallet.KeyedMap

/-!
# The keepers of the deep chain

The bank, staking, governance and distribution keepers, one operation per
exported method.  A method that mutates its keeper and returns an error is a
function to the new keeper and the outcome: the keeper of a failed call is
whatever the statements before the `return` have made of it.  Amounts are Go
`int64` values, whose arithmetic wraps.
-/

namespace SoulonWallet.Chain

/-! ## Bank -/

namespace Bank

structure Params where
  defaultSendEnabled : Bool
  deriving DecidableEq

structure Balance where
  address : String
  amount : Int64
  deriving DecidableEq

structure GenesisState where
  params : Params
  balances : List Balance

structure Keeper where
  params : Params
  balances : KeyedMap String Int64
  deriving DecidableEq

def newKeeper : Keeper where
  params := ⟨false⟩
  balances := ∅

def Keeper.balance (keeper : Keeper) (address : String) : Int64 :=
  keeper.balances.get address 0

def Keeper.setBalance
    (keeper : Keeper) (address : String) (amount : Int64) : Keeper :=
  { keeper with balances := keeper.balances.insert address amount }

def Keeper.addBalances (keeper : Keeper) :
    List Balance → Keeper × Except String Unit
  | [] => (keeper, .ok ())
  | balance :: rest =>
      if balance.address = "" then
        (keeper, .error "bank balance address is empty")
      else if balance.amount < 0 then
        (keeper, .error ("bank balance amount is negative: " ++ balance.address))
      else
        (keeper.setBalance balance.address
          (keeper.balance balance.address + balance.amount)).addBalances rest

def Keeper.initGenesis (_ : Keeper) (state : GenesisState) :
    Keeper × Except String Unit :=
  Keeper.addBalances ⟨state.params, ∅⟩ state.balances

def Keeper.send (keeper : Keeper)
    (fromAddress toAddress : String) (amount : Int64) :
    Keeper × Except String Unit :=
  if keeper.params.defaultSendEnabled = false then
    (keeper, .error "bank send disabled")
  else if amount ≤ 0 then
    (keeper, .error "bank amount must be positive")
  else if fromAddress = "" ∨ toAddress = "" then
    (keeper, .error "bank sender or receiver empty")
  else if fromAddress = toAddress then
    (keeper, .ok ())
  else if keeper.balance fromAddress < amount then
    (keeper, .error "bank insufficient balance")
  else
    let debited :=
      keeper.setBalance fromAddress (keeper.balance fromAddress - amount)
    (debited.setBalance toAddress (debited.balance toAddress + amount), .ok ())

end Bank

/-! ## Staking -/

namespace Staking

structure Params where
  bondDenom : String
  maxValidators : ℤ
  unbondingTime : String
  deriving DecidableEq

structure Keeper where
  params : Params
  unbonding : ℤ
  validators : Finset String
  delegations : KeyedMap String (KeyedMap String Int64)
  deriving DecidableEq

def newKeeper : Keeper where
  params := ⟨"", 0, ""⟩
  unbonding := 0
  validators := ∅
  delegations := ∅

def Keeper.delegationsOf (keeper : Keeper) (delegator : String) :
    KeyedMap String Int64 :=
  keeper.delegations.get delegator ∅

def Keeper.setDelegation (keeper : Keeper)
    (delegator validator : String) (amount : Int64) : Keeper :=
  { keeper with
    delegations := keeper.delegations.insert delegator
      ((keeper.delegationsOf delegator).insert validator amount) }

def Keeper.join (keeper : Keeper) (validator : String) : Keeper :=
  if keeper.validators.card < keeper.params.maxValidators then
    { keeper with validators := insert validator keeper.validators }
  else keeper

def Keeper.delegate (keeper : Keeper)
    (delegator validator : String) (amount : Int64) :
    Keeper × Except String Unit :=
  if delegator = "" ∨ validator = "" then
    (keeper, .error "staking delegator or validator empty")
  else if amount ≤ 0 then
    (keeper, .error "staking amount must be positive")
  else
    let joined := keeper.join validator
    if validator ∉ joined.validators then
      (joined, .error "staking validator capacity reached")
    else
      (joined.setDelegation delegator validator
        ((joined.delegationsOf delegator).get validator 0 + amount), .ok ())

def Keeper.redelegate (keeper : Keeper)
    (delegator fromValidator toValidator : String) (amount : Int64) :
    Keeper × Except String Unit :=
  if amount ≤ 0 then
    (keeper, .error "staking amount must be positive")
  else if fromValidator = "" ∨ toValidator = "" then
    (keeper, .error "staking validator is empty")
  else
    match keeper.delegations.lookup delegator with
    | none => (keeper, .error "staking insufficient delegation")
    | some validatorDelegations =>
        if validatorDelegations.get fromValidator 0 < amount then
          (keeper, .error "staking insufficient delegation")
        else
          (keeper.setDelegation delegator fromValidator
            (validatorDelegations.get fromValidator 0 - amount)).delegate
              delegator toValidator amount

def Keeper.totalDelegation (keeper : Keeper) (delegator : String) : Int64 :=
  (keeper.delegationsOf delegator).entries.foldl
    (fun total entry => total + entry.2) 0

end Staking

/-! ## Governance -/

namespace Gov

structure Params where
  votingPeriod : String
  quorum : String
  deriving DecidableEq

/-- `type VoteOption string`: any text can arrive, four are votes. -/
abbrev VoteOption := String

def voteYes : VoteOption := "yes"
def voteNo : VoteOption := "no"
def voteAbstain : VoteOption := "abstain"
def voteVeto : VoteOption := "veto"

def VoteOption.valid (option : VoteOption) : Prop :=
  option = voteYes ∨ option = voteNo ∨ option = voteAbstain ∨
    option = voteVeto

instance (option : VoteOption) : Decidable option.valid := by
  unfold VoteOption.valid
  infer_instance

structure Proposal where
  id : UInt64
  title : String
  proposer : String
  submittedAt : ℤ
  votes : KeyedMap VoteOption Int64
  deriving DecidableEq

structure TallyResult where
  passRate : Binary64
  quorumMet : Bool
  accepted : Bool
  totalVoted : Int64
  votingPower : Int64
  deriving DecidableEq

structure Keeper where
  params : Params
  votingPeriod : ℤ
  quorum : Binary64
  proposals : KeyedMap UInt64 Proposal
  nextID : UInt64
  deriving DecidableEq

def newKeeper : Keeper where
  params := ⟨"", ""⟩
  votingPeriod := 0
  quorum := Binary64.finite 0
  proposals := ∅
  nextID := 1

def noVotes : KeyedMap VoteOption Int64 :=
  (((AList.insert voteVeto 0 ∅).insert voteAbstain 0).insert voteNo 0).insert
    voteYes 0

def Keeper.submitProposal (keeper : Keeper) (now : ℤ)
    (proposer title : String) : Keeper × Except String Proposal :=
  if proposer = "" ∨ title = "" then
    (keeper, .error "gov proposer or title empty")
  else
    let proposal : Proposal := {
      id := keeper.nextID
      title := title
      proposer := proposer
      submittedAt := now
      votes := noVotes }
    ({ keeper with
        nextID := keeper.nextID + 1
        proposals := keeper.proposals.insert proposal.id proposal },
      .ok proposal)

def Keeper.vote (keeper : Keeper)
    (proposalID : UInt64) (option : VoteOption) (weight : Int64) :
    Keeper × Except String Unit :=
  if weight ≤ 0 then
    (keeper, .error "gov vote weight must be positive")
  else
    match keeper.proposals.lookup proposalID with
    | none => (keeper, .error "gov proposal not found")
    | some proposal =>
        if ¬ option.valid then
          (keeper, .error "gov invalid vote option")
        else
          let votes :=
            proposal.votes.insert option (proposal.votes.get option 0 + weight)
          ({ keeper with
              proposals :=
                keeper.proposals.insert proposalID { proposal with votes } },
            .ok ())

def Keeper.tally (keeper : Keeper)
    (proposalID : UInt64) (votingPower : Int64) :
    Except String TallyResult :=
  match keeper.proposals.lookup proposalID with
  | none => .error "gov proposal not found"
  | some proposal =>
      if votingPower ≤ 0 then
        .error "gov voting power must be positive"
      else
        let totalVoted :=
          proposal.votes.entries.foldl (fun total entry => total + entry.2) 0
        let yes := proposal.votes.get voteYes 0
        let no := proposal.votes.get voteNo 0
        let passRate :=
          if 0 < totalVoted then
            (Binary64.ofInt yes.toInt).div (Binary64.ofInt totalVoted.toInt)
          else Binary64.finite 0
        let quorumMet :=
          ((Binary64.ofInt totalVoted.toInt).div
            (Binary64.ofInt votingPower.toInt)).ge keeper.quorum
        .ok {
          passRate := passRate
          quorumMet := quorumMet
          accepted := quorumMet && decide (no < yes)
          totalVoted := totalVoted
          votingPower := votingPower }

end Gov

/-! ## Distribution -/

namespace Distribution

structure Keeper where
  rewards : KeyedMap String Int64
  deriving DecidableEq

def newKeeper : Keeper := ⟨∅⟩

def Keeper.queryReward (keeper : Keeper) (delegator : String) : Int64 :=
  keeper.rewards.get delegator 0

def Keeper.addReward (keeper : Keeper)
    (delegator : String) (amount : Int64) : Keeper × Except String Unit :=
  if delegator = "" then
    (keeper, .error "distribution delegator is empty")
  else if amount ≤ 0 then
    (keeper, .error "distribution amount must be positive")
  else
    (⟨keeper.rewards.insert delegator
      (keeper.queryReward delegator + amount)⟩, .ok ())

def Keeper.claimReward (keeper : Keeper) (delegator : String) :
    Keeper × Int64 :=
  (⟨keeper.rewards.erase delegator⟩, keeper.queryReward delegator)

end Distribution

end SoulonWallet.Chain
