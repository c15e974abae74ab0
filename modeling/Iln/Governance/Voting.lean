import Iln.Governance.Proposals

/-! Casting a vote. The weight is the voter's own balance, from the snapshot or proven by an aged
checkpoint, plus the running tally of what was delegated, or the integer square root of the sum
while quadratic voting is on. -/
namespace IlnGovernance

open Outcome FixedWidth Function
open InvoiceLiquidity (Address)

variable {contract : Address}

/-- The binary search of `isqrt`; `rounds` bounds the loop. -/
def isqrtLoop (n : Int) : (rounds : Nat) → (lo hi : Int) → Option Int
  | 0, lo, hi => if lo < hi then none else some lo
  | rounds + 1, lo, hi =>
    if lo < hi then
      let mid := saturate i128 (lo + saturate i128 (saturate i128 (hi - lo) + 1) / 2)
      match checked i128 (mid * mid) with
      | some square =>
        if square ≤ n then isqrtLoop n rounds mid hi
        else isqrtLoop n rounds lo (saturate i128 (mid - 1))
      | none => isqrtLoop n rounds lo (saturate i128 (mid - 1))
    else some lo

/-- The search interval starts below `2 ^ 127` and halves in every round. -/
def isqrt (n : Int) : Option Int :=
  if n ≤ 1 then some (max n 0) else isqrtLoop n 128 0 n

/-- The own part of the weight, and the ballots with the snapshot taken by a first vote. -/
def ownWeight (world : World) (token voter : Address) (id : Nat) : Result (BallotStore × Int) :=
  let ballots := world.ballots
  match ballots.voteWeightSnapshot id voter with
  | some weight => .ok (ballots, weight)
  | none => do
    let createdLedger ← orFail (world.proposals.createdLedger id)
      GovernanceError.snapshotLedgerMissing
    let proven ← provenOwnBalance ballots voter (world.balance token voter) createdLedger
    return ({ ballots with
      voteWeightSnapshot := update ballots.voteWeightSnapshot id
        (update (ballots.voteWeightSnapshot id) voter (some proven)) }, proven)

def countedWeight (parameters : Parameters) (raw : Int) : Result Int :=
  if isQuadraticVotingEnabled parameters then orFail (isqrt raw) .trap else .ok raw

def addVote (proposal : GovernanceProposal) (support : Bool) (weight : Int) : GovernanceProposal :=
  if support then { proposal with votesFor := saturate i128 (proposal.votesFor + weight) }
  else { proposal with votesAgainst := saturate i128 (proposal.votesAgainst + weight) }

def recordVote (ballots : BallotStore) (id : Nat) (voter : Address) (weight : Int) : BallotStore :=
  { ballots with
    hasVoted := update ballots.hasVoted id (update (ballots.hasVoted id) voter true)
    appliedVoteWeight := update ballots.appliedVoteWeight id
      (update (ballots.appliedVoteWeight id) voter (some weight))
    voteReceipt := update ballots.voteReceipt id
      (update (ballots.voteReceipt id) voter (some weight)) }

def castVote (env : Env contract) (world : World) (voter : Address) (id : Nat) (support : Bool) :
    Result World := do
  requireAuth env voter
  let proposal ← loadProposal world id
  require (¬ world.clock.timestamp ≥ proposal.votingEnd) GovernanceError.votingEnded
  require (proposal.status = .active) GovernanceError.proposalNotActive
  require (¬ (world.ballots.hasVoted id voter = true ∨ (world.ballots.voteReceipt id voter).isSome =
    true))
    GovernanceError.alreadyVoted
  let token ← getGovToken world.parameters
  let (ballots, own) ← ownWeight world token voter id
  -- a voter that delegates its own weight away still counts it here
  let delegated := (world.delegations.delegatedToMe voter).getD 0
  let weight ← countedWeight world.parameters (saturate i128 (own + delegated))
  require (weight ≠ 0) GovernanceError.noVotingPower
  return saveProposal { world with ballots := recordVote ballots id voter weight }
    (addVote proposal support weight)

end IlnGovernance
