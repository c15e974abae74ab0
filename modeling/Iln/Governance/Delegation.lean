import Iln.Governance.Parameters

/-! Balance checkpoints and vote delegation. `Delegation` points forward, `Delegators` is the
reverse adjacency and `DelegatedToMe` a running tally at the end of each chain. Forward walks are
bounded by the maximum depth, the traversal of the predecessors by the host's budget. -/
namespace IlnGovernance

open Outcome FixedWidth Function
open InvoiceLiquidity (Address Balances Clock)

variable {contract : Address}

/-- Record the live balance. An older checkpoint moves to the single prior slot; a refresh in
the same ledger overwrites. -/
def checkpointBalance (env : Env contract) (world : World) (voter : Address) : Result World := do
  requireAuth env voter
  let token ← getGovToken world.parameters
  let ballots := world.ballots
  let prior :=
    match ballots.balanceCheckpoint voter with
    | some old =>
      if old.ledger < world.clock.sequence then
        update ballots.priorBalanceCheckpoint voter (some old)
      else ballots.priorBalanceCheckpoint
    | none => ballots.priorBalanceCheckpoint
  return { world with
    ballots := { ballots with
      priorBalanceCheckpoint := prior
      balanceCheckpoint :=
        update ballots.balanceCheckpoint voter
          (some ⟨world.balance token voter, world.clock.sequence⟩) } }

/-- The newest of the two checkpoints that is old enough at `refLedger`; the prior slot wins a
tie. -/
def eligibleCheckpoint (ballots : BallotStore) (voter : Address) (refLedger : Nat) :
    Option BalanceCheckpoint :=
  let aged := fun checkpoint : BalanceCheckpoint =>
    decide (addCapped u32Max checkpoint.ledger minVoteHoldLedgers ≤ refLedger)
  match (ballots.balanceCheckpoint voter).filter aged, (ballots.priorBalanceCheckpoint
    voter).filter aged with
  | some latest, some prior => if prior.ledger ≥ latest.ledger then some prior else some latest
  | some latest, none => some latest
  | none, found => found

def provenOwnBalance (ballots : BallotStore) (voter : Address) (current : Int) (refLedger : Nat) :
    Result Int := do
  let checkpoint ← orFail (eligibleCheckpoint ballots voter refLedger)
    GovernanceError.insufficientHoldingPeriod
  return min checkpoint.balance current

def resolveTerminal (delegation : Address → Option Address) :
    (bound : Nat) → (current : Address) → Address
  | 0, current => current
  | bound + 1, current =>
    match delegation current with
    | some next => resolveTerminal delegation bound next
    | none => current

def forwardDelegationDepth (delegation : Address → Option Address) :
    (bound : Nat) → (current : Address) → Nat
  | 0, _ => 0
  | bound + 1, current =>
    match delegation current with
    | some next => forwardDelegationDepth delegation bound next + 1
    | none => 0

/-- The walk that refuses to close a cycle: fails when the chain from `cursor` meets `delegator`, or
is longer than the remaining hops. -/
def checkCycle (delegation : Address → Option Address) (delegator : Address) :
    (hops : Nat) → (cursor : Option Address) → Result Unit
  | _, none => .ok ()
  | 0, some next =>
    if next = delegator then .error GovernanceError.delegationCyclePrevented
    else .error GovernanceError.maxDelegationDepthExceeded
  | hops + 1, some next =>
    if next = delegator then .error GovernanceError.delegationCyclePrevented
    else checkCycle delegation delegator hops (delegation next)

def inboundBest (best : Address → Option Nat) (predecessors : List Address) : Nat :=
  predecessors.foldl
    (fun longest predecessor => max longest (addCapped u32Max ((best predecessor).getD 0) 1)) 0

/-- The explicit stack of `longest_inbound_depth`, top first. A node is met twice: first it pushes
its predecessors, then it takes its length from theirs. -/
def inboundLoop (delegators : Address → List Address) :
    (budget : Nat) → (best : Address → Option Nat) → List (Address × Bool) →
      Option (Address → Option Nat)
  | _, best, [] => some best
  | 0, _, _ :: _ => none
  | budget + 1, best, (node, true) :: stack =>
    inboundLoop delegators budget (update best node (some (inboundBest best (delegators node))))
      stack
  | budget + 1, best, (node, false) :: stack =>
    if (best node).isSome then inboundLoop delegators budget best stack
    else
      let pushed := (delegators node).filter fun predecessor => (best predecessor).isNone
      inboundLoop delegators budget best
        (pushed.reverse.map (fun predecessor => (predecessor, false)) ++ (node, true) :: stack)

def longestInboundDepth (env : Env contract) (delegators : Address → List Address)
    (start : Address) :
    Result Nat := do
  let best ← orFail (inboundLoop delegators env.budget (fun _ => none) [(start, false)]) .trap
  return (best start).getD 0

def addDelegator (delegations : DelegationStore) (delegate delegator : Address) : DelegationStore :=
  if delegator ∈ delegations.delegators delegate then delegations
  else
    { delegations with
      delegators := update delegations.delegators delegate
        (delegations.delegators delegate ++ [delegator]) }

def removeDelegator (delegations : DelegationStore) (delegate delegator : Address) :
    DelegationStore :=
  { delegations with
    delegators := update delegations.delegators delegate
      ((delegations.delegators delegate).filter fun item => item ≠ delegator) }

def adjustDelegatedToMe (delegations : DelegationStore) (address : Address) (delta : Int) :
    DelegationStore :=
  let updated := saturate i128 ((delegations.delegatedToMe address).getD 0 + delta)
  { delegations with
    delegatedToMe := update delegations.delegatedToMe address
      (if updated ≤ 0 then none else some updated) }

def withdrawFrom (depth : Nat) (delegations : DelegationStore) (delegator oldDelegate : Address)
    (weight : Int) : Result DelegationStore := do
  let oldTerminal := resolveTerminal delegations.delegation depth oldDelegate
  let delta ← orFail (checked i128 (-weight)) .trap
  return removeDelegator (adjustDelegatedToMe delegations oldTerminal delta) oldDelegate delegator

def withdrawStanding (depth : Nat) (delegations : DelegationStore) (delegator : Address)
    (weight : Int) : Result DelegationStore :=
  match delegations.delegation delegator with
  | some oldDelegate => withdrawFrom depth delegations delegator oldDelegate weight
  | none => .ok delegations

def delegateVotes (env : Env contract) (world : World) (delegator delegate : Address) :
    Result World := do
  requireAuth env delegator
  require (delegator ≠ delegate) GovernanceError.cannotDelegateToSelf
  let token ← getGovToken world.parameters
  let proven ← provenOwnBalance world.ballots delegator (world.balance token delegator)
    world.clock.sequence
  let delegations := world.delegations
  let maxDepth := getMaxDelegationDepth world.parameters
  checkCycle delegations.delegation delegator maxDepth (delegations.delegation delegate)
  let downstream := forwardDelegationDepth delegations.delegation maxDepth delegate
  -- the host meters every hop of the walk
  require (downstream ≤ env.budget) .trap
  let upstream ← longestInboundDepth env delegations.delegators delegator
  require (¬ addCapped u32Max (addCapped u32Max upstream 1) downstream > maxDepth)
    GovernanceError.maxDelegationDepthExceeded
  let terminal := resolveTerminal delegations.delegation maxDepth delegate
  -- the balance proven now is withdrawn, not what was credited then
  let withdrawn ← withdrawStanding maxDepth delegations delegator proven
  let pointed :=
    { withdrawn with delegation := update withdrawn.delegation delegator (some delegate) }
  return { world with
    delegations := adjustDelegatedToMe (addDelegator pointed delegate delegator) terminal proven }

/-- Undelegating takes back the live balance, whatever was credited. -/
def undelegateVotes (env : Env contract) (world : World) (delegator : Address) : Result World := do
  requireAuth env delegator
  match world.delegations.delegation delegator with
  | some oldDelegate => do
    let token ← getGovToken world.parameters
    let withdrawn ← withdrawFrom (getMaxDelegationDepth world.parameters) world.delegations
      delegator oldDelegate (world.balance token delegator)
    return { world with
      delegations := { withdrawn with delegation := update withdrawn.delegation delegator none } }
  | none => .ok world

end IlnGovernance
