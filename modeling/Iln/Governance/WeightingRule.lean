import Iln.Governance.Lifecycle
import Iln.Governance.VoteWeight

/-! The rule that weighs a vote, linear or by the integer square root, is a setting that is read
when the vote is cast. Votes on one proposal follow one rule as long as the setting is not
switched. -/
namespace IlnGovernance

open Outcome FixedWidth Transition
open InvoiceLiquidity (Address Balances Clock)

variable {contract : Address}

def weigh (quadratic : Bool) (raw : Int) : Result Int :=
    if quadratic then orFail (isqrt raw) .trap else .ok raw

def World.quadratic (world : World) : Bool := isQuadraticVotingEnabled world.parameters

def switchesRule (world : World) : Action contract → Bool
  | .invoke env (.setQuadraticVotingEnabled enabled) =>
    (invoke env world (.setQuadraticVotingEnabled enabled)).isOk
  | _ => false

section Steps

variable {env : Env contract} {world next : World} {id : Nat} {call : Call}

theorem invoke_quadratic (ran : invoke env world call = .ok next) :
    next.quadratic = world.quadratic ∨ ∃ enabled, call = .setQuadraticVotingEnabled enabled := by
  cases invoke_effect ran with
  | quiet quiet => exact .inl (congrArg Counting.quadratic quiet.counting)
  | opened _ counting | deepened _ counting | supplied counting | created counting =>
    exact .inl (congrArg Counting.quadratic counting :)
  | switched => exact .inr ⟨_, rfl⟩
  | voted _ voted => exact .inl (congrArg Counting.quadratic voted.counting :)
  | delegated ran =>
    obtain ⟨_, _, _, _, _, _, _, _, rfl⟩ := delegateVotes_spec ran
    exact .inl rfl
  | undelegated ran =>
    obtain ⟨_, ⟨_, rfl⟩ | ⟨_, _, _, _, _, _, rfl⟩⟩ := undelegateVotes_spec ran
    all_goals exact .inl rfl

theorem step_quadratic (action : Action contract) (steady : switchesRule world action = false) :
    (step world action).quadratic = world.quadratic := by
  cases finished : succeeds world action with
  | false => rw [step_of_failed finished]
  | true =>
    cases action with
    | invoke =>
      rcases invoke_quadratic (invoke_of_succeeds finished) with same | ⟨_, rfl⟩
      · exact same
      · simp only [switchesRule] at steady
        cases steady.symm.trans finished
    | transfer | advance | archiveVote | archiveApprovals => rfl

/-- The receipt of a vote is the weight, under the rule in force, of the voter's snapshot and
tally. -/
theorem castVote_weighs {voter : Address} {support : Bool}
    (ran : castVote env world voter id support = .ok next) :
    ∃ own weight, next.ballots.voteWeightSnapshot id voter = some own ∧
      next.ballots.voteReceipt id voter = some weight ∧
      weigh world.quadratic (saturate i128 (own + (world.delegations.delegatedToMe voter).getD 0)) =
        .ok weight := by
  obtain ⟨_, _, _, _, own, weight, _, _, _, _, _, owned, weighed, _, rfl⟩ := castVote_spec ran
  refine ⟨own, weight, ?_, ?_, weighed⟩
  · rcases ownWeight_spec owned with ⟨stored, rfl⟩ | ⟨_, rfl⟩
    · exact stored
    · simp [saveProposal, recordVote]
  · simp [saveProposal, recordVote]

end Steps

/-- Every counted vote is weighted by the rule in force when it is cast. It is the rule that was in
force at an earlier point of the run, such as the creation of the proposal, if no call in between
has set the rule. -/
theorem vote_weighed_by_rule_in_force (clock : Clock) (balance : Balances)
    (past between : List (Action contract)) (env : Env contract) (voter : Address) (id : Nat)
    (support : Bool) (counted : succeeds (reach clock balance (past ++ between))
      (.invoke env (.castVote voter id support)) = true) :
    let created := reach clock balance past
    let world := reach clock balance (past ++ between)
    let next := step world (.invoke env (.castVote voter id support))
    ∃ own weight, next.ballots.voteWeightSnapshot id voter = some own ∧
      next.ballots.voteReceipt id voter = some weight ∧
      weigh world.quadratic (saturate i128 (own + (world.delegations.delegatedToMe voter).getD 0)) =
        .ok weight ∧
      (Along step (fun world action => switchesRule world action = false) created between →
        weigh created.quadratic
          (saturate i128 (own + (world.delegations.delegatedToMe voter).getD 0)) = .ok weight) := by
  obtain ⟨own, weight, snapshot, receipt, weighed⟩ :=
    castVote_weighs (invokeWorld_of_invoke (invoke_of_succeeds counted) rfl)
  refine ⟨own, weight, snapshot, receipt, weighed, fun steady => ?_⟩
  have same : (reach clock balance (past ++ between)).quadratic =
      (reach clock balance past).quadratic := by
    rw [reach, exec_append]
    exact invariant_along (fun world : World => world.quadratic =
      (reach clock balance past).quadratic)
      (fun _ action held met => (step_quadratic action met).trans held) rfl steady
  rw [← same]
  exact weighed

theorem vote_weighed_by_rule_in_force_linear :
    let world := convened (openedBallot ++ [signedBy [2] (.castVote ⟨2⟩ 1 true)])
    succeeds world (signedBy [3] (.castVote ⟨3⟩ 1 true)) = true ∧
      ∃ own weight, weigh world.quadratic
          (saturate i128 (own + (world.delegations.delegatedToMe ⟨3⟩).getD 0)) = .ok weight ∧
        (step world (signedBy [3] (.castVote ⟨3⟩ 1 true))).ballots.voteReceipt 1 ⟨3⟩ =
          some weight := by
  refine ⟨by decide +kernel, ?_⟩
  obtain ⟨own, weight, _, receipt, weighed, _⟩ :=
    vote_weighed_by_rule_in_force ⟨1000, 10⟩ holdings openedBallot
      [signedBy [2] (.castVote ⟨2⟩ 1 true)] (plainHost ⟨0⟩ [⟨3⟩]) ⟨3⟩ 1 true (by decide +kernel)
  exact ⟨own, weight, weighed, receipt⟩

/-- The rule is switched while the vote is open: one voter counts with all of 1900, the next with
the root of 100. -/
theorem votes_under_two_rules :
    let world := convened (openedBallot ++ [signedBy [2] (.castVote ⟨2⟩ 1 true),
        signedBy [5] (.setQuadraticVotingEnabled true), signedBy [3] (.castVote ⟨3⟩ 1 true)])
    (convened openedBallot).quadratic = false ∧
      world.ballots.voteWeightSnapshot 1 ⟨2⟩ = some 400 ∧
      world.delegations.delegatedToMe ⟨2⟩ = some 1500 ∧
      world.ballots.voteReceipt 1 ⟨2⟩ = some 1900 ∧
      world.ballots.voteWeightSnapshot 1 ⟨3⟩ = some 100 ∧
      world.delegations.delegatedToMe ⟨3⟩ = none ∧ world.ballots.voteReceipt 1 ⟨3⟩ = some 10 := by
  decide +kernel

end IlnGovernance
