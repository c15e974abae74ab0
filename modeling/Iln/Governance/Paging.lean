import Iln.Foundation.Paging
import Iln.Governance.Lifecycle

/-! `list_proposals` and the reader who pages through it. The entry point walks down from the
cursor, or from the counter of proposals, and stops when the page is full, so every page is the
beginning of what the cursor leaves. -/
namespace IlnGovernance

open Transition Paging
open InvoiceLiquidity (Balances Clock)

variable {contract : InvoiceLiquidity.Address}

def matchesStatus (status : Option ProposalStatus) (proposal : GovernanceProposal) : Bool :=
  match status with
  | some wanted => decide (proposal.status = wanted)
  | none => true

/-- The loop of `list_proposals` over the numbers from `startId` down to one. -/
def collectPage (stored : Nat → Option GovernanceProposal) (status : Option ProposalStatus)
    (pageSize : Nat) :
    (startId : Nat) → (result : List GovernanceProposal) → List GovernanceProposal
  | 0, result => result
  | id + 1, result =>
    match stored (id + 1) with
    | none => collectPage stored status pageSize id result
    | some proposal =>
      if matchesStatus status proposal = true then
        if (result ++ [proposal]).length = pageSize then result ++ [proposal]
        else collectPage stored status pageSize id (result ++ [proposal])
      else collectPage stored status pageSize id result

def maxPageSize : Nat := 20

def listProposals (world : World) (status : Option ProposalStatus) (cursor : Option Nat)
    (pageSize : Nat) : List GovernanceProposal :=
  let count := world.parameters.proposalCount.getD 0
  if count = 0 ∨ pageSize = 0 then []
  else
    let actualPageSize := if pageSize > maxPageSize then maxPageSize else pageSize
    match cursor with
    | none => collectPage world.proposals.proposal status actualPageSize count []
    | some last =>
      if last ≤ 1 then []
      else collectPage world.proposals.proposal status actualPageSize (min (last - 1) count) []

section Pages

def matching (stored : Nat → Option GovernanceProposal) (status : Option ProposalStatus)
    (id : Nat) : Option GovernanceProposal :=
  (stored id).filter (matchesStatus status)

theorem matching_eq_some {stored : Nat → Option GovernanceProposal} {status : Option ProposalStatus}
    {id : Nat} {proposal : GovernanceProposal} :
    matching stored status id = some proposal ↔ stored id = some proposal ∧
      matchesStatus status proposal = true :=
  Option.filter_eq_some_iff

variable {stored : Nat → Option GovernanceProposal} {status : Option ProposalStatus}
  {pageSize : Nat}

theorem collectPage_eq (startId : Nat) {result : List GovernanceProposal}
    (room : result.length < pageSize) :
    collectPage stored status pageSize startId result =
      result ++ (below (matching stored status) startId).take (pageSize - result.length) := by
  induction startId generalizing result with
  | zero => simp [collectPage, below]
  | succ id ih =>
    rw [collectPage, below]
    cases found : stored (id + 1) with
    | none =>
      have unlisted : matching stored status (id + 1) =
        none := by rw [matching, found, Option.filter_none]
      rw [unlisted, Option.toList_none, List.nil_append]
      exact ih room
    | some proposal =>
      dsimp only
      by_cases wanted : matchesStatus status proposal = true
      · have listed : matching stored status (id + 1) = some proposal :=
          matching_eq_some.mpr ⟨found, wanted⟩
        have left : pageSize - result.length = (pageSize - (result.length + 1)) + 1 := by omega
        rw [if_pos wanted, listed, Option.toList_some, List.singleton_append, left,
          List.take_succ_cons, List.length_append, List.length_singleton]
        split
        · rename_i full
          rw [full, Nat.sub_self, List.take_zero]
        · rename_i unfilled
          have grown : (result ++ [proposal]).length = result.length + 1 := by simp
          rw [ih (by omega), grown, List.append_assoc, List.singleton_append]
      · have unlisted : matching stored status (id + 1) = none := by
          rw [matching, found, Option.filter_some, if_neg wanted]
        rw [if_neg wanted, unlisted, Option.toList_none, List.nil_append]
        exact ih room

variable {world : World}

theorem listProposals_eq (positive : 1 ≤ pageSize) (small : pageSize ≤ maxPageSize)
    (cursor : Option Nat) :
    listProposals world status cursor pageSize =
      (below (matching world.proposals.proposal status) (cursor.elim world.count fun last =>
        min (last - 1) world.count)).take pageSize := by
  have size : (if pageSize > maxPageSize then maxPageSize else pageSize) = pageSize :=
    if_neg (by omega)
  have page : ∀ startId, collectPage world.proposals.proposal status pageSize startId [] =
      (below (matching world.proposals.proposal status) startId).take pageSize :=
    fun startId => collectPage_eq startId positive
  have blank : (below (matching world.proposals.proposal status) 0).take pageSize = [] :=
    List.take_nil
  unfold listProposals
  dsimp only
  rw [size]
  by_cases uncounted : world.parameters.proposalCount.getD 0 = 0
  · have empty : world.count = 0 := uncounted
    rw [if_pos (.inl uncounted), empty]
    cases cursor with
    | none => exact blank.symm
    | some =>
      rw [Option.elim_some, Nat.min_zero]
      exact blank.symm
  · rw [if_neg (by omega)]
    cases cursor with
    | none => exact page _
    | some last =>
      dsimp only
      split
      · rename_i first
        have nothing : min (last - 1) world.count = 0 := by omega
        rw [Option.elim_some, nothing]
        exact blank.symm
      · exact page _

end Pages

/-- Reading page after page ends, and lists every stored proposal that matches the filter once, the
highest number first. -/
theorem paging_complete (clock : Clock) (balance : Balances) (actions : List (Action contract))
    (status : Option ProposalStatus) (pageSize : Nat) (positive : 1 ≤ pageSize)
    (small : pageSize ≤ maxPageSize) :
    let world := reach clock balance actions
    ∃ listing,
      (∀ fuel, world.count < fuel →
        turnPages (fun cursor => listProposals world status cursor pageSize) GovernanceProposal.id
          fuel none = some listing) ∧
      (listing.map GovernanceProposal.id).Pairwise (· > ·) ∧
      ∀ id proposal, world.proposals.proposal id = some proposal ∧
        matchesStatus status proposal = true ↔ proposal ∈ listing ∧ proposal.id = id := by
  intro world
  have numbered : Numbered world := exec_numbered clock balance actions
  have named : ∀ id proposal, matching world.proposals.proposal status id = some proposal →
    proposal.id = id :=
    fun id proposal listed => numbered.named id proposal (matching_eq_some.mp listed).1
  refine ⟨below (matching world.proposals.proposal status) world.count, ?_,
    pairwise_below named world.count, ?_⟩
  · intro fuel enough
    refine turnPages_below named positive (listProposals_eq positive small none) ?_ fuel
      ((length_below world.count).trans_lt enough)
    intro last listed
    have bounded := key_le_of_mem named listed
    have lower : min (last.id - 1) world.count = last.id - 1 := min_eq_left (by omega)
    rw [listProposals_eq positive small, Option.elim_some, lower]
  · intro id proposal
    rw [mem_below, ← matching_eq_some]
    constructor
    · intro listed
      obtain ⟨known, _⟩ := loadProposal_eq_ok.mp (numbered.loaded (matching_eq_some.mp listed).1)
      exact ⟨⟨id, known.1, known.2, listed⟩, named id proposal listed⟩
    · rintro ⟨⟨number, _, _, listed⟩, rfl⟩
      rw [named number proposal listed]
      exact listed

def threeProposals : List (Action ⟨0⟩) :=
  [opening, signedBy [1] (.createProposal ⟨1⟩ (.updateFeeRate 100) 1 100),
    signedBy [1] (.createProposal ⟨1⟩ (.updateFeeRate 200) 1 200),
    signedBy [1] (.createProposal ⟨1⟩ (.updateFeeRate 300) 1 300)]

theorem paging_complete_of_threeProposals :
    let world := exec step (genesis ⟨0, 0⟩ fun _ _ => 1000) threeProposals
    let read := turnPages (fun cursor => listProposals world (some .active) cursor 2)
      GovernanceProposal.id 4 none
    (∃ listing, read = some listing ∧ (listing.map GovernanceProposal.id).Pairwise (· > ·)) ∧
      read.map (List.map GovernanceProposal.id) = some [3, 2, 1] := by
  obtain ⟨listing, turned, ordered, _⟩ := paging_complete ⟨0, 0⟩ (fun _ _ => 1000) threeProposals
    (some .active) 2 (by decide) (by decide)
  exact ⟨⟨listing, turned 4 (by decide +kernel), ordered⟩, by decide +kernel⟩

end IlnGovernance
