import Iln.Foundation.Backing
import Iln.Governance.Effect

/-! Vote weight against the token supply. Every holder's tokens are attributed to the end of the
holder's delegation chain. As long as a counted holder keeps its tokens and its place in the graph,
the receipts of one proposal are backed by disjoint sets of accounts and add up to at most the
supply. -/
namespace IlnGovernance

open Outcome FixedWidth Transition Backing Function
open InvoiceLiquidity (Address Balances Clock move)

variable {contract : Address} {holder : Address} {world next : World} {value : Option Address}
variable {delegate delegator source target : Address} {counting : Counting} {env : Env contract}
variable {later : DelegationStore} {delegations : DelegationStore}

theorem resolveTerminal_update {delegation : Address → Option Address} {changed : Address}
    (unreferenced : ∀ other, delegation other ≠ some changed) (bound : Nat) {start : Address}
    (elsewhere : start ≠ changed) :
    resolveTerminal (update delegation changed value) bound start =
      resolveTerminal delegation bound start := by
  induction bound generalizing start with
  | zero => rfl
  | succ bound ih =>
    simp only [resolveTerminal, update_of_ne elsewhere]
    cases next : delegation start with
    | none => rfl
    | some next' =>
      have away : next' ≠ changed := fun met => unreferenced start (met ▸ next)
      exact ih away

/-- Where the weight of a delegating holder is tallied. -/
def Counting.terminal (counting : Counting) (holder : Address) : Option Address :=
  (counting.delegations.delegation holder).map
    (resolveTerminal counting.delegations.delegation counting.depth)

theorem Counting.terminal_none
    (direct : counting.delegations.delegation holder = none) : counting.terminal holder = none := by
  simp [Counting.terminal, direct]

theorem Counting.terminal_update {changed : Address}
    (pointers : later.delegation = update counting.delegations.delegation changed value)
    (unreferenced : ∀ other, counting.delegations.delegation other ≠ some changed)
    (other : holder ≠ changed) :
    Counting.terminal { counting with delegations := later } holder = counting.terminal holder := by
  simp only [Counting.terminal, pointers, update_of_ne other]
  cases next : counting.delegations.delegation holder with
  | none => rfl
  | some next' =>
    have away : next' ≠ changed := fun met => unreferenced holder (met ▸ next)
    simp only [Option.map_some, resolveTerminal_update unreferenced counting.depth away]

theorem adjustDelegatedToMe_le (delegations : DelegationStore) (address : Address) (delta : Int) :
    ((adjustDelegatedToMe delegations address delta).delegatedToMe address).getD 0 ≤
      max 0 ((delegations.delegatedToMe address).getD 0 + delta) := by
  simp only [adjustDelegatedToMe, update_self]
  split
  · exact le_max_left _ _
  · exact saturate_le_of_le (i128.nonpos.trans (le_max_left _ _)) (le_max_right _ _)

theorem adjustDelegatedToMe_other (delegations : DelegationStore) {address other : Address}
    (delta : Int) (distinct : other ≠ address) :
    (adjustDelegatedToMe delegations address delta).delegatedToMe other =
      delegations.delegatedToMe other :=
  update_of_ne distinct _ _

theorem mem_removeDelegator
    (listed : source ∈ delegations.delegators target) (kept : source ≠ delegator) :
    source ∈ (removeDelegator delegations delegate delegator).delegators target := by
  by_cases here : target = delegate
  · subst here
    simp [removeDelegator, listed, kept]
  · simpa [removeDelegator, update_of_ne here] using listed

theorem removeDelegator_alone {delegate delegator holder : Address}
    (alone : delegations.delegators holder = []) :
    (removeDelegator delegations delegate delegator).delegators holder = [] := by
  by_cases here : holder = delegate
  · subst here
    simp [removeDelegator, alone]
  · simpa [removeDelegator, update_of_ne here] using alone

theorem mem_addDelegator
    (listed : source ∈ delegations.delegators target ∨ source = delegator ∧ target = delegate) :
    source ∈ (addDelegator delegations delegate delegator).delegators target := by
  unfold addDelegator
  split
  · rename_i present
    rcases listed with listed | ⟨rfl, rfl⟩
    · exact listed
    · exact present
  · by_cases here : target = delegate
    · subst here
      rcases listed with listed | ⟨rfl, _⟩ <;> simp [*]
    · rcases listed with listed | ⟨_, same⟩
      · simpa [update_of_ne here] using listed
      · exact absurd same here

section Attribution

/-- Tallies are backed by the accounts whose chain ends at the tallied address, and a receipt on the
proposal by the voter's own account and those. A voter on the proposal has not delegated. -/
structure Attributed (contract : Address) (proposal : Nat) (counting : Counting)
    (balance : Address → Int) :
    Prop where
  tallied : ∀ target, Backed balance (fun holder => counting.terminal holder = some target)
    ((counting.delegations.delegatedToMe target).getD 0)
  counted : ∀ voter weight, counting.receipt proposal voter = some weight →
    Backed balance (fun holder => holder = voter ∨ counting.terminal holder = some voter) weight
  casting : ∀ voter weight, counting.receipt proposal voter = some weight →
    counting.delegations.delegation voter = none
  listed : ∀ source target, counting.delegations.delegation source = some target →
    source ∈ counting.delegations.delegators target
  direct : counting.delegations.delegation contract = none
  uncast : counting.receipt proposal contract = none

variable {proposal : Nat} {balance : Address → Int}

theorem Attributed.spend (attributed : Attributed contract proposal counting balance)
    {source target : Address} {amount : Int}
    (direct : counting.delegations.delegation source = none)
    (uncast : counting.receipt proposal source = none) (nonneg : 0 ≤ amount) :
    Attributed contract proposal counting (shift balance source target amount) := by
  -- every claim is about accounts other than the sender
  have gains : ∀ holder, holder ≠ source → balance holder ≤
      shift balance source target amount holder := by
    intro holder other
    simp only [Backing.shift, if_neg other]
    split <;> omega
  have attributedElsewhere : ∀ holder next, counting.terminal holder = some next →
      holder ≠ source := by
    rintro holder next ends rfl
    rw [Counting.terminal_none direct] at ends
    cases ends
  refine { attributed with
    tallied := fun tallied => ?_
    counted := fun voter weight receipt => ?_ }
  · exact (attributed.tallied tallied).mono (fun _ ends => ends)
      (fun holder ends => gains holder (attributedElsewhere holder _ ends)) le_rfl
  · refine (attributed.counted voter weight receipt).mono (fun _ claim => claim)
      (fun holder claim => ?_) le_rfl
    refine gains holder ?_
    rcases claim with rfl | ends
    · rintro rfl
      rw [uncast] at receipt
      cases receipt
    · exact attributedElsewhere holder _ ends

theorem Attributed.vote (attributed : Attributed contract proposal counting balance)
    {voter : Address} {id : Nat} {own weight : Int} (signer : voter ≠ contract)
    (direct : id = proposal → counting.delegations.delegation voter = none)
    (held : id = proposal → own ≤ balance voter)
    (weighed : weight = saturate i128 (own + (counting.delegations.delegatedToMe voter).getD 0)) :
    Attributed contract proposal
      { counting with receipt := update counting.receipt id (update (counting.receipt id) voter
        (some weight)) }
      balance := by
  by_cases here : id = proposal
  · subst here
    have mine := direct rfl
    have backed : Backed balance (fun holder => holder = voter ∨
        counting.terminal holder = some voter) weight := by
      have limit : weight ≤ max 0 (own + (counting.delegations.delegatedToMe voter).getD 0) := by
        rw [weighed]
        exact saturate_le_of_le (i128.nonpos.trans (le_max_left _ _)) (le_max_right _ _)
      -- saturation can only bring a sum below the range up to a negative bound
      rcases le_max_iff.mp limit with nonpos | within
      · exact .of_nonpos nonpos
      · have outside : ¬ counting.terminal voter = some voter := by
          simp [Counting.terminal_none mine]
        refine ((attributed.tallied voter).join outside (held rfl)).mono (fun _ claim => claim)
          (fun _ _ => le_rfl) ?_
        omega
    refine { attributed with
      counted := fun caster counted receipt => ?_
      casting := fun caster counted receipt => ?_
      uncast := ?_ }
    · by_cases same : caster = voter
      · subst same
        simp only [update_self, Option.some.injEq] at receipt
        subst receipt
        exact backed
      · simp only [update_self, update_of_ne same] at receipt
        exact attributed.counted caster counted receipt
    · by_cases same : caster = voter
      · exact same ▸ mine
      · simp only [update_self, update_of_ne same] at receipt
        exact attributed.casting caster counted receipt
    · simpa only [update_self, update_of_ne signer.symm] using attributed.uncast
  · have same : update counting.receipt id (update (counting.receipt id) voter (some weight))
        proposal = counting.receipt proposal := update_of_ne (Ne.symm here) _ _
    exact { attributed with
      counted := fun caster counted receipt => attributed.counted caster counted (same ▸ receipt)
      casting := fun caster counted receipt => attributed.casting caster counted (same ▸ receipt)
      uncast := (congrFun same contract).trans attributed.uncast }

variable {holder : Address}

variable (attributed : Attributed contract proposal counting balance)
include attributed

theorem Attributed.unreferenced (alone : counting.delegations.delegators holder = []) :
    ∀ other, counting.delegations.delegation other ≠ some holder := by
  intro other points
  have member := attributed.listed other holder points
  rw [alone] at member
  cases member

theorem Attributed.withdraw (nonneg : ∀ account, 0 ≤ balance account) {old : Address}
    (points : counting.delegations.delegation holder = some old)
    (alone : counting.delegations.delegators holder = [])
    (uncounted : ∀ target, counting.terminal holder = some target →
      counting.receipt proposal target = none)
    (pointers : later.delegation = update counting.delegations.delegation holder none)
    (tallies : later.delegatedToMe = (adjustDelegatedToMe counting.delegations
      (resolveTerminal counting.delegations.delegation counting.depth old)
      (-balance holder)).delegatedToMe)
    (lists : later.delegators = (removeDelegator counting.delegations old holder).delegators) :
    Attributed contract proposal { counting with delegations := later } balance := by
  have unreferenced := attributed.unreferenced alone
  have ends : counting.terminal holder =
      some (resolveTerminal counting.delegations.delegation counting.depth old) := by
    simp [Counting.terminal, points]
  have moved : ∀ account, account ≠ holder →
      Counting.terminal { counting with delegations := later } account =
        counting.terminal account :=
    fun account other => Counting.terminal_update pointers unreferenced other
  refine { attributed with
    tallied := fun target => ?_
    counted := fun voter weight receipt => ?_
    casting := fun voter weight receipt => ?_
    listed := fun source target pointed => ?_
    direct := ?_ }
  · by_cases here : target = resolveTerminal counting.delegations.delegation counting.depth old
    · refine ((attributed.tallied target).leave nonneg holder).mono (fun account claim => ?_)
        (fun _ _ => le_rfl) ?_
      · exact (moved account claim.2).trans claim.1
      · rw [tallies, here, Int.sub_eq_add_neg]
        exact adjustDelegatedToMe_le _ _ _
    · refine (attributed.tallied target).mono (fun account claim => ?_) (fun _ _ => le_rfl) ?_
      · have other : account ≠ holder := by
          rintro rfl
          exact here (Option.some.inj (claim.symm.trans ends))
        exact (moved account other).trans claim
      · rw [tallies, adjustDelegatedToMe_other _ _ here]
  · refine (attributed.counted voter weight receipt).mono (fun account claim => ?_)
      (fun _ _ => le_rfl) le_rfl
    refine claim.imp_right fun chain => ?_
    -- the delegator stands behind no receipt, for its terminal has not voted
    have other : account ≠ holder := by
      rintro rfl
      rw [uncounted voter chain] at receipt
      cases receipt
    exact (moved account other).trans chain
  · have before := attributed.casting voter weight receipt
    by_cases here : voter = holder
    · rw [here, points] at before
      cases before
    · rw [pointers, update_of_ne here, before]
  · have other : source ≠ holder := by
      rintro rfl
      rw [pointers, update_self] at pointed
      cases pointed
    rw [pointers, update_of_ne other] at pointed
    rw [lists]
    exact mem_removeDelegator (attributed.listed source target pointed) other
  · rw [pointers]
    by_cases here : contract = holder
    · rw [here, update_self]
    · rw [update_of_ne here]
      exact attributed.direct

theorem Attributed.entrust (signer : holder ≠ contract)
    (direct : counting.delegations.delegation holder = none)
    (alone : counting.delegations.delegators holder = [])
    (uncast : counting.receipt proposal holder = none) {delegate : Address}
    (distinct : holder ≠ delegate) {weight : Int} (held : weight ≤ balance holder)
    (pointers : later.delegation = update counting.delegations.delegation holder (some delegate))
    (tallies : later.delegatedToMe = (adjustDelegatedToMe counting.delegations
      (resolveTerminal counting.delegations.delegation counting.depth delegate)
        weight).delegatedToMe)
    (lists : later.delegators = (addDelegator counting.delegations delegate holder).delegators) :
    Attributed contract proposal { counting with delegations := later } balance := by
  have unreferenced := attributed.unreferenced alone
  have ends : Counting.terminal { counting with delegations := later } holder =
      some (resolveTerminal counting.delegations.delegation counting.depth delegate) := by
    simp only [Counting.terminal, pointers, update_self, Option.map_some]
    rw [resolveTerminal_update unreferenced _ distinct.symm]
  have moved : ∀ account target, counting.terminal account = some target →
      Counting.terminal { counting with delegations := later } account = some target := by
    intro account target chain
    have other : account ≠ holder := by
      rintro rfl
      rw [Counting.terminal_none direct] at chain
      cases chain
    rw [← chain]
    exact Counting.terminal_update pointers unreferenced other
  refine { attributed with
    tallied := fun target => ?_
    counted := fun voter weight receipt => ?_
    casting := fun voter weight receipt => ?_
    listed := fun source target pointed => ?_
    direct := ?_ }
  · by_cases here : target = resolveTerminal counting.delegations.delegation counting.depth delegate
    -- the delegator joins the accounts behind the terminal
    · have fresh : ¬ counting.terminal holder = some target := by
        simp [Counting.terminal_none direct]
      have limit : (later.delegatedToMe target).getD 0 ≤
          max 0 ((counting.delegations.delegatedToMe target).getD 0 + weight) := by
        rw [tallies, here]
        exact adjustDelegatedToMe_le _ _ _
      rcases le_max_iff.mp limit with nonpos | within
      · exact .of_nonpos nonpos
      · refine ((attributed.tallied target).join fresh held).mono (fun account claim => ?_)
          (fun _ _ => le_rfl) within
        rcases claim with rfl | chain
        · exact here ▸ ends
        · exact moved account target chain
    · refine (attributed.tallied target).mono (fun account => moved account target)
        (fun _ _ => le_rfl) ?_
      rw [tallies, adjustDelegatedToMe_other _ _ here]
  · exact (attributed.counted voter weight receipt).mono
      (fun account claim => claim.imp_right (moved account voter)) (fun _ _ => le_rfl) le_rfl
  · have other : voter ≠ holder := by
      rintro rfl
      rw [uncast] at receipt
      cases receipt
    rw [pointers, update_of_ne other]
    exact attributed.casting voter weight receipt
  · rw [lists]
    refine mem_addDelegator ?_
    by_cases here : source = holder
    · rw [pointers, here, update_self, Option.some.injEq] at pointed
      exact .inr ⟨here, pointed.symm⟩
    · rw [pointers, update_of_ne here] at pointed
      exact .inl (attributed.listed source target pointed)
  · rw [pointers, update_of_ne signer.symm]
    exact attributed.direct

end Attribution

section Runs

def CountedOnce (proposal : Nat) (world : World) : Prop :=
  ∀ supply ∈ world.parameters.govTokenTotalSupply, ∀ voters : Finset Address,
    ∑ voter ∈ voters, (world.ballots.voteReceipt proposal voter).getD 0 ≤ supply

/-- The token moves no more than the sender has. -/
def Env.Lawful (env : Env contract) : Prop :=
  ∀ balance token source target amount, env.transferReturns balance token source target amount =
    true → 0 ≤ amount ∧ amount ≤ balance token source

/-- The governance token is `token`, its recorded supply `total`, and voting stays linear. -/
def Call.Linear (token : Address) (total : Int) : Call → Prop
  | .initializeContract _ _ _ govToken _ supply => govToken = token ∧ supply = total
  | .setGovTokenTotalSupply supply => supply = total
  | .setQuadraticVotingEnabled enabled => enabled = false
  | _ => True

def Action.Linear (token : Address) (total : Int) : Action contract → Prop
  | .invoke env call => env.Lawful ∧ call.Linear token total
  | _ => True

def World.Committed (world : World) (proposal : Nat) (holder : Address) : Prop :=
  (world.ballots.voteReceipt proposal holder).isSome = true ∨
    ∃ target ∈ world.counting.terminal holder, (world.ballots.voteReceipt proposal target).isSome =
      true

def World.Unengaged (world : World) (proposal : Nat) (holder : Address) : Prop :=
  world.delegations.delegation holder = none ∧ world.ballots.voteReceipt proposal holder = none

instance (world : World) (proposal : Nat) (holder : Address) :
    Decidable (world.Committed proposal holder) :=
  inferInstanceAs (Decidable (_ ∨ _))

instance (world : World) (proposal : Nat) (holder : Address) :
    Decidable (world.Unengaged proposal holder) :=
  inferInstanceAs (Decidable (_ ∧ _))

/-- Tokens that stand behind a weight stay where they are: no votes by delegators or on a snapshot
above the live balance, no tokens out of engaged accounts, and no change in the delegation graph
that reaches a counted vote or someone else's chain. -/
def Accountable (proposal : Nat) (world : World) : Action contract → Prop
  | .invoke _ (.castVote voter id _) => id = proposal →
      world.delegations.delegation voter = none ∧
        ∀ token ∈ world.parameters.govToken, ∀ own ∈ world.ballots.voteWeightSnapshot id voter,
          own ≤ world.balance token voter
  | .invoke _ (.delegateVotes delegator _) =>
    ¬ world.Committed proposal delegator ∧ world.delegations.delegators delegator = [] ∧
      -- a re-delegation withdraws the proven balance, so it has to be the live one
      ((world.delegations.delegation delegator).isSome = true → ∀ token ∈ world.parameters.govToken,
        ∀ checkpoint ∈ eligibleCheckpoint world.ballots delegator world.clock.sequence,
          world.balance token delegator ≤ checkpoint.balance)
  | .invoke _ (.undelegateVotes delegator) => (world.delegations.delegation delegator).isSome =
      true → ¬ world.Committed proposal delegator ∧ world.delegations.delegators delegator = []
  | .invoke _ (.createProposal proposer _ _ _) => getMinProposalDeposit world.parameters > 0 →
      world.Unengaged proposal proposer
  | .invoke _ (.setMaxDelegationDepth depth) => depth = getMaxDelegationDepth world.parameters
  | .transfer _ source _ _ => world.Unengaged proposal source
  | _ => True

instance decidableAccountable (proposal : Nat) (world : World) (action : Action contract) :
    Decidable (Accountable proposal world action) := by
  unfold Accountable
  split <;> infer_instance

structure Accounted (contract : Address) (proposal : Nat) (token : Address) (total : Int)
    (counting : Counting) (balance : Address → Int) : Prop where
  supply : Supply balance total
  attributed : Attributed contract proposal counting balance
  linear : counting.quadratic = false
  fresh : counting.iln = none → counting.depth = defaultMaxDelegationDepth
  tokens : ∀ asset ∈ counting.token, asset = token
  stored : ∀ recorded ∈ counting.supply, recorded = total

variable {proposal : Nat} {token : Address} {total : Int}

theorem move_at (balance : Balances) (asset source target : Address) (amount : Int)
    (token : Address) :
    move balance asset source target amount token =
      if asset = token then shift (balance token) source target amount else balance token := by
  funext holder
  by_cases here : asset = token
  · subst here
    simp [move, Backing.shift]
  · have other : ¬ token = asset := fun same => here same.symm
    simp [move, here, other]

theorem Accounted.spend {balance : Balances}
    (accounted : Accounted contract proposal token total counting (balance token))
    {asset source target : Address} {amount : Int}
    (direct : counting.delegations.delegation source = none)
    (uncast : counting.receipt proposal source = none) (nonneg : 0 ≤ amount)
    (held : amount ≤ balance asset source) :
    Accounted contract proposal token total counting
      (move balance asset source target amount token) := by
  rw [move_at]
  split
  · rename_i here
    subst here
    exact { accounted with
      supply := accounted.supply.shift nonneg held
      attributed := accounted.attributed.spend direct uncast nonneg }
  · exact accounted

theorem Accounted.paid (lawful : env.Lawful) {balance after : Balances}
    {source : Address} (paid : Paid env source balance after)
    (accounted : Accounted contract proposal token total counting (balance token))
    (direct : counting.delegations.delegation source = none)
    (uncast : counting.receipt proposal source = none) :
    Accounted contract proposal token total counting (after token) := by
  cases paid with
  | nothing => exact accounted
  | moved asset target amount ran =>
    obtain ⟨nonneg, held⟩ := lawful _ _ _ _ _ ran
    exact accounted.spend direct uncast nonneg held

section

theorem World.uncommitted (free : ¬ world.Committed proposal holder) :
    world.ballots.voteReceipt proposal holder = none ∧
      ∀ target, world.counting.terminal holder = some target →
        world.ballots.voteReceipt proposal target = none := by
  simp only [World.Committed, not_or, Bool.not_eq_true, Option.isSome_eq_false_iff,
    Option.isNone_iff_eq_none, not_exists, not_and] at free
  exact ⟨free.1, fun target ends => free.2 target ends⟩

theorem ne_of_signed {signer : Address} (signed : env.signed signer = true) :
    signer ≠ contract := by
  rintro rfl
  rw [env.unsigned] at signed
  cases signed

theorem genesis_accounted (clock : Clock) {balance : Balances}
    (supply : Supply (balance token) total) :
    Accounted contract proposal token total (genesis clock balance).counting
      ((genesis clock balance).balance token) where
  supply := supply
  attributed := {
    tallied := fun _ => .of_nonpos le_rfl
    counted := (by rintro _ _ ⟨⟩)
    casting := (by rintro _ _ ⟨⟩)
    listed := (by rintro _ _ ⟨⟩)
    direct := rfl
    uncast := rfl }
  linear := rfl
  fresh := fun _ => rfl
  tokens := (by rintro _ ⟨⟩)
  stored := (by rintro _ ⟨⟩)

variable (accounted : Accounted contract proposal token total world.counting (world.balance token))
include accounted

theorem Accounted.voted {voter : Address} {id : Nat} {asset : Address} {own weight : Int}
    (voted : Voted world next voter id asset own weight) (signer : voter ≠ contract)
    (kept : id = proposal → world.delegations.delegation voter = none ∧
      ∀ token ∈ world.parameters.govToken, ∀ own ∈ world.ballots.voteWeightSnapshot id voter,
        own ≤ world.balance token voter) :
    Accounted contract proposal token total next.counting (next.balance token) := by
  have same : asset = token := accounted.tokens asset voted.initialised
  subst same
  have linear : isQuadraticVotingEnabled world.parameters = false := accounted.linear
  have weighed := voted.weighed
  simp only [countedWeight, linear, Bool.false_eq_true, if_false, Except.ok.injEq] at weighed
  rw [voted.counting, voted.balance]
  refine { accounted with
    attributed := accounted.attributed.vote signer (fun here => (kept here).1)
      (fun here => ?_) weighed.symm }
  rcases voted.bounded with snapshot | live
  · exact (kept here).2 asset voted.initialised own snapshot
  · exact live

theorem Accounted.undelegated {delegator : Address}
    (ran : undelegateVotes env world delegator = .ok next)
    (kept : (world.delegations.delegation delegator).isSome = true →
      ¬ world.Committed proposal delegator ∧ world.delegations.delegators delegator = []) :
    Accounted contract proposal token total next.counting (next.balance token) := by
  obtain ⟨_, ⟨_, rfl⟩ | ⟨_, asset, _, points, initialised, withdrew, rfl⟩⟩ :=
    undelegateVotes_spec ran
  · exact accounted
  · obtain ⟨_, rfl⟩ := withdrawFrom_eq_ok.mp withdrew
    have same : asset = token := accounted.tokens asset initialised
    subst same
    obtain ⟨free, alone⟩ := kept (by rw [points]; rfl)
    exact { accounted with
      attributed := accounted.attributed.withdraw accounted.supply.nonneg points alone
        (World.uncommitted free).2 rfl rfl rfl }

theorem Accounted.delegated {delegator delegate : Address}
    (ran : delegateVotes env world delegator delegate = .ok next)
    (free : ¬ world.Committed proposal delegator)
    (alone : world.delegations.delegators delegator = [])
    (whole : (world.delegations.delegation delegator).isSome = true →
      ∀ token ∈ world.parameters.govToken, ∀ checkpoint ∈ eligibleCheckpoint world.ballots delegator
        world.clock.sequence, world.balance token delegator ≤ checkpoint.balance) :
    Accounted contract proposal token total next.counting (next.balance token) := by
  obtain ⟨signed, distinct, asset, checkpoint, withdrawn, initialised, eligible, withdrew, rfl⟩ :=
    delegateVotes_spec ran
  have same : asset = token := accounted.tokens asset initialised
  subst same
  have signer := ne_of_signed signed
  obtain ⟨uncast, uncounted⟩ := World.uncommitted free
  have unmoved : resolveTerminal (update world.delegations.delegation delegator none)
      (getMaxDelegationDepth world.parameters) delegate = resolveTerminal
        world.delegations.delegation (getMaxDelegationDepth world.parameters) delegate :=
    resolveTerminal_update (accounted.attributed.unreferenced alone) _ distinct.symm
  -- the old weight, if any, is withdrawn as by `undelegate_votes`
  have cleared : withdrawn.delegation = world.delegations.delegation ∧
      withdrawn.delegators delegator = [] ∧ Attributed contract proposal { world.counting with
          delegations :=
            { withdrawn with delegation := update world.delegations.delegation delegator none } }
        (world.balance asset) := by
    cases points : world.delegations.delegation delegator with
    | none =>
      simp only [withdrawStanding, points, Except.ok.injEq] at withdrew
      subst withdrew
      rw [update_eq_self_iff.mpr points.symm]
      exact ⟨rfl, alone, accounted.attributed⟩
    | some =>
      have live : min checkpoint.balance (world.balance asset delegator) =
        world.balance asset delegator :=
        min_eq_right (whole (by rw [points]; rfl) asset initialised checkpoint eligible)
      simp only [withdrawStanding, points, live, withdrawFrom_eq_ok] at withdrew
      obtain ⟨_, rfl⟩ := withdrew
      refine ⟨rfl, ?_, accounted.attributed.withdraw accounted.supply.nonneg points alone uncounted
        rfl rfl rfl⟩
      exact removeDelegator_alone alone
  obtain ⟨pointers, stillAlone, middle⟩ := cleared
  refine { accounted with
    attributed := middle.entrust signer (update_self _ _ _) stillAlone uncast distinct
      (min_le_right checkpoint.balance (world.balance asset delegator)) ?_ ?_ ?_ }
  · simp only [adjustDelegatedToMe, addDelegator_delegation, update_idem, pointers]
  · simp only [adjustDelegatedToMe, addDelegator_delegatedToMe, World.counting, unmoved]
  · simp only [adjustDelegatedToMe, addDelegator_delegators]

theorem step_accounted {action : Action contract}
    (linear : action.Linear token total) (kept : Accountable proposal world action) :
    Accounted contract proposal token total (step world action).counting
      ((step world action).balance token) := by
  cases action with
  | advance seconds ledgers | archiveVote id voter | archiveApprovals id => exact accounted
  | transfer =>
    simp only [step, transferBetween]
    split
    · rename_i allowed
      exact accounted.spend kept.1 kept.2 allowed.2.1 allowed.2.2
    · exact accounted
  | invoke env call =>
    obtain ⟨lawful, linear⟩ := linear
    cases ran : invoke env world call with
    | error =>
      simp only [step, ran]
      exact accounted
    | ok =>
      simp only [step, ran]
      cases invoke_effect ran with
      | quiet quiet =>
        rw [quiet.counting]
        exact accounted.paid lawful quiet.paid accounted.attributed.direct
          accounted.attributed.uncast
      | created counting deposit paid =>
        rw [counting]
        obtain ⟨direct, uncast⟩ := kept deposit
        exact accounted.paid lawful paid direct uncast
      | voted signed voted =>
        have signer := ne_of_signed signed
        exact accounted.voted voted signer kept
      | delegated ran => exact accounted.delegated ran kept.1 kept.2.1 kept.2.2
      | undelegated ran => exact accounted.undelegated ran kept
      | opened uninitialised counting balance =>
        obtain ⟨rfl, rfl⟩ := linear
        -- the depth had its default before, so no chain is cut differently
        have depth := accounted.fresh uninitialised
        rw [counting, balance, ← depth]
        exact { accounted with
          attributed := { accounted.attributed with }
          fresh := (by rintro ⟨⟩)
          tokens := fun asset same => (Option.some.inj same).symm
          stored := fun recorded same => (Option.some.inj same).symm }
      | deepened initialised counting balance =>
        have same : _ = world.counting.depth := kept
        rw [counting, balance, same]
        exact accounted
      | supplied counting balance =>
        rw [counting, balance]
        exact { accounted with
          attributed := { accounted.attributed with }
          stored := fun recorded same => (Option.some.inj same).symm.trans linear }
      | switched counting balance =>
        rw [counting, balance]
        exact { accounted with attributed := { accounted.attributed with }, linear }

def World.StandsBehind (world : World) (proposal : Nat) (voter account : Address) : Prop :=
  (∃ weight, world.ballots.voteReceipt proposal voter = some weight) ∧
    (account = voter ∨ world.counting.terminal account = some voter)

omit accounted in
theorem Attributed.apart {balance : Address → Int}
    (attributed : Attributed contract proposal world.counting balance)
    {voter other account : Address} (here : world.StandsBehind proposal voter account)
    (there : world.StandsBehind proposal other account) : voter = other := by
  obtain ⟨⟨weight, receipt⟩, claim⟩ := here
  obtain ⟨⟨otherWeight, otherReceipt⟩, otherClaim⟩ := there
  have direct := Counting.terminal_none (attributed.casting voter weight receipt)
  have otherDirect := Counting.terminal_none (attributed.casting other otherWeight otherReceipt)
  rcases claim with rfl | ends
  · rcases otherClaim with same | ends
    · exact same
    · rw [direct] at ends
      cases ends
  · rcases otherClaim with rfl | otherEnds
    · rw [otherDirect] at ends
      cases ends
    · exact Option.some.inj (ends.symm.trans otherEnds)

theorem Accounted.countedOnce : CountedOnce proposal world := by
  intro recorded stored voters
  obtain rfl := accounted.stored recorded stored
  have backed : ∀ voter ∈ voters, Backed (world.balance token) (world.StandsBehind proposal voter)
      ((world.ballots.voteReceipt proposal voter).getD 0) := by
    intro voter _
    cases receipt : world.ballots.voteReceipt proposal voter with
    | none => exact .of_nonpos le_rfl
    | some weight =>
      exact (accounted.attributed.counted voter weight receipt).mono
        (fun account claim => ⟨⟨weight, receipt⟩, claim⟩) (fun _ _ => le_rfl) le_rfl
  refine accounted.supply.sum_backed_le ?_ backed
  exact fun voter _ other _ account here there => accounted.attributed.apart here there

end

/-- In a run over a token of constant supply, with linear voting and accountable steps, the weights
applied on the proposal never add up to more than the recorded supply. -/
theorem vote_weight_counted_once (contract : Address) (proposal : Nat) (token : Address)
    (total : Int) (clock : Clock) (balance : Balances) (supply : Supply (balance token) total)
    (actions : List (Action contract)) (linear : ∀ action ∈ actions, action.Linear token total)
    (accountable : Along step (Accountable proposal) (genesis clock balance) actions) :
    Throughout step (CountedOnce proposal) (genesis clock balance) actions := by
  have kept := throughout_along
    (fun world => Accounted contract proposal token total world.counting (world.balance token))
    (fun _ _ accounted both => step_accounted accounted both.1 both.2)
    (genesis_accounted clock supply) ((Along.of_forall linear).and accountable)
  exact kept.mono fun _ accounted => accounted.countedOnce

end Runs

def holdings : Balances := fun token holder =>
  if token.key = 10 then
    if holder.key = 1 then
      1500 else if holder.key = 2 then 400 else if holder.key = 3 then 100 else 0
  else 0

abbrev council : World := genesis ⟨1000, 10⟩ holdings

abbrev convened (actions : List (Action ⟨0⟩)) : World := exec step council actions

def openedBallot : List (Action ⟨0⟩) :=
  [opening, signedBy [1] (.checkpointBalance ⟨1⟩), signedBy [2] (.checkpointBalance ⟨2⟩),
    signedBy [3] (.checkpointBalance ⟨3⟩), .advance 50 10,
    signedBy [1] (.delegateVotes ⟨1⟩ ⟨2⟩),
    signedBy [1] (.createProposal ⟨1⟩ (.updateFeeRate 100) 1 100)]

def doubleVote : List (Action ⟨0⟩) :=
  openedBallot ++ [signedBy [2] (.castVote ⟨2⟩ 1 true), signedBy [1] (.castVote ⟨1⟩ 1 true)]

def sharedVote : List (Action ⟨0⟩) :=
  openedBallot ++ [signedBy [2] (.castVote ⟨2⟩ 1 true), .transfer ⟨10⟩ ⟨3⟩ ⟨4⟩ 60,
    signedBy [3] (.castVote ⟨3⟩ 1 false)]

theorem holdings_nonneg (token holder : Address) : 0 ≤ holdings token holder := by
  simp only [holdings]
  repeat' split
  all_goals decide

theorem holdings_supply : Supply (holdings ⟨10⟩) 2000 where
  nonneg account := holdings_nonneg ⟨10⟩ account
  finite := by
    refine ⟨{⟨1⟩, ⟨2⟩, ⟨3⟩}, fun account missing => ?_, by decide⟩
    obtain ⟨_⟩ := account
    simp only [Finset.mem_insert, Finset.mem_singleton, Address.mk.injEq, not_or] at missing
    simp [holdings, missing.1, missing.2.1, missing.2.2]

theorem plainHost_lawful (contract : Address) (signers : List Address) :
    (plainHost contract signers).Lawful :=
  fun _ _ _ _ _ ran => of_decide_eq_true ran

theorem signedBy_linear {signers : List Nat} {call : Call} {token : Address} {total : Int}
    (linear : call.Linear token total) : (signedBy signers call).Linear token total :=
  ⟨plainHost_lawful _ _, linear⟩

theorem openedBallot_linear : ∀ action ∈ openedBallot, action.Linear ⟨10⟩ 2000 := by
  simp only [openedBallot, List.forall_mem_cons, List.not_mem_nil, false_implies,
    implies_true, and_true]
  exact ⟨signedBy_linear ⟨rfl, rfl⟩, signedBy_linear trivial, signedBy_linear trivial,
    signedBy_linear trivial, trivial, signedBy_linear trivial, signedBy_linear trivial⟩

/-- Address 2 votes with the 1500 units of address 1 added to its own 400; address 1 then votes with
the same 1500 on the snapshot of its proposal: 3400 of 2000 units are counted. -/
theorem doubleVote_exceeds_supply :
    Supply (holdings ⟨10⟩) 2000 ∧ (∀ action ∈ doubleVote, action.Linear ⟨10⟩ 2000) ∧
      ¬ CountedOnce 1 (convened doubleVote) := by
  refine ⟨holdings_supply, List.forall_mem_append.mpr ⟨openedBallot_linear, ?_⟩, fun counted => ?_⟩
  · simp only [List.forall_mem_cons, List.not_mem_nil, false_implies, implies_true, and_true]
    exact ⟨signedBy_linear trivial, signedBy_linear trivial⟩
  · have limit := counted 2000 (by decide +kernel) {⟨1⟩, ⟨2⟩}
    revert limit
    decide +kernel

theorem vote_weight_of_sharedVote :
    (convened sharedVote).ballots.voteReceipt 1 ⟨2⟩ = some 1900 ∧
      (convened sharedVote).ballots.voteReceipt 1 ⟨3⟩ = some 40 ∧
      Throughout step (CountedOnce 1) council sharedVote := by
  refine ⟨by decide +kernel, by decide +kernel, ?_⟩
  refine vote_weight_counted_once ⟨0⟩ 1 ⟨10⟩ 2000 ⟨1000, 10⟩ holdings holdings_supply sharedVote
    (List.forall_mem_append.mpr ⟨openedBallot_linear, ?_⟩) (by decide +kernel)
  simp only [List.forall_mem_cons, List.not_mem_nil, false_implies, implies_true, and_true]
  exact ⟨signedBy_linear trivial, trivial, signedBy_linear trivial⟩

end IlnGovernance
