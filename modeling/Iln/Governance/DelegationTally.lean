import Iln.Governance.DelegationGraph
import Iln.Governance.VoteAccounting

/-! The tallies of delegated weight against the delegation graph. `delegate_votes` and
`undelegate_votes` move the balance of the caller and nothing else, so a tally is the weight of the
chains that end at its address only as long as nobody has delegated to the caller and what was
proven is the live balance. -/
namespace IlnGovernance

open Outcome FixedWidth Transition Forest Function
open InvoiceLiquidity (Address Balances Clock)

variable {contract : Address} {bound : Nat} {delegations : DelegationStore}
  {delegator delegate : Address}

section Weights

open Classical in
noncomputable def weightBehind (delegation : Address → Option Address) (balance : Address → Int)
    (holders : Finset Address) (target : Address) : Int :=
  ∑ holder ∈ holders with EndsAt delegation holder target, balance holder

variable {delegation : Address → Option Address} {balance : Address → Int}
  {holders : Finset Address}
variable {holder target : Address}

theorem weightBehind_onward (onward : delegation target ≠ none) :
    weightBehind delegation balance holders target = 0 := by
  classical
  rw [weightBehind, Finset.filter_false_of_mem fun _ _ ends => onward ends.1, Finset.sum_empty]

theorem weightBehind_nonneg (nonneg : ∀ account, 0 ≤ balance account) :
    0 ≤ weightBehind delegation balance holders target :=
  Finset.sum_nonneg fun account _ => nonneg account

theorem weightBehind_congr {changed : Address → Option Address} {later : Address → Int}
    (ends : ∀ holder ∈ holders, EndsAt changed holder target ↔ EndsAt delegation holder target)
    (kept : ∀ holder ∈ holders, later holder = balance holder) :
    weightBehind changed later holders target = weightBehind delegation balance holders target := by
  classical
  rw [weightBehind, weightBehind, Finset.filter_congr ends]
  exact Finset.sum_congr rfl fun holder member => kept holder (Finset.mem_filter.mp member).1

open Classical in
theorem weightBehind_insert (fresh : holder ∉ holders) :
    weightBehind delegation balance (insert holder holders) target =
      weightBehind delegation balance holders target +
        if EndsAt delegation holder target then balance holder else 0 := by
  simp only [weightBehind, Finset.sum_filter]
  rw [Finset.sum_insert fresh, add_comm]

open Classical in
theorem weightBehind_erase (member : holder ∈ holders) :
    weightBehind delegation balance (holders.erase holder) target =
      weightBehind delegation balance holders target -
        if EndsAt delegation holder target then balance holder else 0 := by
  simp only [weightBehind, Finset.sum_filter]
  exact Finset.sum_erase_eq_sub member

end Weights

section Tallies

structure Tallies (delegations : DelegationStore) (balance : Address → Int)
    (holders : Finset Address) : Prop where
  members : ∀ holder, holder ∈ holders ↔ delegations.delegation holder ≠ none
  tallied : ∀ target, (delegations.delegatedToMe target).getD 0 =
    weightBehind delegations.delegation balance holders target
  typed : ∀ target, (delegations.delegatedToMe target).getD 0 ≤ i128.hi

theorem resolveTerminal_endsAt {delegation : Address → Option Address} {start : Address}
    (short : ∀ hops last, follow delegation hops start = some last → hops ≤ bound) :
    EndsAt delegation start (resolveTerminal delegation bound start) := by
  induction bound generalizing start with
  | zero =>
    refine .of_none ?_
    cases step : delegation start with
    | none => rfl
    | some middle => exact absurd (short 1 middle (by simp [follow, step])) (by omega)
  | succ bound ih =>
    cases step : delegation start with
    | none =>
      rw [resolveTerminal, step]
      exact .of_none step
    | some =>
      rw [resolveTerminal, step]
      refine (endsAt_step step).mpr (ih fun hops last walk => ?_)
      have longer := short (hops + 1) last (by simpa [follow, step] using walk)
      omega

theorem adjustDelegatedToMe_same {address : Address} {delta : Int}
    (nonneg : 0 ≤ (delegations.delegatedToMe address).getD 0 + delta)
    (fits : (delegations.delegatedToMe address).getD 0 + delta ≤ i128.hi) :
    ((adjustDelegatedToMe delegations address delta).delegatedToMe address).getD 0 =
      (delegations.delegatedToMe address).getD 0 + delta := by
  have unsaturated : saturate i128 ((delegations.delegatedToMe address).getD 0 + delta) =
      (delegations.delegatedToMe address).getD 0 + delta :=
    saturate_of_fits ⟨i128.nonpos.trans nonneg, fits⟩
  simp only [adjustDelegatedToMe, update_self, unsaturated]
  split
  · rw [Option.getD_none]
    omega
  · rfl

variable {delegations later : DelegationStore} {balance : Address → Int} {holders : Finset Address}
  {holder terminal : Address}

variable (tallies : Tallies delegations balance holders)
include tallies

theorem Tallies.kept {moved : Address → Int}
    (steady : ∀ holder, delegations.delegation holder ≠ none → moved holder = balance holder) :
    Tallies delegations moved holders := by
  refine { tallies with tallied := fun target => (tallies.tallied target).trans ?_ }
  refine (weightBehind_congr (fun _ _ => Iff.rfl) fun holder member => ?_).symm
  exact steady holder ((tallies.members holder).mp member)

theorem Tallies.withdraw (nonneg : ∀ account, 0 ≤ balance account)
    {old : Address} (points : delegations.delegation holder = some old)
    (unreferenced : ∀ other, delegations.delegation other ≠ some holder)
    (ends : EndsAt delegations.delegation old terminal)
    (pointers : later.delegation = update delegations.delegation holder none)
    (counts : later.delegatedToMe = (adjustDelegatedToMe delegations terminal
      (-balance holder)).delegatedToMe) :
    Tallies later balance (holders.erase holder) := by
  have member : holder ∈ holders := by
    rw [tallies.members, points]
    exact Option.some_ne_none old
  have unmoved : ∀ target, weightBehind later.delegation balance (holders.erase holder) target =
      weightBehind delegations.delegation balance (holders.erase holder) target := by
    intro target
    rw [pointers]
    exact weightBehind_congr
      (fun other listed => endsAt_update unreferenced none (Finset.ne_of_mem_erase listed))
      fun _ _ => rfl
  have left : ∀ target, (later.delegatedToMe target).getD 0 =
        weightBehind delegations.delegation balance (holders.erase holder) target ∧
      (later.delegatedToMe target).getD 0 ≤ i128.hi := by
    intro target
    have rest : 0 ≤ weightBehind delegations.delegation balance (holders.erase holder) target :=
      weightBehind_nonneg nonneg
    have before := tallies.tallied target
    have typed := tallies.typed target
    rw [weightBehind_erase member] at rest ⊢
    by_cases here : target = terminal
    · subst here
      have credited : EndsAt delegations.delegation holder target := (endsAt_step points).mpr ends
      have held := nonneg holder
      rw [if_pos credited] at rest ⊢
      rw [counts, adjustDelegatedToMe_same (by omega) (by omega)]
      omega
    · have elsewhere : ¬ EndsAt delegations.delegation holder target :=
        fun other => here (((endsAt_step points).mp other).unique ends)
      rw [counts, adjustDelegatedToMe_other _ _ here, if_neg elsewhere]
      omega
  refine ⟨fun other => ?_, fun target => (left target).1.trans (unmoved target).symm,
    fun target => (left target).2⟩
  by_cases same : other = holder
  · simp [pointers, same]
  · rw [pointers, update_of_ne same, Finset.mem_erase, tallies.members]
    exact and_iff_right same

theorem Tallies.entrust (nonneg : ∀ account, 0 ≤ balance account)
    (direct : delegations.delegation holder = none)
    (unreferenced : ∀ other, delegations.delegation other ≠ some holder) {delegate : Address}
    (distinct : delegate ≠ holder) (ends : EndsAt delegations.delegation delegate terminal)
    (fits : (delegations.delegatedToMe terminal).getD 0 + balance holder ≤ i128.hi)
    (pointers : later.delegation = update delegations.delegation holder (some delegate))
    (counts : later.delegatedToMe = (adjustDelegatedToMe delegations terminal
      (balance holder)).delegatedToMe) :
    Tallies later balance (insert holder holders) := by
  have fresh : holder ∉ holders := by
    rw [tallies.members, not_not]
    exact direct
  have unmoved : ∀ target, weightBehind later.delegation balance holders target =
      weightBehind delegations.delegation balance holders target := by
    intro target
    rw [pointers]
    refine weightBehind_congr (fun other listed => endsAt_update unreferenced _ ?_) fun _ _ => rfl
    rintro rfl
    exact fresh listed
  have joins : ∀ target, EndsAt later.delegation holder target ↔
      EndsAt delegations.delegation delegate target := by
    intro target
    have step : later.delegation holder = some delegate := by rw [pointers, update_self]
    rw [endsAt_step step, pointers]
    exact endsAt_update unreferenced _ distinct
  have added : ∀ target, (later.delegatedToMe target).getD 0 =
        weightBehind later.delegation balance (insert holder holders) target ∧
      (later.delegatedToMe target).getD 0 ≤ i128.hi := by
    intro target
    have before := tallies.tallied target
    have typed := tallies.typed target
    rw [weightBehind_insert fresh, unmoved]
    by_cases here : target = terminal
    · subst here
      have held := nonneg holder
      have present : 0 ≤ weightBehind delegations.delegation balance holders target :=
        weightBehind_nonneg nonneg
      rw [if_pos ((joins target).mpr ends), counts, adjustDelegatedToMe_same (by omega) fits]
      omega
    · have elsewhere : ¬ EndsAt later.delegation holder target := fun other =>
        here (((joins target).mp other).unique ends)
      rw [counts, adjustDelegatedToMe_other _ _ here, if_neg elsewhere]
      omega
  refine ⟨fun other => ?_, fun target => (added target).1, fun target => (added target).2⟩
  by_cases same : other = holder
  · simp [pointers, same]
  · rw [pointers, update_of_ne same, Finset.mem_insert, tallies.members]
    exact or_iff_right same

end Tallies

section Steps

def Steady (world : World) (action : Action contract) : Prop :=
  ∀ token ∈ world.parameters.govToken, ∀ holder, world.delegations.delegation holder ≠ none →
    (step world action).balance token holder = world.balance token holder

/-- Nobody has delegated to the delegator, it has proven its whole balance, and the tally it goes to
has room. -/
def EntrustsWhole (world : World) (delegator delegate : Address) : Prop :=
  world.delegations.delegators delegator = [] ∧ ∀ token ∈ world.parameters.govToken,
    (∀ checkpoint ∈ eligibleCheckpoint world.ballots delegator world.clock.sequence,
      world.balance token delegator ≤ checkpoint.balance) ∧
    (world.delegations.delegatedToMe (resolveTerminal world.delegations.delegation
      (getMaxDelegationDepth world.parameters) delegate)).getD 0 + world.balance token delegator ≤
        i128.hi

instance (world : World) (delegator delegate : Address) :
    Decidable (EntrustsWhole world delegator delegate) :=
  inferInstanceAs (Decidable (_ ∧ _))

def MovesWhole (world : World) : Action contract → Prop
  | .invoke _ (.delegateVotes delegator delegate) => EntrustsWhole world delegator delegate
  | .invoke _ (.undelegateVotes delegator) =>
    world.delegations.delegation delegator ≠ none → world.delegations.delegators delegator = []
  | .invoke _ (.setMaxDelegationDepth depth) => Bounded world.delegations.delegation depth
  | _ => True

/-- The graph is sound within the present maximum depth and the tallies follow it. Before the
contract is initialised nobody delegates. -/
structure TallySound (world : World) : Prop where
  graph : GraphSound world.delegations (getMaxDelegationDepth world.parameters)
  typed : getMaxDelegationDepth world.parameters ≤ u32Max
  blank : world.parameters.govToken = none →
    ∀ address, world.delegations.delegation address = none ∧
      world.delegations.delegatedToMe address = none
  tallies : ∀ token ∈ world.parameters.govToken, ∃ holders,
    Tallies world.delegations (world.balance token) holders

variable {env : Env contract} {world next : World}

theorem GraphSound.unreferenced (sound : GraphSound delegations bound)
    {holder : Address} (alone : delegations.delegators holder = []) :
    ∀ other, delegations.delegation other ≠ some holder := by
  intro other points
  have listed := (sound.indexed.listed holder other).mpr points
  rw [alone] at listed
  cases listed

theorem GraphSound.terminal (sound : GraphSound delegations bound)
    (start : Address) : EndsAt delegations.delegation start
      (resolveTerminal delegations.delegation bound start) :=
  resolveTerminal_endsAt fun hops last walk => sound.bounded hops start last walk

theorem TallySound.undelegated (sound : TallySound world)
    (nonneg : ∀ token holder, 0 ≤ world.balance token holder)
    (ran : undelegateVotes env world delegator = .ok next)
    (alone : world.delegations.delegation delegator ≠ none →
      world.delegations.delegators delegator = []) :
    TallySound next := by
  have graph := sound.graph.undelegated ran
  obtain ⟨_, ⟨_, rfl⟩ | ⟨old, token, _, points, initialised, withdrew, rfl⟩⟩ :=
    undelegateVotes_spec ran
  · exact sound
  · obtain ⟨_, rfl⟩ := withdrawFrom_eq_ok.mp withdrew
    have unreferenced := sound.graph.unreferenced
      (alone (by rw [points]; exact Option.some_ne_none old))
    refine ⟨graph, sound.typed, fun unset => ?_, fun asset set => ?_⟩
    · rw [initialised] at unset
      cases unset
    · obtain ⟨_, tallies⟩ := sound.tallies asset set
      cases initialised.symm.trans set
      exact ⟨_, tallies.withdraw (nonneg token) points unreferenced
        (sound.graph.terminal old) rfl rfl⟩

/-- The first half of `delegate_votes`: a standing delegation is withdrawn as by
`undelegate_votes`. -/
theorem Tallies.withdrawStanding {depth : Nat} {delegations withdrawn : DelegationStore}
    {balance : Address → Int} {holders : Finset Address}
    (tallies : Tallies delegations balance holders) (nonneg : ∀ account, 0 ≤ balance account)
    (sound : GraphSound delegations depth) (alone : delegations.delegators delegator = [])
    (withdrew : withdrawStanding depth delegations delegator (balance delegator) = .ok withdrawn) :
    (∃ rest, Tallies { withdrawn with delegation := update delegations.delegation delegator none }
      balance rest) ∧
      ∀ target, (withdrawn.delegatedToMe target).getD 0 ≤
        (delegations.delegatedToMe target).getD 0 := by
  simp only [IlnGovernance.withdrawStanding] at withdrew
  split at withdrew
  · rename_i old points
    obtain ⟨_, rfl⟩ := withdrawFrom_eq_ok.mp withdrew
    refine ⟨⟨_, tallies.withdraw nonneg points (sound.unreferenced alone)
      (sound.terminal old) rfl rfl⟩, fun target => ?_⟩
    by_cases here : target = resolveTerminal delegations.delegation depth old
    · have reduced := adjustDelegatedToMe_le delegations target (-balance delegator)
      have held := nonneg delegator
      have before : 0 ≤ (delegations.delegatedToMe target).getD 0 := by
        rw [tallies.tallied]
        exact weightBehind_nonneg nonneg
      subst here
      exact reduced.trans (max_le before (by omega))
    · exact (congrArg (Option.getD · 0) (adjustDelegatedToMe_other delegations _ here)).le
  · rename_i free
    cases withdrew
    refine ⟨⟨holders, ?_⟩, fun target => le_rfl⟩
    rw [update_eq_self_iff.mpr free.symm]
    exact tallies

theorem TallySound.delegated (sound : TallySound world)
    (nonneg : ∀ token holder, 0 ≤ world.balance token holder)
    (ran : delegateVotes env world delegator delegate = .ok next)
    (whole : EntrustsWhole world delegator delegate) : TallySound next := by
  have graph := sound.graph.delegated sound.typed ran
  obtain ⟨alone, whole⟩ := whole
  obtain ⟨_, distinct, token, checkpoint, _, initialised, eligible, withdrew, rfl⟩ :=
    delegateVotes_spec ran
  obtain ⟨proven, fits⟩ := whole token initialised
  rw [max_self] at graph
  refine ⟨graph, sound.typed, fun unset => ?_, fun asset set => ?_⟩
  · rw [initialised] at unset
    cases unset
  · obtain ⟨_, tallies⟩ := sound.tallies asset set
    cases initialised.symm.trans set
    have live : min checkpoint.balance (world.balance token delegator) =
      world.balance token delegator := min_eq_right (proven checkpoint eligible)
    rw [live] at withdrew ⊢
    have unreferenced := sound.graph.unreferenced alone
    obtain ⟨pointers, _⟩ := withdrawStanding_indexed sound.graph.indexed withdrew
    obtain ⟨⟨_, cleared⟩, lower⟩ := tallies.withdrawStanding (nonneg token) sound.graph
      alone withdrew
    have ends : EndsAt (update world.delegations.delegation delegator none) delegate
        (resolveTerminal world.delegations.delegation (getMaxDelegationDepth world.parameters)
          delegate) := by
      rw [endsAt_update unreferenced _ distinct.symm]
      exact sound.graph.terminal delegate
    refine ⟨_, cleared.entrust (nonneg token) (update_self _ _ _)
      (fun other points => ?_) distinct.symm ends ?_ ?_ ?_⟩
    · by_cases here : other = delegator
      · simp only [here, update_self] at points
        cases points
      · simp only [update_of_ne here] at points
        exact unreferenced other points
    · exact (add_le_add_left (lower _) _).trans fits
    · simp only [adjustDelegatedToMe, addDelegator_delegation, update_idem, pointers]
    · simp only [adjustDelegatedToMe, addDelegator_delegatedToMe]

theorem TallySound.kept (sound : TallySound world)
    (delegations : next.delegations = world.delegations)
    (token : next.parameters.govToken = world.parameters.govToken)
    (bounded : Bounded world.delegations.delegation (getMaxDelegationDepth next.parameters))
    (typed : getMaxDelegationDepth next.parameters ≤ u32Max)
    (steady : ∀ token ∈ world.parameters.govToken, ∀ holder, world.delegations.delegation holder ≠
      none → next.balance token holder = world.balance token holder) : TallySound next := by
  refine ⟨?_, typed, ?_, fun asset set => ?_⟩
  · rw [delegations]
    exact ⟨bounded, sound.graph.indexed⟩
  · rw [token, delegations]
    exact sound.blank
  · rw [token] at set
    obtain ⟨holders, tallies⟩ := sound.tallies asset set
    rw [delegations]
    exact ⟨holders, tallies.kept (steady asset set)⟩

theorem TallySound.opened (sound : TallySound world) (unset : world.parameters.govToken = none)
    (delegations : next.delegations = world.delegations)
    (depth : getMaxDelegationDepth next.parameters = defaultMaxDelegationDepth)
    (set : next.parameters.govToken ≠ none) : TallySound next := by
  have blank := sound.blank unset
  have limit : defaultMaxDelegationDepth ≤ u32Max := by decide
  refine ⟨?_, depth.le.trans limit, fun none => absurd none set, fun asset _ => ⟨∅, ?_⟩⟩
  · rw [delegations]
    refine ⟨fun hops start target walk => ?_, sound.graph.indexed⟩
    cases hops with
    | zero => exact Nat.zero_le _
    | succ => simp [follow, (blank start).1] at walk
  · rw [delegations]
    have untallied : ∀ target, (world.delegations.delegatedToMe target).getD 0 = 0 :=
        fun target => by
      rw [(blank target).2, Option.getD_none]
    refine ⟨fun holder => by simp [(blank holder).1], fun target => ?_, fun target => ?_⟩
    · simp [untallied, weightBehind]
    · rw [untallied]
      exact i128.pos.le

theorem step_tallySound {action : Action contract} (sound : TallySound world)
    (numbered : Numbered world) (nonneg : NonNegative world) (steady : Steady world action)
    (whole : MovesWhole world action) : TallySound (step world action) := by
  cases finished : succeeds world action with
  | false =>
    rw [step_of_failed finished]
    exact sound
  | true =>
    cases action with
    | invoke env call =>
      have typed := step_depth_typed (.invoke env call) sound.typed
      have kept : (step world (.invoke env call)).counting.delegations =
          world.counting.delegations →
          (step world (.invoke env call)).counting.token = world.counting.token →
          (step world (.invoke env call)).counting.depth = world.counting.depth →
          TallySound (step world (.invoke env call)) :=
        fun delegations token depth =>
          sound.kept delegations token (sound.graph.bounded.mono depth.symm.le) typed steady
      cases invoke_effect (invoke_of_succeeds finished) with
      | quiet quiet =>
        have counting := quiet.counting
        exact kept (congrArg _ counting) (congrArg _ counting) (congrArg _ counting)
      | created counting | supplied counting | switched counting =>
        exact kept (congrArg Counting.delegations counting :) (congrArg Counting.token counting :)
          (congrArg Counting.depth counting :)
      | voted _ voted =>
        have counting := voted.counting
        exact kept (congrArg Counting.delegations counting :) (congrArg Counting.token counting :)
          (congrArg Counting.depth counting :)
      | @deepened depth _ _ counting =>
        have set : getMaxDelegationDepth
            (step world (.invoke env (.setMaxDelegationDepth depth))).parameters = depth :=
          congrArg Counting.depth counting
        have bounded : Bounded world.delegations.delegation depth := whole
        exact sound.kept (congrArg Counting.delegations counting :)
          (congrArg Counting.token counting :) (bounded.mono set.symm.le) typed steady
      | opened uninitialised counting =>
        refine sound.opened (numbered.uninitialised uninitialised).1
          (congrArg Counting.delegations counting :)
          (congrArg Counting.depth counting :) fun none => ?_
        have set := congrArg Counting.token counting
        cases none.symm.trans set
      | delegated ran => exact sound.delegated nonneg.balance ran whole
      | undelegated ran => exact sound.undelegated nonneg.balance ran whole
    | _ => exact sound.kept rfl rfl sound.graph.bounded sound.typed steady

end Steps

section Runs

def World.holding (world : World) (holder : Address) : Int :=
  world.parameters.govToken.elim 0 fun token => world.balance token holder

def ExactTallies (world : World) : Prop :=
  ∃ holders : Finset Address, (∀ holder, holder ∈ holders ↔
    world.delegations.delegation holder ≠ none) ∧
    ∀ target,
      (world.delegations.delegation target = none →
        (world.delegations.delegatedToMe target).getD 0 =
          weightBehind world.delegations.delegation world.holding holders target) ∧
      (world.delegations.delegation target ≠ none →
        (world.delegations.delegatedToMe target).getD 0 = 0)

variable {world other : World}

theorem TallySound.exactTallies (sound : TallySound world) : ExactTallies world := by
  cases set : world.parameters.govToken with
  | none =>
    have blank := sound.blank set
    refine ⟨∅, fun holder => by simp [(blank holder).1], fun target => ?_⟩
    rw [(blank target).2, Option.getD_none]
    exact ⟨fun _ => by simp [weightBehind], fun _ => rfl⟩
  | some token =>
    obtain ⟨holders, tallies⟩ := sound.tallies token set
    have held : world.holding = world.balance token := by
      funext holder
      rw [World.holding, set, Option.elim_some]
    refine ⟨holders, tallies.members, fun target => ?_⟩
    rw [held, tallies.tallied]
    exact ⟨fun _ => rfl, weightBehind_onward⟩

theorem ExactTallies.determined (here : ExactTallies world) (there : ExactTallies other)
    (graph : other.delegations.delegation = world.delegations.delegation)
    (holdings : ∀ holder, world.delegations.delegation holder ≠ none →
      other.holding holder = world.holding holder)
    (target : Address) :
    (other.delegations.delegatedToMe target).getD 0 =
      (world.delegations.delegatedToMe target).getD 0 := by
  obtain ⟨holders, members, tallied⟩ := here
  obtain ⟨others, otherMembers, otherTallied⟩ := there
  have same : others = holders := by
    ext holder
    rw [otherMembers, members, graph]
  rw [graph] at otherTallied
  by_cases direct : world.delegations.delegation target = none
  · rw [(tallied target).1 direct, (otherTallied target).1 direct, same]
    exact weightBehind_congr (fun _ _ => Iff.rfl) fun holder member =>
      holdings holder ((members holder).mp member)
  · rw [(tallied target).2 direct, (otherTallied target).2 direct]

structure SteadyRun (clock : Clock) (balance : Balances) (actions : List (Action contract)) :
    Prop where
  start : ∀ token holder, 0 ≤ balance token holder
  lawful : ∀ action ∈ actions, action.Lawful
  steady : Along step Steady (genesis clock balance) actions

variable {clock : Clock} {balance : Balances} {actions : List (Action contract)}

theorem genesis_tallySound (clock : Clock) (balance : Balances) :
    TallySound (genesis clock balance) where
  graph := (genesis_graphSound clock balance).mono (Nat.zero_le _)
  typed := by
    have limit : defaultMaxDelegationDepth ≤ u32Max := by decide
    exact limit
  blank := fun _ _ => ⟨rfl, rfl⟩
  tallies := fun _ none => by cases none

theorem SteadyRun.exactTallies (run : SteadyRun clock balance actions)
    (whole : Along step MovesWhole (genesis clock balance) actions) :
    Throughout step ExactTallies (genesis clock balance) actions := by
  have sound : Throughout step (fun world => Numbered world ∧ TallySound world)
      (genesis clock balance) actions := by
    refine throughout_along _ ?_ ⟨genesis_numbered clock balance, genesis_tallySound clock balance⟩
      (((throughout_nonNegative clock run.start run.lawful).along.and run.steady).and whole)
    rintro world action ⟨numbered, sound⟩ ⟨⟨nonneg, steady⟩, whole⟩
    exact ⟨step_numbered action numbered, step_tallySound sound numbered nonneg steady whole⟩
  exact sound.mono fun world both => both.2.exactTallies

theorem delegateVotes_frame {env : Env contract} {next : World}
    (indexed : Indexed world.delegations.delegation world.delegations.delegators)
    (ran : delegateVotes env world delegator delegate = .ok next) :
    next.delegations.delegation = update world.delegations.delegation delegator (some delegate) ∧
      next.holding = world.holding := by
  obtain ⟨_, _, _, _, _, _, _, withdrew, rfl⟩ := delegateVotes_spec ran
  obtain ⟨pointers, _⟩ := withdrawStanding_indexed indexed withdrew
  refine ⟨?_, rfl⟩
  simp only [adjustDelegatedToMe, addDelegator_delegation, pointers]

theorem undelegateVotes_frame {env : Env contract} {next : World} {delegator : Address}
    (ran : undelegateVotes env world delegator = .ok next) :
    next.delegations.delegation = update world.delegations.delegation delegator none ∧
      next.holding = world.holding := by
  obtain ⟨_, ⟨direct, rfl⟩ | ⟨_, _, _, _, _, withdrew, rfl⟩⟩ :=
    undelegateVotes_spec ran
  · exact ⟨(update_eq_self_iff.mpr direct.symm).symm, rfl⟩
  · obtain ⟨_, rfl⟩ := withdrawFrom_eq_ok.mp withdrew
    exact ⟨rfl, rfl⟩

theorem delegate_undelegate_same {env undoing : Env contract}
    (indexed : Indexed world.delegations.delegation world.delegations.delegators)
    (direct : world.delegations.delegation delegator = none)
    (undone : succeeds (step world (.invoke env (.delegateVotes delegator delegate)))
      (.invoke undoing (.undelegateVotes delegator)) = true) :
    let last := step (step world (.invoke env (.delegateVotes delegator delegate)))
      (.invoke undoing (.undelegateVotes delegator))
    last.delegations.delegation = world.delegations.delegation ∧ last.holding = world.holding := by
  intro last
  have back : undelegateVotes undoing (step world (.invoke env (.delegateVotes delegator delegate)))
      delegator = .ok last := invokeWorld_of_invoke (invoke_of_succeeds undone) rfl
  obtain ⟨graph, holding⟩ := undelegateVotes_frame back
  rw [graph, holding]
  cases made : succeeds world (.invoke env (.delegateVotes delegator delegate)) with
  | false =>
    rw [step_of_failed made]
    exact ⟨update_eq_self_iff.mpr direct.symm, rfl⟩
  | true =>
    have ran : delegateVotes env world delegator delegate = .ok _ :=
      invokeWorld_of_invoke (invoke_of_succeeds made) rfl
    obtain ⟨pointed, held⟩ := delegateVotes_frame indexed ran
    rw [pointed, held, update_idem]
    exact ⟨update_eq_self_iff.mpr direct.symm, rfl⟩

/-- In every run in which no delegating address gains or loses tokens, and each change of a
delegation is one that moves the weight of the whole chain, the tallies are exact in every state.
They then depend on nothing but the graph and the holdings, and undelegating after delegating
restores them. -/
theorem delegation_tallies_exact (clock : Clock) (balance : Balances)
    (actions : List (Action contract)) (run : SteadyRun clock balance actions)
    (whole : Along step MovesWhole (genesis clock balance) actions) :
    Throughout step ExactTallies (genesis clock balance) actions ∧
    (∀ (otherClock : Clock) (otherBalance : Balances) (others : List (Action contract)),
      SteadyRun otherClock otherBalance others →
      Along step MovesWhole (genesis otherClock otherBalance) others →
      let world := reach clock balance actions
      let other := exec step (genesis otherClock otherBalance) others
      other.delegations.delegation = world.delegations.delegation →
      (∀ holder, world.delegations.delegation holder ≠ none →
        other.holding holder = world.holding holder) →
      ∀ target, (other.delegations.delegatedToMe target).getD 0 =
        (world.delegations.delegatedToMe target).getD 0) ∧
    ∀ past env undoing delegator delegate,
      actions = past ++ [.invoke env (.delegateVotes delegator delegate),
        .invoke undoing (.undelegateVotes delegator)] →
      let world := reach clock balance past
      let last := reach clock balance actions
      world.delegations.delegation delegator = none →
      succeeds (step world (.invoke env (.delegateVotes delegator delegate)))
        (.invoke undoing (.undelegateVotes delegator)) = true →
      ∀ target, (last.delegations.delegatedToMe target).getD 0 =
        (world.delegations.delegatedToMe target).getD 0 := by
  have exactly := run.exactTallies whole
  refine ⟨exactly, ?_, ?_⟩
  · intro otherClock otherBalance others otherRun otherWhole world other graph holdings
    exact exactly.last.determined (otherRun.exactTallies otherWhole).last graph holdings
  · rintro past env undoing delegator delegate rfl world last direct undone
    have before : ExactTallies world := exactly.append.last
    have after : ExactTallies last := exactly.last
    have graph := exec_graphSound clock balance past
    obtain ⟨same, held⟩ := delegate_undelegate_same graph.1.indexed direct undone
    have reached : last = step (step world (.invoke env (.delegateVotes delegator delegate)))
        (.invoke undoing (.undelegateVotes delegator)) := exec_append _ past _
    rw [reached] at after ⊢
    exact before.determined after same fun holder _ => congrFun held holder

end Runs

def provenHolders : List (Action ⟨0⟩) :=
  [opening,
    signedBy [1] (.checkpointBalance ⟨1⟩), signedBy [2] (.checkpointBalance ⟨2⟩), .advance 50 10]

def downstreamFirst : List (Action ⟨0⟩) :=
  provenHolders ++ [signedBy [2] (.delegateVotes ⟨2⟩ ⟨3⟩), signedBy [1] (.delegateVotes ⟨1⟩ ⟨2⟩)]

def upstreamFirst : List (Action ⟨0⟩) :=
  provenHolders ++ [signedBy [1] (.delegateVotes ⟨1⟩ ⟨2⟩), signedBy [2] (.delegateVotes ⟨2⟩ ⟨3⟩)]

theorem downstreamFirst_steady : SteadyRun ⟨1000, 10⟩ holdings downstreamFirst where
  start := holdings_nonneg
  lawful := by simp [downstreamFirst, provenHolders]
  steady := ⟨fun _ _ _ _ => rfl, fun _ _ _ _ => rfl, fun _ _ _ _ => rfl, fun _ _ _ _ => rfl,
    fun _ _ _ _ => rfl, fun _ _ _ _ => rfl, trivial⟩

theorem upstreamFirst_steady : SteadyRun ⟨1000, 10⟩ holdings upstreamFirst where
  start := holdings_nonneg
  lawful := by simp [upstreamFirst, provenHolders]
  steady := ⟨fun _ _ _ _ => rfl, fun _ _ _ _ => rfl, fun _ _ _ _ => rfl, fun _ _ _ _ => rfl,
    fun _ _ _ _ => rfl, fun _ _ _ _ => rfl, trivial⟩

theorem delegation_tallies_of_downstreamFirst :
    (convened downstreamFirst).delegations.delegatedToMe ⟨3⟩ =
      some 1900 ∧ Throughout step ExactTallies council downstreamFirst := by
  have first : EntrustsWhole (convened provenHolders) ⟨2⟩ ⟨3⟩ := by decide +kernel
  have second : EntrustsWhole (convened (downstreamFirst.take 5)) ⟨1⟩ ⟨2⟩ := by decide +kernel
  exact ⟨by decide +kernel, (delegation_tallies_exact ⟨1000, 10⟩ holdings downstreamFirst
    downstreamFirst_steady ⟨trivial, trivial, trivial, trivial, first, second, trivial⟩).1⟩

/-- Delegating onward leaves the 1500 units of address 1 at address 2, which has delegated: the
tallies are not exact, and other ones than after the same delegations in the other order. -/
theorem upstreamFirst_strands_weight : SteadyRun ⟨1000, 10⟩ holdings upstreamFirst ∧
      let world := convened upstreamFirst
      let other := convened downstreamFirst
      ¬ ExactTallies world ∧
      world.delegations.delegation ⟨2⟩ = some ⟨3⟩ ∧
      world.delegations.delegatedToMe ⟨2⟩ = some 1500 ∧
      world.delegations.delegatedToMe ⟨3⟩ = some 400 ∧
      other.delegations.delegatedToMe ⟨2⟩ = none ∧ other.delegations.delegatedToMe ⟨3⟩ = some 1900 ∧
      [1, 2, 3].map (fun key => world.delegations.delegation ⟨key⟩) =
        [1, 2, 3].map (fun key => other.delegations.delegation ⟨key⟩) := by
  refine ⟨upstreamFirst_steady, ?_, by decide +kernel⟩
  rintro ⟨holders, members, tallied⟩
  have zero := (tallied ⟨2⟩).2 (by decide +kernel)
  revert zero
  decide +kernel

end IlnGovernance
