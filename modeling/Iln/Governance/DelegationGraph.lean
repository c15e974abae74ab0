import Iln.Foundation.Forest
import Iln.Governance.Lifecycle

/-! The shape of the delegation graph. Every address has at most one pointer, so the graph is a
forest as soon as its walks are bounded; `delegate_votes` bounds them. The longest walk into the
delegator is found by an explicit stack over the reverse lists, which mirror the pointers. -/
namespace IlnGovernance

open Outcome FixedWidth Transition Forest Function
open InvoiceLiquidity (Address Balances Clock)

variable {contract : Address} {hops : Nat} {start : Address} {node : Address}
  {result : Address → Option Nat}
variable {stack : List (Address × Bool)}

section ForwardWalks

variable {delegation : Address → Option Address} {delegator delegate : Address}

theorem checkCycle_spec {cursor : Option Address}
    (passed : checkCycle delegation delegator hops cursor = .ok ()) (here : cursor = some start) :
    (∀ further, follow delegation further start ≠ some delegator) ∧
      ∀ further target, follow delegation further start = some target → further + 1 ≤ hops := by
  subst here
  induction hops generalizing start with
  | zero =>
    simp only [checkCycle] at passed
    split at passed <;> cases passed
  | succ hops ih =>
    simp only [checkCycle] at passed
    split at passed
    · cases passed
    · rename_i apart
      cases step : delegation start with
      | none =>
        refine ⟨fun further walk => ?_, fun further target walk => ?_⟩
        · cases further with
          | zero => exact apart (Option.some.inj walk)
          | succ => simp [follow, step] at walk
        · cases further with
          | zero => omega
          | succ => simp [follow, step] at walk
      | some =>
        rw [step] at passed
        obtain ⟨avoids, short⟩ := ih passed
        refine ⟨fun further walk => ?_, fun further target walk => ?_⟩
        · cases further with
          | zero => exact apart (Option.some.inj walk)
          | succ further =>
            simp only [follow, step, Option.bind_some] at walk
            exact avoids further walk
        · cases further with
          | zero => omega
          | succ further =>
            simp only [follow, step, Option.bind_some] at walk
            have rest := short further target walk
            omega

theorem checkCycle_delegate
    (passed : checkCycle delegation delegator hops (delegation delegate) = .ok ())
    (distinct : delegator ≠ delegate) :
    (∀ further, follow delegation further delegate ≠ some delegator) ∧
      ∀ further target, follow delegation further delegate = some target → further ≤ hops := by
  refine ⟨fun further walk => ?_, fun further target walk => ?_⟩
  · cases further with
    | zero => exact distinct (Option.some.inj walk).symm
    | succ further =>
      obtain ⟨middle, step, rest⟩ := Option.bind_eq_some_iff.mp walk
      exact (checkCycle_spec passed step).1 further rest
  · cases further with
    | zero => omega
    | succ further =>
      obtain ⟨middle, step, rest⟩ := Option.bind_eq_some_iff.mp walk
      exact (checkCycle_spec passed step).2 further target rest

theorem le_forwardDelegationDepth {bound : Nat}
    (short : ∀ hops target, follow delegation hops start = some target → hops ≤ bound)
    {target : Address} (walk : follow delegation hops start = some target) :
    hops ≤ forwardDelegationDepth delegation bound start := by
  induction bound generalizing start hops with
  | zero => exact short hops target walk
  | succ bound ih =>
    cases hops with
    | zero => exact Nat.zero_le _
    | succ hops =>
      obtain ⟨middle, step, rest⟩ := Option.bind_eq_some_iff.mp walk
      have shorter : ∀ hops target, follow delegation hops middle = some target → hops ≤ bound := by
        intro hops target walk
        have whole := short (hops + 1) target (by simp [follow, step, walk])
        omega
      have deep := ih shorter rest
      simp only [forwardDelegationDepth, step]
      omega

end ForwardWalks

section ReverseLists

variable {delegation : Address → Option Address} {delegators : Address → List Address}
  {delegator : Address}

structure Indexed (delegation : Address → Option Address) (delegators : Address → List Address) :
    Prop where
  listed : ∀ target source, source ∈ delegators target ↔ delegation source = some target
  nodup : ∀ target, (delegators target).Nodup

theorem Indexed.remove (indexed : Indexed delegation delegators) {old : Address}
    (points : delegation delegator = some old) :
    Indexed (update delegation delegator none)
      (update delegators old ((delegators old).filter fun item => item ≠ delegator)) := by
  refine ⟨fun target source => ?_, fun target => ?_⟩
  · by_cases here : target = old
    · subst here
      by_cases same : source = delegator
      · simp [same]
      · simp [same, indexed.listed]
    · rw [update_of_ne here, indexed.listed]
      by_cases same : source = delegator
      · subst same
        simp [points, Ne.symm here]
      · rw [update_of_ne same]
  · by_cases here : target = old
    · subst here
      rw [update_self]
      exact (indexed.nodup target).filter _
    · rw [update_of_ne here]
      exact indexed.nodup target

theorem Indexed.add (indexed : Indexed delegation delegators) (free : delegation delegator = none)
    (delegate : Address) :
    Indexed (update delegation delegator (some delegate))
      (update delegators delegate (delegators delegate ++ [delegator])) := by
  have unlisted : ∀ target, delegator ∉ delegators target := by
    intro target
    rw [indexed.listed, free]
    exact fun same => by cases same
  refine ⟨fun target source => ?_, fun target => ?_⟩
  · by_cases same : source = delegator
    · subst same
      by_cases here : target = delegate
      · simp [here]
      · simp [update_of_ne here, unlisted, Ne.symm here]
    · rw [update_of_ne same, ← indexed.listed]
      by_cases here : target = delegate
      · simp [here, same]
      · rw [update_of_ne here]
  · by_cases here : target = delegate
    · subst here
      rw [update_self, List.nodup_append]
      refine ⟨indexed.nodup target, List.nodup_singleton _, fun source listed other same => ?_⟩
      rw [List.mem_singleton.mp same]
      rintro rfl
      exact unlisted target listed
    · rw [update_of_ne here]
      exact indexed.nodup target

end ReverseLists

section InboundLoop

variable {delegation : Address → Option Address} {delegators : Address → List Address} {bound : Nat}
variable {best after : Address → Option Nat}

theorem foldl_max_le {α : Type} (value : α → Nat) (items : List α) (start limit : Nat) :
    items.foldl (fun longest item => max longest (value item)) start ≤ limit ↔
      start ≤ limit ∧ ∀ item ∈ items, value item ≤ limit := by
  induction items generalizing start with
  | nil => simp
  | cons item rest ih => simp only [List.foldl_cons, ih, max_le_iff, List.forall_mem_cons,
      and_assoc]

theorem inboundBest_le {predecessors : List Address} {limit : Nat} :
    inboundBest best predecessors ≤ limit ↔
      ∀ predecessor ∈ predecessors, addCapped u32Max ((best predecessor).getD 0) 1 ≤ limit := by
  rw [inboundBest, foldl_max_le fun predecessor => addCapped u32Max ((best predecessor).getD 0) 1]
  exact and_iff_right (Nat.zero_le limit)

def Memo (delegation : Address → Option Address) (best : Address → Option Nat) : Prop :=
  ∀ node length, best node = some length → length = height delegation node

/-- The loop works off the unvisited nodes on top of the stack and records their heights. -/
def Settles (delegation : Address → Option Address) (delegators : Address → List Address)
    (best : Address → Option Nat) (nodes : List Address) : Prop :=
  ∃ rounds after, Memo delegation after ∧ (∀ node length, best node = some length →
    after node = some length) ∧
    (∀ node ∈ nodes, after node = some (height delegation node)) ∧
    ∀ budget stack, inboundLoop delegators (budget + rounds) best
      (nodes.map (fun node => (node, false)) ++ stack) = inboundLoop delegators budget after stack

theorem Settles.nil (memo : Memo delegation best) : Settles delegation delegators best [] :=
  ⟨0, best, memo, fun _ _ stored => stored, (by rintro _ ⟨⟩), fun _ _ => rfl⟩

theorem Settles.skip {rest : List Address} (memo : Memo delegation best)
    (known : (best node).isSome = true) (settles : Settles delegation delegators best rest) :
    Settles delegation delegators best (node :: rest) := by
  obtain ⟨rounds, after, recorded, extends_, settled, runs⟩ := settles
  obtain ⟨length, stored⟩ := Option.isSome_iff_exists.mp known
  refine ⟨rounds + 1, after, recorded, extends_, ?_, fun budget stack => ?_⟩
  · refine List.forall_mem_cons.mpr ⟨?_, settled⟩
    rw [extends_ node length stored, memo node length stored]
  · rw [← Nat.add_assoc, List.map_cons, List.cons_append, inboundLoop, if_pos known]
    exact runs budget stack

theorem inboundLoop_mono {budget : Nat}
    (ran : inboundLoop delegators budget best stack = some result) (more : Nat) :
    inboundLoop delegators (budget + more) best stack = some result := by
  induction budget generalizing best stack with
  | zero =>
    cases stack with
    | nil =>
      rw [inboundLoop] at ran ⊢
      exact ran
    | cons => simp [inboundLoop] at ran
  | succ budget ih =>
    rw [Nat.add_right_comm]
    match stack with
    | [] =>
      rw [inboundLoop] at ran ⊢
      exact ran
    | (node, true) :: rest =>
      rw [inboundLoop] at ran ⊢
      exact ih ran
    | (node, false) :: rest =>
      rw [inboundLoop] at ran ⊢
      split at ran
      · rename_i known
        rw [if_pos known]
        exact ih ran
      · rename_i unknown
        rw [if_neg unknown]
        exact ih ran

theorem inboundLoop_le {budget : Nat} {limit : Nat}
    (small : ∀ node length, best node = some length → length ≤ limit)
    (ran : inboundLoop delegators budget best stack = some result) :
    ∀ node length, result node = some length → length ≤ limit + budget := by
  induction budget generalizing best stack limit with
  | zero =>
    cases stack with
    | nil =>
      rw [inboundLoop] at ran
      cases ran
      exact small
    | cons => simp [inboundLoop] at ran
  | succ budget ih =>
    match stack with
    | [] =>
      rw [inboundLoop] at ran
      cases ran
      exact fun node length stored => (small node length stored).trans (by omega)
    | (node, true) :: rest =>
      rw [inboundLoop] at ran
      -- one more than the largest length so far, at most
      have larger : ∀ other length,
          update best node (some (inboundBest best (delegators node))) other = some length →
          length ≤ limit + 1 := by
        intro other length stored
        by_cases here : other = node
        · subst here
          rw [update_self] at stored
          cases stored
          refine inboundBest_le.mpr fun predecessor _ => ?_
          have low : (best predecessor).getD 0 ≤ limit := by
            cases found : best predecessor with
            | none => exact Nat.zero_le _
            | some value => exact small predecessor value found
          exact (min_le_right _ _).trans (by omega)
        · rw [update_of_ne here] at stored
          exact (small other length stored).trans (by omega)
      exact fun other length stored => (ih larger ran other length stored).trans (by omega)
    | (node, false) :: rest =>
      rw [inboundLoop] at ran
      split at ran
      · exact fun other length stored => (ih small ran other length stored).trans (by omega)
      · exact fun other length stored => (ih small ran other length stored).trans (by omega)

variable (bounded : Bounded delegation bound) (typed : bound ≤ u32Max)
  (indexed : Indexed delegation delegators)
include bounded typed indexed

theorem inboundBest_eq
    (settled : ∀ predecessor ∈ delegators node, best predecessor =
      some (height delegation predecessor)) :
    inboundBest best (delegators node) = height delegation node := by
  -- the lengths are far from the end of the type
  have uncapped : ∀ predecessor ∈ delegators node,
      addCapped u32Max ((best predecessor).getD 0) 1 = height delegation predecessor + 1 := by
    intro predecessor listed
    have lower := bounded.height_lt ((indexed.listed node predecessor).mp listed)
    have top := bounded.height_le node
    rw [settled predecessor listed, Option.getD_some, addCapped]
    omega
  refine le_antisymm ?_ ?_
  · refine inboundBest_le.mpr fun predecessor listed => ?_
    rw [uncapped predecessor listed]
    exact bounded.height_lt ((indexed.listed node predecessor).mp listed)
  · rcases bounded.height_eq node with zero | ⟨predecessor, step, higher⟩
    · rw [zero]
      exact Nat.zero_le _
    · have listed := (indexed.listed node predecessor).mpr step
      rw [higher, ← uncapped predecessor listed]
      exact inboundBest_le.mp le_rfl predecessor listed

theorem Settles.visit {rest : List Address} (unknown : best node = none)
    (inner : Settles delegation delegators best
      ((delegators node).filter fun predecessor => (best predecessor).isNone).reverse)
    (outer : ∀ after, Memo delegation after → Settles delegation delegators after rest) :
    Settles delegation delegators best (node :: rest) := by
  obtain ⟨first, middle, recorded, kept, pushed, runs⟩ := inner
  have length : inboundBest middle (delegators node) = height delegation node := by
    refine inboundBest_eq bounded typed indexed fun predecessor listed => ?_
    cases found : best predecessor with
    | none => exact pushed predecessor (List.mem_reverse.mpr
        (List.mem_filter.mpr ⟨listed, by simp [found]⟩))
    | some length =>
      have stored := kept predecessor length found
      rw [stored, recorded predecessor length stored]
  have memo : Memo delegation (update middle node (some (height delegation node))) := by
    intro other value stored
    by_cases here : other = node
    · subst here
      rw [update_self] at stored
      exact (Option.some.inj stored).symm
    · rw [update_of_ne here] at stored
      exact recorded other value stored
  obtain ⟨second, after, final, later, settled, continues⟩ := outer _ memo
  refine ⟨second + 1 + first + 1, after, final, fun other value stored => ?_, ?_,
    fun budget stack => ?_⟩
  · have different : other ≠ node := by
      rintro rfl
      rw [unknown] at stored
      cases stored
    exact later other value (by rw [update_of_ne different]; exact kept other value stored)
  · exact List.forall_mem_cons.mpr ⟨later node _ (update_self _ _ _), settled⟩
  · have unvisited : ¬ (best node).isSome = true := by simp [unknown]
    rw [List.map_cons, List.cons_append, ← Nat.add_assoc, inboundLoop, if_neg unvisited]
    simp only
    rw [← Nat.add_assoc, runs, ← Nat.add_assoc, inboundLoop, length]
    exact continues budget stack

theorem inboundLoop_settles (limit : Nat) :
    ∀ nodes : List Address, (∀ node ∈ nodes, height delegation node < limit) →
      ∀ best, Memo delegation best → Settles delegation delegators best nodes := by
  -- predecessors are lower, so the recursion is on the height and then on the stack
  induction limit with
  | zero =>
    intro nodes low best memo
    cases nodes with
    | nil => exact .nil memo
    | cons node => exact absurd (low node List.mem_cons_self) (Nat.not_lt_zero _)
  | succ limit ih =>
    intro nodes
    induction nodes with
    | nil => exact fun _ best memo => .nil memo
    | cons node rest tail =>
      intro low best memo
      have others : ∀ after, Memo delegation after → Settles delegation delegators after rest :=
        tail fun other listed => low other (List.mem_cons_of_mem _ listed)
      cases known : best node with
      | some => exact .skip memo (by simp [known]) (others best memo)
      | none =>
        refine .visit bounded typed indexed known (ih _ ?_ best memo) others
        intro predecessor pushed
        have listed := (List.mem_filter.mp (List.mem_reverse.mp pushed)).1
        have lower := bounded.height_lt ((indexed.listed node predecessor).mp listed)
        have top := low node List.mem_cons_self
        omega

theorem inboundLoop_exact (start : Address) :
    ∃ rounds, ∀ budget, rounds ≤ budget → ∃ after,
      inboundLoop delegators budget (fun _ => none) [(start, false)] = some after ∧
        after start = some (height delegation start) := by
  obtain ⟨rounds, after, _, _, settled, runs⟩ := inboundLoop_settles bounded typed indexed
    (height delegation start + 1) [start] (by simp) (fun _ => none) (fun _ _ none => by cases none)
  refine ⟨rounds, fun budget enough => ⟨after, ?_, settled start List.mem_cons_self⟩⟩
  have run := runs (budget - rounds) []
  rw [Nat.sub_add_cancel enough] at run
  exact run.trans (by rw [inboundLoop])

theorem longestInboundDepth_eq {env : Env contract} {length : Nat}
    (ran : longestInboundDepth env delegators start = .ok length) :
    length = height delegation start ∧ length ≤ env.budget := by
  simp only [longestInboundDepth, ok_iff] at ran
  obtain ⟨result, run, rfl⟩ := ran
  obtain ⟨rounds, ends⟩ := inboundLoop_exact bounded typed indexed start
  obtain ⟨after, long, settled⟩ := ends (env.budget + rounds) (by omega)
  cases (inboundLoop_mono run rounds).symm.trans long
  have small : ∀ node length, (fun _ : Address => (none : Option Nat)) node = some length →
    length ≤ 0 := fun _ _ none => by cases none
  have within := inboundLoop_le small run start _ settled
  rw [settled]
  exact ⟨rfl, by simpa using within⟩

end InboundLoop

section Steps

structure GraphSound (delegations : DelegationStore) (bound : Nat) : Prop where
  bounded : Bounded delegations.delegation bound
  indexed : Indexed delegations.delegation delegations.delegators

variable {env : Env contract} {world next : World} {delegator delegate : Address} {bound : Nat}

theorem GraphSound.mono {delegations : DelegationStore} {larger : Nat}
    (sound : GraphSound delegations bound) (le : bound ≤ larger) : GraphSound delegations larger :=
  ⟨sound.bounded.mono le, sound.indexed⟩

theorem delegateVotes_checked (ran : delegateVotes env world delegator delegate = .ok next) :
    checkCycle world.delegations.delegation delegator (getMaxDelegationDepth world.parameters)
        (world.delegations.delegation delegate) = .ok () ∧
      forwardDelegationDepth world.delegations.delegation (getMaxDelegationDepth world.parameters)
        delegate ≤ env.budget ∧
      ∃ upstream, longestInboundDepth env world.delegations.delegators delegator = .ok upstream ∧
        addCapped u32Max (addCapped u32Max upstream 1)
          (forwardDelegationDepth world.delegations.delegation
            (getMaxDelegationDepth world.parameters) delegate) ≤
            getMaxDelegationDepth world.parameters := by
  simp only [delegateVotes, ok_iff, not_lt] at ran
  obtain ⟨_, _, _, _, _, _, _, _, _, acyclic, _, metered, upstream, inbound, _, shallow, _⟩ :=
    ran
  exact ⟨acyclic, metered, upstream, inbound, shallow⟩

theorem withdrawStanding_indexed {depth : Nat} {delegations withdrawn : DelegationStore}
    {weight : Int} (indexed : Indexed delegations.delegation delegations.delegators)
    (withdrew : withdrawStanding depth delegations delegator weight = .ok withdrawn) :
    withdrawn.delegation = delegations.delegation ∧
      Indexed (update delegations.delegation delegator none) withdrawn.delegators := by
  simp only [withdrawStanding] at withdrew
  split at withdrew
  · rename_i old points
    obtain ⟨_, rfl⟩ := withdrawFrom_eq_ok.mp withdrew
    exact ⟨rfl, indexed.remove points⟩
  · rename_i free
    cases withdrew
    rw [update_eq_self_iff.mpr free.symm]
    exact ⟨rfl, indexed⟩

theorem GraphSound.delegated (sound : GraphSound world.delegations bound) (typed : bound ≤ u32Max)
    (ran : delegateVotes env world delegator delegate = .ok next) :
    GraphSound next.delegations (max bound (getMaxDelegationDepth world.parameters)) := by
  obtain ⟨_, distinct, token, checkpoint, withdrawn, _, _, withdrew, rfl⟩ := delegateVotes_spec ran
  obtain ⟨acyclic, metered, upstream, inbound, shallow⟩ := delegateVotes_checked ran
  obtain ⟨avoids, short⟩ := checkCycle_delegate acyclic distinct
  obtain ⟨rfl, within⟩ := longestInboundDepth_eq sound.bounded typed sound.indexed inbound
  obtain ⟨pointers, indexed⟩ := withdrawStanding_indexed sound.indexed withdrew
  refine ⟨?_, ?_⟩
  · have redirected := sound.bounded.redirect (fun hops start walk => sound.bounded.le_height walk)
      (fun hops last walk => le_forwardDelegationDepth short walk) avoids
    simp only [adjustDelegatedToMe, addDelegator_delegation, pointers]
    refine redirected.mono (max_le_max le_rfl ?_)
    -- within the budget the sum does not reach the end of the type
    have limit := env.metered
    simp only [addCapped, hostInstructionLimit, u32Max] at shallow limit
    omega
  · have unlisted : delegator ∉ withdrawn.delegators delegate := by
      rw [indexed.listed, update_self]
      exact fun same => by cases same
    have added := indexed.add (update_self _ _ _) delegate
    rw [update_idem] at added
    simp only [adjustDelegatedToMe, addDelegator_delegation, pointers, addDelegator_delegators,
      if_neg unlisted]
    exact added

theorem GraphSound.undelegated (sound : GraphSound world.delegations bound)
    (ran : undelegateVotes env world delegator = .ok next) : GraphSound next.delegations bound := by
  obtain ⟨_, ⟨_, rfl⟩ | ⟨_, _, _, points, _, withdrew, rfl⟩⟩ :=
    undelegateVotes_spec ran
  · exact sound
  · obtain ⟨_, rfl⟩ := withdrawFrom_eq_ok.mp withdrew
    refine ⟨?_, sound.indexed.remove points⟩
    exact sound.bounded.cut delegator

def noteDepth (world : World) (action : Action contract) (largest : Nat) : Nat :=
  match action with
  | .invoke env (.delegateVotes delegator delegate) =>
    if succeeds world (.invoke env (.delegateVotes delegator delegate)) then
      max largest (getMaxDelegationDepth world.parameters)
    else largest
  | _ => largest

theorem le_noteDepth (world : World) (action : Action contract) (largest : Nat) :
    largest ≤ noteDepth world action largest := by
  unfold noteDepth
  split
  · split
    · exact le_max_left _ _
    · exact le_rfl
  · exact le_rfl

theorem step_graphSound (action : Action contract) (sound : GraphSound world.delegations bound)
    (typed : bound ≤ u32Max) :
    GraphSound (step world action).delegations (noteDepth world action bound) := by
  have grown := sound.mono (le_noteDepth world action bound)
  cases finished : succeeds world action with
  | false =>
    rw [step_of_failed finished]
    exact grown
  | true =>
    cases action with
    | invoke =>
      rcases (invoke_effect (invoke_of_succeeds finished)).delegations with
        same | ⟨delegator, _, rfl, ran⟩ | ⟨delegator, rfl, ran⟩
      · rw [same]
        exact grown
      · simp only [noteDepth, finished, if_true]
        exact sound.delegated typed ran
      · exact sound.undelegated ran
    | _ => exact grown

end Steps

theorem step_depth_typed {world : World} (action : Action contract)
    (typed : getMaxDelegationDepth world.parameters ≤ u32Max) :
    getMaxDelegationDepth (step world action).parameters ≤ u32Max := by
  cases finished : succeeds world action with
  | false =>
    rw [step_of_failed finished]
    exact typed
  | true =>
    cases action with
    | invoke =>
      have ran := invoke_of_succeeds finished
      rcases (invoke_effect ran).settings with ⟨_, _, same⟩ | ⟨_, _, default⟩ | ⟨_,
        rfl, counting⟩
      · exact same.le.trans typed
      · have typed : defaultMaxDelegationDepth ≤ u32Max := by decide
        exact default.le.trans typed
      · have set := congrArg Counting.depth counting
        simp only [invoke, ok_iff] at ran
        obtain ⟨_, typed, _⟩ := ran
        exact set.le.trans (of_decide_eq_true typed)
    | _ => exact typed

theorem noteDepth_typed {world : World} (action : Action contract) {largest : Nat}
    (typed : largest ≤ u32Max) (depth : getMaxDelegationDepth world.parameters ≤ u32Max) :
    noteDepth world action largest ≤ u32Max := by
  unfold noteDepth
  split
  · split
    · exact max_le typed depth
    · exact typed
  · exact typed

theorem genesis_graphSound (clock : Clock) (balance : Balances) :
    GraphSound (genesis clock balance).delegations 0 := by
  refine ⟨fun hops start target walk => ?_, fun target source => ?_, fun target => List.nodup_nil⟩
  · cases hops with
    | zero => exact le_rfl
    | succ => cases walk
  · constructor
    · intro listed
      cases listed
    · intro points
      cases points

theorem exec_graphSound (clock : Clock) (balance : Balances) (actions : List (Action contract)) :
    GraphSound (reach clock balance actions).delegations
        (noted step noteDepth 0 (genesis clock balance) actions) ∧
      noted step noteDepth 0 (genesis clock balance) actions ≤ u32Max := by
  have initial : defaultMaxDelegationDepth ≤ u32Max := by decide
  have kept : (GraphSound (reach clock balance actions).delegations
        (noted step noteDepth 0 (genesis clock balance) actions) ∧
      noted step noteDepth 0 (genesis clock balance) actions ≤ u32Max) ∧
      getMaxDelegationDepth (reach clock balance actions).parameters ≤ u32Max := by
    refine noted_induct (fun largest (world : World) => (GraphSound world.delegations largest ∧
      largest ≤ u32Max) ∧
      getMaxDelegationDepth world.parameters ≤ u32Max) ?_
      ⟨⟨genesis_graphSound clock balance, Nat.zero_le _⟩, initial⟩ Along.always
    rintro largest world action ⟨⟨sound, typed⟩, depth⟩ _
    exact ⟨⟨step_graphSound action sound typed, noteDepth_typed action typed depth⟩,
      step_depth_typed action depth⟩
  exact kept.1

/-- After every run the delegation graph has no cycle, no walk is longer than the largest maximum
depth at a successful `delegate_votes`, and the reverse lists hold every edge once and nothing else.
The loop of `longest_inbound_depth` ends, with the length of the longest walk into its start: the
host stops it or it returns that length. -/
theorem delegation_graph_shape (clock : Clock) (balance : Balances)
    (actions : List (Action contract)) :
    let delegations := (reach clock balance actions).delegations
    Acyclic delegations.delegation ∧
    (∀ hops start target, follow delegations.delegation hops start = some target →
      hops ≤ noted step noteDepth 0 (genesis clock balance) actions) ∧
    (∀ target, (delegations.delegators target).Nodup ∧
      ∀ source, source ∈ delegations.delegators target ↔
        delegations.delegation source = some target) ∧
    ∀ node, ∃ rounds length, (∃ start, follow delegations.delegation length start = some node) ∧
      (∀ hops start, follow delegations.delegation hops start = some node → hops ≤ length) ∧
      (∀ budget, rounds ≤ budget →
        (inboundLoop delegations.delegators budget (fun _ => none) [(node, false)]).map
          (fun best => (best node).getD 0) = some length) ∧
      ∀ env : Env contract, longestInboundDepth env delegations.delegators node = .error .trap ∧
        env.budget < rounds ∨ longestInboundDepth env delegations.delegators node = .ok length := by
  obtain ⟨⟨bounded, indexed⟩, typed⟩ := exec_graphSound clock balance actions
  refine ⟨bounded.acyclic, bounded, fun target => ⟨indexed.nodup target, indexed.listed target⟩,
    fun node => ?_⟩
  obtain ⟨rounds, ends⟩ := inboundLoop_exact bounded typed indexed node
  refine ⟨rounds, height _ node, bounded.height_reached node,
    fun hops start walk => bounded.le_height walk, ?_, ?_⟩
  · intro budget enough
    obtain ⟨after, run, settled⟩ := ends budget enough
    rw [run, Option.map_some, settled, Option.getD_some]
  · intro env
    cases run : longestInboundDepth env _ node with
    | ok =>
      obtain ⟨rfl, _⟩ := longestInboundDepth_eq bounded typed indexed run
      exact .inr rfl
    | error =>
      -- only the budget stops the loop
      simp only [longestInboundDepth] at run
      cases stopped : inboundLoop (reach clock balance actions).delegations.delegators
          env.budget (fun _ => none) [(node, false)] with
      | some best =>
        rw [stopped] at run
        cases run
      | none =>
        rw [stopped] at run
        cases run
        refine .inl ⟨rfl, not_le.mp fun enough => ?_⟩
        obtain ⟨after, ended, _⟩ := ends env.budget enough
        rw [stopped] at ended
        cases ended

end IlnGovernance
