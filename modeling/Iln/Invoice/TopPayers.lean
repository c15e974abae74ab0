import Iln.Invoice.PayerHeap
import Iln.Invoice.ScoreStores

/-! The list of top payers against the scores of all payers. It is not told of decay, and it forgets
whoever was displaced, so it is right as long as no decay is due on a listed score and no listed
score falls while the list is full. Payers that are not listed may decay: they only fall further
behind. -/
namespace InvoiceLiquidity

open FixedWidth Outcome Transition Function

section Ranking

def ScoreStore.stored (scores : ScoreStore) (payer : Address) : Nat :=
  (scores.payerScore payer).elim defaultPayerScore ReputationScore.score

def Placed (scores : ScoreStore) (payer : Address) : Prop :=
  Heap.Lists scores.topPayersHeap payer ∨ Heap.Outranks scores.topPayersHeap (scores.stored payer)

structure Ranked (scores : ScoreStore) : Prop where
  bounded : scores.Bounded
  heap : Heap.Sound scores.topPayersHeap
  listed : ∀ entry ∈ scores.topPayersHeap, scores.stored entry.address = entry.score
  placed : ∀ payer, (scores.payerScore payer).isSome → Placed scores payer

structure Advances (scores after : ScoreStore) : Prop where
  ranked : Ranked after
  placed : ∀ payer, Placed scores payer → Placed after payer

def Current (clock : Clock) (config : Option Config) (scores : ScoreStore) : Prop :=
  ∀ entry ∈ scores.topPayersHeap, scoreAt config clock.sequence (scores.payerScore entry.address) =
    scores.stored entry.address

variable {clock : Clock} {config : Option Config} {scores after : ScoreStore} {payer : Address}

theorem Advances.trans {final : ScoreStore} (first : Advances scores after)
    (second : Advances after final) : Advances scores final :=
  ⟨second.ranked, fun payer placed => second.placed payer (first.placed payer placed)⟩

theorem stored_congr (same : after.payerScore payer = scores.payerScore payer) :
    after.stored payer = scores.stored payer := by
  rw [ScoreStore.stored, ScoreStore.stored, same]

theorem scoreAt_le_stored (config : Option Config) (sequence : Nat) (scores : ScoreStore)
    (payer : Address) :
    scoreAt config sequence (scores.payerScore payer) ≤ scores.stored payer := by
  unfold ScoreStore.stored
  cases scores.payerScore payer with
  | none => exact le_rfl
  | some rep => exact scoreAt_le rep

theorem Ranked.lowered (ranked : Ranked scores) (bounded : after.Bounded)
    (heap : after.topPayersHeap = scores.topPayersHeap)
    (kept : ∀ entry ∈ scores.topPayersHeap, after.stored entry.address =
      scores.stored entry.address)
    (lower : ∀ payer, after.stored payer ≤ scores.stored payer)
    (known : ∀ payer, (after.payerScore payer).isSome → (scores.payerScore payer).isSome) :
    Advances scores after := by
  have placed : ∀ payer, Placed scores payer → Placed after payer := by
    unfold Placed
    rw [heap]
    intro payer placed
    exact placed.imp_right fun outranked =>
      ⟨outranked.1, fun entry member => (lower payer).trans (outranked.2 entry member)⟩
  refine ⟨⟨bounded, heap ▸ ranked.heap, ?_, fun payer some => placed payer
    (ranked.placed payer (known payer some))⟩, placed⟩
  rw [heap]
  exact fun entry member => (kept entry member).trans (ranked.listed entry member)

theorem Ranked.of_same (ranked : Ranked scores) (entries : after.payerScore = scores.payerScore)
    (heap : after.topPayersHeap = scores.topPayersHeap) : Advances scores after :=
  have same : ∀ payer, after.stored payer = scores.stored payer := fun payer =>
  stored_congr (congrFun entries payer)
  ranked.lowered (ranked.bounded.of_eq entries) heap (fun entry _ => same entry.address)
    (fun payer => (same payer).le) fun _ some => entries ▸ some

theorem getPayerScore_heap (clock : Clock) (config : Option Config) (scores : ScoreStore)
    (payer : Address) :
    (getPayerScore clock config scores payer).1.topPayersHeap = scores.topPayersHeap := by
  unfold getPayerScore
  split
  · rfl
  · rfl
  · dsimp only
    split
    · split <;> rfl
    · rfl

theorem stored_read (bounded : scores.Bounded) (clock : Clock) (config : Option Config)
    (payer : Address) :
    (getPayerScore clock config scores payer).1.stored payer =
      (getPayerScore clock config scores payer).2 ∧
      (getPayerScore clock config scores payer).2 ≤ scores.stored payer ∧
      (((getPayerScore clock config scores payer).1.payerScore payer).isSome =
        (scores.payerScore payer).isSome) := by
  obtain ⟨score, entries⟩ := getPayerScore_spec clock config (bounded payer)
  rw [score, ScoreStore.stored, entries, update_self]
  refine ⟨?_, scoreAt_le_stored .., Option.isSome_map⟩
  cases scores.payerScore payer with
  | none => rfl
  | some rep =>
    by_cases same : scoreAt config clock.sequence (some rep) = rep.score
    · rw [entryAfterRead_kept same]
      exact same.symm
    · rw [entryAfterRead_written same]
      rfl

theorem payerScore_read_of_ne (bounded : scores.Bounded) {other : Address}
    (different : other ≠ payer) :
    (getPayerScore clock config scores payer).1.payerScore other = scores.payerScore other := by
  rw [(getPayerScore_spec clock config (bounded payer)).2, update_of_ne different]

theorem payerScore_read_listed (bounded : scores.Bounded) (current : Current clock config scores)
    (payer : Address) :
    ∀ entry ∈ scores.topPayersHeap,
      (getPayerScore clock config scores payer).1.payerScore entry.address =
        scores.payerScore entry.address := by
  intro entry member
  by_cases own : entry.address = payer
  · have due := current entry member
    rw [own] at due ⊢
    rw [(getPayerScore_spec clock config (bounded payer)).2, update_self]
    unfold ScoreStore.stored at due
    cases stored : scores.payerScore payer with
    | none => rfl
    | some =>
      rw [stored] at due
      exact entryAfterRead_kept due
  · exact payerScore_read_of_ne bounded own

theorem Ranked.read (ranked : Ranked scores) (current : Current clock config scores)
    (payer : Address) : Advances scores (getPayerScore clock config scores payer).1 := by
  obtain ⟨stored, lower, known⟩ := stored_read ranked.bounded clock config payer
  apply ranked.lowered (getPayerScore_bounded clock config payer ranked.bounded).1
    (getPayerScore_heap ..)
  · exact fun entry member =>
      stored_congr (payerScore_read_listed ranked.bounded current payer entry member)
  · intro other
    by_cases own : other = payer
    · rw [own, stored]
      exact lower
    · exact (stored_congr (payerScore_read_of_ne ranked.bounded own)).le
  · intro other some
    by_cases own : other = payer
    · rw [own] at some ⊢
      rwa [known] at some
    · rwa [payerScore_read_of_ne ranked.bounded own] at some

theorem Adjusts.advances (adjusts : Adjusts clock config scores after) (ranked : Ranked scores)
    (current : Current clock config scores) :
    Advances scores after ∧ after.topPayersHeap = scores.topPayersHeap ∧
      (∀ entry ∈ scores.topPayersHeap, after.payerScore entry.address =
        scores.payerScore entry.address) ∧
      Current clock config after := by
  induction adjusts with
  | refl => exact ⟨⟨ranked, fun _ placed => placed⟩, rfl, fun _ _ => rfl, current⟩
  | @read middle payer _ ih =>
    obtain ⟨advances, heap, entries, still⟩ := ih
    have listed := payerScore_read_listed advances.ranked.bounded still payer
    have same := getPayerScore_heap clock config middle payer
    refine ⟨advances.trans (advances.ranked.read still payer), same.trans heap, ?_, ?_⟩
    · exact fun entry member => (listed entry (heap ▸ member)).trans (entries entry member)
    · intro entry member
      rw [same] at member
      rw [listed entry member, stored_congr (listed entry member)]
      exact still entry member
  | kept _ _ same kept ih =>
    obtain ⟨advances, heap, entries, still⟩ := ih
    refine ⟨advances.trans (advances.ranked.of_same same kept), kept.trans heap, ?_, ?_⟩
    · rwa [same]
    · intro entry member
      rw [same, stored_congr (congrFun same _)]
      exact still entry (kept ▸ member)

theorem setPayerScore_heap (clock : Clock) (config : Option Config) (scores : ScoreStore)
    (payer : Address) (score : Nat) :
    (setPayerScore clock config scores payer score).topPayersHeap =
      if (getPayerScore clock config scores payer).2 = min score 100 then scores.topPayersHeap
      else insertIntoHeap (removePayerFromHeap scores.topPayersHeap payer) payer
        (min score 100) := by
  have heap := getPayerScore_heap clock config scores payer
  rw [setPayerScore_eq]
  dsimp only
  split
  · exact heap
  · rw [← heap]
    rfl

theorem stored_set (clock : Clock) (config : Option Config) (scores : ScoreStore) (payer : Address)
    (score : Nat) :
    (setPayerScore clock config scores payer score).stored payer = min score 100 := by
  rw [ScoreStore.stored, setPayerScore_payerScore, update_self]
  split
  · rename_i standard
    exact standard.symm
  · rfl

theorem Ranked.updated (ranked : Ranked scores) (bounded : after.Bounded) {score : Nat}
    (others : ∀ other, other ≠ payer → after.payerScore other = scores.payerScore other)
    (own : after.stored payer = score)
    (heap : after.topPayersHeap = insertIntoHeap (removePayerFromHeap scores.topPayersHeap payer)
      payer score)
    (steady : topPayersCapacity ≤ scores.topPayersHeap.length →
      Heap.Lists scores.topPayersHeap payer → scores.stored payer ≤ score) :
        Advances scores after := by
  obtain ⟨ordered, update⟩ := update_cases ranked.heap payer score
  rw [← heap] at ordered update
  have placed : ∀ other, Placed scores other ∨ other = payer → Placed after other := by
    intro other held
    by_cases here : other = payer
    · subst here
      rw [Placed, own]
      exact update.own_placed
    · rw [Placed, stored_congr (others other here)]
      rcases held.resolve_right here with ⟨entry, member, rfl⟩ | outranked
      · rw [ranked.listed entry member]
        exact update.other_placed member here
      · refine .inr (update.outranks outranked ?_)
        rintro ⟨entry, member, rfl⟩
        refine (outranked.2 entry member).trans ?_
        rw [← ranked.listed entry member]
        exact steady outranked.1 ⟨entry, member, rfl⟩
  refine ⟨⟨bounded, update.sound ranked.heap ordered, ?_, ?_⟩,
    fun other held => placed other (.inl held)⟩
  · intro entry member
    rcases update.listed member with rfl | ⟨held, here⟩
    · exact own
    · rw [stored_congr (others _ here)]
      exact ranked.listed entry held
  · intro other some
    apply placed
    by_cases here : other = payer
    · exact .inr here
    · rw [others other here] at some
      exact .inl (ranked.placed other some)

theorem Ranked.set (ranked : Ranked scores) (current : Current clock config scores)
    (payer : Address) (score : Nat)
    (steady : topPayersCapacity ≤ scores.topPayersHeap.length →
      Heap.Lists scores.topPayersHeap payer → scores.stored payer ≤ min score 100) :
        Advances scores (setPayerScore clock config scores payer score) := by
  have read := ranked.read current payer
  obtain ⟨shown, lower, _⟩ := stored_read ranked.bounded clock config payer
  have bounded : (setPayerScore clock config scores payer score).Bounded :=
    setPayerScore_bounded ranked.bounded score
  have own := stored_set clock config scores payer score
  have heap := setPayerScore_heap clock config scores payer score
  have entries := setPayerScore_payerScore clock config scores payer score
  have others : ∀ other, other ≠ payer → (setPayerScore clock config scores payer score).payerScore
      other = (getPayerScore clock config scores payer).1.payerScore other := by
    intro other different
    rw [entries, update_of_ne different]
  rw [← getPayerScore_heap clock config scores payer] at heap steady
  apply read.trans
  split at heap
  · rename_i same
    -- the score is written once more, and the list is not told
    have still : ∀ other, (setPayerScore clock config scores payer score).stored other =
        (getPayerScore clock config scores payer).1.stored other := by
      intro other
      by_cases here : other = payer
      · rw [here, own, shown, same]
      · exact stored_congr (others other here)
    apply read.ranked.lowered bounded heap (fun entry _ => still entry.address)
      fun other => (still other).le
    intro other some
    by_cases here : other = payer
    · subst here
      by_contra missing
      have standard : (getPayerScore clock config scores other).1.stored other =
          defaultPayerScore := by
        rw [ScoreStore.stored, Option.not_isSome_iff_eq_none.mp missing]
        rfl
      rw [entries, update_self, if_pos (same.symm.trans (shown.symm.trans standard))] at some
      cases some
    · rwa [others other here] at some
  · refine read.ranked.updated bounded others own heap fun full lists => ?_
    rw [shown]
    exact lower.trans (steady full lists)

end Ranking

section Runs

variable {contract : Address}

def ListedCurrent (world : World) : Prop :=
  ∀ entry ∈ world.scores.topPayersHeap, ∀ rep ∈ world.scores.payerScore entry.address,
    Undecayed world.control.config world.clock.sequence rep

def SparesListed (world : World) (action : Action contract) : Prop :=
  topPayersCapacity ≤ world.scores.topPayersHeap.length → ∀ entry ∈ world.scores.topPayersHeap,
    world.scoreOf entry.address ≤ (step world action).scoreOf entry.address

def ChangesScore (payer : Address) (world : World) (action : Action contract) : Prop :=
  (step world action).scoreOf payer ≠ world.scoreOf payer

instance (world : World) : Decidable (ListedCurrent world) :=
  inferInstanceAs (Decidable (∀ entry ∈ world.scores.topPayersHeap,
    ∀ rep ∈ world.scores.payerScore entry.address, _))

instance (world : World) (action : Action contract) : Decidable (SparesListed world action) :=
  inferInstanceAs (Decidable (topPayersCapacity ≤ world.scores.topPayersHeap.length →
    ∀ entry ∈ world.scores.topPayersHeap, world.scoreOf entry.address ≤
      (step world action).scoreOf entry.address))

instance (payer : Address) (world : World) (action : Action contract) :
    Decidable (ChangesScore payer world action) :=
  inferInstanceAs (Decidable (_ ≠ _))

variable {world : World}

theorem ListedCurrent.current (listed : ListedCurrent world) :
    Current world.clock world.control.config world.scores := by
  intro entry member
  cases stored : world.scores.payerScore entry.address with
  | none =>
    rw [ScoreStore.stored, stored]
    rfl
  | some rep =>
    rw [scoreAt_eq_iff.mpr (listed entry member rep stored), ScoreStore.stored, stored]
    rfl

theorem step_advances (filed : Filed world.book) (ranked : Ranked world.scores)
    (listed : ListedCurrent world) (action : Action contract) (spares : SparesListed world action) :
    Advances world.scores (step world action).scores := by
  have current := listed.current
  obtain ⟨_, rates, _⟩ := step_rates filed action
  cases rates with
  | quiet adjusts => exact (adjusts.advances ranked current).1
  | set payer score adjusts _ entries heap =>
    obtain ⟨first, same, kept, still⟩ := adjusts.advances ranked current
    suffices set : Advances _ (setPayerScore world.clock world.control.config _ payer score) by
      exact first.trans (set.trans (set.ranked.of_same entries heap))
    apply first.ranked.set still payer score
    rw [same]
    rintro full ⟨entry, member, rfl⟩
    have bounded : (step world action).scores.Bounded :=
      (setPayerScore_bounded first.ranked.bounded score).of_eq entries
    calc _ = world.scores.stored entry.address := stored_congr (kept entry member)
      _ = world.scoreOf entry.address := by rw [World.scoreOf_eq ranked.bounded,
        current entry member]
      _ ≤ (step world action).scoreOf entry.address := spares full entry member
      _ ≤ (step world action).scores.stored entry.address := by
        rw [World.scoreOf_eq bounded]
        exact scoreAt_le_stored ..
      _ = min score 100 := by
        rw [stored_congr (congrFun entries entry.address)]
        exact stored_set ..

/-- Only a payer with a stored score, before or after, sees its score change. -/
theorem placed_of_changed {action : Action contract} {payer : Address}
    (ranked : Ranked world.scores) (advances : Advances world.scores (step world action).scores)
    (changed : ChangesScore payer world action) : Placed (step world action).scores payer := by
  by_cases before : (world.scores.payerScore payer).isSome
  · exact advances.placed payer (ranked.placed payer before)
  · apply advances.ranked.placed
    by_contra after
    apply changed
    rw [World.scoreOf_eq ranked.bounded, World.scoreOf_eq advances.ranked.bounded,
      Option.not_isSome_iff_eq_none.mp before, Option.not_isSome_iff_eq_none.mp after]
    rfl

theorem exec_advances {actions : List (Action contract)} (filed : Filed world.book)
    (ranked : Ranked world.scores) (current : Throughout step ListedCurrent world actions)
    (spares : Along step SparesListed world actions) :
    Advances world.scores (exec step world actions).scores ∧
      ∀ payer, Happened step (ChangesScore payer) world actions →
        Placed (exec step world actions).scores payer := by
  induction actions generalizing world with
  | nil => exact ⟨⟨ranked, fun _ placed => placed⟩, fun _ never => never.elim⟩
  | cons action rest ih =>
    have first := step_advances filed ranked current.1 action spares.1
    obtain ⟨later, changed⟩ := ih (exec_filed filed [action]) first.ranked current.2 spares.2
    refine ⟨first.trans later, fun payer happened => ?_⟩
    rcases happened with now | afterwards
    · exact later.placed payer (placed_of_changed ranked first now)
    · exact changed payer afterwards

theorem genesis_ranked (clock : Clock) (balance : Balances) :
    Ranked (genesis clock balance).scores := by
  refine ⟨(by rintro _ _ ⟨⟩), ⟨?_, List.nodup_nil, Nat.zero_le _⟩,
    (by rintro _ ⟨⟩), (by rintro _ ⟨⟩)⟩
  intro index _ within
  exact absurd within (Nat.not_lt_zero index)

theorem mem_getTopPayers_of_short {heap : Heap} (sound : heap.Sound) {limit : Nat}
    (short : (getTopPayers heap limit).length < limit) {entry : TopPayerEntry}
    (listed : entry ∈ heap) : entry ∈ getTopPayers heap limit := by
  by_contra left
  have more : entry :: getTopPayers heap limit ⊆ heap :=
    List.cons_subset.mpr ⟨listed, fun _ member => mem_getTopPayers member⟩
  have distinct := List.nodup_cons.mpr ⟨left, (getTopPayers_nodup sound limit).of_map _⟩
  have many := (List.subperm_of_subset distinct more).length_le
  rw [List.length_cons] at many
  rw [getTopPayers_length] at short many
  omega

/-- As long as no decay is due on a listed score, and none falls while the list is full,
`get_top_payers` shows the current scores of payers whom none of the others with a changed score
exceeds; when it shows fewer than were asked for, it shows all of them. -/
theorem top_payers_current (clock : Clock) (balance : Balances) (actions : List (Action contract))
    (limit : Nat) (current : Throughout step ListedCurrent (genesis clock balance) actions)
    (spares : Along step SparesListed (genesis clock balance) actions) :
    let world := reach clock balance actions
    let top := getTopPayers world.scores.topPayersHeap limit
    let changed := fun payer => Happened step (ChangesScore payer) (genesis clock balance) actions
    (∀ entry ∈ top, entry.score = world.scoreOf entry.address) ∧
      top.Pairwise (fun earlier later => later.score ≤ earlier.score) ∧
      (top.map TopPayerEntry.address).Nodup ∧
      (∀ payer, changed payer → payer ∉ top.map TopPayerEntry.address →
        ∀ entry ∈ top, world.scoreOf payer ≤ entry.score) ∧
      (limit ≤ topPayersCapacity → top.length < limit →
        ∀ payer, changed payer → payer ∈ top.map TopPayerEntry.address) := by
  intro world top changed
  obtain ⟨⟨ranked, _⟩, placed⟩ := exec_advances (genesis_filed clock balance)
    (genesis_ranked clock balance) current spares
  have shown : ∀ entry ∈ world.scores.topPayersHeap, world.scoreOf entry.address = entry.score := by
    intro entry member
    rw [World.scoreOf_eq ranked.bounded, current.last.current entry member]
    exact ranked.listed entry member
  refine ⟨fun entry member => (shown entry (mem_getTopPayers member)).symm,
    getTopPayers_descending _ _, getTopPayers_nodup ranked.heap limit, ?_, ?_⟩
  · intro payer happened missing chosen member
    rcases placed payer happened with ⟨entry, listed, rfl⟩ | outranked
    · rw [shown entry listed]
      exact getTopPayers_above listed (fun again => missing (List.mem_map_of_mem again)) member
    · rw [World.scoreOf_eq ranked.bounded payer]
      exact (scoreAt_le_stored ..).trans (outranked.2 chosen (mem_getTopPayers member))
  · intro few short payer happened
    rcases placed payer happened with ⟨entry, listed, rfl⟩ | ⟨full, _⟩
    · exact List.mem_map_of_mem (mem_getTopPayers_of_short ranked.heap short listed)
    · have size : top.length = min limit world.scores.topPayersHeap.length :=
        getTopPayers_length _ _
      have many : topPayersCapacity ≤ world.scores.topPayersHeap.length := full
      omega

theorem top_payers_current_of_defaultedPayer :
    getTopPayers (traded defaultedPayer).scores.topPayersHeap 10 = [⟨⟨2⟩, 45⟩] ∧
      (traded defaultedPayer).scoreOf ⟨2⟩ = 45 := by
  have shown : getTopPayers (traded defaultedPayer).scores.topPayersHeap 10 =
    [⟨⟨2⟩, 45⟩] := by decide +kernel
  refine ⟨shown, ?_⟩
  have current := (top_payers_current ⟨1000, 10⟩ marketBalances defaultedPayer 10
    (by decide +kernel) (by decide +kernel)).1 ⟨⟨2⟩, 45⟩
  exact (current (shown ▸ List.mem_singleton_self _)).symm

/-- Twenty ledgers later the score has decayed to 37, and the list still shows 45. -/
theorem top_payers_stale :
    getTopPayers (traded (defaultedPayer ++ [.advance 100 20])).scores.topPayersHeap 10 =
      [⟨⟨2⟩, 45⟩] ∧ (traded (defaultedPayer ++ [.advance 100 20])).scoreOf ⟨2⟩ = 37 := by
  decide +kernel

end Runs

end InvoiceLiquidity
