import Iln.Foundation.HeapOrder
import Iln.Foundation.Transition
import Iln.Invoice.Reputation

/-! The bounded heap behind `get_top_payers` (`top_payers.rs`): an update takes the payer out and
puts it back with the new score, if there is room or a lower score to displace. Everything but the
heap property is stated up to the order of the entries. -/
namespace InvoiceLiquidity

open HeapOrder

/-- The inner loop over the unused indices is `greatest`, the outer one `select`. -/
def getTopPayers (heap : Heap) (limit : Nat) : List TopPayerEntry :=
  (select heap.score heap.length (min limit heap.length) []).filterMap (heap[·]?)

def Heap.Ordered (heap : Heap) : Prop := HeapOrder.Ordered heap.length heap.score

structure Heap.Sound (heap : Heap) : Prop where
  ordered : heap.Ordered
  nodup : (heap.map TopPayerEntry.address).Nodup
  small : heap.length ≤ topPayersCapacity

def Heap.Lists (heap : Heap) (payer : Address) : Prop := ∃ entry ∈ heap, entry.address = payer

def Heap.Outranks (heap : Heap) (bound : Nat) : Prop :=
  topPayersCapacity ≤ heap.length ∧ ∀ entry ∈ heap, bound ≤ entry.score

inductive Makes (payer : Address) (score : Nat) (heap : Heap) : Option TopPayerEntry → Prop
  | way {old : TopPayerEntry} (own : old.address = payer) : Makes payer score heap (some old)
  | room (room : heap.length < topPayersCapacity) : Makes payer score heap none
  | space {least : TopPayerEntry} (unlisted : ∀ entry ∈ heap, entry.address ≠ payer)
      (full : topPayersCapacity ≤ heap.length) (lowest : ∀ entry ∈ heap, least.score ≤ entry.score)
      (higher : least.score < score) : Makes payer score heap (some least)

inductive HeapUpdate (payer : Address) (score : Nat) (heap next : Heap) : Prop
  | placed (gone : Option TopPayerEntry) (rest : Heap) (makes : Makes payer score heap gone)
      (listed : (gone.toList ++ rest).Perm heap) (others : ∀ entry ∈ rest, entry.address ≠ payer)
      (updated : next.Perm (⟨payer, score⟩ :: rest))
  | refused (unlisted : ∀ entry ∈ heap, entry.address ≠ payer)
      (full : topPayersCapacity ≤ heap.length) (low : ∀ entry ∈ heap, score ≤ entry.score)
      (updated : next = heap)

variable {heap : Heap} {payer : Address} {index : Nat}

theorem Heap.score_of_stored {entry : TopPayerEntry} (stored : heap[index]? = some entry) :
    heap.score index = entry.score := by
  rw [Heap.score, stored]
  rfl

theorem Heap.score_congr {other : Heap} (same : other[index]? = heap[index]?) :
    other.score index = heap.score index := by
  rw [Heap.score, Heap.score, same]

theorem Heap.swap_eq {one other : Nat} (first : one < heap.length) (second : other < heap.length) :
    heap.swap one other = (heap.set one heap[other]).set other heap[one] := by
  rw [Heap.swap, List.getElem?_eq_getElem first, List.getElem?_eq_getElem second]

theorem Heap.swap_perm {one other : Nat} (first : one < heap.length)
    (second : other < heap.length) : (heap.swap one other).Perm heap := by
  rw [Heap.swap_eq first second]
  exact List.set_set_perm first second

theorem Heap.score_swap {one other : Nat} (first : one < heap.length)
    (second : other < heap.length) :
    (heap.swap one other).score = exchange heap.score one other := by
  funext place
  rw [Heap.swap_eq first second]
  by_cases right : place = other
  · subst right
    rw [Heap.score_of_stored (List.getElem?_set_self (by rwa [List.length_set]))]
    by_cases left : place = one
    · subst left
      rw [exchange_left, Heap.score_of_stored (List.getElem?_eq_getElem first)]
    · rw [exchange_right _ left, Heap.score_of_stored (List.getElem?_eq_getElem first)]
  · rw [Heap.score_congr (List.getElem?_set_ne (Ne.symm right))]
    by_cases left : place = one
    · subst left
      rw [exchange_left, Heap.score_of_stored (List.getElem?_set_self first),
        Heap.score_of_stored (List.getElem?_eq_getElem second)]
    · rw [exchange_of_ne _ left right, Heap.score_congr (List.getElem?_set_ne (Ne.symm left))]

theorem siftUp_spec {fuel : Nat} (enough : index ≤ fuel) (within : index < heap.length)
    (up : UpOrder heap.length heap.score index) : (siftUp fuel heap index).Perm heap ∧
      (siftUp fuel heap index).Ordered := by
  induction fuel generalizing heap index with
  | zero => exact ⟨.refl _, up.finish fun positive => absurd enough (by omega)⟩
  | succ fuel ih =>
    rw [siftUp]
    split
    · exact ⟨.refl _, up.finish fun positive => absurd positive (by omega)⟩
    · split
      · rename_i settled
        exact ⟨.refl _, up.finish fun _ => settled⟩
      · rename_i nonroot above
        have inside : (index - 1) / 2 < heap.length := by omega
        have swapped := Heap.swap_perm within inside
        have moved := up.move (Nat.pos_of_ne_zero nonroot) within (not_le.mp above)
        rw [← Heap.score_swap within inside, ← swapped.length_eq] at moved
        obtain ⟨perm, ordered⟩ := ih (by omega) (by rwa [swapped.length_eq]) moved
        exact ⟨perm.trans swapped, ordered⟩

theorem smallestOf_cases (heap : Heap) (index : Nat) : (smallestOf heap index = index ∨
      (smallestOf heap index = 2 * index + 1 ∨ smallestOf heap index = 2 * index + 2) ∧
        smallestOf heap index < heap.length ∧
        heap.score (smallestOf heap index) < heap.score index) ∧
    ∀ child, 0 < child → child < heap.length → (child - 1) / 2 = index →
      heap.score (smallestOf heap index) ≤ heap.score child := by
  have children : ∀ child, 0 < child → (child - 1) / 2 = index → child = 2 * index + 1 ∨
      child = 2 * index + 2 := by
    omega
  unfold smallestOf
  dsimp only
  split <;> split <;> rename_i left right
  all_goals
    refine ⟨by omega, fun child positive within under => ?_⟩
    rcases children child positive under with rfl | rfl <;> omega

theorem siftDown_spec {fuel : Nat} (enough : heap.length ≤ fuel + index)
    (within : index < heap.length) (down : DownOrder heap.length heap.score index) :
    (siftDown fuel heap index).Perm heap ∧ (siftDown fuel heap index).Ordered := by
  induction fuel generalizing heap index with
  | zero => omega
  | succ fuel ih =>
    obtain ⟨place, least⟩ := smallestOf_cases heap index
    rw [siftDown]
    generalize smallestOf heap index = smallest at place least ⊢
    split
    · rename_i here
      subst here
      exact ⟨.refl _, down.finish least⟩
    · rename_i elsewhere
      obtain ⟨below, inside, lower⟩ := place.resolve_left elsewhere
      have swapped := Heap.swap_perm within inside
      have moved := down.move below lower least inside
      rw [← Heap.score_swap within inside, ← swapped.length_eq] at moved
      obtain ⟨perm, ordered⟩ := ih (by rw [swapped.length_eq]; omega)
        (by rwa [swapped.length_eq]) moved
      exact ⟨perm.trans swapped, ordered⟩

theorem removePayerFromHeap_unlisted (unlisted : ∀ entry ∈ heap, entry.address ≠ payer) :
    removePayerFromHeap heap payer = heap := by
  have missing : heap.findIdx? (fun entry => entry.address == payer) = none :=
    List.findIdx?_eq_none_iff.mpr fun entry listed =>
    beq_eq_false_iff_ne.mpr (unlisted entry listed)
  rw [removePayerFromHeap, missing]

/-- The last entry takes the place of the payer's and is sifted in one direction. -/
theorem removePayerFromHeap_listed (ordered : heap.Ordered) {entry : TopPayerEntry}
    (listed : entry ∈ heap) (own : entry.address = payer) :
    (removePayerFromHeap heap payer).Ordered ∧
      ∃ old : TopPayerEntry, old.address = payer ∧
      (old :: removePayerFromHeap heap payer).Perm heap := by
  rcases List.eq_nil_or_concat' heap with rfl | ⟨front, last, rfl⟩
  · cases listed
  rw [removePayerFromHeap]
  cases found : (front ++ [last]).findIdx? (fun entry => entry.address == payer) with
  | none =>
    exact absurd own (beq_eq_false_iff_ne.mp (List.findIdx?_eq_none_iff.mp found entry listed))
  | some index =>
    obtain ⟨within, matched, _⟩ := List.findIdx?_eq_some_iff_getElem.mp found
    rw [List.length_append, List.length_singleton] at within
    have ends : (front ++ [last])[front.length + 1 - 1]? = some last := by
      rw [Nat.add_sub_cancel, List.getElem?_concat_length]
    have kept : ∀ place, place < front.length → front[place]? = (front ++ [last])[place]? :=
      fun place inside => (List.getElem?_append_left inside).symm
    simp only [List.length_append, List.length_singleton, ends]
    by_cases final : index = front.length
    · subst final
      rw [if_pos (Nat.add_sub_cancel ..).symm, List.dropLast_concat, if_neg (lt_irrefl _)]
      refine ⟨?_, last, ?_, (List.perm_append_singleton last front).symm⟩
      · intro place positive inside
        rw [Heap.score_congr (kept place inside), Heap.score_congr (kept _ (by omega))]
        exact ordered place positive (by rw [List.length_append]; omega)
      · simpa using matched
    · have inner : index < front.length := by omega
      rw [if_neg (show ¬ index = front.length + 1 - 1 by omega), List.set_append_left _ _ inner,
        List.dropLast_concat, if_pos (inner.trans_eq List.length_set.symm)]
      have address : front[index].address = payer := by
        simpa [List.getElem_append_left inner] using matched
      have replaced : (front[index] :: front.set index last).Perm (front ++ [last]) := by
        apply ((List.set_perm_cons_eraseIdx inner last).cons _).trans
        apply (List.Perm.swap last front[index] _).trans
        apply ((List.getElem_cons_eraseIdx_perm inner).cons last).trans
        exact (List.perm_append_singleton last front).symm
      have same : ∀ place, place < front.length → place ≠ index →
          Heap.score (front.set index last) place = Heap.score (front ++ [last]) place := by
        intro place inside other
        rw [Heap.score_congr (List.getElem?_set_ne (Ne.symm other)),
          Heap.score_congr (kept place inside)]
      obtain ⟨up, down⟩ := Ordered.replace (Heap.score (front.set index last)) ordered
        (by rw [List.length_append]; omega) inner same
      rw [← (List.length_set : (front.set index last).length = _)] at up down inner
      split
      · rename_i climbs
        obtain ⟨perm, sifted⟩ := siftUp_spec le_rfl inner (up climbs.1 climbs.2.le)
        exact ⟨sifted, _, address, (perm.cons _).trans replaced⟩
      · rename_i stays
        obtain ⟨perm, sifted⟩ := siftDown_spec (Nat.le_add_right _ _) inner
          (down fun nonroot => not_lt.mp fun low => stays ⟨nonroot, low⟩)
        exact ⟨sifted, _, address, (perm.cons _).trans replaced⟩

theorem insertIntoHeap_room (ordered : heap.Ordered) (room : heap.length < topPayersCapacity)
    (payer : Address) (score : Nat) :
    (insertIntoHeap heap payer score).Ordered ∧ (insertIntoHeap heap payer score).Perm
      (⟨payer, score⟩ :: heap) := by
  rw [insertIntoHeap, if_pos room]
  have grown : (heap ++ [(⟨payer, score⟩ : TopPayerEntry)]).length = heap.length + 1 := by simp
  have up := Ordered.push (Heap.score (heap ++ [⟨payer, score⟩])) ordered fun index within =>
    Heap.score_congr (List.getElem?_append_left within)
  rw [← grown] at up
  obtain ⟨perm, sifted⟩ := siftUp_spec le_rfl (by omega) up
  exact ⟨sifted, perm.trans (List.perm_append_singleton _ _)⟩

theorem insertIntoHeap_full (ordered : heap.Ordered) (full : topPayersCapacity ≤ heap.length)
    (unlisted : ∀ entry ∈ heap, entry.address ≠ payer) (score : Nat) :
    (insertIntoHeap heap payer score).Ordered ∧ HeapUpdate payer score heap
      (insertIntoHeap heap payer score) := by
  rcases heap with _ | ⟨root, rest⟩
  · exact absurd full (by decide)
  have lowest : ∀ entry ∈ root :: rest, root.score ≤ entry.score := by
    intro entry listed
    obtain ⟨index, within, rfl⟩ := List.getElem_of_mem listed
    have least := ordered.root_le index within
    rwa [Heap.score_of_stored (List.getElem?_eq_getElem within)] at least
  rw [insertIntoHeap, if_neg (not_lt.mpr full)]
  split
  · rename_i low
    exact ⟨ordered, .refused unlisted full (fun entry listed => low.trans (lowest entry listed))
      rfl⟩
  · rename_i high
    have down := (Ordered.replace (Heap.score ((root :: rest).set 0 ⟨payer, score⟩)) ordered le_rfl
      (Nat.zero_lt_succ _) fun index _ other => Heap.score_congr
      (List.getElem?_set_ne (Ne.symm other))).2
      fun nonroot => absurd nonroot (lt_irrefl 0)
    obtain ⟨perm, sifted⟩ := @siftDown_spec ((root :: rest).set 0 ⟨payer, score⟩) 0
      (root :: rest).length (Nat.le_add_right _ _) (Nat.zero_lt_succ _) down
    exact ⟨sifted, .placed (some root) rest (.space unlisted full lowest (not_le.mp high)) (.refl _)
      (fun entry member => unlisted entry (List.mem_cons_of_mem root member)) perm⟩

theorem update_cases (sound : heap.Sound) (payer : Address) (score : Nat) :
    (insertIntoHeap (removePayerFromHeap heap payer) payer score).Ordered ∧
      HeapUpdate payer score heap
        (insertIntoHeap (removePayerFromHeap heap payer) payer score) := by
  by_cases listed : heap.Lists payer
  · obtain ⟨entry, member, own⟩ := listed
    obtain ⟨ordered, old, rfl, perm⟩ := removePayerFromHeap_listed sound.ordered member own
    have shorter := perm.length_eq
    rw [List.length_cons] at shorter
    have small := sound.small
    obtain ⟨sifted, grown⟩ := insertIntoHeap_room ordered (by omega) old.address score
    have nodup := (perm.map TopPayerEntry.address).nodup_iff.mpr sound.nodup
    rw [List.map_cons, List.nodup_cons] at nodup
    exact ⟨sifted, .placed (some old) _ (.way rfl) perm
      (fun entry kept same => nodup.1 (List.mem_map.mpr ⟨entry, kept, same⟩)) grown⟩
  · have unlisted : ∀ entry ∈ heap, entry.address ≠ payer := fun entry member own =>
      listed ⟨entry, member, own⟩
    rw [removePayerFromHeap_unlisted unlisted]
    rcases Nat.lt_or_ge heap.length topPayersCapacity with room | full
    · obtain ⟨sifted, grown⟩ := insertIntoHeap_room sound.ordered room payer score
      exact ⟨sifted, .placed none heap (.room room) (.refl _) unlisted grown⟩
    · exact insertIntoHeap_full sound.ordered full unlisted score

namespace HeapUpdate

variable {next : Heap} {score : Nat}

theorem sound (update : HeapUpdate payer score heap next) (before : heap.Sound)
    (ordered : next.Ordered) : next.Sound := by
  cases update with
  | refused _ _ _ updated => exact updated ▸ before
  | placed gone rest makes listed others updated =>
    refine ⟨ordered, ?_, ?_⟩
    · rw [(updated.map _).nodup_iff, List.map_cons, List.nodup_cons]
      constructor
      · intro member
        obtain ⟨entry, kept, own⟩ := List.mem_map.mp member
        exact others entry kept own
      · exact ((listed.map TopPayerEntry.address).nodup_iff.mpr before.nodup).sublist
          ((List.sublist_append_right _ _).map _)
    · have size := listed.length_eq
      rw [updated.length_eq, List.length_cons]
      rw [List.length_append] at size
      have small := before.small
      cases makes with
      | way | space => simp only [Option.toList_some, List.length_singleton] at size; omega
      | room => simp only [Option.toList_none, List.length_nil] at size; omega

theorem listed (update : HeapUpdate payer score heap next) {entry : TopPayerEntry}
    (member : entry ∈ next) : entry = ⟨payer, score⟩ ∨ entry ∈ heap ∧ entry.address ≠ payer := by
  cases update with
  | refused unlisted _ _ updated =>
    subst updated
    exact .inr ⟨member, unlisted entry member⟩
  | placed _ _ _ listed others updated =>
    rcases List.mem_cons.mp (updated.subset member) with new | kept
    · exact .inl new
    · exact .inr ⟨listed.subset (List.mem_append_right _ kept), others entry kept⟩

/-- In a full list, a score that all listed ones reach is reached by all afterwards, unless the
payer was listed and fell below it. -/
theorem outranks (update : HeapUpdate payer score heap next) {bound : Nat}
    (held : heap.Outranks bound) (steady : heap.Lists payer → bound ≤ score) :
    next.Outranks bound := by
  obtain ⟨full, below⟩ := held
  cases update with
  | refused _ _ _ updated => exact updated ▸ ⟨full, below⟩
  | placed gone rest makes listed others updated =>
    have kept : ∀ entry ∈ rest, bound ≤ entry.score := fun entry member =>
      below entry (listed.subset (List.mem_append_right _ member))
    -- one entry makes room for another that is not below the bound
    have reached : ∃ old, gone = some old ∧ bound ≤ score := by
      cases makes with
      | room => omega
      | way own => exact ⟨_, rfl, steady ⟨_, listed.subset List.mem_cons_self, own⟩⟩
      | space _ _ _ higher =>
        exact ⟨_, rfl, (below _ (listed.subset List.mem_cons_self)).trans higher.le⟩
    obtain ⟨old, rfl, high⟩ := reached
    refine ⟨full.trans_eq (updated.length_eq.trans listed.length_eq).symm, fun entry member => ?_⟩
    rcases List.mem_cons.mp (updated.subset member) with rfl | other
    · exact high
    · exact kept entry other

theorem own_placed (update : HeapUpdate payer score heap next) :
    next.Lists payer ∨ next.Outranks score := by
  cases update with
  | refused _ full low updated => exact .inr (updated ▸ ⟨full, low⟩)
  | placed _ _ _ _ _ updated => exact .inl ⟨_, updated.symm.subset List.mem_cons_self, rfl⟩

/-- Another payer leaves the list only for a higher score than its own, the lowest one. -/
theorem other_placed (update : HeapUpdate payer score heap next) {entry : TopPayerEntry}
    (held : entry ∈ heap) (other : entry.address ≠ payer) :
    next.Lists entry.address ∨ next.Outranks entry.score := by
  have raised : heap.Outranks entry.score → (heap.Lists payer → entry.score ≤ score) →
    next.Outranks entry.score := update.outranks
  cases update with
  | refused _ _ _ updated => exact .inl ⟨entry, updated ▸ held, rfl⟩
  | placed gone rest makes listed _ updated =>
    rcases List.mem_append.mp (listed.symm.subset held) with left | kept
    · cases makes with
      | room => cases left
      | way own =>
        cases List.mem_singleton.mp left
        exact absurd own other
      | space unlisted full lowest =>
        cases List.mem_singleton.mp left
        exact .inr (raised ⟨full, lowest⟩ fun ⟨found, member, own⟩ => absurd own
          (unlisted found member))
    · exact .inl ⟨entry, updated.symm.subset (List.mem_cons_of_mem _ kept), rfl⟩

end HeapUpdate

theorem mem_getTopPayers {limit : Nat} {entry : TopPayerEntry}
    (listed : entry ∈ getTopPayers heap limit) : entry ∈ heap := by
  obtain ⟨_, _, stored⟩ := List.mem_filterMap.mp listed
  exact List.mem_of_getElem? stored

theorem getTopPayers_length (heap : Heap) (limit : Nat) :
    (getTopPayers heap limit).length = min limit heap.length := by
  rw [getTopPayers, List.length_filterMap_eq_countP, List.countP_eq_length.mpr]
  · apply select_length
    rw [List.length_nil, Nat.zero_add]
    exact min_le_right _ _
  · intro index chosen
    rw [List.getElem?_eq_getElem (select_fresh chosen).1]
    rfl

theorem getTopPayers_descending (heap : Heap) (limit : Nat) :
    (getTopPayers heap limit).Pairwise fun earlier later => later.score ≤ earlier.score := by
  rw [getTopPayers, List.pairwise_filterMap]
  apply (select_descending _).imp
  intro earlier later ordered first stored second found
  rwa [Heap.score_of_stored stored, Heap.score_of_stored found] at ordered

theorem getTopPayers_nodup (sound : heap.Sound) (limit : Nat) :
    ((getTopPayers heap limit).map TopPayerEntry.address).Nodup := by
  rw [List.Nodup, List.pairwise_map, getTopPayers, List.pairwise_filterMap]
  apply (select_nodup _).imp
  intro earlier later different first stored second found same
  apply different
  have within : earlier < (heap.map TopPayerEntry.address).length := by
    rw [List.length_map]
    exact (List.getElem?_eq_some_iff.mp stored).1
  apply (List.getElem?_inj within sound.nodup).mp
  rw [List.getElem?_map, List.getElem?_map, stored, found]
  exact congrArg some same

theorem getTopPayers_above {limit : Nat} {entry chosen : TopPayerEntry} (listed : entry ∈ heap)
    (left : entry ∉ getTopPayers heap limit) (top : chosen ∈ getTopPayers heap limit) :
    entry.score ≤ chosen.score := by
  obtain ⟨index, within, rfl⟩ := List.getElem_of_mem listed
  obtain ⟨_, selected, stored⟩ := List.mem_filterMap.mp top
  have lower := select_above within List.not_mem_nil
    (fun member => left (List.mem_filterMap.mpr ⟨index, member, List.getElem?_eq_getElem within⟩))
    selected
  rwa [Heap.score_of_stored (List.getElem?_eq_getElem within), Heap.score_of_stored stored] at lower

section Sequences

open Transition

def rescore (scores : ScoreStore) (change : Address × Nat) : ScoreStore :=
  updateTopPayersOnScoreChange scores change.1 change.2

def latestScore (changes : List (Address × Nat)) (payer : Address) : Option Nat :=
  changes.foldl (fun known change => if change.1 = payer then some change.2 else known) none

theorem exec_rescore (scores : ScoreStore) (changes : List (Address × Nat)) :
    Heap.Sound (exec rescore { scores with topPayersHeap := [] } changes).topPayersHeap ∧
      ∀ entry ∈ (exec rescore { scores with topPayersHeap := [] } changes).topPayersHeap,
        latestScore changes entry.address = some entry.score := by
  refine history_induct (fun past (reached : ScoreStore) => Heap.Sound reached.topPayersHeap ∧
    ∀ entry ∈ reached.topPayersHeap, latestScore past entry.address = some entry.score)
    ?_ ?_ changes
  · rintro past ⟨payer, score⟩ ⟨sound, latest⟩
    obtain ⟨ordered, update⟩ := update_cases sound payer score
    refine ⟨update.sound sound ordered, fun entry member => ?_⟩
    rw [latestScore, List.foldl_append]
    rcases update.listed member with rfl | ⟨kept, other⟩
    · exact if_pos rfl
    · exact (if_neg (Ne.symm other)).trans (latest entry kept)
  · exact ⟨⟨fun index _ within => absurd within (Nat.not_lt_zero index), List.nodup_nil,
      Nat.zero_le _⟩, nofun⟩

/-- After every sequence of updates the list is a small heap of the payers' latest scores, and
`get_top_payers` selects the highest of them. -/
theorem top_payers_heap_sound (scores : ScoreStore) (changes : List (Address × Nat)) (limit : Nat) :
    let heap : Heap := (exec rescore { scores with topPayersHeap := [] } changes).topPayersHeap
    let top := getTopPayers heap limit
    heap.Ordered ∧ heap.length ≤ topPayersCapacity ∧ (heap.map TopPayerEntry.address).Nodup ∧
      (∀ entry ∈ heap, latestScore changes entry.address = some entry.score) ∧
      top.length = min limit heap.length ∧ (top.map TopPayerEntry.address).Nodup ∧ top ⊆ heap ∧
      top.Pairwise (fun earlier later => later.score ≤ earlier.score) ∧
      ∀ entry ∈ heap, entry ∉ top → ∀ chosen ∈ top, entry.score ≤ chosen.score := by
  intro heap top
  obtain ⟨sound, latest⟩ := exec_rescore scores changes
  exact ⟨sound.ordered, sound.small, sound.nodup, latest, getTopPayers_length heap limit,
    getTopPayers_nodup sound limit, fun _ member => mem_getTopPayers member,
    getTopPayers_descending heap limit,
    fun _ listed left _ chosen => getTopPayers_above listed left chosen⟩

end Sequences

end InvoiceLiquidity
