import Iln.Invoice.FundQueue

/-! How the funding queue is represented. The entries stand by the score they joined with, equal
scores in the order of joining, and the markers beside them say no more than what the queue
holds. -/
namespace InvoiceLiquidity

open Transition Function

variable {contract : Address} {id : Nat} {entries : List LpFundRequest} {joinedAt : Address → Nat}

structure JoinNotes where
  joins : Nat
  joinedAt : Address → Nat

def noteJoin (id : Nat) (world : World) (action : Action contract) (notes : JoinNotes) :
    JoinNotes :=
  (joins id world action).elim notes fun lp =>
    ⟨notes.joins + 1, update notes.joinedAt lp notes.joins⟩

def Precedes (joinedAt : Address → Nat) (first second : LpFundRequest) : Prop :=
  first.lp ≠ second.lp ∧ second.score ≤ first.score ∧
    (second.score = first.score → joinedAt first.lp < joinedAt second.lp)

structure Line.Sound (line : Line) (joinedAt : Address → Nat) : Prop where
  ordered : line.entries.Pairwise (Precedes joinedAt)
  short : line.entries.length ≤ 50
  opened : line.openedAt.isSome = true ↔ line.entries ≠ []
  resolved : line.resolvedAt.isSome = line.winner.isSome
  queued : ∀ lp ∈ line.winner, ∃ entry ∈ line.entries, entry.lp = lp

theorem insertRequest_ordered {request : LpFundRequest}
    (ordered : entries.Pairwise (Precedes joinedAt))
    (later : ∀ entry ∈ entries, entry.lp ≠ request.lp ∧ joinedAt entry.lp < joinedAt request.lp) :
    (insertRequest request entries).Pairwise (Precedes joinedAt) := by
  induction entries with
  | nil => exact List.pairwise_singleton _ _
  | cons first rest ih =>
    obtain ⟨ahead, others⟩ := List.pairwise_cons.mp ordered
    unfold insertRequest
    split
    · rename_i lower
      refine List.pairwise_cons.mpr ⟨fun entry member => ?_, ordered⟩
      have below : entry.score < request.score := by
        rcases List.mem_cons.mp member with rfl | member
        · exact lower
        · exact (ahead entry member).2.1.trans_lt lower
      exact ⟨(later entry member).1.symm, below.le, fun same => absurd same below.ne⟩
    · rename_i reached
      refine List.pairwise_cons.mpr ⟨fun entry member => ?_,
        ih others fun entry member => later entry (.tail _ member)⟩
      rcases mem_insertRequest.mp member with rfl | member
      · obtain ⟨other, earlier⟩ := later first (.head _)
        exact ⟨other, not_lt.mp reached, fun _ => earlier⟩
      · exact ahead entry member

def JoinNotes.Past (notes : JoinNotes) (line : Line) : Prop :=
  ∀ entry ∈ line.entries, notes.joinedAt entry.lp < notes.joins

theorem QueueStep.sound {world : World} {action : Action contract} {before after : Line}
    {notes : JoinNotes} (move : QueueStep world id action before after)
    (sound : before.Sound notes.joinedAt) (past : notes.Past before) :
    after.Sound (noteJoin id world action notes).joinedAt ∧
      (noteJoin id world action notes).Past after := by
  cases move with
  | idle _ unjoined =>
    rw [noteJoin, unjoined]
    exact ⟨sound, past⟩
  | joined env lp open_ room fresh joined =>
    rw [noteJoin, joined]
    have kept : ∀ entry ∈ before.entries,
        update notes.joinedAt lp notes.joins entry.lp = notes.joinedAt entry.lp :=
      fun entry member => update_of_ne (fresh entry member) _ _
    have ordered : before.entries.Pairwise (Precedes (update notes.joinedAt lp notes.joins)) := by
      refine sound.ordered.imp_of_mem fun {first second} left right precedes => ?_
      rwa [Precedes, kept first left, kept second right]
    refine ⟨⟨insertRequest_ordered ordered fun entry member => ⟨fresh entry member, ?_⟩, ?_, ?_,
      ?_, ?_⟩, ?_⟩
    · simp only [Option.elim_some, kept entry member, update_self]
      exact past entry member
    · rw [(insertRequest_perm _ _).length_eq]
      exact room
    · exact iff_of_true rfl (insertRequest_ne_nil _ _)
    · exact sound.resolved
    · intro winner fixed
      rw [open_] at fixed
      cases fixed
    · intro entry member
      rcases mem_insertRequest.mp member with rfl | member
      · simp
      · simp only [Option.elim_some, kept entry member]
        exact (past entry member).trans (Nat.lt_succ_self _)
  | resolved env winner invoice openedAt _ _ _ _ _ best =>
    refine ⟨⟨sound.ordered, sound.short, sound.opened, rfl, fun lp named => ?_⟩, past⟩
    cases named
    exact ⟨winner, (bestQueued_best best).1, rfl⟩
  | purged => exact ⟨⟨.nil, Nat.zero_le _, by simp, rfl, nofun⟩, nofun⟩
  | reopened =>
    refine ⟨⟨sound.ordered.filter _, (List.length_filter_le _ _).trans sound.short, ?_, rfl, nofun⟩,
      fun entry member => past entry (List.mem_of_mem_filter member)⟩
    dsimp only
    split
    · rename_i empty
      exact iff_of_false Bool.false_ne_true (not_not.mpr empty)
    · rename_i filled
      exact iff_of_true rfl filled

/-- In every reachable state the entries of a queue are in order and at most fifty, nobody is queued
twice, and the opening, the winner and its ledger are stored exactly when they should be. -/
theorem fund_queue_sound (clock : Clock) (balance : Balances) (actions : List (Action contract))
    (id : Nat) :
    ((reach clock balance actions).queue.line id).Sound
      (noted step (noteJoin id) ⟨0, fun _ => 0⟩ (genesis clock balance) actions).joinedAt := by
  refine (noted_induct (fun (notes : JoinNotes) (world : World) => Filed world.book ∧
    (world.queue.line id).Sound notes.joinedAt ∧ notes.Past (world.queue.line id)) ?_ ?_
    Along.always).2.1
  · rintro notes world action ⟨filed, sound, past⟩ _
    exact ⟨(step_effect action filed).2, (step_queue action filed id).sound sound past⟩
  · exact ⟨genesis_filed clock balance, ⟨.nil, Nat.zero_le _, by simp [genesis, QueueStore.line],
      rfl, nofun⟩, nofun⟩

end InvoiceLiquidity
