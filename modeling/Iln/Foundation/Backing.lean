import Mathlib.Algebra.Order.BigOperators.Group.Finset
import Mathlib.Algebra.BigOperators.Group.Finset.Piecewise
import Mathlib.Algebra.Order.Ring.Int

/-! Accounts that share a fixed supply, and weights that accounts stand behind. A weight is `Backed`
by a claim when finitely many claimed accounts hold that much. Weights whose claims do not overlap
add up to at most the supply. -/
namespace Backing

open Finset

variable {α : Type}

structure Supply (balance : α → Int) (total : Int) : Prop where
  nonneg : ∀ account, 0 ≤ balance account
  finite : ∃ holders : Finset α, (∀ account, account ∉ holders → balance account = 0) ∧
    ∑ account ∈ holders, balance account = total

def Backed (balance : α → Int) (claim : α → Prop) (weight : Int) : Prop :=
  ∃ accounts : Finset α, (∀ account ∈ accounts, claim account) ∧ weight ≤ ∑ account ∈ accounts,
    balance account

def shift [DecidableEq α] (balance : α → Int) (source target : α) (amount : Int) : α → Int :=
  fun account => balance account + (if account = target then amount else 0) -
    (if account = source then amount else 0)

variable {balance : α → Int}

theorem Supply.sum_le [DecidableEq α] {total : Int}
    (supply : Supply balance total) (accounts : Finset α) :
    ∑ account ∈ accounts, balance account ≤ total := by
  obtain ⟨holders, outside, sum⟩ := supply.finite
  -- the accounts need not be holders, so compare through the union
  rw [← sum]
  calc ∑ account ∈ accounts, balance account ≤ ∑ account ∈ accounts ∪ holders, balance account :=
        sum_le_sum_of_subset_of_nonneg subset_union_left fun account _ _ => supply.nonneg account
    _ = ∑ account ∈ holders, balance account :=
        (sum_subset subset_union_right fun account _ missing => outside account missing).symm

theorem sum_shift [DecidableEq α] (balance : α → Int) {source target : α} (amount : Int)
    {accounts : Finset α} (sender : source ∈ accounts) (receiver : target ∈ accounts) :
    ∑ account ∈ accounts, shift balance source target amount account = ∑ account ∈ accounts,
      balance account := by
  simp only [shift, sum_sub_distrib, sum_add_distrib, sum_ite_eq', sender, receiver, if_true]
  omega

theorem Supply.shift [DecidableEq α] {total : Int} (supply : Supply balance total)
    {source target : α} {amount : Int} (nonneg : 0 ≤ amount) (held : amount ≤ balance source) :
    Supply (shift balance source target amount) total where
  nonneg account := by
    have here := supply.nonneg account
    unfold Backing.shift
    split <;> split <;> first | omega | (subst_vars; omega)
  finite := by
    obtain ⟨holders, outside, sum⟩ := supply.finite
    -- the target may have held nothing before
    refine ⟨insert source (insert target holders), fun account missing => ?_, ?_⟩
    · simp only [mem_insert, not_or] at missing
      simp [Backing.shift, missing.1, missing.2.1, outside account missing.2.2]
    · rw [sum_shift balance amount (by simp) (by simp), ← sum]
      refine (sum_subset (fun account member => by simp [member]) fun account _ missing => ?_).symm
      exact outside account missing

theorem Backed.of_nonpos {claim : α → Prop} {weight : Int}
    (nonpos : weight ≤ 0) : Backed balance claim weight :=
  ⟨∅, by simp, by simpa using nonpos⟩

theorem Backed.mono {later : α → Int} {claim wider : α → Prop} {weight lighter : Int}
    (backed : Backed balance claim weight) (claims : ∀ account, claim account → wider account)
    (gains : ∀ account, claim account → balance account ≤ later account) (less : lighter ≤ weight) :
    Backed later wider lighter := by
  obtain ⟨accounts, claimed, held⟩ := backed
  refine ⟨accounts, fun account member => claims account (claimed account member), ?_⟩
  calc lighter ≤ weight := less
    _ ≤ ∑ account ∈ accounts, balance account := held
    _ ≤ ∑ account ∈ accounts, later account :=
        sum_le_sum fun account member => gains account (claimed account member)

theorem Backed.join [DecidableEq α] {claim : α → Prop} {weight extra : Int}
    (backed : Backed balance claim weight) {added : α} (fresh : ¬ claim added)
    (held : extra ≤ balance added) :
    Backed balance (fun account => account = added ∨ claim account) (weight + extra) := by
  obtain ⟨accounts, claimed, sum⟩ := backed
  have outside : added ∉ accounts := fun member => fresh (claimed added member)
  refine ⟨insert added accounts, fun account member => ?_, ?_⟩
  · exact (mem_insert.mp member).imp_right (claimed account)
  · rw [sum_insert outside]
    omega

theorem Backed.leave [DecidableEq α] {claim : α → Prop} {weight : Int}
    (backed : Backed balance claim weight) (nonneg : ∀ account, 0 ≤ balance account) (dropped : α) :
    Backed balance (fun account => claim account ∧ account ≠ dropped)
    (max 0 (weight - balance dropped)) := by
  obtain ⟨accounts, claimed, sum⟩ := backed
  refine ⟨accounts.erase dropped, fun account member => ?_,
    max_le (sum_nonneg fun account _ => nonneg account) ?_⟩
  · exact ⟨claimed account (mem_of_mem_erase member), ne_of_mem_erase member⟩
  · have here := nonneg dropped
    by_cases member : dropped ∈ accounts
    · rw [← add_sum_erase accounts balance member] at sum
      omega
    -- the dropped account backed nothing
    · rw [erase_eq_of_notMem member]
      omega

/-- Weights backed by claims that do not overlap add up to at most the supply. -/
theorem Supply.sum_backed_le [DecidableEq α] {total : Int}
    (supply : Supply balance total) {β : Type} {claim : β → α → Prop} {weight : β → Int}
    {voters : Finset β} (apart : ∀ voter ∈ voters, ∀ other ∈ voters, ∀ account,
      claim voter account → claim other account → voter = other)
    (backed : ∀ voter ∈ voters, Backed balance (claim voter) (weight voter)) :
    ∑ voter ∈ voters, weight voter ≤ total := by
  classical
  -- pick the backing accounts of every voter at once
  choose! accounts claimed held using backed
  have disjoint : (voters : Set β).PairwiseDisjoint accounts := by
    intro voter member other otherMember distinct
    refine disjoint_left.mpr fun account here there => distinct ?_
    exact apart voter member other otherMember account (claimed voter member account here)
      (claimed other otherMember account there)
  calc ∑ voter ∈ voters, weight voter
      ≤ ∑ voter ∈ voters, ∑ account ∈ accounts voter, balance account := sum_le_sum held
    _ = ∑ account ∈ voters.biUnion accounts, balance account := (sum_biUnion disjoint).symm
    _ ≤ total := supply.sum_le _

end Backing
