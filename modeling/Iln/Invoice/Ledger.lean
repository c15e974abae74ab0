import Iln.Foundation.AssocSum
import Iln.Invoice.Funding

/-! What the money operations do to the books. `kept` reads a log of movements as money in minus
money out, `free` is the part of the contract's balance that is not reserved for escrowed payouts,
and `Carries` ties the two. Every payout of the contract is one `payment`. -/
namespace InvoiceLiquidity

open Outcome FixedWidth

variable {contract : Address} {recipient token : Address} {amount : Int} {before after : Treasury}
variable {env : Env contract} {treasury : Treasury}

/-- The behaviour of a Stellar Asset Contract that funding relies on: a negative amount is
refused. -/
def RejectsNegative (env : Env contract) : Prop :=
  ∀ balance token source target amount,
    env.transferReturns balance token source target amount = true → 0 ≤ amount

/-- Money in minus money out, for one movement of one token. A payout to the contract itself still
counts as paid out. -/
def Movement.kept (contract token : Address) : Movement → Int
  | .transfer asset source target amount =>
    if asset ≠ token then 0
    else if source = contract then -amount
    else if target = contract then amount
    else 0
  | .escrow asset _ amount => if asset = token then -amount else 0

def kept (contract token : Address) (moves : List Movement) : Int :=
  (moves.map (Movement.kept contract token)).sum

@[simp] theorem kept_nil (contract token : Address) : kept contract token [] = 0 := rfl

@[simp] theorem kept_cons (contract token : Address) (first : Movement) (rest : List Movement) :
    kept contract token (first :: rest) = first.kept contract token + kept contract token rest :=
      rfl

@[simp] theorem kept_append (contract token : Address) (first second : List Movement) :
    kept contract token (first ++ second) = kept contract token first +
      kept contract token second := by
  simp [kept]

/-- How `pay_or_escrow` pays: nothing, a transfer, or an escrow entry for a frozen recipient. -/
def payment (env : Env contract) (token recipient : Address) (amount : Int) : List Movement :=
  if amount ≤ 0 then []
  else if isAuthorized env token recipient then [.transfer token contract recipient amount]
  else [.escrow token recipient amount]

/-- How `transfer_out_strict` pays: nothing or a transfer. -/
def strictPayment (contract token recipient : Address) (amount : Int) : List Movement :=
  if amount ≤ 0 then [] else [.transfer token contract recipient amount]

def payments (env : Env contract) (token : Address) (payout : Int → Int)
    (funders : List (Address × Int)) : List Movement :=
  funders.flatMap fun entry => payment env token entry.1 (payout entry.2)

def paidTotal (payout : Int → Int) (funders : List (Address × Int)) : Int :=
  (funders.map fun entry => max 0 (payout entry.2)).sum

theorem kept_payment (env : Env contract) (token asset recipient : Address) (amount : Int) :
    kept contract asset (payment env token recipient amount) =
      if token = asset then -max 0 amount else 0 := by
  unfold payment
  split
  · rename_i nothing
    simp [max_eq_left nothing]
  · rename_i positive
    have large : max 0 amount = amount := max_eq_right (by omega)
    by_cases same : token = asset
    · split <;> simp [kept, Movement.kept, same, large]
    · split <;> simp [kept, Movement.kept, same]

theorem kept_strictPayment (token asset recipient : Address) (amount : Int) :
    kept contract asset (strictPayment contract token recipient amount) =
      if token = asset then -max 0 amount else 0 := by
  unfold strictPayment
  split
  · rename_i nothing
    simp [max_eq_left nothing]
  · rename_i positive
    have large : max 0 amount = amount := max_eq_right (by omega)
    by_cases same : token = asset <;> simp [kept, Movement.kept, same, large]

theorem kept_payments (env : Env contract) (token asset : Address) (payout : Int → Int)
    (funders : List (Address × Int)) :
    kept contract asset (payments env token payout funders) =
      if token = asset then -paidTotal payout funders else 0 := by
  induction funders with
  | nil => simp [payments, paidTotal]
  | cons entry rest ih =>
    simp only [payments, paidTotal, List.flatMap_cons, List.map_cons, List.sum_cons, kept_append,
      kept_payment] at ih ⊢
    rw [ih]
    by_cases same : token = asset
    · simp only [same, if_true]
      omega
    · simp [same]

def Treasury.free (treasury : Treasury) (contract token : Address) : Int :=
  treasury.balance token contract - treasury.reserved token

def owedIn (token : Address) (key : Address × Address) (amount : Int) : Int :=
  if key.2 = token then amount else 0

structure EscrowSound (contract : Address) (treasury : Treasury) : Prop where
  exact : ∀ token, treasury.reserved token = AssocSum.total (owedIn token) treasury.pendingPayout
  positive : ∀ key amount, treasury.pendingPayout.lookup key = some amount → 0 < amount
  fits : ∀ token, treasury.reserved token ≤ i128.hi
  covered : ∀ token, treasury.reserved token ≤ treasury.balance token contract

theorem owedIn_nonneg (sound : EscrowSound contract treasury) (token : Address)
    (key : Address × Address) (amount : Int)
    (stored : treasury.pendingPayout.lookup key = some amount) : 0 ≤ owedIn token key amount := by
  have positive := sound.positive key amount stored
  unfold owedIn
  split <;> omega

theorem entryWeight_owed (treasury : Treasury) (asset recipient token : Address) :
    AssocSum.entryWeight (owedIn asset) (recipient, token)
    (treasury.pendingPayout.lookup (recipient, token)) =
      if token = asset then treasury.owed recipient token else 0 := by
  unfold Treasury.owed AssocSum.entryWeight owedIn
  cases treasury.pendingPayout.lookup (recipient, token) <;> simp

theorem reserved_nonneg (sound : EscrowSound contract treasury) (token : Address) :
    0 ≤ treasury.reserved token := by
  rw [sound.exact]
  exact AssocSum.total_nonneg _ _ (owedIn_nonneg sound token)

theorem owed_le_reserved (sound : EscrowSound contract treasury)
    (recipient token : Address) : treasury.owed recipient token ≤ treasury.reserved token := by
  have bound := AssocSum.entryWeight_le_total (owedIn token) (recipient, token)
    treasury.pendingPayout (owedIn_nonneg sound token)
  rwa [entryWeight_owed, if_pos rfl, ← sound.exact] at bound

theorem owed_nonneg (sound : EscrowSound contract treasury)
    (recipient token : Address) : 0 ≤ treasury.owed recipient token := by
  unfold Treasury.owed
  cases found : treasury.pendingPayout.lookup (recipient, token) with
  | none => rfl
  | some => exact (sound.positive _ _ found).le

theorem setPending_total (treasury : Treasury) (recipient token asset : Address)
    (amount total : Int) (nonneg : 0 ≤ amount) :
    AssocSum.total (owedIn asset) (setPending treasury recipient token amount total).pendingPayout =
      AssocSum.total (owedIn asset) treasury.pendingPayout +
        if token = asset then amount - treasury.owed recipient token else 0 := by
  have split := AssocSum.total_eq_erase (owedIn asset) (recipient, token) treasury.pendingPayout
  rw [entryWeight_owed] at split
  by_cases positive : 0 < amount
  · have inserted := AssocSum.total_insert (owedIn asset) (recipient, token) amount
      treasury.pendingPayout
    simp only [setPending, if_pos positive]
    simp only [owedIn] at inserted split ⊢
    split_ifs at * <;> omega
  · have zero : amount = 0 := by omega
    simp only [setPending, if_neg positive]
    split_ifs at * <;> omega

theorem setPending_reserved (treasury : Treasury) (recipient token asset : Address)
    (amount total : Int) (nonneg : 0 ≤ total) :
    (setPending treasury recipient token amount total).reserved asset =
      if token = asset then total else treasury.reserved asset := by
  by_cases same : token = asset
  · subst same
    simp only [Treasury.reserved, setPending, Function.update_self, if_true]
    split
    · rfl
    · simp only [Option.getD_none]
      omega
  · simp [Treasury.reserved, setPending, Function.update_of_ne (Ne.symm same), same]

theorem setPending_positive (recipient token : Address) (amount total : Int)
    (positive : ∀ key owed, treasury.pendingPayout.lookup key = some owed → 0 < owed)
    (key : Address × Address) (owed : Int)
    (stored : (setPending treasury recipient token amount total).pendingPayout.lookup key =
      some owed) :
    0 < owed := by
  by_cases same : key = (recipient, token)
  · subst same
    by_cases large : 0 < amount
    · simp only [setPending, if_pos large, AList.lookup_insert, Option.some.injEq] at stored
      omega
    · simp [setPending, if_neg large] at stored
  · apply positive key owed
    by_cases large : 0 < amount
    · simpa [setPending, if_pos large, AList.lookup_insert_ne same] using stored
    · simpa [setPending, if_neg large, AList.lookup_erase_ne same] using stored

structure Balanced (contract : Address) (moves : List Movement) (before after : Treasury) :
    Prop where
  sound : EscrowSound contract after
  covered : ∀ token, before.free contract token + kept contract token moves ≤
    after.free contract token

structure Carries (env : Env contract) (moves : List Movement) (before after : Treasury) :
    Prop where
  log : after.log = before.log ++ moves
  balanced : RejectsNegative env → EscrowSound contract before →
    Balanced contract moves before after

theorem Carries.refl (env : Env contract) (treasury : Treasury) :
    Carries env [] treasury treasury where
  log := (List.append_nil _).symm
  balanced := fun _ sound => ⟨sound, fun token => by simp⟩

theorem Carries.trans {first second : List Movement} {before middle after : Treasury}
    (left : Carries env first before middle) (right : Carries env second middle after) :
    Carries env (first ++ second) before after where
  log := by rw [right.log, left.log, List.append_assoc]
  balanced := by
    intro law sound
    have one := left.balanced law sound
    have two := right.balanced law one.sound
    refine ⟨two.sound, ?_⟩
    intro token
    have start := one.covered token
    have finish := two.covered token
    rw [kept_append]
    omega

theorem transfer_ok {token source target : Address} :
    transfer env before token source target amount = .ok after ↔
      env.transferReturns before.balance token source target amount = true ∧ { before with
          balance := move before.balance token source target amount
          log := before.log ++ [.transfer token source target amount] } = after := by
  simp [transfer]

theorem move_out_le (contract : Address) (balance : Balances) (token recipient asset : Address)
    (nonneg : 0 ≤ amount) :
    balance asset contract - (if token = asset then amount else 0) ≤
      move balance token contract recipient amount asset contract := by
  simp only [move, and_true, eq_comm (a := token)]
  split_ifs <;> omega

theorem transfer_in_carries {token source : Address} (foreign : source ≠ contract)
    (ran : transfer env before token source contract amount = .ok after) :
    Carries env [.transfer token source contract amount] before after := by
  obtain ⟨accepted, rfl⟩ := transfer_ok.mp ran
  -- the sender is someone else, so the contract only gains
  have held : ∀ asset, move before.balance token source contract amount asset contract =
      before.balance asset contract + if asset = token then amount else 0 := by
    intro asset
    simp [move, Ne.symm foreign]
  constructor
  · rfl
  intro law sound
  have nonneg := law _ _ _ _ _ accepted
  refine ⟨⟨sound.exact, sound.positive, sound.fits, ?_⟩, ?_⟩
  · intro asset
    have enough := sound.covered asset
    simp only [Treasury.reserved] at enough ⊢
    rw [held]
    split <;> omega
  · intro asset
    simp only [Treasury.free, Treasury.reserved, kept_cons, kept_nil, Movement.kept, foreign]
    rw [held]
    by_cases same : asset = token
    · simp [same]
      omega
    · simp [same, Ne.symm same]

theorem transfer_out_carries (enough : amount ≤ before.free contract token)
    (ran : transfer env before token contract recipient amount = .ok after) :
    Carries env [.transfer token contract recipient amount] before after := by
  obtain ⟨accepted, rfl⟩ := transfer_ok.mp ran
  constructor
  · rfl
  intro law sound
  have nonneg := law _ _ _ _ _ accepted
  have held := fun asset => move_out_le contract before.balance token recipient asset nonneg
  refine ⟨⟨sound.exact, sound.positive, sound.fits, ?_⟩, ?_⟩
  · intro asset
    have reserve := sound.covered asset
    have left := held asset
    simp only [Treasury.free, Treasury.reserved] at enough reserve ⊢
    split_ifs at left with same
    · subst same
      omega
    · omega
  · intro asset
    have left := held asset
    simp only [Treasury.free, Treasury.reserved, kept_cons, kept_nil, Movement.kept, if_true, ne_eq]
    split_ifs at left ⊢ <;> omega

theorem escrow_carries (positive : 0 < amount) (enough : amount ≤ before.free contract token)
    (ran : escrow before token recipient amount = .ok after) :
    Carries env [.escrow token recipient amount] before after := by
  simp only [escrow, ok_iff, checked_eq_some] at ran
  obtain ⟨owed, ⟨_, rfl⟩, total, ⟨fits, rfl⟩, rfl⟩ := ran
  constructor
  · rfl
  intro _ sound
  have owedNonneg := owed_nonneg sound recipient token
  have reservedNonneg := reserved_nonneg sound token
  -- the reserve grows by the payout in this token and in no other
  have reserved : ∀ asset, (setPending before recipient token (before.owed recipient token + amount)
      (before.reserved token + amount)).reserved asset =
        before.reserved asset + if token = asset then amount else 0 := by
    intro asset
    rw [setPending_reserved _ _ _ _ _ _ (by omega)]
    split
    · rename_i same
      rw [same]
    · omega
  refine ⟨⟨?_, ?_, ?_, ?_⟩, ?_⟩
  · intro asset
    refine (reserved asset).trans ?_
    refine Eq.trans ?_ (setPending_total before recipient token asset
      _ (before.reserved token + amount) (by omega)).symm
    rw [sound.exact asset]
    split <;> omega
  · exact setPending_positive recipient token _ (before.reserved token + amount) sound.positive
  · intro asset
    refine (reserved asset).le.trans ?_
    have bound := sound.fits asset
    split
    · rename_i same
      rw [← same]
      exact fits.2
    · omega
  · intro asset
    refine (reserved asset).le.trans ?_
    have cover := sound.covered asset
    simp only [Treasury.free, setPending] at enough ⊢
    split
    · rename_i same
      rw [← same]
      omega
    · omega
  · intro asset
    have grown := reserved asset
    simp only [Treasury.free, Treasury.reserved, setPending, kept_cons, kept_nil,
      Movement.kept] at grown ⊢
    split_ifs at grown ⊢ <;> omega

theorem ensureSpendable_ok {token : Address} {amount reserved : Int} {passed : Unit}
    (positive : 0 < amount)
    (spendable : ensureSpendable contract treasury token amount reserved = .ok passed) :
    amount ≤ treasury.balance token contract - reserved := by
  simp only [ensureSpendable, ok_iff] at spendable
  exact le_of_le_saturate positive spendable

theorem payOrEscrow_carries (ran : payOrEscrow env before token recipient amount = .ok after) :
    Carries env (payment env token recipient amount) before after := by
  unfold payOrEscrow at ran
  unfold payment
  split at ran
  · rename_i nothing
    rw [if_pos nothing]
    cases ran
    exact Carries.refl env before
  · rename_i positive
    rw [if_neg positive]
    simp only [ok_iff] at ran
    obtain ⟨_, spendable, paid⟩ := ran
    have enough := ensureSpendable_ok (by omega) spendable
    split at paid
    · rename_i authorized
      rw [if_pos authorized]
      exact transfer_out_carries enough paid
    · rename_i frozen
      rw [if_neg frozen]
      exact escrow_carries (by omega) enough paid

theorem transferOutStrict_carries
    (ran : transferOutStrict env before token recipient amount = .ok after) :
    Carries env (strictPayment contract token recipient amount) before after := by
  unfold transferOutStrict at ran
  unfold strictPayment
  split at ran
  · rename_i nothing
    rw [if_pos nothing]
    cases ran
    exact Carries.refl env before
  · rename_i positive
    rw [if_neg positive]
    simp only [ok_iff] at ran
    obtain ⟨_, spendable, _, _, paid⟩ := ran
    exact transfer_out_carries (ensureSpendable_ok (by omega) spendable) paid

theorem payEach_carries {token : Address} {payout : Int → Int} {funders : List (Address × Int)}
    (ran : payEach env token payout before funders = .ok after) :
    Carries env (payments env token payout funders) before after := by
  refine forEach_induct (motive := fun entries start finish =>
    Carries env (payments env token payout entries) start finish) ?_ ?_ funders before after ran
  · intro treasury
    exact Carries.refl env treasury
  · intro entry rest start middle finish paid remaining
    exact (payOrEscrow_carries paid).trans remaining

structure Claimed (contract recipient token : Address) (amount : Int) (before after : Treasury) :
    Prop where
  owed : before.owed recipient token = amount
  positive : 0 < amount
  log : after.log = before.log ++ [.transfer token contract recipient amount]
  balance : after.balance = move before.balance token contract recipient amount
  entries : after.pendingPayout = before.pendingPayout.erase (recipient, token)
  reserved : ∀ asset, after.reserved asset = before.reserved asset -
    if token = asset then amount else 0

theorem claimPending_claimed (sound : EscrowSound contract before)
    (ran : claimPending env before recipient token = .ok (after, amount)) :
    Claimed contract recipient token amount before after := by
  simp only [claimPending, ok_iff, Prod.mk.injEq, transfer_ok] at ran
  obtain ⟨_, positive, _, _, _, _, paid, ⟨_, same⟩, rfl, rfl⟩ := ran
  have bound := owed_le_reserved sound recipient token
  have whole : Fits i128 (before.reserved token) := ⟨i128.nonpos.trans (by omega), sound.fits token⟩
  have rest : saturate i128 (before.reserved token - before.owed recipient token) =
      before.reserved token - before.owed recipient token :=
    saturate_of_fits (fits_of_nonneg_le whole (by omega) (by omega))
  subst same
  refine ⟨rfl, positive, rfl, rfl, ?_, ?_⟩
  · simp [setPending]
  · intro asset
    refine (setPending_reserved before recipient token asset 0 _ (by omega)).trans ?_
    rw [rest]
    split
    · rename_i same
      rw [same]
    · omega

theorem Claimed.sound (claimed : Claimed contract recipient token amount before after)
    (sound : EscrowSound contract before) : EscrowSound contract after := by
  have positive := claimed.positive
  refine ⟨?_, ?_, ?_, ?_⟩
  · intro asset
    have split := AssocSum.total_eq_erase (owedIn asset) (recipient, token) before.pendingPayout
    rw [entryWeight_owed, claimed.owed] at split
    rw [claimed.reserved, claimed.entries, sound.exact asset]
    omega
  · intro key amount stored
    rw [claimed.entries] at stored
    by_cases same : key = (recipient, token)
    · subst same
      rw [AList.lookup_erase] at stored
      exact absurd stored (by simp)
    · rw [AList.lookup_erase_ne same] at stored
      exact sound.positive key amount stored
  · intro asset
    have bound := sound.fits asset
    rw [claimed.reserved]
    split <;> omega
  · intro asset
    have cover := sound.covered asset
    have left := move_out_le contract before.balance token recipient asset positive.le
    rw [claimed.reserved, claimed.balance]
    split_ifs at left ⊢ <;> omega

theorem Claimed.free_le
    (claimed : Claimed contract recipient token amount before after) (asset : Address) :
    before.free contract asset ≤ after.free contract asset := by
  have left := move_out_le contract before.balance token recipient asset claimed.positive.le
  simp only [Treasury.free]
  rw [claimed.reserved, claimed.balance]
  split_ifs at left ⊢ <;> omega

end InvoiceLiquidity
