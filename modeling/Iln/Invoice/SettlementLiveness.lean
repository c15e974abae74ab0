import Iln.Invoice.Distribution
import Iln.Invoice.Housekeeping

/-! Whether the last payment of an invoice goes through and is shared exactly. With a payer who can
pay, a token that delivers and a solvent contract every guard of `mark_paid` passes; what remains
are the products. The primary funder's product fails the call when it overflows, the others and the
fee are replaced by zero. -/
namespace InvoiceLiquidity

open Outcome FixedWidth Transition

variable {contract : Address} {control : Control} {primary : Address × Int}
  {funders : List (Address × Int)}

section Delivery

/-- The behaviour of a Stellar Asset Contract that settlement relies on: between authorized accounts
a transfer of money that is there returns. -/
def Delivers (env : Env contract) : Prop :=
  ∀ balance token source target amount, 0 ≤ amount → amount ≤ balance token source →
    isAuthorized env token source = true → isAuthorized env token target = true →
    env.transferReturns balance token source target amount = true

theorem stellarHost_delivers (contract : Address) (signers frozen : List Address) :
    Delivers (stellarHost contract signers frozen) := by
  intro balance token source target amount nonneg enough from_ to_
  simp only [isAuthorized, stellarHost, beq_iff_eq, Option.some.injEq,
    decide_eq_true_eq] at from_ to_
  exact decide_eq_true ⟨nonneg, enough, from_, to_⟩

variable {env : Env contract} {treasury : Treasury} {token : Address} {amount : Int}

theorem transfer_returns (delivers : Delivers env) {source target : Address} (nonneg : 0 ≤ amount)
    (enough : amount ≤ treasury.balance token source) (from_ : isAuthorized env token source = true)
    (to_ : isAuthorized env token target = true) :
    transfer env treasury token source target amount = .ok { treasury with
        balance := move treasury.balance token source target amount
        log := treasury.log ++ [.transfer token source target amount] } := by
  rw [transfer_ok]
  exact ⟨delivers _ _ _ _ _ nonneg enough from_ to_, rfl⟩

theorem escrow_returns (recipient : Address) (sound : EscrowSound contract treasury)
    (nonneg : 0 ≤ amount) (enough : amount ≤ treasury.free contract token)
    (range : treasury.balance token contract ≤ i128.hi) :
    ∃ after, escrow treasury token recipient amount = .ok after ∧
      after.balance = treasury.balance := by
  have owedNonneg := owed_nonneg sound recipient token
  have owedLe := owed_le_reserved sound recipient token
  have bottom : i128.lo ≤ 0 := by decide
  simp only [Treasury.free] at enough
  have owedFits : Fits i128 (treasury.owed recipient token + amount) := ⟨by omega, by omega⟩
  have totalFits : Fits i128 (treasury.reserved token + amount) := ⟨by omega, by omega⟩
  let kept := setPending treasury recipient token (treasury.owed recipient token + amount)
    (treasury.reserved token + amount)
  refine ⟨{ kept with log := kept.log ++ [.escrow token recipient amount] }, ?_, rfl⟩
  simp only [escrow, ok_iff]
  exact ⟨_, checked_of_fits owedFits, _, checked_of_fits totalFits, rfl⟩

variable (delivers : Delivers env) (own : isAuthorized env token contract = true)
  (sound : EscrowSound contract treasury) (range : treasury.balance token contract ≤ i128.hi)
include delivers own sound range

theorem payOrEscrow_returns (recipient : Address)
    (enough : max 0 amount ≤ treasury.free contract token) :
    ∃ after, payOrEscrow env treasury token recipient amount = .ok after ∧
      after.balance token contract ≤ treasury.balance token contract := by
  unfold payOrEscrow
  split
  · exact ⟨treasury, rfl, le_rfl⟩
  · rename_i some_
    have positive : 0 < amount := by omega
    rw [max_eq_right positive.le] at enough
    have reserved := reserved_nonneg sound token
    have covers : amount ≤ treasury.balance token contract - treasury.reserved token := enough
    have spendable : ensureSpendable contract treasury token amount (treasury.reserved token) =
        .ok () := by
      exact require_of_holds (covers.trans (le_saturate (by omega)))
    rw [spendable]
    simp only [bind, Except.bind]
    split
    · rename_i authorized
      refine ⟨_, transfer_returns delivers positive.le (by omega) own authorized, ?_⟩
      simp only [move, and_true, if_true]
      split_ifs <;> omega
    · obtain ⟨after, done, same⟩ := escrow_returns recipient sound positive.le enough range
      exact ⟨after, done, by rw [same]⟩

theorem payEach_returns (law : RejectsNegative env) {payout : Int → Int}
    (enough : paidTotal payout funders ≤ treasury.free contract token) :
    ∃ after, payEach env token payout treasury funders = .ok after := by
  induction funders generalizing treasury with
  | nil => exact ⟨treasury, rfl⟩
  | cons entry rest ih =>
    have others := paidTotal_nonneg payout rest
    simp only [paidTotal, List.map_cons, List.sum_cons] at enough others
    obtain ⟨next, paid, less⟩ := payOrEscrow_returns delivers own sound range entry.1
      (by omega : max 0 (payout entry.2) ≤ treasury.free contract token)
    have balanced := (payOrEscrow_carries paid).balanced law sound
    have left := balanced.covered token
    rw [kept_payment, if_pos rfl] at left
    obtain ⟨after, finished⟩ := ih balanced.sound (less.trans range)
      (by simp only [paidTotal]; omega)
    exact ⟨after, forEach_cons_eq_ok.mpr ⟨next, paid, finished⟩⟩

theorem payFee_returns (enough : max 0 amount ≤ treasury.free contract token)
    (stored : 0 < amount → control.admin.isSome = true) :
    ∃ after, payFee env control treasury token amount = .ok after ∧
      after.balance token contract ≤ treasury.balance token contract := by
  unfold payFee
  split
  · rename_i positive
    obtain ⟨admin, found⟩ := Option.isSome_iff_exists.mp (stored positive)
    obtain ⟨after, paid, less⟩ := payOrEscrow_returns delivers own sound range admin enough
    exact ⟨after, by simp [found, orFail, paid, bind, Except.bind], less⟩
  · exact ⟨treasury, rfl, le_rfl⟩

end Delivery

section Settlement

def File.remaining (file : File) : Int := file.invoice.amount - file.invoice.amountPaid

@[mk_iff] structure Ready (env : Env contract) (world : World) (file : File) : Prop where
  rate : effectiveFeeRate world.control file.invoice.amount ≤ 10000
  unpaused : world.control.paused = false
  solvent : world.treasury.reserved file.invoice.token + file.invoice.amountPaid ≤
    world.treasury.balance file.invoice.token contract
  signed : env.signed file.invoice.payer = true
  authorized : isAuthorized env file.invoice.token file.invoice.payer = true
  funds : file.remaining ≤ world.treasury.balance file.invoice.token file.invoice.payer
  own : isAuthorized env file.invoice.token contract = true
  range : world.treasury.balance file.invoice.token contract + file.remaining ≤ i128.hi
  distribution : ∀ distribution ∈ world.control.distributionContract,
    env.distributionReturns distribution = true

instance (env : Env contract) (world : World) (file : File) : Decidable (Ready env world file) :=
  decidable_of_iff' _ (ready_iff env world file)

variable {env : Env contract} {world : World} {id : Nat} {file : File}

/-- A fee needs an administrator to receive it, and nobody sets fees before there is one. -/
theorem Orderly.admin_of_fee (orderly : Orderly world) {amount : Int}
    (fee : 0 < protocolFee world.control amount) : world.control.admin.isSome = true := by
  by_contra absent
  -- without an administrator neither a rate nor a tier was ever stored
  obtain ⟨rate, tiers, _⟩ := orderly.unset (Option.not_isSome_iff_eq_none.mp absent)
  have free : protocolFee world.control amount = 0 := by
    simp [protocolFee, effectiveFeeRate, tiers, rate, discountOf, checked_of_fits fits_zero]
  omega

theorem notifyDistribution_returns (ready : Ready env world file)
    (same : control.distributionContract = world.control.distributionContract) :
    notifyDistribution env control = .ok () := by
  unfold notifyDistribution
  rw [same]
  cases configured : world.control.distributionContract with
  | none => rfl
  | some distribution => exact require_of_holds (ready.distribution distribution configured)

section Funded

variable (sound : RecordSound file) (funded : file.invoice.status = .funded)
include sound funded

theorem remaining_positive : 0 < file.remaining := by
  have unpaid : file.invoice.amountPaid ≠ file.invoice.amount := by
    intro whole
    rw [sound.paid.mpr whole] at funded
    cases funded
  have most := sound.paidLe
  unfold File.remaining
  omega

theorem exists_primary :
    ∃ primary, file.funders.head? = some primary ∧ primary ∈ file.funders := by
  have total := sound.total.trans (sound.funded funded)
  have positive := sound.amountPos
  cases listed : file.funders with
  | nil =>
    rw [listed] at total
    simp only [contributed, List.map_nil, List.sum_nil] at total
    omega
  | cons primary => exact ⟨primary, rfl, List.mem_cons_self⟩

variable (ready : Ready env world file) (stored : world.book.file id = some file)
include ready stored

theorem checkPayment_returns (filed : Filed world.book)
    (first : file.funders.head? = some primary) (unpaused : control.paused = false) :
    checkPayment env world control id file.remaining =
      .ok (file.invoice, file.invoice.amount, primary) := by
  obtain ⟨invoice, found, rfl⟩ := Option.map_eq_some_iff.mp stored
  have positive := remaining_positive sound funded
  have low : 0 ≤ invoice.amountPaid := sound.paidNonneg
  have top : invoice.amount ≤ i128.hi := sound.amountFits.2
  have whole : invoice.amountPaid + (invoice.amount - invoice.amountPaid) =
    invoice.amount := by omega
  simp only [checkPayment, loadInvoice, filed.tryLoadInvoice, found, ok_iff, requireAuth_ok,
    requireUnpaused_ok]
  refine ⟨(), unpaused, (), positive, invoice, rfl, invoice, rfl, (), ready.signed, (), funded, (),
    ?_, primary, first, invoice.amount, ?_, (), ?_, rfl⟩
  · refine le_saturate ?_
    show invoice.amount - invoice.amountPaid ≤ i128.hi
    omega
  · simp only [File.remaining, whole]
    exact checked_of_fits sound.amountFits
  · have authorized := ready.authorized
    simp only [isAuthorized, beq_iff_eq] at authorized
    simp [requireAuthorized, authorized]

variable (law : RejectsNegative env) (delivers : Delivers env) (orderly : Orderly world)
include law delivers orderly

theorem settleInFull_returns (fits : Fits i128 (file.distributed world.control * primary.2))
    {treasury : Treasury} (escrow : EscrowSound contract treasury)
    (range : treasury.balance file.invoice.token contract ≤ i128.hi)
    (enough : file.invoice.amount ≤ treasury.free contract file.invoice.token) :
    ∃ result, settleInFull env world { world.control with reentrancyLock := true } treasury
      { file.invoice with amountPaid := file.invoice.amount } id primary = .ok result := by
  have positive := sound.amountPos
  -- the fee and the shares together fit into what was just paid in
  have within := settlement_le sound world.control funded (discountOf_le (by omega) ready.rate)
  have shares := paidTotal_nonneg (funderShare (file.distributed world.control) file.invoice.amount)
    file.funders
  obtain ⟨paidFee, feePaid, less⟩ := payFee_returns delivers ready.own escrow range
    (by omega : max 0 (protocolFee world.control file.invoice.amount) ≤
      treasury.free contract file.invoice.token) orderly.admin_of_fee
  obtain ⟨_, _, carried⟩ := payFee_carries feePaid
  have balanced := carried.balanced law escrow
  have left := balanced.covered file.invoice.token
  rw [kept_payment, if_pos rfl] at left
  obtain ⟨paidAll, distributed⟩ := payEach_returns delivers ready.own balanced.sound
    (less.trans range) law (by omega : paidTotal
      (funderShare (file.distributed world.control) file.invoice.amount) file.funders ≤ _)
  -- the state of the invoice NFT cannot stop the settlement
  obtain ⟨nft, synced⟩ := syncNftState_returns orderly.nft world.clock (world.book.saveInvoice
    { file.invoice with amountPaid := file.invoice.amount, status := .paid }) id
  have listed : world.book.funders id = file.funders := by
    obtain ⟨_, _, rfl⟩ := Option.map_eq_some_iff.mp stored
    rfl
  refine ⟨_, bind_eq_ok.mpr ⟨paidFee, feePaid,
    bind_eq_ok.mpr ⟨_, orFail_eq_ok.mpr (checked_of_fits fits),
    bind_eq_ok.mpr ⟨(), require_of_holds ?_,
    bind_eq_ok.mpr ⟨nft, synced,
    bind_eq_ok.mpr ⟨paidAll, ?_,
    bind_eq_ok.mpr ⟨(), notifyDistribution_returns ready rfl, rfl⟩⟩⟩⟩⟩⟩⟩
  · show file.invoice.amount ≠ 0
    omega
  · rw [listed]
    exact distributed

theorem markPaid_returns (filed : Filed world.book) (escrow : EscrowSound contract world.treasury)
    (first : file.funders.head? = some primary)
    (fits : Fits i128 (file.distributed world.control * primary.2)) :
    ∃ next, invoke env world (.markPaid id file.remaining) = .ok next := by
  have positive := remaining_positive sound funded
  have foreign := signed_foreign ready.signed
  have received := transfer_returns delivers positive.le ready.funds ready.authorized ready.own
  have balanced := (transfer_in_carries foreign received).balanced law escrow
  have grown := balanced.covered file.invoice.token
  have solvent := ready.solvent
  have whole : file.invoice.amountPaid + file.remaining = file.invoice.amount := by
    unfold File.remaining
    omega
  rw [kept_cons, kept_received foreign, kept_nil, Treasury.free] at grown
  obtain ⟨⟨next, event⟩, settled⟩ := settleInFull_returns sound funded ready stored law delivers
    orderly fits balanced.sound (by simpa [move, Ne.symm foreign] using ready.range) (by omega)
  have typed : Fits i128 file.remaining := by
    have low := sound.paidNonneg
    exact fits_of_nonneg_le sound.amountFits positive.le (by omega)
  -- no call leaves the lock behind
  have locked : lockReentrancy world.control =
      .ok { world.control with reentrancyLock := true } := by
    simp [orderly.unlocked]
  refine ⟨next, bind_eq_ok.mpr ⟨(), require_of_holds (decide_eq_true typed), ?_⟩⟩
  show Prod.fst <$> markPaid env world id file.remaining = .ok next
  refine map_eq_ok.mpr ⟨(next, some event), ?_, rfl⟩
  refine bind_eq_ok.mpr ⟨_, locked, bind_eq_ok.mpr ⟨_, checkPayment_returns sound funded
    ready stored filed first ready.unpaused, bind_eq_ok.mpr ⟨_, received, ?_⟩⟩⟩
  exact (if_neg (lt_irrefl _)).trans (bind_eq_ok.mpr ⟨_, settled, rfl⟩)

end Funded

def File.settlementMoves (env : Env contract) (file : File) (admin : Address) (fee : Int)
    (share : Int → Int) : List Movement :=
  .transfer file.invoice.token file.invoice.payer contract file.remaining ::
    (payment env file.invoice.token admin fee ++ payments env file.invoice.token share file.funders)

theorem markPaid_log (filed : Filed world.book) (stored : world.book.file id = some file)
    {next : World} (ran : invoke env world (.markPaid id file.remaining) = .ok next) :
    ∃ admin primary, (0 < protocolFee world.control file.invoice.amount →
      world.control.admin = some admin) ∧
      file.funders.head? = some primary ∧ Fits i128 (file.distributed world.control * primary.2) ∧
      next.treasury.log = world.treasury.log ++ file.settlementMoves env admin
        (protocolFee world.control file.invoice.amount)
        (funderShare (file.distributed world.control) file.invoice.amount) := by
  obtain ⟨invoice, found, rfl⟩ := Option.map_eq_some_iff.mp stored
  simp only [invoke, invokeControl, invokeWorld, ok_iff, markPaid, lockReentrancy_ok] at ran
  obtain ⟨_, _, ⟨_, _⟩, ⟨_, ⟨_, rfl⟩, ⟨record, paid, primary⟩, checked, treasury, received, ran⟩,
    rfl⟩ := ran
  obtain ⟨loaded, signed, _, _, first, rfl, _⟩ := checkPayment_ok filed checked
  cases found.symm.trans loaded
  have takenIn := transfer_in_carries (signed_foreign signed) received
  split at ran
  · rename_i short
    simp only [File.remaining] at short
    omega
  simp only [settleInFull, ok_iff, checked_eq_some] at ran
  obtain ⟨_, ⟨_, feePaid, _, ⟨fits, _⟩, _, _, _, _, _, shared, _, _, rfl⟩, ⟨⟩⟩ := ran
  obtain ⟨admin, recorded, fee⟩ := payFee_carries feePaid
  exact ⟨admin, primary, recorded, first, fits,
    (takenIn.trans (fee.trans (payEach_carries shared))).log⟩

end Settlement

section Exactness

variable {env : Env contract} {world : World} {id : Nat} {file : File}

def File.exactFee (control : Control) (file : File) : Int :=
  file.invoice.amount * effectiveFeeRate control file.invoice.amount / 10000

def File.exactShare (control : Control) (file : File) (contribution : Int) : Int :=
  (file.invoice.amount - file.exactFee control) * contribution / file.invoice.amount

def SettlesAsPromised (env : Env contract) (world : World) (id : Nat) (file : File) : Prop :=
  ∃ next admin, invoke env world (.markPaid id file.remaining) = .ok next ∧
    (0 < file.exactFee world.control → world.control.admin = some admin) ∧
    next.treasury.log = world.treasury.log ++
      file.settlementMoves env admin (file.exactFee world.control) (file.exactShare world.control)

theorem payments_congr {token : Address} {first second : Int → Int}
    (same : ∀ entry ∈ funders, first entry.2 = second entry.2) :
    payments env token first funders = payments env token second funders := by
  unfold payments
  refine List.flatMap_congr ?_
  intro entry listed
  rw [same entry listed]

theorem exactFee_le (sound : RecordSound file)
    (rate : effectiveFeeRate control file.invoice.amount ≤ 10000) :
    0 ≤ file.exactFee control ∧ file.exactFee control ≤ file.invoice.amount := by
  have positive := sound.amountPos
  have scaled : file.invoice.amount * (effectiveFeeRate control file.invoice.amount : Int) ≤
      file.invoice.amount * 10000 := mul_le_mul_of_nonneg_left (by exact_mod_cast rate) (by omega)
  have product := product_nonneg (by omega : 0 ≤ file.invoice.amount)
    (effectiveFeeRate control file.invoice.amount)
  unfold File.exactFee
  omega

theorem share_eq (sound : RecordSound file)
    (rate : effectiveFeeRate control file.invoice.amount ≤ 10000)
    (exactly : file.SettlesExactly control) :
    ∀ entry ∈ file.funders,
      funderShare (file.distributed control) file.invoice.amount entry.2 =
        file.exactShare control entry.2 := by
  intro entry listed
  obtain ⟨_, most⟩ := exactFee_le sound rate
  have fits := shares_fit sound exactly entry listed
  have distributed : file.distributed control = file.invoice.amount - file.exactFee control := by
    rw [distributed_eq sound, protocolFee_exact sound exactly, File.exactFee]
  rw [distributed] at fits ⊢
  exact funderShare_of_fits (mul_nonneg (by omega) (sound.nonneg entry listed)) fits

theorem settles_of_exact (law : RejectsNegative env) (delivers : Delivers env)
    (orderly : Orderly world) (filed : Filed world.book)
    (escrow : EscrowSound contract world.treasury) (stored : world.book.file id = some file)
    (sound : RecordSound file) (funded : file.invoice.status = .funded)
    (ready : Ready env world file) (exactly : file.SettlesExactly world.control) :
    SettlesAsPromised env world id file := by
  obtain ⟨primary, first, listed⟩ := exists_primary sound funded
  obtain ⟨next, ran⟩ := markPaid_returns sound funded ready stored law delivers orderly
    filed escrow first (shares_fit sound exactly primary listed)
  obtain ⟨admin, _, recorded, _, _, log⟩ := markPaid_log filed stored ran
  have fee : protocolFee world.control file.invoice.amount = file.exactFee world.control :=
    protocolFee_exact sound exactly
  rw [fee] at recorded
  refine ⟨next, admin, ran, recorded, ?_⟩
  rw [log, fee, File.settlementMoves, File.settlementMoves,
    payments_congr (share_eq sound ready.rate exactly)]

theorem spent_of_mem_payment {token recipient : Address} {amount : Int} {movement : Movement}
    (made : movement ∈ payment env token recipient amount) : movement.spent contract = amount := by
  unfold payment at made
  split at made
  · cases made
  · split at made <;> (rw [List.mem_singleton.mp made]; simp [Movement.spent])

/-- Without the fee the shares are at most the contributions, far below a fee that overflowed. -/
theorem share_lt_fee (sound : RecordSound file)
    (rate : effectiveFeeRate control file.invoice.amount ≤ 10000)
    (overflow : ¬ Fits i128 (file.invoice.amount * effectiveFeeRate control file.invoice.amount))
    (contribution : Int) (nonneg : 0 ≤ contribution) :
    funderShare file.invoice.amount file.invoice.amount contribution < file.exactFee control := by
  have positive := sound.amountPos
  have product := product_nonneg (by omega : 0 ≤ file.invoice.amount)
    (effectiveFeeRate control file.invoice.amount)
  have large : i128.hi < file.invoice.amount *
      (effectiveFeeRate control file.invoice.amount : Int) := by
    by_contra small
    exact overflow ⟨i128.nonpos.trans product, not_lt.mp small⟩
  have scaled : file.invoice.amount * (effectiveFeeRate control file.invoice.amount : Int) ≤
      file.invoice.amount * 10000 := mul_le_mul_of_nonneg_left (by exact_mod_cast rate) (by omega)
  have wide : 100010000 ≤ i128.hi := by decide
  have fee : 10001 ≤ file.exactFee control := by
    unfold File.exactFee
    omega
  by_cases fits : Fits i128 (file.invoice.amount * contribution)
  · have share : funderShare file.invoice.amount file.invoice.amount contribution =
        contribution := by
      rw [funderShare_of_fits (mul_nonneg (by omega) nonneg) fits]
      exact Int.mul_ediv_cancel_left contribution (by omega)
    rw [share]
    by_contra more
    have enough : file.invoice.amount * 10000 ≤ file.invoice.amount * contribution :=
      mul_le_mul_of_nonneg_left (by omega) (by omega)
    have top := fits.2
    omega
  · rw [funderShare_of_overflow fits]
    omega

variable (filed : Filed world.book) (stored : world.book.file id = some file)
  (sound : RecordSound file) (rate : effectiveFeeRate world.control file.invoice.amount ≤ 10000)
  (settles : SettlesAsPromised env world id file)
include filed stored sound rate settles

/-- The fee of a settlement that kept its promise did not overflow: a larger fee shows in the
log. -/
theorem fee_fits_of_settles :
    Fits i128 (file.invoice.amount * effectiveFeeRate world.control file.invoice.amount) := by
  by_contra overflow
  obtain ⟨next, admin, ran, _, promised⟩ := settles
  obtain ⟨_, _, _, _, _, log⟩ := markPaid_log filed stored ran
  have free : protocolFee world.control file.invoice.amount = 0 := discountOf_of_overflow overflow
  have distributed : file.distributed world.control = file.invoice.amount := by
    rw [distributed_eq sound, free, sub_zero]
  rw [promised, free, distributed] at log
  have same := List.append_cancel_left log
  simp only [File.settlementMoves, List.cons.injEq, true_and] at same
  have nonneg := share_lt_fee sound rate overflow 0 le_rfl
  have least : 0 < file.exactFee world.control := by
    simpa [funderShare, checked_of_fits fits_zero] using nonneg
  obtain ⟨movement, made⟩ : ∃ movement, movement ∈ payment env file.invoice.token admin
      (file.exactFee world.control) := by
    refine List.exists_mem_of_ne_nil _ ?_
    unfold payment
    rw [if_neg (by omega)]
    split <;> simp
  have listed : movement ∈ payments env file.invoice.token
      (funderShare file.invoice.amount file.invoice.amount) file.funders := by
    have member := List.mem_append_left
      (payments env file.invoice.token (file.exactShare world.control) file.funders) made
    rw [same] at member
    simpa [payment] using member
  obtain ⟨entry, funder, paid⟩ := List.mem_flatMap.mp listed
  have equal := (spent_of_mem_payment made).symm.trans (spent_of_mem_payment paid)
  have below := share_lt_fee sound rate overflow entry.2 (sound.nonneg entry funder)
  omega

/-- Neither did a share: one replaced by zero leaves the total short. -/
theorem exact_of_settles : file.SettlesExactly world.control := by
  have fits := fee_fits_of_settles filed stored sound rate settles
  refine ⟨fits, ?_⟩
  obtain ⟨next, admin, ran, _, promised⟩ := settles
  obtain ⟨_, _, _, _, _, log⟩ := markPaid_log filed stored ran
  have positive := sound.amountPos
  obtain ⟨_, most⟩ := exactFee_le sound rate
  have fee : protocolFee world.control file.invoice.amount = file.exactFee world.control :=
    discountOf_of_fits (by omega) fits
  have distributed : file.distributed world.control = file.invoice.amount -
      file.exactFee world.control := by
    rw [distributed_eq sound, fee]
  rw [promised, fee, distributed] at log
  have same := congrArg (spent contract) (List.append_cancel_left log)
  simp only [File.settlementMoves, spent_cons, spent_append, spent_payment, spent_payments] at same
  have products : ∀ entry ∈ file.funders, 0 ≤ (file.invoice.amount - file.exactFee world.control) *
    entry.2 := fun entry listed => mul_nonneg (by omega) (sound.nonneg entry listed)
  intro entry listed
  by_contra overflow
  have less : paidTotal (funderShare (file.invoice.amount - file.exactFee world.control)
    file.invoice.amount)
      file.funders < paidTotal (file.exactShare world.control) file.funders := by
    refine List.sum_lt_sum _ _ ?_ ⟨entry, listed, ?_⟩
    · intro other member
      exact max_le_max le_rfl (funderShare_bounds (by omega) (products other member)).2
    · have large : file.invoice.amount ≤ (file.invoice.amount - file.exactFee world.control) *
          entry.2 := by
        by_contra small
        exact overflow (fits_of_nonneg_le sound.amountFits (products entry listed)
          (not_le.mp small).le)
      have share : 1 ≤ file.exactShare world.control entry.2 :=
        Int.le_ediv_of_mul_le (by omega) (by rwa [one_mul])
      have nothing : funderShare (file.invoice.amount - file.exactFee world.control)
        file.invoice.amount entry.2 = 0 := funderShare_of_overflow overflow
      rw [nothing, max_self]
      exact lt_of_lt_of_le (by omega) (le_max_right 0 _)
  omega

end Exactness

/-- The last payment of a funded invoice settles it as promised exactly when no product
overflows. -/
theorem settlement_exact_iff (clock : Clock) (balance : Balances) (actions : List (Action contract))
    (id : Nat) (start : ∀ token, 0 ≤ balance token contract)
    (refuses : ∀ action ∈ actions, action.RefusesNegative)
    (added : ∀ action ∈ actions, AddsNonneg id action) {file : File}
    (stored : (reach clock balance actions).book.file id = some file)
    (funded : file.invoice.status = .funded) {env : Env contract} (law : RejectsNegative env)
    (delivers : Delivers env) (ready : Ready env (reach clock balance actions) file) :
    SettlesAsPromised env (reach clock balance actions) id file ↔
      file.SettlesExactly (reach clock balance actions).control := by
  have filed := reach_filed clock balance actions
  have sound := exec_fileSound_of_added clock balance added file stored
  have escrow := exec_escrowSound (genesis_filed clock balance)
    (genesis_escrowSound clock balance start) refuses
  have orderly := exec_orderly (genesis_orderly clock balance) actions
  exact ⟨exact_of_settles filed stored sound ready.rate,
    settles_of_exact law delivers orderly filed escrow stored sound funded ready⟩

def largeFunding : List (Action ⟨0⟩) :=
  openingCalls 20000000000000000000 300 ++
    [.credit ⟨10⟩ ⟨2⟩ 20000000000000000000, .credit ⟨10⟩ ⟨3⟩ 1000000000000000000,
     .credit ⟨10⟩ ⟨4⟩ 19000000000000000000,
     signedBy [3] (.fundInvoice ⟨3⟩ 1 1000000000000000000 false),
     signedBy [4] (.fundInvoice ⟨4⟩ 1 19000000000000000000 false)]

def payerHost : Env ⟨0⟩ := stellarHost ⟨0⟩ [⟨2⟩] []

theorem largeFunding_drops_share :
    let world := traded largeFunding
    ∃ file ∈ world.book.file 1, file.invoice.status = .funded ∧ Ready payerHost world file ∧
      (⟨4⟩, 19000000000000000000) ∈ file.funders ∧
      file.exactShare world.control 19000000000000000000 = 19000000000000000000 ∧
      succeeds world (.invoke payerHost (.markPaid 1 file.remaining)) = true ∧
      paidTo ⟨0⟩ ⟨4⟩ (movedFor 1 world (.invoke payerHost (.markPaid 1 file.remaining))) = 0 := by
  decide +kernel

def smallFunding : List (Action ⟨0⟩) :=
  openingCalls 20000000 300 ++
    [signedBy [3] (.fundInvoice ⟨3⟩ 1 1000000 false),
      signedBy [4] (.fundInvoice ⟨4⟩ 1 19000000 false)]

theorem settlement_exact_of_smallFunding : ∃ file ∈ (traded smallFunding).book.file 1,
      SettlesAsPromised payerHost (traded smallFunding) 1 file := by
  obtain ⟨file, stored, funded, ready, exactly⟩ : ∃ file ∈ (traded smallFunding).book.file
      1, file.invoice.status = .funded ∧ Ready payerHost (traded smallFunding) file ∧
      file.SettlesExactly (traded smallFunding).control := by decide +kernel
  have added : ∀ action ∈ smallFunding, AddsNonneg 1 action := by
    simp [smallFunding, openingCalls, signedBy, AddsNonneg]
  exact ⟨file, stored, (settlement_exact_iff ⟨1000, 10⟩ marketBalances smallFunding 1
    (fun token => by simp [marketBalances]) (by simp [smallFunding, openingCalls]) added stored
    funded (stellarHost_rejectsNegative _ _ _) (stellarHost_delivers _ _ _) ready).mpr exactly⟩

end InvoiceLiquidity
