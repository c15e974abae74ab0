import Iln.Invoice.Access

/-! Outbound money (`token_safety.rs`) over Stellar Asset Contract tokens. Whether a transfer
returns is decided by the token; one that returns moves exactly its amount. A payout to an account
that is not authorized is escrowed and can be claimed later. -/
namespace InvoiceLiquidity

open Outcome FixedWidth

variable {contract : Address}

def move (balance : Balances) (token source target : Address) (amount : Int) : Balances :=
  fun asset holder =>
    balance asset holder + (if asset = token ∧ holder = target then amount else 0)
      - (if asset = token ∧ holder = source then amount else 0)

section Move

variable (balance : Balances) (token source target : Address)

theorem move_target {source target : Address} (apart : source ≠ target) (amount : Int) :
    move balance token source target amount token target = balance token target + amount := by
  simp [move, apart.symm]

theorem move_other {asset : Address} (other : asset ≠ token) (amount : Int) (holder : Address) :
    move balance token source target amount asset holder = balance asset holder := by
  simp [move, other]

theorem le_move_source {amount : Int} (nonneg : 0 ≤ amount) (asset : Address) :
    balance asset source - amount ≤ move balance token source target amount asset source := by
  unfold move
  split <;> split <;> omega

end Move

def transfer (env : Env contract) (treasury : Treasury) (token source target : Address)
    (amount : Int) :
    Result Treasury := do
  require (env.transferReturns treasury.balance token source target amount = true) .trap
  return { treasury with
    balance := move treasury.balance token source target amount
    log := treasury.log ++ [.transfer token source target amount] }

def Treasury.reserved (treasury : Treasury) (token : Address) : Int :=
  (treasury.pendingPayoutTotal token).getD 0

def Treasury.owed (treasury : Treasury) (recipient token : Address) : Int :=
  (treasury.pendingPayout.lookup (recipient, token)).getD 0

def setPending (treasury : Treasury) (recipient token : Address) (amount total : Int) : Treasury :=
  { treasury with
    pendingPayout :=
      if 0 < amount then treasury.pendingPayout.insert (recipient, token) amount
      else treasury.pendingPayout.erase (recipient, token)
    pendingPayoutTotal :=
      Function.update treasury.pendingPayoutTotal token (if 0 < total then some total else none) }

def isAuthorized (env : Env contract) (token holder : Address) : Bool :=
  env.authorized token holder == some true

def requireAuthorized (env : Env contract) (token holder : Address) : Result Unit :=
  match env.authorized token holder with
  | some true => .ok ()
  | some false => .error (.returned .accountFrozen)
  | none =>
    if (env.authorized token contract).isSome then .error (.returned .accountFrozen)
    else .error (.returned .tokenAuthorizationUnavailable)

def validateSacAuthorization (env : Env contract) (token admin : Address) : Result Unit :=
  match env.authorized token contract with
  | none => .error (.returned .tokenAuthorizationUnavailable)
  | some false => .error (.returned .accountFrozen)
  | some true => requireAuthorized env token admin

def validateTokenDecimals (env : Env contract) (token : Address) (declared : Nat) :
    Result Unit := do
  require (declared ≤ maxTokenDecimals) (.returned .invalidTokenDecimals)
  let onChain ← orFail (env.decimals token) (.returned .tokenDecimalsUnavailable)
  require (onChain = declared) (.returned .invalidTokenDecimals)

def registeredTokenDecimals (control : Control) (token : Address) : Result Nat :=
  orFail (control.tokenDecimals token) (.returned .tokenDecimalsNotConfigured)

def ensureSpendable (contract : Address) (treasury : Treasury) (token : Address)
    (amount reserved : Int) : Result Unit :=
  require (amount ≤ saturate i128 (treasury.balance token contract - reserved))
    (.returned .insufficientContractBalance)

def transferOutStrict (env : Env contract) (treasury : Treasury) (token recipient : Address)
    (amount : Int) : Result Treasury :=
  if amount ≤ 0 then .ok treasury else do
    ensureSpendable contract treasury token amount (treasury.reserved token)
    requireAuthorized env token recipient
    transfer env treasury token contract recipient amount

def escrow (treasury : Treasury) (token recipient : Address) (amount : Int) : Result Treasury := do
  let owed ← orFail (checked i128 (treasury.owed recipient token + amount))
    (.returned .arithmeticOverflow)
  let total ← orFail (checked i128 (treasury.reserved token + amount))
    (.returned .arithmeticOverflow)
  let kept := setPending treasury recipient token owed total
  return { kept with log := kept.log ++ [.escrow token recipient amount] }

def payOrEscrow (env : Env contract) (treasury : Treasury) (token recipient : Address)
    (amount : Int) : Result Treasury :=
  if amount ≤ 0 then .ok treasury else do
    ensureSpendable contract treasury token amount (treasury.reserved token)
    if isAuthorized env token recipient then transfer env treasury token contract recipient amount
    else escrow treasury token recipient amount

def claimPending (env : Env contract) (treasury : Treasury) (recipient token : Address) :
    Result (Treasury × Int) := do
  let amount := treasury.owed recipient token
  require (0 < amount) (.returned .nothingToClaim)
  requireAuthorized env token recipient
  let rest := saturate i128 (treasury.reserved token - amount)
  ensureSpendable contract treasury token amount rest
  let treasury ← transfer env (setPending treasury recipient token 0 rest) token contract
    recipient amount
  return (treasury, amount)

end InvoiceLiquidity
