import Iln.Invoice.Reputation
import Iln.Invoice.TokenSafety

/-! Record keeping of `invoice.rs` and `nft.rs`: loading and saving invoices, the funder list,
the invoice indexes, the counters, token checks, and the invoice NFT that follows the status. -/
namespace InvoiceLiquidity

open Outcome FixedWidth Function

/-- The split format is preferred when both halves are present. -/
def Book.tryLoadInvoice (book : Book) (id : Nat) : Option Invoice :=
  match book.core id, book.metadata id with
  | some core, some metadata => some (core.withMetadata metadata)
  | _, _ => book.invoices id

def Book.saveInvoice (book : Book) (invoice : Invoice) : Book :=
  { book with invoices := update book.invoices invoice.id (some invoice) }

def Book.saveInvoiceFunders (book : Book) (id : Nat) (funders : List (Address × Int)) : Book :=
  { book with funders := update book.funders id funders }

def Book.nextId (book : Book) : Nat := book.nextInvoiceId.getD 1

/-- `next_invoice_id`: the identifier to use, and the book with the counter advanced. -/
def Book.takeId (book : Book) : Result (Book × Nat) := do
  let current := book.nextId
  require (current + 1 ≤ u64Max) (.returned .arithmeticOverflow)
  return ({ book with nextInvoiceId := some (current + 1) }, current)

def addContribution (funder : Address) (amount : Int) : List (Address × Int) → List (Address × Int)
  | [] => [(funder, amount)]
  | (address, recorded) :: rest =>
    if address = funder then (address, saturate i128 (recorded + amount)) :: rest
    else (address, recorded) :: addContribution funder amount rest

def addInvoiceToSubmitter (index : IndexStore) (submitter : Address) (id : Nat) : IndexStore :=
  { index with
    submitterInvoices := update index.submitterInvoices submitter
      (index.submitterInvoices submitter ++ [id]) }

def removeInvoiceFromSubmitter (index : IndexStore) (submitter : Address) (id : Nat) : IndexStore :=
  { index with
    submitterInvoices := update index.submitterInvoices submitter
      ((index.submitterInvoices submitter).filter (· ≠ id)) }

def addInvoiceToLp (index : IndexStore) (lp : Address) (id : Nat) : IndexStore :=
  if id ∈ index.lpInvoices lp then index else
    { index with lpInvoices := update index.lpInvoices lp (index.lpInvoices lp ++ [id]) }

def removeInvoiceFromLp (index : IndexStore) (lp : Address) (id : Nat) : IndexStore :=
  { index with
    lpInvoices := update index.lpInvoices lp ((index.lpInvoices lp).filter (· ≠ id)) }

def isXlmToken (control : Control) (token : Address) : Bool :=
  control.config.any fun config => token == config.xlmSacAddress

def isUsdcToken (control : Control) (token : Address) : Bool :=
  control.config.any fun config => token == config.usdcSacAddress

def isEurcToken (control : Control) (token : Address) : Bool :=
  control.config.any fun config => token == config.eurcSacAddress

/-- An explicit flag decides; without one the three configured tokens are accepted. -/
def isApprovedToken (control : Control) (token : Address) : Bool :=
  match control.approvedToken token with
  | some approved => approved
  | none => isUsdcToken control token || isEurcToken control token || isXlmToken control token

def tenPow : Nat → Int
  | 0 => 1
  | exponent + 1 => saturate i128 (tenPow exponent * 10)

def incrementTotalInvoices (stats : StatStore) : StatStore :=
  { stats with totalInvoices := addCapped u64Max stats.totalInvoices 1 }

def incrementTotalFunded (stats : StatStore) : StatStore :=
  { stats with totalFunded := addCapped u64Max stats.totalFunded 1 }

def incrementTotalPaid (stats : StatStore) : StatStore :=
  { stats with totalPaid := addCapped u64Max stats.totalPaid 1 }

def addVolume (control : Control) (stats : StatStore) (token : Address) (amount : Int) :
    StatStore :=
  let stats := { stats with
    tokenVolume := update stats.tokenVolume token (saturate i128 (stats.tokenVolume token + amount))
      }
  if isXlmToken control token then
    { stats with totalVolumeXlm := saturate i128 (stats.totalVolumeXlm + amount) }
  else if isUsdcToken control token then
    { stats with totalVolumeUsdc := saturate i128 (stats.totalVolumeUsdc + amount) }
  else if isEurcToken control token then
    { stats with totalVolumeEurc := saturate i128 (stats.totalVolumeEurc + amount) }
  else stats

def InvoiceStatus.carriesNft : InvoiceStatus → Bool
  | .funded | .partiallyFunded | .defaulted | .appealed | .disputed => true
  | .pending | .paid | .expired | .cancelled => false

def leadFunder : (lead : Address × Int) → List (Address × Int) → Address
  | lead, [] => lead.1
  | lead, entry :: rest => leadFunder (if lead.2 < entry.2 then entry else lead) rest

def nftOwner (invoice : Invoice) (funders : List (Address × Int)) : Address :=
  match invoice.funder, funders with
  | some lp, _ => lp
  | none, [] => invoice.freelancer
  | none, first :: rest => leadFunder first rest

def mintInvoiceNft (clock : Clock) (nft : NftStore) (id : Nat) (owner : Address)
    (invoice : Invoice) :
    Result NftStore := do
  require ((nft.invoiceNft id).isNone) (.returned .alreadyFunded)
  let metadata := ⟨id, invoice.amount, invoice.dueDate, invoice.discountRate, invoice.token, owner,
    clock.timestamp % (u32Max + 1)⟩
  return {
    invoiceNft := update nft.invoiceNft id (some metadata)
    invoiceNftOwner := update nft.invoiceNftOwner id (some owner) }

def transferInvoiceNft (nft : NftStore) (id : Nat) (source target : Address) : Result NftStore := do
  let metadata ← orFail (nft.invoiceNft id) (.returned .invoiceNotFound)
  require (metadata.owner = source) (.returned .unauthorized)
  return {
    invoiceNft := update nft.invoiceNft id (some { metadata with owner := target })
    invoiceNftOwner := update nft.invoiceNftOwner id (some target) }

def burnInvoiceNft (nft : NftStore) (id : Nat) (owner : Address) : Result NftStore := do
  let metadata ← orFail (nft.invoiceNft id) (.returned .invoiceNotFound)
  require (metadata.owner = owner) (.returned .unauthorized)
  return {
    invoiceNft := update nft.invoiceNft id none
    invoiceNftOwner := update nft.invoiceNftOwner id none }

def syncNftState (clock : Clock) (book : Book) (nft : NftStore) (id : Nat) : Result NftStore :=
  let exists? := (nft.invoiceNft id).isSome
  match book.tryLoadInvoice id with
  | none =>
    if exists? then do
      let owner ← orFail (nft.invoiceNftOwner id) .trap
      burnInvoiceNft nft id owner
    else .ok nft
  | some invoice =>
    if invoice.status.carriesNft then
      let target := nftOwner invoice (book.funders id)
      if exists? then do
        let owner ← orFail (nft.invoiceNftOwner id) (.returned .invoiceNotFound)
        if owner = target then .ok nft else transferInvoiceNft nft id owner target
      else mintInvoiceNft clock nft id target invoice
    else if exists? then do
      let owner ← orFail (nft.invoiceNftOwner id) (.returned .invoiceNotFound)
      burnInvoiceNft nft id owner
    else .ok nft

end InvoiceLiquidity
