import Iln.Invoice.Access

/-! Payer and liquidity-provider scores (`invoice.rs`) and the bounded min-heap of top payers
(`top_payers.rs`). Reading a payer's score applies the decay that has become due and writes it back.
Heap loops carry fuel: the index for the way up, the length for the way down. -/
namespace InvoiceLiquidity

open FixedWidth Function

abbrev Heap := List TopPayerEntry

def Heap.score (heap : Heap) (index : Nat) : Nat := ((heap[index]?).map TopPayerEntry.score).getD 0

def Heap.swap (heap : Heap) (first second : Nat) : Heap :=
  match heap[first]?, heap[second]? with
  | some one, some other => (heap.set first other).set second one
  | _, _ => heap

def siftUp : (fuel : Nat) → Heap → (index : Nat) → Heap
  | 0, heap, _ => heap
  | fuel + 1, heap, index =>
    let parent := (index - 1) / 2
    if index = 0 then heap
    else if heap.score parent ≤ heap.score index then heap
    else siftUp fuel (heap.swap index parent) parent

def smallestOf (heap : Heap) (index : Nat) : Nat :=
  let left := 2 * index + 1
  let right := 2 * index + 2
  let smallest := if left < heap.length ∧ heap.score left < heap.score index then left else index
  if right < heap.length ∧ heap.score right < heap.score smallest then right else smallest

def siftDown : (fuel : Nat) → Heap → (index : Nat) → Heap
  | 0, heap, _ => heap
  | fuel + 1, heap, index =>
    let smallest := smallestOf heap index
    if smallest = index then heap else siftDown fuel (heap.swap index smallest) smallest

def removePayerFromHeap (heap : Heap) (payer : Address) : Heap :=
  match heap.findIdx? (fun entry => entry.address == payer) with
  | none => heap
  | some index =>
    let lastIndex := heap.length - 1
    let replaced := match heap[lastIndex]? with
      | some last => if index = lastIndex then heap else heap.set index last
      | none => heap
    let shorter : Heap := replaced.dropLast
    if index < shorter.length then
      if 0 < index ∧ shorter.score index < shorter.score ((index - 1) / 2) then
        siftUp index shorter index
      else siftDown shorter.length shorter index
    else shorter

def insertIntoHeap (heap : Heap) (payer : Address) (score : Nat) : Heap :=
  if heap.length < topPayersCapacity then
    siftUp heap.length (heap ++ [⟨payer, score⟩]) heap.length
  else if score ≤ heap.score 0 then heap
  else siftDown heap.length (heap.set 0 ⟨payer, score⟩) 0

def updateTopPayersOnScoreChange (scores : ScoreStore) (payer : Address) (newScore : Nat) :
    ScoreStore :=
  { scores with
    topPayersHeap := insertIntoHeap (removePayerFromHeap scores.topPayersHeap payer)
      payer newScore }

def getReputation (scores : ScoreStore) (address : Address) : ReputationProfile :=
  (scores.reputation address).getD ⟨address, 0, 0, 0, 0⟩

/-- Profiles that are all zero are not stored. -/
def setReputation (scores : ScoreStore) (profile : ReputationProfile) : ScoreStore :=
  let empty := profile.invoicesSubmitted = 0 ∧ profile.invoicesPaid = 0 ∧
    profile.invoicesDefaulted = 0 ∧ profile.score = 0
  { scores with
    reputation := update scores.reputation profile.address
      (if empty then none else some profile) }

def decayStep (rateBps score : Nat) : Nat :=
  let amount := min u64Max (score * rateBps) / 10000
  score - (if amount = 0 ∧ 0 < score then 1 else amount)

def decayedScore (rateBps periods score : Nat) : Nat :=
  if maxReputationDecayPeriods < periods then 0 else (decayStep rateBps)^[periods] score

def getPayerScore (clock : Clock) (config : Option Config) (scores : ScoreStore) (payer : Address) :
    ScoreStore × Nat :=
  match scores.payerScore payer, config with
  | none, _ => (scores, defaultPayerScore)
  | some rep, none => (scores, rep.score)
  | some rep, some decay =>
    let idle := clock.sequence - rep.lastActivityLedger
    if decay.decayPeriodLedgers ≤ idle ∧ 0 < decay.decayPeriodLedgers ∧ 0 < decay.decayRateBps then
      let newScore := min 100 (decayedScore decay.decayRateBps
        (idle / decay.decayPeriodLedgers) rep.score)
      if newScore = rep.score then (scores, rep.score) else
        let written := { scores with
          payerScore := update scores.payerScore payer (some ⟨newScore, clock.sequence⟩) }
        (setReputation written { getReputation written payer with score := newScore }, newScore)
    else (scores, rep.score)

/-- Scores are capped at 100; the default score is not stored. -/
def setPayerScore (clock : Clock) (config : Option Config) (scores : ScoreStore) (payer : Address)
    (score : Nat) : ScoreStore :=
  let score := min score 100
  let (scores, oldScore) := getPayerScore clock config scores payer
  let written := { scores with
    payerScore := update scores.payerScore payer
      (if score = defaultPayerScore then none else some ⟨score, clock.sequence⟩) }
  let synced := setReputation written { getReputation written payer with score }
  if oldScore = score then synced else updateTopPayersOnScoreChange synced payer score

def incrementInvoicesSubmitted (scores : ScoreStore) (address : Address) : ScoreStore :=
  let profile := getReputation scores address
  setReputation scores
    { profile with invoicesSubmitted := addCapped u32Max profile.invoicesSubmitted 1 }

def incrementInvoicesPaid (scores : ScoreStore) (address : Address) : ScoreStore :=
  let profile := getReputation scores address
  setReputation scores { profile with invoicesPaid := addCapped u32Max profile.invoicesPaid 1 }

def incrementInvoicesDefaulted (scores : ScoreStore) (address : Address) : ScoreStore :=
  let profile := getReputation scores address
  setReputation scores
    { profile with invoicesDefaulted := addCapped u32Max profile.invoicesDefaulted 1 }

def getLpScore (scores : ScoreStore) (lp : Address) : Nat := (scores.lpScore lp).getD defaultLpScore

def setLpScore (scores : ScoreStore) (lp : Address) (score : Nat) : ScoreStore :=
  let score := min score 100
  { scores with
    lpScore := update scores.lpScore lp (if score = defaultLpScore then none else some score) }

end InvoiceLiquidity
