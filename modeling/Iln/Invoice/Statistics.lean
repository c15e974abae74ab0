import Iln.Foundation.Numbered
import Iln.Invoice.ControlStores
import Iln.Invoice.RecordInvariants

/-! The statistics against the records: the counters and the volume of a token are compared with
counts and sums over all stored invoices. Two facts about the records carry this: an invoice whose
terms can still change has no contributions yet, and one that can still be funded is not
complete. -/
namespace InvoiceLiquidity

open Outcome FixedWidth Transition

variable {contract : Address} {amount : Int} {funder : Address} {verify : Bool}
  {action : Action contract}

def volumeIn (token : Address) (invoice : Invoice) : Int :=
  if invoice.token = token then invoice.amountFunded else 0

structure StatisticsMatch (book : Book) (stats : StatStore) : Prop where
  invoices : stats.totalInvoices = book.nextId - 1
  stored : Numbered.count (fun _ => True) book.invoices book.nextId = book.nextId - 1
  funded : stats.totalFunded =
    Numbered.count (fun invoice : Invoice => invoice.amountFunded = invoice.amount)
      book.invoices book.nextId
  paid : stats.totalPaid = Numbered.count (fun invoice : Invoice => invoice.status = .paid)
    book.invoices book.nextId
  volume : ∀ token, stats.tokenVolume token = Numbered.total
    (volumeIn token) book.invoices book.nextId

section Records

variable {book after : Book} {stats next : StatStore} {id : Nat} {before record : Invoice}

theorem StatisticsMatch.update (matched : StatisticsMatch book stats)
    (stored : book.invoices id = some before) (used : id < book.nextId)
    (invoices : after.invoices = Function.update book.invoices id (some record))
    (nextId : after.nextId = book.nextId) (total : next.totalInvoices = stats.totalInvoices)
    (funded : next.totalFunded + (if before.amountFunded = before.amount then 1 else 0) =
      stats.totalFunded + if record.amountFunded = record.amount then 1 else 0)
    (paid : next.totalPaid + (if before.status = .paid then 1 else 0) =
      stats.totalPaid + if record.status = .paid then 1 else 0)
    (volume : ∀ token, next.tokenVolume token + volumeIn token before =
      stats.tokenVolume token + volumeIn token record) : StatisticsMatch after next := by
  constructor
  · rw [total, nextId, matched.invoices]
  · have changed := Numbered.count_update (fun _ : Invoice => True) stored used record
    rw [invoices, nextId, ← matched.stored]
    simpa using changed
  · have changed := Numbered.count_update (fun invoice : Invoice => invoice.amountFunded =
      invoice.amount)
      stored used record
    rw [invoices, nextId]
    rw [matched.funded] at funded
    omega
  · have changed := Numbered.count_update (fun invoice : Invoice => invoice.status = .paid)
      stored used record
    rw [invoices, nextId]
    rw [matched.paid] at paid
    omega
  · intro token
    have changed := Numbered.total_update (volumeIn token) book.invoices used record
    have moved := volume token
    rw [stored] at changed
    rw [invoices, nextId]
    rw [matched.volume] at moved
    simp only [Option.elim] at changed
    omega

theorem StatisticsMatch.push (matched : StatisticsMatch book stats) (first : 1 ≤ book.nextId)
    (room : book.nextId + 1 ≤ u64Max)
    (invoices : after.invoices = Function.update book.invoices book.nextId (some record))
    (nextId : after.nextId = book.nextId + 1)
    (total : next.totalInvoices = addCapped u64Max stats.totalInvoices 1)
    (funded : next.totalFunded = stats.totalFunded) (paid : next.totalPaid = stats.totalPaid)
    (volume : next.tokenVolume = stats.tokenVolume) (empty : record.amountFunded = 0)
    (positive : 1 ≤ record.amount) (pending : record.status = .pending) :
    StatisticsMatch after next := by
  have unfunded : ¬ record.amountFunded = record.amount := by omega
  have unpaid : ¬ record.status = .paid := by rw [pending]; decide
  constructor
  · rw [total, nextId, matched.invoices, addCapped]
    omega
  · rw [invoices, nextId, Numbered.count_push, matched.stored, if_pos trivial]
    omega
  · rw [invoices, nextId, Numbered.count_push, funded, matched.funded, if_neg unfunded]
    rfl
  · rw [invoices, nextId, Numbered.count_push, paid, matched.paid, if_neg unpaid]
    rfl
  · intro token
    rw [invoices, nextId, Numbered.total_push, volume, matched.volume, volumeIn, empty,
      ite_self, add_zero]

end Records

section Changes

variable {env : Env contract} {world : World} {call : Call} {id : Nat} {file after : File}
  {moves : List Movement}

def Call.countsMoney : Call → Bool
  | .fundInvoice _ _ _ _ | .markPaid _ _ => true
  | _ => false

structure SameCounts (before after : Invoice) : Prop where
  funded : after.amountFunded = after.amount ↔ before.amountFunded = before.amount
  paid : after.status = .paid ↔ before.status = .paid
  volume : ∀ token, volumeIn token after = volumeIn token before

theorem SameCounts.of_status {before : Invoice} {status : InvoiceStatus}
    (before_ : before.status ≠ .paid) (after_ : status ≠ .paid) :
    SameCounts before { before with status } :=
  ⟨Iff.rfl, ⟨fun same => absurd same after_, fun same => absurd same before_⟩, fun _ => rfl⟩

theorem Change.sameCounts (change : Change env world id call file after moves)
    (sound : RecordSound file) (kept : RecordSound after) (plain : call.countsMoney = false) :
    SameCounts file.invoice after.invoice := by
  cases change with
  | edited freelancer token amount dueDate discountRate edits pending =>
    -- nothing has been contributed to a pending invoice
    have none := sound.pending pending
    have before := sound.amountPos
    have now : 1 ≤ amount := kept.amountPos
    refine ⟨?_, Iff.rfl, ?_⟩
    · show file.invoice.amountFunded = amount ↔ _
      omega
    · intro asset
      simp only [volumeIn, none, ite_self]
  | contributed | completed | instalment | settled => cases plain
  | renamed => exact ⟨Iff.rfl, Iff.rfl, fun _ => rfl⟩
  | cancelled fundable =>
    refine .of_status ?_ (by decide)
    rcases fundable with pending | partly
    · rw [pending]; decide
    · rw [partly]; decide
  | expired pending => exact .of_status (by rw [pending]; decide) (by decide)
  | defaulted _ funded => exact .of_status (by rw [funded]; decide) (by decide)
  | appealed _ _ defaulted => exact .of_status (by rw [defaulted]; decide) (by decide)
  | reviewed _ appealed => exact .of_status (by rw [appealed]; decide) (by decide)
  | disputed _ _ disputable =>
    refine .of_status ?_ (by decide)
    rcases disputable with pending | partly | funded
    · rw [pending]; decide
    · rw [partly]; decide
    · rw [funded]; decide
  | upheld disputed => exact .of_status (by rw [disputed]; decide) (by decide)
  | restored _ disputed =>
    refine .of_status (by rw [disputed]; decide) ?_
    unfold Invoice.restoredStatus
    split
    · decide
    · split <;> decide

theorem Change.fundedCounts {target : Nat}
    (change : Change env world id (.fundInvoice funder target amount verify) file after moves)
    (sound : RecordSound file) :
    file.invoice.amountFunded ≠ file.invoice.amount ∧
      (after.invoice.amountFunded = after.invoice.amount ↔ after.invoice.status = .funded) ∧
      file.invoice.status ≠ .paid ∧ after.invoice.status ≠ .paid ∧
      after.invoice.token = file.invoice.token ∧
      after.invoice.amountFunded = file.invoice.amountFunded + amount := by
  have unpaid : ∀ {status : InvoiceStatus}, status = .pending ∨ status = .partiallyFunded →
      status ≠ .paid := by
    rintro status (rfl | rfl)
    · decide
    · decide
  cases change with
  | edited _ _ _ _ _ edits => cases edits
  | restored restores => cases restores
  | contributed _ _ _ fundable _ short =>
    refine ⟨(sound.short_of_fundable fundable).ne, ⟨fun whole => absurd whole short.ne,
      (by rintro ⟨⟩)⟩,
      unpaid fundable, ((by rintro ⟨⟩)), rfl, rfl⟩
  | completed _ _ _ fundable _ whole =>
    exact ⟨(sound.short_of_fundable fundable).ne, ⟨fun _ => rfl, fun _ => rfl⟩, unpaid fundable,
      ((by rintro ⟨⟩)), rfl, whole.symm⟩

theorem Change.paidCounts {target : Nat}
    (change : Change env world id (.markPaid target amount) file after moves) :
    after.invoice.amountFunded = file.invoice.amountFunded ∧
      after.invoice.amount = file.invoice.amount ∧
      after.invoice.token = file.invoice.token ∧ file.invoice.status ≠ .paid := by
  cases change with
  | edited _ _ _ _ _ edits => cases edits
  | restored restores => cases restores
  | instalment _ funded | settled _ _ _ funded => exact ⟨rfl, rfl, rfl, by rw [funded]; decide⟩

end Changes

section Steps

variable {env : Env contract} {world next : World} {call : Call} {id : Nat} {invoice : Invoice}

structure Counted (world : World) : Prop extends StatisticsMatch world.book world.stats where
  first : 1 ≤ world.book.nextId
  room : world.book.nextId ≤ u64Max

/-- There are fewer invoices of any kind than identifiers, so a counter has room for one more. -/
theorem Counted.addCapped_count (counted : Counted world) (holds : Invoice → Prop)
    [DecidablePred holds] :
    addCapped u64Max (Numbered.count holds world.book.invoices world.book.nextId) 1 =
      Numbered.count holds world.book.invoices world.book.nextId + 1 := by
  have below := Numbered.count_le_all holds world.book.invoices world.book.nextId
  have stored := counted.stored
  have first := counted.first
  have room := counted.room
  unfold addCapped
  omega

theorem Counted.of_plain (counted : Counted world) (filed : Filed world.book)
    (sound : ∀ id, FileSound id world) (kept : ∀ id, FileSound id next)
    (ran : invoke env world call = .ok next) (plain : call.countsMoney = false)
    (unsubmitted : call.submits = false) (stats : next.stats = world.stats)
    (nextId : next.book.nextId = world.book.nextId) : Counted next := by
  refine ⟨?_, nextId ▸ counted.first, nextId ▸ counted.room⟩
  cases aimed : call.target with
  | none =>
    have invoices := invoke_invoices ran aimed unsubmitted
    obtain ⟨total, stored, funded, paid, volume⟩ := counted.toStatisticsMatch
    rw [← stats, ← nextId] at total
    rw [← invoices, ← nextId] at stored
    rw [← stats, ← nextId, ← invoices] at funded paid
    refine ⟨total, stored, funded, paid, ?_⟩
    intro token
    rw [stats, nextId, invoices]
    exact volume token
  | some id =>
    obtain ⟨file, after, _, found, files, change⟩ := invoke_files filed aimed ran
    have stored := invoice_of_file found
    have now : next.book.file id = some after := by rw [files, Function.update_self]
    have same := change.sameCounts (sound id file found) (kept id after now) plain
    refine counted.update stored (filed.used stored) (invoices_of_files files) nextId
      (by rw [stats]) ?_ ?_ ?_
    · rw [stats]
      simp only [same.funded]
    · rw [stats]
      simp only [same.paid]
    · intro token
      rw [stats, same.volume]

theorem Counted.submitted {params : InvoiceParams} (positive : 1 ≤ params.amount)
    (submission : Submission world next params) (counted : Counted world) : Counted next := by
  obtain ⟨_, invoices⟩ := submission.invoices
  obtain ⟨_, stats⟩ := submission.stats
  constructor
  · exact counted.push counted.first submission.room invoices submission.nextId (by rw [stats]; rfl)
      (by rw [stats]; rfl) (by rw [stats]; rfl) (by rw [stats]; rfl) rfl positive rfl
  · rw [submission.nextId]
    exact Nat.le_add_left _ _
  · rw [submission.nextId]
    exact submission.room

theorem addVolume_spec (control : Control) (stats : StatStore) (token : Address) (amount : Int) :
    (addVolume control stats token amount).totalInvoices = stats.totalInvoices ∧
      (addVolume control stats token amount).totalFunded = stats.totalFunded ∧
      (addVolume control stats token amount).totalPaid = stats.totalPaid ∧
      (addVolume control stats token amount).tokenVolume =
        Function.update stats.tokenVolume token
          (saturate i128 (stats.tokenVolume token + amount)) := by
  unfold addVolume
  dsimp only
  split
  · exact ⟨rfl, rfl, rfl, rfl⟩
  · split
    · exact ⟨rfl, rfl, rfl, rfl⟩
    · split <;> exact ⟨rfl, rfl, rfl, rfl⟩

theorem Counted.contributed {after : Invoice} {control : Control}
    (counted : Counted world) (filed : Filed world.book) (sound : ∀ id, FileSound id world)
    (fits : Fits i128 (world.stats.tokenVolume invoice.token + amount))
    (ran : invoke env world (.fundInvoice funder id amount verify) = .ok next)
    (stored : world.book.invoices id = some invoice) (now : next.book.invoices id = some after)
    (nextId : next.book.nextId = world.book.nextId)
    (stats : next.stats = addVolume control
      (if after.status = .funded then incrementTotalFunded world.stats else world.stats)
        invoice.token amount) :
    Counted next := by
  obtain ⟨file, reached, moves, found, files, change⟩ := invoke_files filed rfl ran
  cases (invoice_of_file found).symm.trans stored
  have invoices := invoices_of_files files
  rw [invoices, Function.update_self] at now
  cases now
  obtain ⟨short, whole, unpaid, open_, token, raised⟩ := change.fundedCounts (sound id file found)
  obtain ⟨total, funded, paid, volume⟩ := addVolume_spec control
    (if reached.invoice.status = .funded then incrementTotalFunded world.stats else world.stats)
    file.invoice.token amount
  rw [← stats] at total funded paid volume
  refine ⟨?_, nextId ▸ counted.first, nextId ▸ counted.room⟩
  refine counted.update stored (filed.used stored) invoices nextId ?_ ?_ ?_ ?_
  · rw [total]
    split <;> rfl
  · rw [funded, if_neg short]
    simp only [whole]
    split
    · show addCapped u64Max world.stats.totalFunded 1 + 0 = _
      rw [counted.funded]
      exact counted.addCapped_count _
    · rfl
  · rw [paid, if_neg unpaid, if_neg open_]
    split <;> rfl
  · intro asset
    have same : (if reached.invoice.status = .funded then incrementTotalFunded world.stats
        else world.stats).tokenVolume = world.stats.tokenVolume := by
      split <;> rfl
    rw [volume, same, saturate_of_fits fits]
    simp only [volumeIn, token, raised]
    by_cases here : asset = file.invoice.token
    · subst here
      rw [Function.update_self, if_pos rfl, if_pos rfl]
      omega
    · rw [Function.update_of_ne here, if_neg (Ne.symm here), if_neg (Ne.symm here)]

theorem Counted.paidIn {after : Invoice} (counted : Counted world) (filed : Filed world.book)
    (ran : invoke env world (.markPaid id amount) = .ok next)
    (now : next.book.invoices id = some after) (nextId : next.book.nextId = world.book.nextId)
    (stats : next.stats = if after.status = .paid then incrementTotalPaid world.stats
      else world.stats) :
    Counted next := by
  obtain ⟨_, _, _, found, files, change⟩ := invoke_files filed rfl ran
  have stored := invoice_of_file found
  have invoices := invoices_of_files files
  rw [invoices, Function.update_self] at now
  cases now
  obtain ⟨amountFunded, amount_, token, unpaid⟩ := change.paidCounts
  refine ⟨?_, nextId ▸ counted.first, nextId ▸ counted.room⟩
  refine counted.update stored (filed.used stored) invoices nextId ?_ ?_ ?_ ?_
  · rw [stats]
    split <;> rfl
  · rw [stats, amountFunded, amount_]
    split <;> rfl
  · rw [stats, if_neg unpaid]
    split
    · show addCapped u64Max world.stats.totalPaid 1 + 0 = _
      rw [counted.paid]
      exact counted.addCapped_count _
    · rfl
  · intro asset
    simp only [volumeIn, token, amountFunded]
    rw [stats]
    split <;> rfl

def Action.contribution : Action contract → Option (Nat × Int)
  | .invoke _ (.fundInvoice _ id amount _) => some (id, amount)
  | _ => none

def VolumeFits (world : World) (action : Action contract) : Prop :=
  succeeds world action = true → ∀ entry ∈ action.contribution,
    0 ≤ entry.2 ∧ ∀ invoice ∈ world.book.invoices entry.1,
      Fits i128 (world.stats.tokenVolume invoice.token + entry.2)

instance (world : World) (action : Action contract) : Decidable (VolumeFits world action) :=
  inferInstanceAs (Decidable (_ → ∀ entry ∈ action.contribution, _ ∧
    ∀ invoice ∈ world.book.invoices entry.1, _))

theorem step_fileSound (filed : Filed world.book) (fits : VolumeFits world action)
    (sound : ∀ id, FileSound id world) (id : Nat) : FileSound id (step world action) := by
  intro file now
  cases step_touch action filed id with
  | same unchanged => exact sound id file (unchanged ▸ now)
  | fresh made _ found isFresh =>
    cases found.symm.trans now
    exact isFresh.recordSound
  | changed env call before after invoked _ ran stored found change =>
    cases found.symm.trans now
    apply change.recordSound (sound id before stored)
    rintro funder amount verify rfl
    subst invoked
    exact (fits ran (id, amount) rfl).1

theorem step_counted (filed : Filed world.book) (fits : VolumeFits world action)
    (sound : ∀ id, FileSound id world) (counted : Counted world) : Counted (step world action) := by
  have kept := step_fileSound filed fits sound
  refine step_keeps Counted action ?_ fun _ _ =>
    ⟨counted.toStatisticsMatch, counted.first, counted.room⟩
  rintro env call rfl ran
  have finished := succeeds_of_invoke ran
  have effect := invoke_sides filed ran
  generalize step world (.invoke env call) = next at effect ran kept ⊢
  -- the calls that count nothing
  have plainly : call.countsMoney = false → call.submits = false → next.stats = world.stats →
      next.book.nextId = world.book.nextId → Counted next := fun plain unsubmitted =>
    counted.of_plain filed sound kept ran plain unsubmitted
  cases effect with
  | unrelated plain sides =>
    refine plainly ?_ ?_ (congrArg Sides.stats sides) (congrArg Sides.nextId sides)
    · cases call with
      | fundInvoice => cases plain
      | markPaid => cases plain
      | _ => rfl
    · cases call with
      | submitInvoice | submitInvoicesBatch => cases plain
      | _ => rfl
  | submitted _ recorded => exact recorded.keeps (fun _ _ _ => Counted.submitted) counted
  | handedOver _ _ _ _ sides | renamed _ _ _ _ _ _ _ sides | defaulted _ _ _ _ sides
  | appealed _ _ _ _ _ _ sides | reviewed _ _ _ _ _ sides | read _ sides =>
    exact plainly rfl rfl (congrArg Sides.stats sides) (congrArg Sides.nextId sides)
  | funded _ id amount _ invoice _ _ _ stored now _ _ sides =>
    have room := (fits finished (id, amount) rfl).2 invoice stored
    exact counted.contributed filed sound room ran stored now (congrArg Sides.nextId sides)
      (congrArg Sides.stats sides)
  | instalment _ _ after now funded sides =>
    apply counted.paidIn filed ran now (congrArg Sides.nextId sides)
    rw [funded]
    exact congrArg Sides.stats sides
  | settled _ _ _ after _ now paid sides =>
    apply counted.paidIn filed ran now (congrArg Sides.nextId sides)
    rw [paid]
    exact congrArg Sides.stats sides

theorem requireVolumeBelowCap_ok {control : Control} {stats : StatStore} {token : Address}
    (passed : requireVolumeBelowCap control stats token amount = .ok ())
    (capped : 0 < control.tokenVolumeCap token) :
    Fits i128 (stats.tokenVolume token + amount) ∧ stats.tokenVolume token + amount ≤
      control.tokenVolumeCap token := by
  unfold requireVolumeBelowCap at passed
  rw [if_pos capped] at passed
  simp only [ok_iff, checked_eq_some] at passed
  obtain ⟨_, ⟨fits, rfl⟩, below⟩ := passed
  exact ⟨fits, below⟩

/-- A positive cap is checked with exact arithmetic before the volume is raised. -/
theorem funded_volume_le_cap (filed : Filed world.book)
    (ran : invoke env world (.fundInvoice funder id amount verify) = .ok next)
    (stored : world.book.invoices id = some invoice)
    (capped : 0 < world.control.tokenVolumeCap invoice.token) :
    next.stats.tokenVolume invoice.token ≤ next.control.tokenVolumeCap invoice.token := by
  obtain ⟨_, _, _, _, control⟩ := (invokeWorld_writes (invoke_runs rfl ran)).settles rfl
  cases invoke_sides filed ran with
  | unrelated plain => cases plain
  | submitted submits => cases submits
  | funded _ _ _ _ found after counting _ loaded _ below _ sides =>
    cases loaded.symm.trans stored
    obtain ⟨fits, low⟩ := requireVolumeBelowCap_ok below capped
    have same : (if after.status = .funded then incrementTotalFunded world.stats
      else world.stats).tokenVolume =
        world.stats.tokenVolume := by
      split <;> rfl
    have stats : next.stats = _ := congrArg Sides.stats sides
    rw [stats, (addVolume_spec counting _ _ amount).2.2.2, Function.update_self, same,
      saturate_of_fits fits, control]
    exact low

/-- In every reachable state the statistics are what the records say, and no funding call that
returns lifts the volume of a token above a positive cap. -/
theorem statistics_match (clock : Clock) (balance : Balances) (actions : List (Action contract))
    (fits : Along step VolumeFits (genesis clock balance) actions) :
    let world := reach clock balance actions
    StatisticsMatch world.book world.stats ∧
      (∀ id, world.book.nextId ≤ id → world.book.invoices id = none) ∧
      ∀ (env : Env contract) funder id amount verify next invoice,
        invoke env world (.fundInvoice funder id amount verify) = .ok next →
          world.book.invoices id = some invoice → 0 < world.control.tokenVolumeCap invoice.token →
            next.stats.tokenVolume invoice.token ≤ next.control.tokenVolumeCap invoice.token := by
  have filed := reach_filed clock balance actions
  have start : Counted (genesis clock balance) :=
    ⟨⟨rfl, rfl, rfl, rfl, fun _ => rfl⟩, le_rfl, Nat.le_of_ble_eq_true rfl⟩
  have kept := filed_invariant (fun world => Counted world ∧ ∀ id, FileSound id world)
    (fun world action filed held met =>
      ⟨step_counted filed met held.2 held.1, step_fileSound filed met held.2⟩)
    (genesis_filed clock balance) ⟨start, (by rintro _ _ ⟨⟩)⟩ fits
  refine ⟨kept.1.toStatisticsMatch, filed.below, ?_⟩
  intro env funder id amount verify next invoice ran stored capped
  exact funded_volume_le_cap filed ran stored capped

def cappedFunding : List (Action ⟨0⟩) :=
  openingCalls 1000000 300 ++
    [signedBy [1] (.setTokenVolumeCap ⟨10⟩ 5000000), signedBy [3] (.fundInvoice ⟨3⟩ 1 400000 false),
     signedBy [4] (.fundInvoice ⟨4⟩ 1 600000 false)]

theorem statistics_match_of_cappedFunding :
    (traded cappedFunding).stats.tokenVolume ⟨10⟩ = Numbered.total (volumeIn ⟨10⟩)
      (traded cappedFunding).book.invoices (traded cappedFunding).book.nextId :=
  (statistics_match ⟨1000, 10⟩ marketBalances cappedFunding (by decide +kernel)).1.volume ⟨10⟩

end Steps

section Referrals

variable {env : Env contract} {world next : World} {call : Call} {code : Hash}

def getReferralStats (world : World) (code : Hash) : Nat := world.stats.referralCount code

def World.referred (world : World) (code : Hash) : Nat :=
  Numbered.count (fun invoice : Invoice => invoice.referralCode = some code) world.book.invoices
    world.book.nextId

theorem RecordsAll.referred {records : List InvoiceParams}
    (recorded : RecordsAll world next records)
    (counted : getReferralStats world code = world.referred code) :
    getReferralStats next code = next.referred code := by
  induction recorded with
  | done => exact counted
  | next _ recorded _ ih =>
    obtain ⟨_, _, nextId, referrals⟩ := recordSubmission_next recorded
    obtain ⟨_, invoices⟩ := (recordSubmission_spec recorded).invoices
    refine ih ?_
    rw [getReferralStats, referrals code, World.referred, invoices, nextId, Numbered.count_push]
    exact congrArg (· + _) counted

theorem SideEffect.referralCount (effect : SideEffect world next call)
    (unsubmitted : call.submits = false) :
    next.stats.referralCount = world.stats.referralCount ∧ next.book.nextId =
      world.book.nextId := by
  cases effect with
  | submitted submits => cases submits.symm.trans unsubmitted
  | funded _ _ _ _ _ _ _ _ _ _ _ _ sides =>
    have stats := congrArg Sides.stats sides
    refine ⟨?_, congrArg Sides.nextId sides⟩
    rw [show next.stats = _ from stats, addVolume]
    split_ifs <;> rfl
  | unrelated _ sides | handedOver _ _ _ _ sides | renamed _ _ _ _ _ _ _ sides
  | instalment _ _ _ _ _ sides | settled _ _ _ _ _ _ _ sides | defaulted _ _ _ _ sides
  | appealed _ _ _ _ _ _ sides | reviewed _ _ _ _ _ sides | read _ sides =>
    exact ⟨congrArg (fun sides => sides.stats.referralCount) sides, congrArg Sides.nextId sides⟩

theorem step_referred (action : Action contract) (filed : Filed world.book)
    (counted : getReferralStats world code = world.referred code) :
    getReferralStats (step world action) code = (step world action).referred code := by
  refine step_keeps (fun world => getReferralStats world code = world.referred code) action ?_
    fun _ _ => counted
  rintro env call rfl ran
  have effect := invoke_sides filed ran
  generalize step world (.invoke env call) = next at effect ran ⊢
  cases submits : call.submits with
  | true =>
    cases effect with
    | submitted _ recorded => exact recorded.referred counted
    | unrelated plain =>
      cases call with
      | submitInvoice | submitInvoicesBatch => cases plain
      | _ => cases submits
    | _ => cases submits
  | false =>
    obtain ⟨referrals, nextId⟩ := effect.referralCount submits
    rw [getReferralStats, referrals, World.referred, nextId]
    cases aimed : call.target with
    | none =>
      rw [invoke_invoices ran aimed submits]
      exact counted
    | some =>
      obtain ⟨file, after, _, found, files, change⟩ := invoke_files filed aimed ran
      have stored := invoice_of_file found
      have kept : after.invoice.referralCode = file.invoice.referralCode := by cases change <;> rfl
      have changed := Numbered.count_update (fun invoice : Invoice => invoice.referralCode =
        some code) stored
        (filed.used stored) after.invoice
      rw [kept] at changed
      rw [invoices_of_files files]
      exact counted.trans (Nat.add_right_cancel changed).symm

/-- In every reachable state `get_referral_stats` answers with the number of stored invoices that
carry the code. -/
theorem referrals_counted (clock : Clock) (balance : Balances) (actions : List (Action contract))
    (code : Hash) :
    getReferralStats (reach clock balance actions) code =
      (reach clock balance actions).referred code :=
  filed_invariant (fun world => getReferralStats world code = world.referred code)
    (fun _ action filed counted _ => step_referred action filed counted)
    (genesis_filed clock balance) rfl Along.always

end Referrals

end InvoiceLiquidity
