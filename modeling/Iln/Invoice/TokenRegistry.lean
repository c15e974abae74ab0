import Iln.Invoice.ControlStores

/-! The token registry: the approval flags, the token list, the registered decimals and the three
token addresses of `Config`. Approval is decided by the flag and, where none was ever written, by
`Config`. The list and the decimals follow the flags, so the structures agree as long as every
address that gets into `Config` has a flag. -/
namespace InvoiceLiquidity

open Outcome Transition Function

variable {contract : Address} {tokens : List Address} {action : Action contract}

structure TokenRegistry where
  approved : Address → Option Bool
  decimals : Address → Option Nat
  listed : List Address
  wired : List Address

def Control.registry (control : Control) : TokenRegistry where
  approved := control.approvedToken
  decimals := control.tokenDecimals
  listed := control.tokenList
  wired := control.config.elim [] Config.sacAddresses

namespace TokenRegistry

def accepts (registry : TokenRegistry) (token : Address) : Bool :=
  (registry.approved token).getD (decide (token ∈ registry.wired))

structure Consistent (registry : TokenRegistry) : Prop where
  listed : ∀ token, registry.accepts token = true ↔ token ∈ registry.listed
  once : registry.listed.Nodup
  decimals : ∀ token, registry.accepts token = true → (registry.decimals token).isSome = true

structure Sound (registry : TokenRegistry) : Prop where
  flagged : ∀ token ∈ registry.wired, (registry.approved token).isSome = true
  listed : ∀ token, token ∈ registry.listed ↔ registry.approved token = some true
  once : registry.listed.Nodup
  decimals : ∀ token ∈ registry.listed, (registry.decimals token).isSome = true

def reset (registry : TokenRegistry) (usdc eurc xlm : Address) : TokenRegistry where
  approved := update (update (update registry.approved usdc (some true))
    eurc (some true)) xlm (some true)
  decimals := update (update (update registry.decimals usdc (some 6)) eurc (some 6)) xlm (some 7)
  listed := [usdc, xlm, eurc]
  wired := [usdc, eurc, xlm]

def add (registry : TokenRegistry) (token : Address) (decimals : Nat) : TokenRegistry :=
  { registry with
    approved := update registry.approved token (some true)
    decimals := update registry.decimals token (some decimals)
    listed := if token ∈ registry.listed then registry.listed else registry.listed ++ [token] }

def drop (registry : TokenRegistry) (token : Address) : TokenRegistry :=
  { registry with
    approved := update registry.approved token (some false)
    listed := registry.listed.filter (· ≠ token) }

def register (registry : TokenRegistry) (table : Address → Option Nat) : TokenRegistry :=
  { registry with decimals := table }

def rewire (registry : TokenRegistry) (tokens : List Address) : TokenRegistry :=
  { registry with wired := tokens }

variable {registry : TokenRegistry}

section

variable (sound : registry.Sound)
include sound

theorem Sound.accepts_iff (token : Address) :
    registry.accepts token = true ↔ registry.approved token = some true := by
  unfold accepts
  cases flag : registry.approved token with
  | some => simp
  | none =>
    have unwired : token ∉ registry.wired := by
      intro wired
      have flagged := sound.flagged token wired
      rw [flag] at flagged
      cases flagged
    simp [unwired]

theorem Sound.consistent : registry.Consistent where
  listed := fun token => (sound.accepts_iff token).trans (sound.listed token).symm
  once := sound.once
  decimals := fun token accepted => sound.decimals token
    ((sound.listed token).mpr ((sound.accepts_iff token).mp accepted))

theorem Sound.add (token : Address) (decimals : Nat) : (registry.add token decimals).Sound := by
  have mem : ∀ other, other ∈ (registry.add token decimals).listed ↔ other ∈ registry.listed ∨
      other = token := by
    intro other
    unfold TokenRegistry.add
    dsimp only
    split
    · rename_i known
      constructor
      · exact .inl
      · rintro (listed | rfl)
        · exact listed
        · exact known
    · simp
  constructor
  · intro other wired
    exact isSome_update registry.approved token true (sound.flagged other wired)
  · intro other
    rw [mem]
    show _ ↔ update registry.approved token (some true) other = some true
    by_cases same : other = token
    · simp [same]
    · rw [update_of_ne same, ← sound.listed]
      simp [same]
  · show (if token ∈ registry.listed then registry.listed else registry.listed ++ [token]).Nodup
    split
    · exact sound.once
    · rename_i fresh
      exact sound.once.append (List.nodup_singleton token) (List.disjoint_singleton.mpr fresh)
  · intro other listed
    show (update registry.decimals token (some decimals) other).isSome = true
    by_cases same : other = token
    · subst same
      rw [update_self]
      rfl
    · rw [update_of_ne same]
      exact sound.decimals other (((mem other).mp listed).resolve_right same)

theorem Sound.drop (token : Address) : (registry.drop token).Sound := by
  constructor
  · intro other wired
    exact isSome_update registry.approved token false (sound.flagged other wired)
  · intro other
    show other ∈ registry.listed.filter (· ≠ token) ↔
      update registry.approved token (some false) other = some true
    by_cases same : other = token
    · simp [same]
    · rw [update_of_ne same, ← sound.listed]
      simp [same]
  · exact sound.once.filter _
  · intro other listed
    exact sound.decimals other (List.mem_filter.mp listed).1

theorem Sound.register {table : Address → Option Nat}
    (grows : ∀ token, (registry.decimals token).isSome = true → (table token).isSome = true) :
    (registry.register table).Sound :=
  ⟨sound.flagged, sound.listed, sound.once,
    fun token listed => grows token (sound.decimals token listed)⟩

theorem Sound.rewire (flagged : ∀ token ∈ tokens, (registry.approved token).isSome = true) :
    (registry.rewire tokens).Sound :=
  ⟨flagged, sound.listed, sound.once, sound.decimals⟩

/-- An address in `Config` without a flag would be approved without being listed. -/
theorem Sound.flagged_of_consistent (consistent : (registry.rewire tokens).Consistent) :
    ∀ token ∈ tokens, (registry.approved token).isSome = true := by
  intro token wired
  cases flag : registry.approved token with
  | some => rfl
  | none =>
    have accepted : (registry.rewire tokens).accepts token = true := by
      show (registry.approved token).getD (decide (token ∈ tokens)) = true
      rw [flag]
      exact decide_eq_true wired
    have listed := (sound.listed token).mp ((consistent.listed token).mp accepted)
    rw [flag] at listed
    cases listed

end

section Reset

variable {usdc eurc xlm : Address}

theorem reset_approved (registry : TokenRegistry) (usdc eurc xlm token : Address) :
    (registry.reset usdc eurc xlm).approved token =
      if token ∈ [usdc, eurc, xlm] then some true else registry.approved token := by
  simp only [reset, update_apply, List.mem_cons, List.not_mem_nil, or_false]
  grind

theorem reset_decimals (registry : TokenRegistry) {token : Address}
    (opened : token ∈ [usdc, eurc, xlm]) :
    ((registry.reset usdc eurc xlm).decimals token).isSome = true := by
  simp only [reset, update_apply, List.mem_cons, List.not_mem_nil, or_false] at opened ⊢
  grind

theorem reset_listed (registry : TokenRegistry) (usdc eurc xlm : Address) :
    (registry.reset usdc eurc xlm).listed.Perm [usdc, eurc, xlm] := .cons _ (.swap _ _ _)

theorem Sound.reset (sound : registry.Sound) (distinct : [usdc, eurc, xlm].Nodup)
    (covered : ∀ token ∈ registry.listed, token ∈ [usdc, eurc, xlm]) :
    (registry.reset usdc eurc xlm).Sound := by
  have same := registry.reset_listed usdc eurc xlm
  constructor
  · intro token wired
    rw [reset_approved, if_pos (show token ∈ [usdc, eurc, xlm] from wired)]
    rfl
  · intro token
    rw [same.mem_iff, reset_approved]
    split
    · rename_i opened
      simp [opened]
    · rename_i other
      rw [← sound.listed]
      exact ⟨fun opened => absurd opened other, covered token⟩
  · exact same.nodup_iff.mpr distinct
  · intro token listed
    exact registry.reset_decimals (same.mem_iff.mp listed)

/-- Opening with equal addresses lists a token twice; opening again leaves the tokens added
meanwhile approved and unlisted. -/
theorem Sound.opened_of_consistent (sound : registry.Sound)
    (consistent : (registry.reset usdc eurc xlm).Consistent) :
    [usdc, eurc, xlm].Nodup ∧ ∀ token ∈ registry.listed, token ∈ [usdc, eurc, xlm] := by
  have same := registry.reset_listed usdc eurc xlm
  refine ⟨same.nodup_iff.mp consistent.once, ?_⟩
  intro token listed
  refine same.mem_iff.mp ((consistent.listed token).mp ?_)
  unfold accepts
  rw [reset_approved, (sound.listed token).mp listed, ite_self]
  rfl

end Reset

end TokenRegistry

theorem isApprovedToken_eq (control : Control) (token : Address) :
    isApprovedToken control token = control.registry.accepts token := by
  unfold isApprovedToken TokenRegistry.accepts
  show _ = (control.approvedToken token).getD
    (decide (token ∈ control.config.elim [] Config.sacAddresses))
  cases control.approvedToken token with
  | some => rfl
  | none =>
    cases stored : control.config with
    | none => simp [isUsdcToken, isEurcToken, isXlmToken, stored]
    | some =>
      simp [isUsdcToken, isEurcToken, isXlmToken, stored, Config.sacAddresses,
        Bool.beq_eq_decide_eq, Bool.or_assoc]

inductive RegistryMove (before : TokenRegistry) : Call → TokenRegistry → Prop
  | same {call : Call} (unwired : call.Unwired) :
    RegistryMove before call before
  | opened (admin usdc eurc xlm : Address) :
      RegistryMove before (.initializeContract admin usdc eurc xlm) (before.reset usdc eurc xlm)
  | added (token : Address) (decimals : Nat) : RegistryMove before (.addToken token decimals)
      (before.add token decimals)
  | dropped {call : Call} (token : Address) (unwired : call.Unwired) :
      RegistryMove before call (before.drop token)
  | registered {call : Call} (table : Address → Option Nat)
      (grows : ∀ token, (before.decimals token).isSome = true → (table token).isSome = true)
      (unwired : call.Unwired) :
      RegistryMove before call (before.register table)
  | rewired (caller : Address) (wanted : Config) :
      RegistryMove before (.updateConfig caller wanted) (before.rewire wanted.sacAddresses)

theorem RegistryMove.of_eq {before after : TokenRegistry} {call : Call} (same : after = before)
    (unwired : call.Unwired) :
    RegistryMove before call after :=
  same ▸ .same unwired

section Calls

variable {env : Env contract} {clock : Clock} {world next : World} {request : Call}
  {before after : Control}

theorem Begun.registry {logs : Option AdminCall} (started : Begun clock logs before after) :
    after.registry = before.registry := by
  obtain ⟨_, _, _, _, rfl, _⟩ := started
  rfl

theorem ControlWrite.registry (write : ControlWrite clock before request after) :
    RegistryMove before.registry request after.registry := by
  cases write with
  | admin _ started => exact .of_eq (started.registry :) ⟨rfl, rfl⟩
  | oracle started _ unwired => exact .of_eq (started.registry :) unwired
  | settings started unwired tuned =>
    refine .of_eq (Eq.trans ?_ started.registry) unwired
    simp only [Control.registry, tuned.wires]
  | dropped token started unwired =>
    rw [← started.registry]
    exact .dropped token unwired
  | rewired caller wanted started =>
    obtain ⟨_, _, _, _, rfl, _⟩ := started
    exact .rewired caller wanted
  | registered started _ unwired grows =>
    obtain ⟨_, _, _, _, rfl, _⟩ := started
    exact .registered _ grows unwired
  | multisig _ _ unwired | observed _ unwired => exact .same unwired
  | voted token _ _ unwired => exact .dropped token unwired

theorem invokeWorld_registry (ran : invokeWorld env world request = .ok next)
    (unwired : request.rewired = none) :
    RegistryMove world.control.registry request next.control.registry := by
  cases fresh : request.setsUp with
  | false =>
    obtain ⟨_, _, _, _, same⟩ := (invokeWorld_writes ran).settles fresh
    rw [same]
    refine .of_eq rfl ⟨?_, unwired⟩
    cases request with
    | initializeContract => cases fresh
    | _ => rfl
  | true =>
    cases request with
    | initializeContract admin usdc eurc xlm =>
      simp only [invokeWorld, initializeContract, ok_iff] at ran
      obtain ⟨_, _, rfl⟩ := ran
      exact .opened admin usdc eurc xlm
    | addToken token decimals =>
      simp only [invokeWorld, addToken, ok_iff] at ran
      obtain ⟨_, begun, _, _, _, _, _, _, _, _, _, _, _, _, rfl⟩ := ran
      rw [← (beginAdminCall_begun begun).registry]
      exact .added token decimals
    | _ => cases fresh

theorem invoke_registry (ran : invoke env world request = .ok next) :
    RegistryMove world.control.registry request next.control.registry := by
  rcases invoke_routed ran with ⟨_, routed, rfl⟩ | ⟨routed, ran⟩
  · exact (invokeControl_write routed).registry
  · apply invokeWorld_registry ran
    cases request with
    | updateConfig => cases routed
    | _ => rfl

end Calls

/-- An initialisation names three different tokens, all listed tokens among them; an update of the
configuration wires only tokens that have a flag. -/
def TokenRegistry.Careful (registry : TokenRegistry) (call : Call) : Prop :=
  (∀ tokens ∈ call.opened, tokens.Nodup ∧ ∀ token ∈ registry.listed, token ∈ tokens) ∧
    ∀ tokens ∈ call.rewired, ∀ token ∈ tokens, (registry.approved token).isSome = true

theorem TokenRegistry.careful_of_none {registry : TokenRegistry} {call : Call}
    (unwired : call.Unwired) : registry.Careful call := by
  unfold TokenRegistry.Careful
  rw [unwired.1, unwired.2]
  exact ⟨(by rintro _ ⟨⟩), (by rintro _ ⟨⟩)⟩

namespace RegistryMove

variable {before after : TokenRegistry} {call : Call}

theorem sound (move : RegistryMove before call after) (sound : before.Sound)
    (careful : before.Careful call) : after.Sound := by
  cases move with
  | same => exact sound
  | opened =>
    obtain ⟨distinct, covered⟩ := careful.1 _ rfl
    exact sound.reset distinct covered
  | added token decimals => exact sound.add token decimals
  | dropped token => exact sound.drop token
  | registered table grows => exact sound.register grows
  | rewired => exact sound.rewire (careful.2 _ rfl)

theorem careful (move : RegistryMove before call after) (sound : before.Sound)
    (consistent : after.Consistent) : before.Careful call := by
  cases move with
  | same unwired | dropped _ unwired | registered _ _ unwired =>
    exact TokenRegistry.careful_of_none unwired
  | opened =>
    refine ⟨?_, (by rintro _ ⟨⟩)⟩
    intro tokens named
    cases named
    exact sound.opened_of_consistent consistent
  | added => exact TokenRegistry.careful_of_none ⟨rfl, rfl⟩
  | rewired =>
    refine ⟨(by rintro _ ⟨⟩), ?_⟩
    intro tokens named
    cases named
    exact sound.flagged_of_consistent consistent

end RegistryMove

/-- `is_approved_token` accepts exactly the listed tokens, each is listed once, and its decimals are
registered. -/
structure RegistryConsistent (control : Control) : Prop where
  listed : ∀ token, isApprovedToken control token = true ↔ token ∈ control.tokenList
  once : ∀ token ∈ control.tokenList, control.tokenList.count token = 1
  decimals : ∀ token, isApprovedToken control token = true → (control.tokenDecimals token).isSome =
    true

theorem registryConsistent_iff (control : Control) : RegistryConsistent control ↔
    control.registry.Consistent := by
  constructor
  · intro consistent
    constructor
    · intro token
      rw [← isApprovedToken_eq]
      exact consistent.listed token
    · apply List.nodup_iff_count_le_one.mpr
      intro token
      by_cases member : token ∈ control.tokenList
      · exact (consistent.once token member).le
      · exact (List.count_eq_zero.mpr member).le.trans (Nat.zero_le 1)
    · intro token
      rw [← isApprovedToken_eq]
      exact consistent.decimals token
  · intro consistent
    constructor
    · intro token
      rw [isApprovedToken_eq]
      exact consistent.listed token
    · intro token member
      exact List.count_eq_one_of_mem consistent.once member
    · intro token
      rw [isApprovedToken_eq]
      exact consistent.decimals token

def Action.request : Action contract → Option Call
  | .invoke _ call => some call
  | .credit _ _ _ | .advance _ _ => none

def WiredCarefully (world : World) (action : Action contract) : Prop :=
  succeeds world action = true → ∀ call ∈ action.request, world.control.registry.Careful call

theorem step_registry_sound {world : World} (sound : world.control.registry.Sound)
    (careful : WiredCarefully world action) : (step world action).control.registry.Sound := by
  refine step_keeps (fun world => world.control.registry.Sound) action ?_ fun _ _ => sound
  rintro env call rfl ran
  have finished := succeeds_of_invoke ran
  exact (invoke_registry ran).sound sound (careful finished call rfl)

theorem step_registry_careful {world : World} (sound : world.control.registry.Sound)
    (consistent : RegistryConsistent (step world action).control) :
    WiredCarefully world action := by
  intro finished call requested
  cases action with
  | credit | advance => cases requested
  | invoke =>
    cases requested
    exact (invoke_registry (invoke_of_succeeds finished)).careful sound
      ((registryConsistent_iff _).mp consistent)

theorem genesis_registry_sound (clock : Clock) (balance : Balances) :
    (genesis clock balance).control.registry.Sound where
  flagged := fun _ wired => absurd wired List.not_mem_nil
  listed := fun _ => ⟨fun listed => absurd listed List.not_mem_nil, (by rintro ⟨⟩)⟩
  once := List.nodup_nil
  decimals := fun _ listed => absurd listed List.not_mem_nil

/-- The registry is consistent in every state of a run exactly if the run initialises and configures
with care. -/
theorem registry_consistent_iff (clock : Clock) (balance : Balances)
    (actions : List (Action contract)) :
    Throughout step (fun world => RegistryConsistent world.control)
      (genesis clock balance) actions ↔ Along step WiredCarefully (genesis clock balance) actions :=
  throughout_iff (fun world : World => world.control.registry.Sound)
    (fun world sound => (registryConsistent_iff world.control).mpr sound.consistent)
    (fun _ _ sound careful => step_registry_sound sound careful)
    (fun _ _ sound consistent => step_registry_careful sound consistent)
    (genesis_registry_sound clock balance) actions

/-- A new address in the configuration is approved at once, unlisted and without decimals. Opening
the contract with equal addresses lists the token twice, and opening it again drops the token 20
from the list and leaves its flag. -/
theorem registry_writers_disagree : (let control := (traded
        [opening, signedBy [1] (.updateConfig ⟨1⟩ (initialConfig ⟨77⟩ ⟨11⟩ ⟨12⟩))]).control
     isApprovedToken control ⟨77⟩ = true ∧ ⟨77⟩ ∉ control.tokenList ∧
     control.tokenDecimals ⟨77⟩ = none) ∧
    (traded [signedBy [] (.initializeContract ⟨1⟩ ⟨10⟩ ⟨10⟩
      ⟨12⟩)]).control.tokenList.count ⟨10⟩ = 2 ∧
    (let control := (traded
        [opening, .credit ⟨20⟩ ⟨1⟩ 1000000, signedBy [1] (.addToken ⟨20⟩ 6), opening]).control
     isApprovedToken control ⟨20⟩ = true ∧ ⟨20⟩ ∉ control.tokenList) := by
  decide +kernel

end InvoiceLiquidity
