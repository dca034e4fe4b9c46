import ProgrammableSolana.Core.Envelope
import ProgrammableSolana.Wire.Common

/-! The opaque accounts an execution hands on to the engine: which lists are admitted, and the
metas and account infos they are forwarded with. -/
namespace ProgrammableSolana.Core

open ProgrammableSolana.Lib ProgrammableSolana.Solana ProgrammableSolana.Wire

/-- An account as a program sees it: what it was passed with, and what the ledger says of it. -/
structure AccountView extends AccountInfo where
  owner : Pubkey
  executable : Bool

def accountView (L : Ledger) (info : AccountInfo) : AccountView where
  toAccountInfo := info
  owner := (L info.key).owner
  executable := (L info.key).executable

def validateOpaquePayload (payload : List UInt8) : Result Unit :=
  require (payload.length ≤ maxOpaquePayloadLen) (.core .opaquePayloadTooLarge)

/-- Whether some position of `key` is a signer. -/
def effectiveIsSigner (opaqueAccounts : List AccountView) (key : Pubkey) : Bool :=
  opaqueAccounts.any fun candidate => candidate.key = key && candidate.isSigner

/-- Whether some position of `key` is writable. -/
def effectiveIsWritable (opaqueAccounts : List AccountView) (key : Pubkey) : Bool :=
  opaqueAccounts.any fun candidate => candidate.key = key && candidate.isWritable

/-- One round of the loop in `validate_opaque_capabilities`. -/
def opaqueDescriptor (cfg : Config) (opaqueAccounts : List AccountView)
    (fixedEnvelopeKeys : List Pubkey) (account : AccountView) : Result CapabilityDescriptor := do
  let isSigner := effectiveIsSigner opaqueAccounts account.key
  let isWritable := effectiveIsWritable opaqueAccounts account.key
  require (isSigner = false) (.core .opaqueSignerForbidden)
  require (¬ fixedEnvelopeKeys.any (· = account.key)) (.core .opaqueFixedRoleAlias)
  require (account.owner ≠ cfg.ID) (.core .opaqueCoreOwnedAccount)
  require (¬ (account.executable = true ∧ isWritable = true)) (.core .opaqueExecutableWritable)
  require (¬ (isWritable = true ∧
    (account.owner = tokenProgram ∨ account.owner = token2022Program)))
    (.core .opaqueProtectedTokenAccountWritable)
  return { key := account.key, owner := account.owner, isWritable, isSigner,
           isExecutable := account.executable }

def validateOpaqueCapabilities (cfg : Config) (opaqueAccounts : List AccountView)
    (fixedEnvelopeKeys : List Pubkey) : Result (List CapabilityDescriptor) := do
  require (opaqueAccounts.length ≤ maxOpaqueAccounts) (.core .tooManyOpaqueAccounts)
  opaqueAccounts.mapM (opaqueDescriptor cfg opaqueAccounts fixedEnvelopeKeys)

/-- The meta a descriptor is forwarded with: never a signer. -/
def opaqueMeta (d : CapabilityDescriptor) : AccountMeta :=
  if d.isWritable then .new d.key false else .newReadonly d.key false

/-- The first position of the same account that holds the privileges of the descriptor. -/
def normalizedInfo (opaqueAccounts : List AccountView) (d : CapabilityDescriptor) :
    Result AccountInfo := do
  let candidate ← okOr (opaqueAccounts.find? fun candidate =>
    candidate.key = d.key && candidate.owner = d.owner && candidate.executable = d.isExecutable &&
      (!d.isWritable || candidate.isWritable) && (!d.isSigner || candidate.isSigner))
    (.core .opaqueNormalizedPrivilegeUnavailable)
  return candidate.toAccountInfo

/-- `u16::try_from` on a list length. -/
def opaqueCount (accounts : List AccountInfo) : Result UInt16 :=
  okOr (if accounts.length < 2 ^ 16 then some (UInt16.ofNat accounts.length) else none)
    (.core .integerConversionFailed)

theorem opaqueCount_ok {accounts : List AccountInfo} {count : UInt16}
    (h : opaqueCount accounts = .ok count) : count.toNat = accounts.length := by
  unfold opaqueCount at h
  rw [okOr_ok_iff] at h
  split at h
  · next hlt =>
    rw [← Option.some.inj h, UInt16.toNat_ofNat', Nat.mod_eq_of_lt hlt]
  · cases h

theorem opaqueCount_eq {accounts : List AccountInfo} (h : accounts.length < 2 ^ 16) :
    opaqueCount accounts = .ok (UInt16.ofNat accounts.length) := by
  unfold opaqueCount
  rw [if_pos h]
  rfl

/-- What admitting one opaque position establishes about it. -/
structure Admitted (cfg : Config) (opaqueAccounts : List AccountView)
    (fixedEnvelopeKeys : List Pubkey) (account : AccountView) (d : CapabilityDescriptor) : Prop where
  key : d.key = account.key
  owner : d.owner = account.owner
  isExecutable : d.isExecutable = account.executable
  isWritable : d.isWritable = effectiveIsWritable opaqueAccounts account.key
  isSigner : d.isSigner = false
  unsigned : effectiveIsSigner opaqueAccounts account.key = false
  notFixed : account.key ∉ fixedEnvelopeKeys
  notCore : account.owner ≠ cfg.ID
  notCode : d.isWritable = true → account.executable = false
  notToken : d.isWritable = true → account.owner ≠ tokenProgram ∧ account.owner ≠ token2022Program

theorem opaqueDescriptor_ok {cfg : Config} {opaqueAccounts : List AccountView}
    {fixedEnvelopeKeys : List Pubkey} {account : AccountView} {d : CapabilityDescriptor}
    (h : opaqueDescriptor cfg opaqueAccounts fixedEnvelopeKeys account = .ok d) :
    Admitted cfg opaqueAccounts fixedEnvelopeKeys account d := by
  unfold opaqueDescriptor at h
  simp only [except_bind_ok_iff, require_ok_iff, except_pure_ok_iff] at h
  obtain ⟨_, hsigner, _, hfixed, _, hcore, _, hcode, _, htoken, rfl⟩ := h
  have hnotFixed : account.key ∉ fixedEnvelopeKeys := by
    intro hmem
    exact hfixed (List.any_eq_true.mpr ⟨account.key, hmem, by simp⟩)
  have hnotCode : effectiveIsWritable opaqueAccounts account.key = true →
      account.executable = false := by
    intro hw
    by_contra hexec
    exact hcode ⟨by simpa using hexec, hw⟩
  exact ⟨rfl, rfl, rfl, rfl, hsigner, hsigner, hnotFixed, hcore, hnotCode,
    fun hw => ⟨fun ho => htoken ⟨hw, .inl ho⟩, fun ho => htoken ⟨hw, .inr ho⟩⟩⟩

/-- An admitted list is admitted position by position, in order. -/
theorem validateOpaqueCapabilities_ok {cfg : Config} {opaqueAccounts : List AccountView}
    {fixedEnvelopeKeys : List Pubkey} {ds : List CapabilityDescriptor}
    (h : validateOpaqueCapabilities cfg opaqueAccounts fixedEnvelopeKeys = .ok ds) :
    opaqueAccounts.length ≤ maxOpaqueAccounts ∧
      List.Forall₂ (Admitted cfg opaqueAccounts fixedEnvelopeKeys) opaqueAccounts ds := by
  simp only [validateOpaqueCapabilities, except_bind_ok_iff, require_ok_iff,
    except_mapM_ok_iff] at h
  obtain ⟨_, hlen, hds⟩ := h
  exact ⟨hlen, hds.imp fun _ _ => opaqueDescriptor_ok⟩

/-- Accounts that are admitted next to one list of fixed roles are next to another one that names
none of them. -/
theorem validateOpaqueCapabilities_fixed {cfg : Config} {opaqueAccounts : List AccountView}
    {keys keys' : List Pubkey} {ds : List CapabilityDescriptor}
    (h : validateOpaqueCapabilities cfg opaqueAccounts keys = .ok ds)
    (hkeys : ∀ account ∈ opaqueAccounts, account.key ∉ keys') :
    validateOpaqueCapabilities cfg opaqueAccounts keys' = .ok ds := by
  simp only [validateOpaqueCapabilities, except_bind_ok_iff, require_ok_iff,
    except_mapM_ok_iff] at h ⊢
  obtain ⟨_, hlen, hds⟩ := h
  refine ⟨(), hlen, ((List.forall₂_and_left _ _).mpr ⟨hkeys, hds⟩).imp ?_⟩
  intro account descriptor h
  obtain ⟨hkey, h⟩ := h
  have hnone : ¬ (keys'.any (· = account.key)) = true := by
    simpa using hkey
  simp only [opaqueDescriptor, except_bind_ok_iff, require_ok_iff] at h ⊢
  obtain ⟨_, hsigner, _, -, h⟩ := h
  exact ⟨(), hsigner, (), hnone, h⟩

@[simp] theorem opaqueMeta_pubkey (d : CapabilityDescriptor) : (opaqueMeta d).pubkey = d.key := by
  unfold opaqueMeta
  split <;> rfl

@[simp] theorem opaqueMeta_isSigner (d : CapabilityDescriptor) : (opaqueMeta d).isSigner = false := by
  unfold opaqueMeta
  split <;> rfl

@[simp] theorem opaqueMeta_isWritable (d : CapabilityDescriptor) :
    (opaqueMeta d).isWritable = d.isWritable := by
  unfold opaqueMeta
  split
  · next h => simp [AccountMeta.new, h]
  · next h => simpa [AccountMeta.newReadonly] using h

/-- A descriptor that says of an account what the ledger does, and asks for no privilege that no
position of the account has, finds its position. -/
theorem normalizedInfo_succeeds {L : Ledger} {infos : List AccountInfo} {info : AccountInfo}
    {d : CapabilityDescriptor} (hmem : info ∈ infos) (hkey : d.key = info.key)
    (howner : d.owner = (L info.key).owner) (hexec : d.isExecutable = (L info.key).executable)
    (hw : d.isWritable = true → ∃ other ∈ infos, other.key = info.key ∧ other.isWritable = true)
    (hs : d.isSigner = false) :
    ∃ i, normalizedInfo (infos.map (accountView L)) d = .ok i ∧ i ∈ infos ∧ i.key = d.key := by
  have hfound : ∃ other ∈ infos, other.key = info.key ∧
      (d.isWritable = true → other.isWritable = true) := by
    cases hd : d.isWritable with
    | false => exact ⟨info, hmem, rfl, by simp⟩
    | true =>
      obtain ⟨other, hother, hk, how⟩ := hw hd
      exact ⟨other, hother, hk, fun _ => how⟩
  obtain ⟨other, hother, hk, how⟩ := hfound
  have hsome : ((infos.map (accountView L)).find? fun candidate =>
      candidate.key = d.key && candidate.owner = d.owner && candidate.executable = d.isExecutable &&
        (!d.isWritable || candidate.isWritable) && (!d.isSigner || candidate.isSigner)).isSome := by
    rw [List.find?_isSome]
    refine ⟨accountView L other, List.mem_map_of_mem hother, ?_⟩
    cases hd : d.isWritable with
    | false => simp [accountView, hk, hkey, howner, hexec, hs]
    | true => simp [accountView, hk, hkey, howner, hexec, hs, how hd]
  obtain ⟨candidate, hcandidate⟩ := Option.isSome_iff_exists.mp hsome
  have hmem' := List.mem_of_find?_eq_some hcandidate
  obtain ⟨i, hi, rfl⟩ := List.mem_map.mp hmem'
  refine ⟨i, ?_, hi, ?_⟩
  · simp only [normalizedInfo, except_bind_ok_iff, okOr_ok_iff, except_pure_ok_iff]
    exact ⟨_, hcandidate, rfl⟩
  · have hp := List.find?_some hcandidate
    simp only [Bool.and_eq_true, decide_eq_true_eq] at hp
    exact hp.1.1.1.1

/-- A descriptor that asks for no more than `d` does for the same account. -/
structure Weakens (d' d : CapabilityDescriptor) : Prop where
  key : d'.key = d.key
  owner : d'.owner = d.owner
  isExecutable : d'.isExecutable = d.isExecutable
  isWritable : d'.isWritable = true → d.isWritable = true
  isSigner : d'.isSigner = d.isSigner

theorem Weakens.refl (d : CapabilityDescriptor) : Weakens d d := ⟨rfl, rfl, rfl, id, rfl⟩

/-- An admitted list finds its infos, and so does one that asks for less. -/
theorem normalizedInfos_succeed {cfg : Config} {L : Ledger} {infos : List AccountInfo}
    {fixedEnvelopeKeys : List Pubkey} {ds ds' : List CapabilityDescriptor}
    (h : List.Forall₂ (fun info d => Admitted cfg (infos.map (accountView L)) fixedEnvelopeKeys
      (accountView L info) d) infos ds) (hds : ∀ d' ∈ ds', ∃ d ∈ ds, Weakens d' d) :
    ∃ is, ds'.mapM (normalizedInfo (infos.map (accountView L))) = .ok is ∧
      List.Forall₂ (fun d i => i ∈ infos ∧ i.key = d.key) ds' is := by
  refine except_mapM_succeeds fun d' hd' => ?_
  obtain ⟨d, hd, hweak⟩ := hds d' hd'
  obtain ⟨info, hinfo, hadmitted⟩ := exists_of_forall₂_mem h hd
  refine normalizedInfo_succeeds hinfo (hweak.key.trans hadmitted.key)
    (hweak.owner.trans hadmitted.owner) (hweak.isExecutable.trans hadmitted.isExecutable)
    (fun hw => ?_) (hweak.isSigner.trans hadmitted.isSigner)
  have heffective := hadmitted.isWritable.symm.trans (hweak.isWritable hw)
  unfold effectiveIsWritable at heffective
  simp only [List.any_map, List.any_eq_true, Function.comp_apply, Bool.and_eq_true,
    decide_eq_true_eq] at heffective
  exact heffective

/-- The errors of a rejected opaque list. -/
def opaqueErrors : List Error :=
  [.core .tooManyOpaqueAccounts, .core .opaqueSignerForbidden, .core .opaqueFixedRoleAlias,
    .core .opaqueCoreOwnedAccount, .core .opaqueExecutableWritable,
    .core .opaqueProtectedTokenAccountWritable]

theorem validateOpaqueCapabilities_error {cfg : Config} {opaqueAccounts : List AccountView}
    {fixedEnvelopeKeys : List Pubkey} {err : Error}
    (h : validateOpaqueCapabilities cfg opaqueAccounts fixedEnvelopeKeys = .error err) :
    err ∈ opaqueErrors := by
  simp only [validateOpaqueCapabilities, except_bind_error_iff, require_error_iff] at h
  rcases h with ⟨-, rfl⟩ | ⟨_, -, h⟩
  · simp [opaqueErrors]
  · obtain ⟨account, -, h⟩ := except_mapM_error h
    simp only [opaqueDescriptor, except_bind_error_iff, require_error_iff, except_pure_ne_error,
      and_false, exists_false, or_false] at h
    rcases h with ⟨-, rfl⟩ | ⟨_, -, ⟨-, rfl⟩ | ⟨_, -, ⟨-, rfl⟩ | ⟨_, -, ⟨-, rfl⟩ | ⟨_, -, -, rfl⟩⟩⟩⟩
    all_goals simp [opaqueErrors]

/-- The meta `m` an opaque position is forwarded with: the account itself, never as a signer,
writable only with authorization and where some position of the account is. -/
structure Forwarded (cfg : Config) (L : Ledger) (infos : List AccountInfo)
    (fixedEnvelopeKeys : List Pubkey) (authorized : Bool) (info : AccountInfo) (m : AccountMeta) :
    Prop where
  pubkey : m.pubkey = info.key
  isSigner : m.isSigner = false
  isWritable : m.isWritable =
    (authorized && infos.any fun other => other.key = info.key && other.isWritable)
  notFixed : m.pubkey ∉ fixedEnvelopeKeys
  notCore : (L m.pubkey).owner ≠ cfg.ID
  notCode : m.isWritable = true → (L m.pubkey).executable = false
  notToken : m.isWritable = true →
    (L m.pubkey).owner ≠ tokenProgram ∧ (L m.pubkey).owner ≠ token2022Program

section Forwarding

variable {cfg : Config} {L : Ledger} {infos : List AccountInfo} {fixedEnvelopeKeys : List Pubkey}
  {authorized : Bool}

theorem effectiveIsWritable_map (L : Ledger) (infos : List AccountInfo) (key : Pubkey) :
    effectiveIsWritable (infos.map (accountView L)) key =
      infos.any fun other => other.key = key && other.isWritable := by
  rw [effectiveIsWritable, List.any_map]
  rfl

theorem Admitted.forwarded {info : AccountInfo} {d d' : CapabilityDescriptor}
    (h : Admitted cfg (infos.map (accountView L)) fixedEnvelopeKeys (accountView L info) d)
    (hkey : d'.key = d.key) (hwritable : d'.isWritable = (authorized && d.isWritable)) :
    Forwarded cfg L infos fixedEnvelopeKeys authorized info (opaqueMeta d') := by
  have hk : (opaqueMeta d').pubkey = info.key := by
    rw [opaqueMeta_pubkey, hkey, h.key]
    rfl
  have hw : (opaqueMeta d').isWritable = true → d.isWritable = true := by
    rw [opaqueMeta_isWritable, hwritable]
    exact fun hw => (Bool.and_eq_true_iff.mp hw).2
  refine ⟨hk, opaqueMeta_isSigner d', ?_, ?_, ?_, fun hm => ?_, fun hm => ?_⟩
  · rw [opaqueMeta_isWritable, hwritable, h.isWritable, effectiveIsWritable_map]
    rfl
  · rw [hk]
    exact h.notFixed
  · rw [hk]
    exact h.notCore
  · rw [hk]
    exact h.notCode (hw hm)
  · rw [hk]
    exact h.notToken (hw hm)

theorem forwarded_foreign {metas : List AccountMeta}
    (h : List.Forall₂ (Forwarded cfg L infos fixedEnvelopeKeys authorized) infos metas)
    {m : AccountMeta} (hm : m ∈ metas) (hw : m.isWritable = true) :
    (L m.pubkey).owner ≠ tokenProgram := by
  obtain ⟨info, -, hf⟩ := exists_of_forall₂_mem h hm
  exact (hf.notToken hw).1

end Forwarding

end ProgrammableSolana.Core
