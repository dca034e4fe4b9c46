import ProgrammableSolana.Core.Opaque

/-! The opaque privileges after normalization: they depend on the union over the positions of an
account, and some position holds them. -/
namespace ProgrammableSolana.Core

open ProgrammableSolana.Lib ProgrammableSolana.Solana ProgrammableSolana.Wire

/-- Some position of the account is a signer. -/
def SignerAt (accounts : List AccountView) (key : Pubkey) : Prop :=
  ∃ other ∈ accounts, other.key = key ∧ other.isSigner = true

/-- Some position of the account is writable. -/
def WritableAt (accounts : List AccountView) (key : Pubkey) : Prop :=
  ∃ other ∈ accounts, other.key = key ∧ other.isWritable = true

/-- What a position has to meet to be handed on. -/
structure Admissible (cfg : Config) (accounts : List AccountView) (fixedEnvelopeKeys : List Pubkey)
    (account : AccountView) : Prop where
  unsigned : ¬ SignerAt accounts account.key
  notFixed : account.key ∉ fixedEnvelopeKeys
  notCore : account.owner ≠ cfg.ID
  notCode : ¬ (account.executable = true ∧ WritableAt accounts account.key)
  notToken : ¬ ((account.owner = tokenProgram ∨ account.owner = token2022Program) ∧
    WritableAt accounts account.key)

/-- The descriptor of a position: the account itself, with the union of its privileges. -/
structure Normalized (accounts : List AccountView) (account : AccountView)
    (d : CapabilityDescriptor) : Prop where
  key : d.key = account.key
  owner : d.owner = account.owner
  isExecutable : d.isExecutable = account.executable
  isWritable : d.isWritable = true ↔ WritableAt accounts account.key
  isSigner : d.isSigner = true ↔ SignerAt accounts account.key

/-- Two lists of the same accounts, whose privileges may be spread in other ways over the
positions of an account. -/
structure SameUnions (accounts accounts' : List AccountView) : Prop where
  positions : List.Forall₂ (fun x y => x.key = y.key ∧ x.owner = y.owner ∧
    x.executable = y.executable) accounts accounts'
  signer : ∀ key, SignerAt accounts key ↔ SignerAt accounts' key
  writable : ∀ key, WritableAt accounts key ↔ WritableAt accounts' key

/-- Positions of one account agree on what it is. -/
def SameAccounts (accounts : List AccountView) : Prop :=
  ∀ x ∈ accounts, ∀ y ∈ accounts, x.key = y.key → x.owner = y.owner ∧ x.executable = y.executable

/-- The position found for a descriptor: the account, with at least the privileges asked for. -/
structure Sufficient (accounts : List AccountView) (d : CapabilityDescriptor)
    (candidate : AccountView) : Prop where
  mem : candidate ∈ accounts
  found : normalizedInfo accounts d = .ok candidate.toAccountInfo
  key : candidate.key = d.key
  owner : candidate.owner = d.owner
  executable : candidate.executable = d.isExecutable
  isWritable : d.isWritable = true → candidate.isWritable = true
  isSigner : d.isSigner = true → candidate.isSigner = true

/-- The info an account is passed with has all that its meta asks for. -/
structure Covers (m : AccountMeta) (info : AccountInfo) : Prop where
  key : info.key = m.pubkey
  isWritable : m.isWritable = true → info.isWritable = true
  isSigner : m.isSigner = true → info.isSigner = true

theorem Sufficient.covers {accounts : List AccountView} {d : CapabilityDescriptor}
    {candidate : AccountView} (h : Sufficient accounts d candidate) :
    Covers (opaqueMeta d) candidate.toAccountInfo := by
  constructor
  · rw [opaqueMeta_pubkey]
    exact h.key
  · rw [opaqueMeta_isWritable]
    exact h.isWritable
  · intro hs
    rw [opaqueMeta_isSigner] at hs
    cases hs

section Unions

variable {cfg : Config} {accounts accounts' : List AccountView} {fixedEnvelopeKeys : List Pubkey}
  {account : AccountView} {d : CapabilityDescriptor} {ds : List CapabilityDescriptor}

private theorem effectiveIsSigner_iff {key : Pubkey} :
    effectiveIsSigner accounts key = true ↔ SignerAt accounts key := by
  unfold effectiveIsSigner SignerAt
  simp only [List.any_eq_true, Bool.and_eq_true, decide_eq_true_eq]

private theorem effectiveIsWritable_iff {key : Pubkey} :
    effectiveIsWritable accounts key = true ↔ WritableAt accounts key := by
  unfold effectiveIsWritable WritableAt
  simp only [List.any_eq_true, Bool.and_eq_true, decide_eq_true_eq]

/-- A round of the loop succeeds exactly on an admissible position, with its descriptor. -/
theorem opaqueDescriptor_ok_iff :
    opaqueDescriptor cfg accounts fixedEnvelopeKeys account = .ok d ↔
      Admissible cfg accounts fixedEnvelopeKeys account ∧ Normalized accounts account d := by
  have hfixed : (¬ fixedEnvelopeKeys.any (· = account.key)) ↔
      account.key ∉ fixedEnvelopeKeys := by
    simp
  unfold opaqueDescriptor
  simp only [except_bind_ok_iff, require_ok_iff, except_pure_ok_iff, hfixed,
    effectiveIsWritable_iff, ← Bool.not_eq_true, effectiveIsSigner_iff]
  constructor
  · intro h
    obtain ⟨-, hsigner, -, hfixed, -, hcore, -, hcode, -, htoken, rfl⟩ := h
    have hnotToken := fun h => htoken (And.symm h)
    exact ⟨⟨hsigner, hfixed, hcore, hcode, hnotToken⟩, rfl, rfl, rfl, effectiveIsWritable_iff,
      effectiveIsSigner_iff⟩
  · intro h
    obtain ⟨hadmissible, hd⟩ := h
    refine ⟨(), hadmissible.unsigned, (), hadmissible.notFixed, (), hadmissible.notCore, (),
      hadmissible.notCode, (), fun h => hadmissible.notToken (And.symm h), ?_⟩
    have hwritable : effectiveIsWritable accounts account.key = d.isWritable := by
      rw [Bool.eq_iff_iff, effectiveIsWritable_iff, hd.isWritable]
    have hsigner : effectiveIsSigner accounts account.key = d.isSigner := by
      rw [Bool.eq_iff_iff, effectiveIsSigner_iff, hd.isSigner]
    rw [hwritable, hsigner, ← hd.key, ← hd.owner, ← hd.isExecutable]

/-- A list is accepted exactly when it is short and every position admissible, and then position by
position with the union of the privileges. -/
theorem validateOpaqueCapabilities_ok_iff :
    validateOpaqueCapabilities cfg accounts fixedEnvelopeKeys = .ok ds ↔
      accounts.length ≤ maxOpaqueAccounts ∧
        (∀ account ∈ accounts, Admissible cfg accounts fixedEnvelopeKeys account) ∧
        List.Forall₂ (Normalized accounts) accounts ds := by
  simp only [validateOpaqueCapabilities, except_bind_ok_iff, require_ok_iff, except_mapM_ok_iff,
    opaqueDescriptor_ok_iff, List.forall₂_and_left]
  exact ⟨fun ⟨_, hlen, hall, hds⟩ => ⟨hlen, hall, hds⟩, fun ⟨hlen, hall, hds⟩ => ⟨(), hlen, hall, hds⟩⟩

/-- The descriptor of a position, computed. -/
def normalizedDescriptor (accounts : List AccountView) (account : AccountView) :
    CapabilityDescriptor where
  key := account.key
  owner := account.owner
  isWritable := effectiveIsWritable accounts account.key
  isSigner := effectiveIsSigner accounts account.key
  isExecutable := account.executable

private theorem normalized_descriptor (accounts : List AccountView) (account : AccountView) :
    Normalized accounts account (normalizedDescriptor accounts account) := by
  constructor
  · rfl
  · rfl
  · rfl
  · exact effectiveIsWritable_iff
  · exact effectiveIsSigner_iff

theorem validateOpaqueCapabilities_accepts_iff :
    (∃ ds, validateOpaqueCapabilities cfg accounts fixedEnvelopeKeys = .ok ds) ↔
      accounts.length ≤ maxOpaqueAccounts ∧
        ∀ account ∈ accounts, Admissible cfg accounts fixedEnvelopeKeys account := by
  simp only [validateOpaqueCapabilities_ok_iff]
  constructor
  · intro h
    obtain ⟨ds, hlen, hall, -⟩ := h
    exact ⟨hlen, hall⟩
  · intro h
    refine ⟨accounts.map (normalizedDescriptor accounts), h.1, h.2, ?_⟩
    rw [List.forall₂_map_right_iff, List.forall₂_same]
    exact fun account _ => normalized_descriptor accounts account

/-- Whether and how a list is accepted or rejected depends on the unions alone. -/
theorem validateOpaqueCapabilities_congr (h : SameUnions accounts accounts') :
    validateOpaqueCapabilities cfg accounts fixedEnvelopeKeys =
      validateOpaqueCapabilities cfg accounts' fixedEnvelopeKeys := by
  have hsigner : ∀ key, effectiveIsSigner accounts key = effectiveIsSigner accounts' key := by
    intro key
    rw [Bool.eq_iff_iff, effectiveIsSigner_iff, effectiveIsSigner_iff]
    exact h.signer key
  have hwritable : ∀ key, effectiveIsWritable accounts key = effectiveIsWritable accounts' key := by
    intro key
    rw [Bool.eq_iff_iff, effectiveIsWritable_iff, effectiveIsWritable_iff]
    exact h.writable key
  have hround : List.Forall₂ (fun x y => opaqueDescriptor cfg accounts fixedEnvelopeKeys x =
      opaqueDescriptor cfg accounts' fixedEnvelopeKeys y) accounts accounts' := by
    refine h.positions.imp fun x y hxy => ?_
    obtain ⟨hkey, howner, hexecutable⟩ := hxy
    unfold opaqueDescriptor
    rw [hkey, howner, hexecutable, hsigner, hwritable]
  unfold validateOpaqueCapabilities
  rw [h.positions.length_eq, except_mapM_congr hround]

end Unions

section Lookup

variable {accounts : List AccountView} {account : AccountView} {d d' : CapabilityDescriptor}

/-- Some position has all that a descriptor asks for, and the first of them is found. -/
theorem Normalized.sufficient (h : Normalized accounts account d) (hmem : account ∈ accounts)
    (hsame : SameAccounts accounts) (hunsigned : d.isSigner = false) (hweak : Weakens d' d) :
    ∃ candidate, Sufficient accounts d' candidate := by
  have hsigner : d'.isSigner = false := hweak.isSigner.trans hunsigned
  have hholder : ∃ other ∈ accounts, other.key = account.key ∧
      (d'.isWritable = true → other.isWritable = true) := by
    by_cases hw : d'.isWritable = true
    · obtain ⟨other, hother, hkey, hwritable⟩ := h.isWritable.mp (hweak.isWritable hw)
      exact ⟨other, hother, hkey, fun _ => hwritable⟩
    · exact ⟨account, hmem, rfl, fun hw' => absurd hw' hw⟩
  obtain ⟨other, hother, hkey, hwritable⟩ := hholder
  obtain ⟨howner, hexecutable⟩ := hsame other hother account hmem hkey
  have hmatch : (decide (other.key = d'.key) && decide (other.owner = d'.owner) &&
      decide (other.executable = d'.isExecutable) && (!d'.isWritable || other.isWritable) &&
      (!d'.isSigner || other.isSigner)) = true := by
    have hkey' : other.key = d'.key := by rw [hkey, hweak.key, h.key]
    have howner' : other.owner = d'.owner := by rw [howner, hweak.owner, h.owner]
    have hexecutable' : other.executable = d'.isExecutable := by
      rw [hexecutable, hweak.isExecutable, h.isExecutable]
    rw [decide_eq_true hkey', decide_eq_true howner', decide_eq_true hexecutable', hsigner]
    cases hd : d'.isWritable with
    | false => rfl
    | true => rw [hwritable hd]; rfl
  have hsome : (accounts.find? fun candidate =>
      candidate.key = d'.key && candidate.owner = d'.owner &&
        candidate.executable = d'.isExecutable && (!d'.isWritable || candidate.isWritable) &&
        (!d'.isSigner || candidate.isSigner)).isSome := by
    rw [List.find?_isSome]
    exact ⟨other, hother, hmatch⟩
  obtain ⟨candidate, hfind⟩ := Option.isSome_iff_exists.mp hsome
  have hfound := List.find?_some hfind
  simp only [Bool.and_eq_true, Bool.or_eq_true, decide_eq_true_eq, Bool.not_eq_true'] at hfound
  obtain ⟨⟨⟨⟨hk, ho⟩, he⟩, hw⟩, hs⟩ := hfound
  refine ⟨candidate, List.mem_of_find?_eq_some hfind, ?_, hk, ho, he, fun hd => ?_, fun hd => ?_⟩
  · simp only [normalizedInfo, except_bind_ok_iff, okOr_ok_iff, except_pure_ok_iff]
    exact ⟨candidate, hfind, rfl⟩
  · rw [hd] at hw
    exact hw.resolve_left (by decide)
  · rw [hd] at hs
    exact hs.resolve_left (by decide)

/-- An accepted list finds a sufficient position for each of its descriptors, and so do descriptors
that ask for less. -/
theorem lookup_succeeds {cfg : Config} {fixedEnvelopeKeys : List Pubkey}
    {ds ds' : List CapabilityDescriptor}
    (h : validateOpaqueCapabilities cfg accounts fixedEnvelopeKeys = .ok ds)
    (hsame : SameAccounts accounts) (hds : ∀ d' ∈ ds', ∃ d ∈ ds, Weakens d' d) :
    ∃ found, ds'.mapM (normalizedInfo accounts) = .ok (found.map (·.toAccountInfo)) ∧
      List.Forall₂ (Sufficient accounts) ds' found := by
  obtain ⟨-, hall, hnormalized⟩ := validateOpaqueCapabilities_ok_iff.mp h
  have hfound : ∀ d' ∈ ds', ∃ candidate, Sufficient accounts d' candidate := by
    intro d' hd'
    obtain ⟨d, hd, hweak⟩ := hds d' hd'
    have hboth := (List.forall₂_and_left accounts ds).mpr
      ⟨fun account hmem => (⟨hmem, hall account hmem⟩ :
        account ∈ accounts ∧ Admissible cfg accounts fixedEnvelopeKeys account), hnormalized⟩
    obtain ⟨account, -, ⟨hmem, hadmissible⟩, hd⟩ := exists_of_forall₂_mem hboth hd
    have hunsigned : d.isSigner = false := by
      rw [← Bool.not_eq_true, hd.isSigner]
      exact hadmissible.unsigned
    exact hd.sufficient hmem hsame hunsigned hweak
  clear h hds hnormalized hall
  induction ds' with
  | nil => exact ⟨[], rfl, .nil⟩
  | cons d' ds' ih =>
    obtain ⟨candidate, hcandidate⟩ := hfound d' List.mem_cons_self
    obtain ⟨found, hinfos, hrest⟩ := ih fun x hx => hfound x (List.mem_cons_of_mem d' hx)
    refine ⟨candidate :: found, ?_, .cons hcandidate hrest⟩
    rw [except_mapM_ok_iff] at hinfos ⊢
    exact .cons hcandidate.found hinfos

end Lookup

end ProgrammableSolana.Core
