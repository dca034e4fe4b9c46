import ProgrammableSolana.Core.InitializeEffect
import ProgrammableSolana.Root.Execute
import ProgrammableSolana.Generated.Execute
import ProgrammableSolana.Routed.Execute

/-! The program-derived addresses of the three Cores. The seeds of one, run together as they are
hashed, are the seeds of no other. -/
namespace ProgrammableSolana.Cores

open ProgrammableSolana.Lib ProgrammableSolana.Solana ProgrammableSolana.Core

inductive PdaFamily where
  | market
  | domain
  | vault
  | feeLedger
  | feeVault
  | spend
  | callback
  deriving DecidableEq

/-- What a program-derived address is for. Only the routed Core derives the last two families. -/
inductive PdaRole where
  | market (initializer : Pubkey) (marketId : Hash)
  | domain (market : Pubkey)
  | vault (domain : Pubkey) (assetIndex : UInt8)
  | feeLedger (market mint : Pubkey)
  | feeVault (feeLedger : Pubkey)
  | spend (source : Pubkey) (intentDigest : Hash)
  | callback (engineProgram engineState market domain : Pubkey) (intentDigest : Hash) (phase : UInt8)

def cores : List Config := [Root.config, Generated.config, Routed.config]

def PdaFamily.seed (cfg : Config) : PdaFamily → List UInt8
  | market => cfg.marketSeedV0
  | domain => cfg.domainSeedV0
  | vault => cfg.vaultSeedV0
  | feeLedger => cfg.feeLedgerSeedV0
  | feeVault => cfg.feeVaultSeedV0
  | spend => Routed.spendAuthoritySeedV0
  | callback => Routed.callbackAuthoritySeedV0

namespace PdaRole

def family : PdaRole → PdaFamily
  | market .. => .market
  | domain .. => .domain
  | vault .. => .vault
  | feeLedger .. => .feeLedger
  | feeVault .. => .feeVault
  | spend .. => .spend
  | callback .. => .callback

def parameters : PdaRole → List (List UInt8)
  | market initializer marketId => [initializer.toList, marketId.toList]
  | domain marketKey => [marketKey.toList]
  | vault domainKey assetIndex => [domainKey.toList, [assetIndex]]
  | feeLedger marketKey mint => [marketKey.toList, mint.toList]
  | feeVault feeLedgerKey => [feeLedgerKey.toList]
  | spend source intentDigest => [source.toList, intentDigest.toList]
  | callback engineProgram engineState marketKey domainKey intentDigest phase =>
    [engineProgram.toList, engineState.toList, marketKey.toList, domainKey.toList,
      intentDigest.toList, [phase]]

def seeds (cfg : Config) (r : PdaRole) : List (List UInt8) := r.family.seed cfg :: r.parameters

/-- The seeds and the bump as they are run together. -/
def seedBytes (cfg : Config) (r : PdaRole) (bump : UInt8) : List UInt8 :=
  (r.seeds cfg ++ [[bump]]).flatten

/-- The message whose digest is the address. -/
def message (cfg : Config) (r : PdaRole) (bump : UInt8) : List UInt8 :=
  r.seedBytes cfg bump ++ (cfg.ID.toList ++ pdaMarker)

def address [Crypto] (cfg : Config) (r : PdaRole) (bump : UInt8) : Option Pubkey :=
  createProgramAddress (r.seeds cfg ++ [[bump]]) cfg.ID

end PdaRole

section Derivations

variable [Crypto]

/-- The accounts of an initialization and what they are for. -/
def createdRoles (a : InitializeMarketDomainV0) (args : InitializeMarketDomainV0Args)
    (bumps : InitializeMarketDomainV0Bumps) : List (PdaRole × UInt8 × Pubkey) :=
  [(.market a.initializer.key args.marketId, bumps.market, a.market.key),
    (.domain a.market.key, bumps.domain, a.domain.key),
    (.feeLedger a.market.key a.mintA.key, bumps.feeLedger, a.feeLedger.key),
    (.vault a.domain.key assetAIndexV0, bumps.vaultA, a.vaultA.key),
    (.vault a.domain.key assetBIndexV0, bumps.vaultB, a.vaultB.key),
    (.feeVault a.feeLedger.key, bumps.feeVault, a.feeVault.key)]

/-- The key a Core creates an account at, or accepts or derives, for a role. -/
inductive Canonical (cfg : Config) : PdaRole → UInt8 → Pubkey → Prop
  | created (a : InitializeMarketDomainV0) (args : InitializeMarketDomainV0Args)
    (bumps : InitializeMarketDomainV0Bumps) (w w' : World) (r : PdaRole) (bump : UInt8)
    (key : Pubkey) (h : (initAccounts cfg a args).run w = (.ok bumps, w'))
    (hr : (r, bump, key) ∈ createdRoles a args bumps) : Canonical cfg r bump key
  | market (marketKey domainKey : Pubkey) (market : MarketV0) (domain : DomainV0)
    (h : validateMarketDomain cfg marketKey market domainKey domain = .ok ()) :
    Canonical cfg (.market market.initializer market.marketId) market.bump marketKey
  | domain (marketKey domainKey : Pubkey) (market : MarketV0) (domain : DomainV0)
    (h : validateMarketDomain cfg marketKey market domainKey domain = .ok ()) :
    Canonical cfg (.domain marketKey) domain.bump domainKey
  | feeLedger (marketKey feeLedgerKey : Pubkey) (market : MarketV0) (feeLedger : FeeLedgerV0)
    (h : validateFeeLedger cfg marketKey market feeLedgerKey feeLedger = .ok ()) :
    Canonical cfg (.feeLedger marketKey market.mintA) feeLedger.bump feeLedgerKey
  | vault (domain key : Pubkey) (assetIndex bump : UInt8)
    (h : canonicalDomainVault cfg domain assetIndex bump = .ok key) :
    Canonical cfg (.vault domain assetIndex) bump key
  | feeVault (feeLedger key : Pubkey) (bump : UInt8)
    (h : canonicalFeeVault cfg feeLedger bump = .ok key) : Canonical cfg (.feeVault feeLedger) bump key
  | spend (source key : Pubkey) (intentDigest : Hash) (bump : UInt8) (hcfg : cfg = Routed.config)
    (h : Routed.canonicalSpendAuthority source intentDigest = .ok (key, bump)) :
    Canonical cfg (.spend source intentDigest) bump key
  | callback (a : Routed.ExecuteCallbackAuthenticatedProbeV0) (intentDigest : Hash) (phase : UInt8)
    (pda : Routed.CallbackPda) (hcfg : cfg = Routed.config)
    (h : Routed.canonicalCallback a intentDigest phase = .ok pda) :
    Canonical cfg (.callback a.engineProgram.key a.engineState.key a.market.key a.domain.key
      intentDigest phase) pda.bump pda.key

variable {cfg : Config} {r : PdaRole} {bump : UInt8} {key : Pubkey}

private theorem created_address {a : InitializeMarketDomainV0} {args : InitializeMarketDomainV0Args}
    {bumps : InitializeMarketDomainV0Bumps} {w w' : World}
    (h : (initAccounts cfg a args).run w = (.ok bumps, w'))
    (hr : (r, bump, key) ∈ createdRoles a args bumps) : r.address cfg bump = some key := by
  simp only [initAccounts, Exec.bind_ok_iff, Exec.pure_ok_iff] at h
  obtain ⟨_, w₁, h₁, _, w₂, h₂, _, w₃, h₃, _, w₄, h₄, _, w₅, h₅, _, w₆, h₆, rfl, -⟩ := h
  simp only [createdRoles, List.mem_cons, Prod.mk.injEq, List.not_mem_nil, or_false] at hr
  rcases hr with ⟨rfl, rfl, rfl⟩ | ⟨rfl, rfl, rfl⟩ | ⟨rfl, rfl, rfl⟩ | ⟨rfl, rfl, rfl⟩ |
    ⟨rfl, rfl, rfl⟩ | ⟨rfl, rfl, rfl⟩
  · exact createProgramAddress_of_find (initPda_ok h₁).1
  · exact createProgramAddress_of_find (initPda_ok h₂).1
  · exact createProgramAddress_of_find (initPda_ok h₃).1
  · exact createProgramAddress_of_find (initTokenAccount_ok h₄).1
  · exact createProgramAddress_of_find (initTokenAccount_ok h₅).1
  · exact createProgramAddress_of_find (initTokenAccount_ok h₆).1

/-- Whatever a Core takes for a role has the seeds of that role. -/
theorem Canonical.address (h : Canonical cfg r bump key) : r.address cfg bump = some key := by
  cases h with
  | created a args bumps w w' _ _ _ h hr => exact created_address h hr
  | market marketKey domainKey market domain h =>
    simp only [validateMarketDomain, except_bind_ok_iff, okOr_ok_iff, require_ok_iff] at h
    obtain ⟨_, -, _, -, _, -, expected, hexpected, _, rfl, -⟩ := h
    exact hexpected
  | domain marketKey domainKey market domain h =>
    simp only [validateMarketDomain, except_bind_ok_iff, okOr_ok_iff, require_ok_iff] at h
    obtain ⟨_, -, _, -, _, -, _, -, _, -, _, -, expected, hexpected, _, rfl, -⟩ := h
    exact hexpected
  | feeLedger marketKey feeLedgerKey market feeLedger h =>
    simp only [validateFeeLedger, except_bind_ok_iff, okOr_ok_iff, require_ok_iff] at h
    obtain ⟨_, -, _, -, _, -, expected, hexpected, rfl⟩ := h
    exact hexpected
  | vault domain _ assetIndex _ h => exact okOr_ok_iff.mp h
  | feeVault feeLedger _ _ h => exact okOr_ok_iff.mp h
  | spend source _ intentDigest _ hcfg h =>
    subst hcfg
    exact createProgramAddress_of_find (okOr_ok_iff.mp h)
  | callback a intentDigest phase pda hcfg h =>
    subst hcfg
    simp only [Routed.canonicalCallback, except_bind_ok_iff, okOr_ok_iff, except_pure_ok_iff,
      Prod.exists] at h
    obtain ⟨key, bump, hfind, rfl⟩ := h
    exact createProgramAddress_of_find hfind

end Derivations

section Injectivity

/-- In each Core no family's seed begins with another's. -/
theorem seed_prefixed {cfg : Config} (hcfg : cfg ∈ cores) {f f' : PdaFamily}
    (h : f.seed cfg <+: f'.seed cfg) : f = f' := by
  unfold cores at hcfg
  simp only [List.mem_cons, List.not_mem_nil, or_false] at hcfg
  rcases hcfg with rfl | rfl | rfl <;> revert h <;> cases f <;> cases f' <;> decide

private theorem seedBytes_eq (cfg : Config) (r : PdaRole) (bump : UInt8) :
    r.seedBytes cfg bump = r.family.seed cfg ++ (r.parameters.flatten ++ [bump]) := by
  simp [PdaRole.seedBytes, PdaRole.seeds]

/-- Within a family the parameters have fixed lengths. -/
theorem parameters_injective {r r' : PdaRole} {bump bump' : UInt8} (hfamily : r.family = r'.family)
    (h : r.parameters.flatten ++ [bump] = r'.parameters.flatten ++ [bump']) :
    r = r' ∧ bump = bump' := by
  cases r <;> cases r' <;> simp only [PdaRole.family, reduceCtorEq] at hfamily <;>
    simp only [PdaRole.parameters, List.flatten_cons, List.flatten_nil, List.append_nil,
      List.append_assoc, Bytes.append_inj_iff, List.cons_append, List.nil_append, List.cons.injEq,
      and_true] at h <;> simp [h]

theorem seedBytes_injective {cfg : Config} (hcfg : cfg ∈ cores) {r r' : PdaRole}
    {bump bump' : UInt8} (h : r.seedBytes cfg bump = r'.seedBytes cfg bump') :
    r = r' ∧ bump = bump' := by
  rw [seedBytes_eq, seedBytes_eq] at h
  have hfamily : r.family = r'.family := by
    by_contra hne
    have hr : ¬ r.family.seed cfg <+: r'.family.seed cfg := fun hp => hne (seed_prefixed hcfg hp)
    have hr' : ¬ r'.family.seed cfg <+: r.family.seed cfg := fun hp =>
      hne (seed_prefixed hcfg hp).symm
    exact append_ne_append hr hr' h
  rw [hfamily] at h
  exact parameters_injective hfamily (List.append_cancel_left h)

private theorem address_eq_sha256 [Crypto] {cfg : Config} {r : PdaRole} {bump : UInt8} {key : Pubkey}
    (h : r.address cfg bump = some key) : key = Crypto.sha256 (r.message cfg bump) := by
  have hkey := createProgramAddress_eq_hashv h
  unfold hashv at hkey
  rw [hkey, PdaRole.message, PdaRole.seedBytes]
  simp only [List.flatten_append, List.flatten_cons, List.flatten_nil, List.append_nil]

/-- Equal seed strings have one role and one bump, in every Core; so with a hash that does not
collide on the two messages, one address has one role, and so has every key a Core creates an account
at, accepts or derives. -/
theorem roles_disjoint [Crypto] {cfg : Config} (hcfg : cfg ∈ cores) (r r' : PdaRole)
    (bump bump' : UInt8) :
    (r.seedBytes cfg bump = r'.seedBytes cfg bump' → r = r' ∧ bump = bump') ∧
    (∀ key, r.address cfg bump = some key → r'.address cfg bump' = some key →
      Set.InjOn Crypto.sha256 {r.message cfg bump, r'.message cfg bump'} →
        r = r' ∧ bump = bump') ∧
    ∀ key, Canonical cfg r bump key → r.address cfg bump = some key ∧
      (Canonical cfg r' bump' key →
        Set.InjOn Crypto.sha256 {r.message cfg bump, r'.message cfg bump'} →
          r = r' ∧ bump = bump') := by
  have haddresses : ∀ key, r.address cfg bump = some key → r'.address cfg bump' = some key →
      Set.InjOn Crypto.sha256 {r.message cfg bump, r'.message cfg bump'} →
        r = r' ∧ bump = bump' := by
    intro key hkey hkey' hinj
    have hdigest : Crypto.sha256 (r.message cfg bump) = Crypto.sha256 (r'.message cfg bump') :=
      (address_eq_sha256 hkey).symm.trans (address_eq_sha256 hkey')
    have hmessage : r.message cfg bump = r'.message cfg bump' :=
      hinj (Set.mem_insert _ _) (Set.mem_insert_of_mem _ rfl) hdigest
    exact seedBytes_injective hcfg (List.append_cancel_right hmessage)
  refine ⟨seedBytes_injective hcfg, haddresses, ?_⟩
  intro key hkey
  refine ⟨hkey.address, ?_⟩
  intro hkey' hinj
  exact haddresses key hkey.address hkey'.address hinj

theorem roles_disjoint_sample :
    (PdaRole.vault (Bytes.zero 32) assetAIndexV0).seedBytes Root.config 255 ≠
      (PdaRole.vault (Bytes.zero 32) assetBIndexV0).seedBytes Root.config 255 := by
  intro h
  let crypto : Crypto := .ofKnown [] []
  have hroot : Root.config ∈ cores := List.mem_cons_self
  obtain ⟨hrole, -⟩ := (roles_disjoint hroot _ _ 255 255).1 h
  injection hrole with _ hindex
  revert hindex
  decide

end Injectivity

end ProgrammableSolana.Cores
