import ProgrammableSolana.Core.DepositEffect
import ProgrammableSolana.Core.ExecuteEffect
import ProgrammableSolana.Core.InitializeEffect

/-! Which accounts belong together: the checks Core makes on stored keys and bumps pass exactly on
the accounts that one initialization created. -/
namespace ProgrammableSolana.Core

open ProgrammableSolana.Lib ProgrammableSolana.Solana

/-- An account of the Core apart from the amounts it accounts for. -/
def CoreState.identity : CoreState → CoreState
  | .market m => .market m
  | .domain d => .domain { d with accountedA := 0, accountedB := 0 }
  | .feeLedger f => .feeLedger { f with accountedFeeA := 0 }

/-- Every account of the Core is still there, with the same identity. -/
def Keeps (cfg : Config) (L L' : Ledger) : Prop :=
  ∀ k s, L.state? cfg.ID k = some s → ∃ s', L'.state? cfg.ID k = some s' ∧ s'.identity = s.identity

section Keeping

variable {cfg : Config} {L L' L'' : Ledger}

theorem Keeps.refl (L : Ledger) : Keeps cfg L L := fun _ s hs => ⟨s, hs, rfl⟩

theorem Keeps.trans (h : Keeps cfg L L') (h' : Keeps cfg L' L'') : Keeps cfg L L'' := by
  intro k s hs
  obtain ⟨s', hs', hid⟩ := h k s hs
  obtain ⟨s'', hs'', hid'⟩ := h' k s' hs'
  exact ⟨s'', hs'', hid'.trans hid⟩

private theorem keeps_of_same (h : ∀ k s, L.state? cfg.ID k = some s → L' k = L k) : Keeps cfg L L' := by
  intro k s hs
  exact ⟨s, (Ledger.state?_congr (h k s hs)).trans hs, rfl⟩

theorem keeps_of_confined {writable : Pubkey → Bool} (h : Confined cfg.ID writable L L') :
    Keeps cfg L L' :=
  keeps_of_same fun _ _ hs => h.own _ (Ledger.state?_eq_some.mp hs).1

variable [Crypto]

theorem Initialized.identities_kept {a : InitializeMarketDomainV0}
    {args : InitializeMarketDomainV0Args} {bumps : InitializeMarketDomainV0Bumps}
    (h : Initialized cfg L L' a args bumps) : Keeps cfg L L' := by
  refine keeps_of_same fun k s hs => h.keeps ?_
  rw [(Ledger.state?_eq_some.mp hs).1]
  exact cfg.ID_ne_system

omit [Crypto] in
theorem AccountsFor.identity {domain domain' : DomainV0} {amount : ℕ} {index bump : UInt8}
    (h : AccountsFor domain amount index bump domain') :
    (CoreState.domain domain').identity = (CoreState.domain domain).identity := by
  cases h with
  | assetA => rfl
  | assetB => rfl

theorem Deposited.identities_kept {a : DepositV0} {args : DepositV0Args} {d : DepositData}
    (h : Deposited cfg L L' a args d) : Keeps cfg L L' := by
  intro k s hs
  by_cases hk : k = a.domain.key
  · obtain ⟨bump, domain, hacc, -, hdomain⟩ := h.accounted
    rw [hk, h.domain, Option.some.injEq] at hs
    subst hs
    exact ⟨_, hk ▸ hdomain, hacc.identity⟩
  · exact ⟨s, (Ledger.state?_congr (h.state_kept hs hk)).trans hs, rfl⟩

theorem Executed.identities_kept {e : Envelope} {d after : EnvelopeData} {authority : Pubkey}
    {t : SettleTerms} {post : PostAccounted} {engine : Pubkey → Bool}
    (h : Executed cfg L L' e d after authority t post engine) : Keeps cfg L L' := by
  intro k s hs
  by_cases hd : k = e.domain.key
  · subst hd
    rw [h.bound.domain, Option.some.injEq] at hs
    subst hs
    exact ⟨_, h.domain, rfl⟩
  · by_cases hf : k = e.feeLedger.key
    · subst hf
      rw [h.bound.feeLedger, Option.some.injEq] at hs
      subst hs
      exact ⟨_, h.feeLedger, rfl⟩
    · have hsame := h.core_frame (Ledger.state?_eq_some.mp hs).1 hd hf
      exact ⟨s, (Ledger.state?_congr hsame).trans hs, rfl⟩

end Keeping

section Checks

variable [Crypto] (cfg : Config)

/-- The accounts at `m`, `d` and `f` pass for one market, and `va`, `vb` and `fv` for its vaults. -/
def BindingChecks (L : Ledger) (m d f va vb fv : Pubkey) : Prop :=
  ∃ market domain feeLedger,
    L.state? cfg.ID m = some (.market market) ∧ L.state? cfg.ID d = some (.domain domain) ∧
    L.state? cfg.ID f = some (.feeLedger feeLedger) ∧
    validateMarketDomain cfg m market d domain = .ok () ∧
    validateFeeLedger cfg m market f feeLedger = .ok () ∧
    canonicalDomainVault cfg d assetAIndexV0 domain.vaultABump = .ok va ∧
    canonicalDomainVault cfg d assetBIndexV0 domain.vaultBBump = .ok vb ∧
    canonicalFeeVault cfg f feeLedger.feeVaultBump = .ok fv

/-- The initialization created exactly these accounts. -/
def InitializeMarketDomainV0.Creates (a : InitializeMarketDomainV0) (m d f va vb fv : Pubkey) :
    Prop :=
  a.market.key = m ∧ a.domain.key = d ∧ a.feeLedger.key = f ∧ a.vaultA.key = va ∧
    a.vaultB.key = vb ∧ a.feeVault.key = fv

/-- The ledger holds what the initialization wrote, apart from amounts, at the addresses it
derived. -/
structure Opened (L : Ledger) (a : InitializeMarketDomainV0) (args : InitializeMarketDomainV0Args)
    (bumps : InitializeMarketDomainV0Bumps) : Prop where
  marketAddress : createProgramAddress
    [cfg.marketSeedV0, a.initializer.key.toList, args.marketId.toList, [bumps.market]] cfg.ID =
      some a.market.key
  domainAddress : findProgramAddress [cfg.domainSeedV0, a.market.key.toList] cfg.ID =
    some (a.domain.key, bumps.domain)
  feeLedgerAddress : findProgramAddress
    [cfg.feeLedgerSeedV0, a.market.key.toList, a.mintA.key.toList] cfg.ID =
      some (a.feeLedger.key, bumps.feeLedger)
  vaultAAddress : createProgramAddress
    [cfg.vaultSeedV0, a.domain.key.toList, [assetAIndexV0], [bumps.vaultA]] cfg.ID =
      some a.vaultA.key
  vaultBAddress : createProgramAddress
    [cfg.vaultSeedV0, a.domain.key.toList, [assetBIndexV0], [bumps.vaultB]] cfg.ID =
      some a.vaultB.key
  feeVaultAddress : createProgramAddress
    [cfg.feeVaultSeedV0, a.feeLedger.key.toList, [bumps.feeVault]] cfg.ID = some a.feeVault.key
  market : ∃ s, L.state? cfg.ID a.market.key = some s ∧
    s.identity = (CoreState.market (newMarket a args bumps)).identity
  domain : ∃ s, L.state? cfg.ID a.domain.key = some s ∧
    s.identity = (CoreState.domain (newDomain a args bumps)).identity
  feeLedger : ∃ s, L.state? cfg.ID a.feeLedger.key = some s ∧
    s.identity = (CoreState.feeLedger (newFeeLedger a bumps)).identity

/-- The initializations in `inits` account for the Core's accounts. -/
structure Registered (L : Ledger)
    (inits : List (InitializeMarketDomainV0 × InitializeMarketDomainV0Args)) : Prop where
  opened : ∀ p ∈ inits, ∃ bumps, Opened cfg L p.1 p.2 bumps
  origin : ∀ k s, L.state? cfg.ID k = some s →
    ∃ p ∈ inits, k ∈ [p.1.market.key, p.1.domain.key, p.1.feeLedger.key]

variable {cfg} {L L' : Ledger} {a : InitializeMarketDomainV0} {args : InitializeMarketDomainV0Args}
  {bumps : InitializeMarketDomainV0Bumps}

theorem Opened.kept (h : Opened cfg L a args bumps) (hkeeps : Keeps cfg L L') :
    Opened cfg L' a args bumps := by
  obtain ⟨sm, hsm, hm⟩ := h.market
  obtain ⟨sd, hsd, hd⟩ := h.domain
  obtain ⟨sf, hsf, hf⟩ := h.feeLedger
  obtain ⟨sm', hsm', hm'⟩ := hkeeps _ _ hsm
  obtain ⟨sd', hsd', hd'⟩ := hkeeps _ _ hsd
  obtain ⟨sf', hsf', hf'⟩ := hkeeps _ _ hsf
  exact { h with
    market := ⟨sm', hsm', hm'.trans hm⟩
    domain := ⟨sd', hsd', hd'.trans hd⟩
    feeLedger := ⟨sf', hsf', hf'.trans hf⟩ }

theorem Initialized.opened (h : Initialized cfg L L' a args bumps) : Opened cfg L' a args bumps where
  marketAddress := createProgramAddress_of_find h.marketAddress
  domainAddress := h.domainAddress
  feeLedgerAddress := h.feeLedgerAddress
  vaultAAddress := createProgramAddress_of_find h.vaultAAddress
  vaultBAddress := createProgramAddress_of_find h.vaultBAddress
  feeVaultAddress := createProgramAddress_of_find h.feeVaultAddress
  market := ⟨_, h.market, rfl⟩
  domain := ⟨_, h.domain, rfl⟩
  feeLedger := ⟨_, h.feeLedger, rfl⟩

omit [Crypto] in
private theorem identity_eq_market {s : CoreState} {m : MarketV0} (h : s.identity = .market m) :
    s = .market m := by
  cases s with
  | market => exact h
  | domain | feeLedger => cases h

omit [Crypto] in
private theorem identity_eq_domain {s : CoreState} {domain : DomainV0}
    (h : s.identity = (CoreState.domain domain).identity) : ∃ accountedA accountedB,
      s = .domain { domain with accountedA, accountedB } := by
  cases s with
  | domain stored =>
    refine ⟨stored.accountedA, stored.accountedB, ?_⟩
    simp only [CoreState.identity, CoreState.domain.injEq, DomainV0.mk.injEq] at h
    cases stored
    simp_all
  | market | feeLedger => cases h

omit [Crypto] in
private theorem identity_eq_feeLedger {s : CoreState} {feeLedger : FeeLedgerV0}
    (h : s.identity = (CoreState.feeLedger feeLedger).identity) : ∃ accountedFeeA,
      s = .feeLedger { feeLedger with accountedFeeA } := by
  cases s with
  | feeLedger stored =>
    refine ⟨stored.accountedFeeA, ?_⟩
    simp only [CoreState.identity, CoreState.feeLedger.injEq, FeeLedgerV0.mk.injEq] at h
    cases stored
    simp_all
  | market | domain => cases h

/-- Completeness: what one initialization created passes together. -/
theorem Opened.passes (h : Opened cfg L a args bumps) : BindingChecks cfg L a.market.key
    a.domain.key a.feeLedger.key a.vaultA.key a.vaultB.key a.feeVault.key := by
  obtain ⟨sm, hsm, hm⟩ := h.market
  obtain ⟨sd, hsd, hd⟩ := h.domain
  obtain ⟨sf, hsf, hf⟩ := h.feeLedger
  obtain rfl := identity_eq_market hm
  obtain ⟨accountedA, accountedB, rfl⟩ := identity_eq_domain hd
  obtain ⟨accountedFeeA, rfl⟩ := identity_eq_feeLedger hf
  refine ⟨_, _, _, hsm, hsd, hsf, ?_, ?_, ?_, ?_, ?_⟩
  · simp only [validateMarketDomain, except_bind_ok_iff, require_ok_iff, okOr_ok_iff]
    exact ⟨(), rfl, (), rfl, (), ⟨rfl, rfl⟩, _, h.marketAddress, (), rfl, (), rfl, _,
      createProgramAddress_of_find h.domainAddress, (), rfl, (), rfl, (), rfl, rfl⟩
  · simp only [validateFeeLedger, except_bind_ok_iff, require_ok_iff, okOr_ok_iff]
    exact ⟨(), rfl, (), rfl, (), rfl, _, createProgramAddress_of_find h.feeLedgerAddress, rfl⟩
  · exact okOr_ok_iff.mpr h.vaultAAddress
  · exact okOr_ok_iff.mpr h.vaultBAddress
  · exact okOr_ok_iff.mpr h.feeVaultAddress

namespace Registered

variable {inits : List (InitializeMarketDomainV0 × InitializeMarketDomainV0Args)}

theorem kept (h : Registered cfg L inits) (hkeeps : Keeps cfg L L')
    (hold : ∀ k s, L'.state? cfg.ID k = some s → ∃ s', L.state? cfg.ID k = some s') :
    Registered cfg L' inits where
  opened p hp := by
    obtain ⟨bumps, hopened⟩ := h.opened p hp
    exact ⟨bumps, hopened.kept hkeeps⟩
  origin k s hs := by
    obtain ⟨s', hs'⟩ := hold k s hs
    exact h.origin k s' hs'

theorem opening (h : Registered cfg L inits) (hinit : Initialized cfg L L' a args bumps) :
    Registered cfg L' (inits ++ [(a, args)]) where
  opened p hp := by
    rcases List.mem_append.mp hp with hp | hp
    · obtain ⟨bumps', hopened⟩ := h.opened p hp
      exact ⟨bumps', hopened.kept hinit.identities_kept⟩
    · obtain rfl := List.mem_singleton.mp hp
      exact ⟨bumps, hinit.opened⟩
  origin k s hs := by
    by_cases hmem : k ∈ a.created
    · refine ⟨(a, args), List.mem_append_right _ (List.mem_singleton_self _), ?_⟩
      simp only [InitializeMarketDomainV0.created, List.mem_cons, List.not_mem_nil, or_false] at hmem
      simp only [List.mem_cons, List.not_mem_nil, or_false]
      rcases hmem with hk | hk | hk | rfl | rfl | rfl
      · exact .inl hk
      · exact .inr (.inl hk)
      · exact .inr (.inr hk)
      · exact absurd rfl (Ledger.state?_ne_token? hs hinit.vaultA)
      · exact absurd rfl (Ledger.state?_ne_token? hs hinit.vaultB)
      · exact absurd rfl (Ledger.state?_ne_token? hs hinit.feeVault)
    · obtain ⟨p, hp, hk⟩ := h.origin k s ((Ledger.state?_congr (hinit.frame k hmem)).symm.trans hs)
      exact ⟨p, List.mem_append_left _ hp, hk⟩

theorem domain (h : Registered cfg L inits) {k : Pubkey} {d : DomainV0}
    (hs : L.state? cfg.ID k = some (.domain d)) :
    ∃ p ∈ inits, ∃ bumps, Opened cfg L p.1 p.2 bumps ∧ k = p.1.domain.key := by
  obtain ⟨p, hp, hk⟩ := h.origin k _ hs
  obtain ⟨bumps, hopened⟩ := h.opened p hp
  simp only [List.mem_cons, List.not_mem_nil, or_false] at hk
  rcases hk with rfl | hk | rfl
  · obtain ⟨s, hs', hid⟩ := hopened.market
    rw [hs, Option.some.injEq] at hs'
    subst hs'
    cases hid
  · exact ⟨p, hp, bumps, hopened, hk⟩
  · obtain ⟨s, hs', hid⟩ := hopened.feeLedger
    rw [hs, Option.some.injEq] at hs'
    subst hs'
    cases hid

theorem feeLedger (h : Registered cfg L inits) {k : Pubkey} {f : FeeLedgerV0}
    (hs : L.state? cfg.ID k = some (.feeLedger f)) :
    ∃ p ∈ inits, ∃ bumps, Opened cfg L p.1 p.2 bumps ∧ k = p.1.feeLedger.key := by
  obtain ⟨p, hp, hk⟩ := h.origin k _ hs
  obtain ⟨bumps, hopened⟩ := h.opened p hp
  simp only [List.mem_cons, List.not_mem_nil, or_false] at hk
  rcases hk with rfl | rfl | hk
  · obtain ⟨s, hs', hid⟩ := hopened.market
    rw [hs, Option.some.injEq] at hs'
    subst hs'
    cases hid
  · obtain ⟨s, hs', hid⟩ := hopened.domain
    rw [hs, Option.some.injEq] at hs'
    subst hs'
    cases hid
  · exact ⟨p, hp, bumps, hopened, hk⟩

end Registered

theorem Opened.domain_eq (h : Opened cfg L a args bumps) {d : DomainV0}
    (hs : L.state? cfg.ID a.domain.key = some (.domain d)) :
    d.market = a.market.key ∧ d.vaultABump = bumps.vaultA ∧ d.vaultBBump = bumps.vaultB := by
  obtain ⟨s, hs', hid⟩ := h.domain
  rw [hs, Option.some.injEq] at hs'
  subst hs'
  obtain ⟨accountedA, accountedB, heq⟩ := identity_eq_domain hid
  rw [CoreState.domain.injEq] at heq
  subst heq
  exact ⟨rfl, rfl, rfl⟩

theorem Opened.feeLedger_eq (h : Opened cfg L a args bumps) {f : FeeLedgerV0}
    (hs : L.state? cfg.ID a.feeLedger.key = some (.feeLedger f)) :
    f.market = a.market.key ∧ f.feeVaultBump = bumps.feeVault := by
  obtain ⟨s, hs', hid⟩ := h.feeLedger
  rw [hs, Option.some.injEq] at hs'
  subst hs'
  obtain ⟨accountedFeeA, heq⟩ := identity_eq_feeLedger hid
  rw [CoreState.feeLedger.injEq] at heq
  subst heq
  exact ⟨rfl, rfl⟩

/-- Soundness and completeness: what passes together was created by one initialization. -/
theorem Registered.passes_iff {inits : List (InitializeMarketDomainV0 × InitializeMarketDomainV0Args)}
    (h : Registered cfg L inits) {m d f va vb fv : Pubkey} :
    BindingChecks cfg L m d f va vb fv ↔ ∃ p ∈ inits, p.1.Creates m d f va vb fv := by
  constructor
  · rintro ⟨market, domain, feeLedger, -, hd, hf, hmd, hfl, hva, hvb, hfv⟩
    have hdm : domain.market = m := by
      simp only [validateMarketDomain, except_bind_ok_iff, require_ok_iff, okOr_ok_iff] at hmd
      obtain ⟨_, -, _, -, _, -, _, -, _, -, _, hdm, -⟩ := hmd
      exact hdm
    have hfm : feeLedger.market = m := by
      simp only [validateFeeLedger, except_bind_ok_iff, require_ok_iff, okOr_ok_iff] at hfl
      obtain ⟨_, -, _, hfm, -⟩ := hfl
      exact hfm
    obtain ⟨p, hp, bumps, hopened, rfl⟩ := h.feeLedger hf
    obtain ⟨p', hp', bumps', hopened', rfl⟩ := h.domain hd
    obtain ⟨hfm', hfeeBump⟩ := hopened.feeLedger_eq hf
    have hmarket : p.1.market.key = m := hfm'.symm.trans hfm
    have hmarket' : p'.1.market.key = m := (hopened'.domain_eq hd).1.symm.trans hdm
    -- the domain address depends on the market alone, so both initializations made this domain
    have hdomain : p.1.domain.key = p'.1.domain.key := by
      have haddr := hopened.domainAddress
      rw [hmarket, ← hmarket', hopened'.domainAddress, Option.some.injEq, Prod.mk.injEq] at haddr
      exact haddr.1.symm
    rw [← hdomain] at hd hva hvb ⊢
    obtain ⟨-, haBump, hbBump⟩ := hopened.domain_eq hd
    rw [canonicalDomainVault, okOr_ok_iff, haBump, hopened.vaultAAddress] at hva
    rw [canonicalDomainVault, okOr_ok_iff, hbBump, hopened.vaultBAddress] at hvb
    rw [canonicalFeeVault, okOr_ok_iff, hfeeBump, hopened.feeVaultAddress] at hfv
    exact ⟨p, hp, hmarket, rfl, rfl, Option.some.inj hva, Option.some.inj hvb, Option.some.inj hfv⟩
  · rintro ⟨p, hp, rfl, rfl, rfl, rfl, rfl, rfl⟩
    obtain ⟨bumps, hopened⟩ := h.opened p hp
    exact hopened.passes

end Checks

end ProgrammableSolana.Core
