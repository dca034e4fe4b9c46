import ProgrammableSolana.Core.Initialize
import ProgrammableSolana.Core.Refinement

/-! A successful initialization opens one market with empty books and touches nothing else. -/
namespace ProgrammableSolana.Core

open ProgrammableSolana.Lib ProgrammableSolana.Solana ProgrammableSolana.Lib.Custody

/-- The accounts an initialization creates. -/
def InitializeMarketDomainV0.created (a : InitializeMarketDomainV0) : List Pubkey :=
  [a.market.key, a.domain.key, a.feeLedger.key, a.vaultA.key, a.vaultB.key, a.feeVault.key]

/-- A token account as `InitializeAccount` leaves it. -/
def newTokenAccount (mint authority : Pubkey) : TokenAccount where
  mint := mint
  owner := authority
  amount := 0
  delegate := none
  state := .initialized
  isNative := if mint = nativeMint then some tokenAccountRent else none
  delegatedAmount := 0
  closeAuthority := none

private theorem newTokenAccount_profile {mint authority : Pubkey} (h : mint ≠ nativeMint) :
    ProtectedProfile (newTokenAccount mint authority) mint authority :=
  ⟨rfl, if_neg h, rfl, rfl, rfl, rfl, rfl⟩

theorem createAccount_ok {info : AccountInfo} {owner : Pubkey} {space : ℕ} {u : Unit} {w w' : World}
    (h : (createAccount info owner space).run w = (.ok u, w')) :
    (w.ledger info.key).Unallocated ∧
      w'.ledger = w.ledger.assign info.key owner (.raw (List.replicate space 0)) := by
  simp only [createAccount, Exec.bind_ok_iff, Exec.ensure_ok_iff, Exec.get_ok_iff,
    Exec.modify_ok_iff] at h
  obtain ⟨_, _, ⟨-, rfl⟩, _, _, ⟨rfl, rfl⟩, _, _, ⟨hfree, rfl⟩, rfl⟩ := h
  exact ⟨hfree, rfl⟩

variable [Crypto] {cfg : Config}

theorem initPda_ok {info : AccountInfo} {seeds : List (List UInt8)} {owner : Pubkey} {space : ℕ}
    {bump : UInt8} {w w' : World}
    (h : (initPda cfg info seeds owner space).run w = (.ok bump, w')) :
    findProgramAddress seeds cfg.ID = some (info.key, bump) ∧ (w.ledger info.key).Unallocated ∧
      w'.ledger = w.ledger.assign info.key owner (.raw (List.replicate space 0)) := by
  simp only [initPda, Exec.bind_ok_iff, Exec.ensure_ok_iff, Exec.ofExcept_ok_iff, okOr_ok_iff,
    Exec.pure_ok_iff, Prod.exists] at h
  obtain ⟨address, bump', _, ⟨hfind, rfl⟩, _, _, ⟨rfl, rfl⟩, _, _, hcreate, rfl, rfl⟩ := h
  exact ⟨hfind, createAccount_ok hcreate⟩

theorem initTokenAccount_ok {caller : List AccountInfo} {info : AccountInfo}
    {seeds : List (List UInt8)} {mint authority : Pubkey} {bump : UInt8} {w w' : World}
    (h : (initTokenAccount cfg caller info seeds mint authority).run w = (.ok bump, w')) :
    findProgramAddress seeds cfg.ID = some (info.key, bump) ∧ (w.ledger info.key).Unallocated ∧
      w'.ledger = w.ledger.assign info.key tokenProgram (.token (newTokenAccount mint authority)) := by
  simp only [initTokenAccount, Exec.bind_ok_iff, Exec.mapError_run_ok_iff, Exec.pure_ok_iff] at h
  obtain ⟨_, w₁, hinit, _, _, hop, rfl, rfl⟩ := h
  obtain ⟨hfind, hfree, hledger₁⟩ := initPda_ok hinit
  obtain ⟨-, hop, -, -⟩ := tokenInvoke_ok hop
  simp only [TokenOp.apply, processInitializeAccount, except_bind_ok_iff, require_ok_iff,
    except_pure_ok_iff] at hop
  obtain ⟨_, -, _, -, hledger⟩ := hop
  refine ⟨hfind, hfree, hledger.symm.trans ?_⟩
  rw [hledger₁]
  simp [Ledger.setToken, Ledger.setData, Ledger.assign, newTokenAccount]

private theorem initPda_quiet {info : AccountInfo} {seeds : List (List UInt8)} {owner : Pubkey}
    {space : ℕ}
    {bump : UInt8} {w w' : World}
    (h : (initPda cfg info seeds owner space).run w = (.ok bump, w')) : Quiet w w' := by
  simp only [initPda, createAccount, Exec.bind_ok_iff, Exec.ensure_ok_iff, Exec.ofExcept_ok_iff,
    Exec.get_ok_iff, Exec.modify_ok_iff, Exec.pure_ok_iff, Prod.exists] at h
  obtain ⟨_, _, _, ⟨-, rfl⟩, _, _, ⟨-, rfl⟩, _, _, ⟨_, _, ⟨-, rfl⟩, _, _, ⟨rfl, rfl⟩, _, _,
    ⟨-, rfl⟩, rfl⟩, -, rfl⟩ := h
  exact .refl _

private theorem initTokenAccount_quiet {caller : List AccountInfo} {info : AccountInfo}
    {seeds : List (List UInt8)} {mint authority : Pubkey} {bump : UInt8} {w w' : World}
    (h : (initTokenAccount cfg caller info seeds mint authority).run w = (.ok bump, w')) :
    Quiet w w' := by
  simp only [initTokenAccount, Exec.bind_ok_iff, Exec.mapError_run_ok_iff, Exec.pure_ok_iff] at h
  obtain ⟨_, w₁, hinit, _, _, hop, -, rfl⟩ := h
  exact (initPda_quiet hinit).trans (tokenInvoke_quiet hop)

private theorem initAccounts_quiet {a : InitializeMarketDomainV0} {args : InitializeMarketDomainV0Args}
    {bumps : InitializeMarketDomainV0Bumps} {w w' : World}
    (h : (initAccounts cfg a args).run w = (.ok bumps, w')) : Quiet w w' := by
  simp only [initAccounts, Exec.bind_ok_iff, Exec.pure_ok_iff] at h
  obtain ⟨_, w₁, h₁, _, w₂, h₂, _, w₃, h₃, _, w₄, h₄, _, w₅, h₅, _, w₆, h₆, -, rfl⟩ := h
  have hstate : Quiet w w₃ := ((initPda_quiet h₁).trans (initPda_quiet h₂)).trans (initPda_quiet h₃)
  have hvaults : Quiet w₃ w₅ := (initTokenAccount_quiet h₄).trans (initTokenAccount_quiet h₅)
  exact (hstate.trans hvaults).trans (initTokenAccount_quiet h₆)

/-- What a successful initialization did. -/
structure Initialized (cfg : Config) (L L' : Ledger) (a : InitializeMarketDomainV0)
    (args : InitializeMarketDomainV0Args) (bumps : InitializeMarketDomainV0Bumps) : Prop where
  marketAddress : findProgramAddress
    [cfg.marketSeedV0, a.initializer.key.toList, args.marketId.toList] cfg.ID =
      some (a.market.key, bumps.market)
  domainAddress : findProgramAddress [cfg.domainSeedV0, a.market.key.toList] cfg.ID =
    some (a.domain.key, bumps.domain)
  feeLedgerAddress : findProgramAddress
    [cfg.feeLedgerSeedV0, a.market.key.toList, a.mintA.key.toList] cfg.ID =
      some (a.feeLedger.key, bumps.feeLedger)
  vaultAAddress : findProgramAddress [cfg.vaultSeedV0, a.domain.key.toList, [assetAIndexV0]] cfg.ID =
    some (a.vaultA.key, bumps.vaultA)
  vaultBAddress : findProgramAddress [cfg.vaultSeedV0, a.domain.key.toList, [assetBIndexV0]] cfg.ID =
    some (a.vaultB.key, bumps.vaultB)
  feeVaultAddress : findProgramAddress [cfg.feeVaultSeedV0, a.feeLedger.key.toList] cfg.ID =
    some (a.feeVault.key, bumps.feeVault)
  unallocated : ∀ k ∈ a.created, (L k).Unallocated
  market : L'.state? cfg.ID a.market.key = some (.market (newMarket a args bumps))
  domain : L'.state? cfg.ID a.domain.key = some (.domain (newDomain a args bumps))
  feeLedger : L'.state? cfg.ID a.feeLedger.key = some (.feeLedger (newFeeLedger a bumps))
  vaultA : L'.token? a.vaultA.key = some (newTokenAccount a.mintA.key a.domain.key)
  vaultB : L'.token? a.vaultB.key = some (newTokenAccount a.mintB.key a.domain.key)
  feeVault : L'.token? a.feeVault.key = some (newTokenAccount a.mintA.key a.feeLedger.key)
  mints : a.mintA.key ≠ a.mintB.key
  classicA : a.mintA.key ≠ nativeMint
  classicB : a.mintB.key ≠ nativeMint
  mintA : MintOk L a.mintA.key
  mintB : MintOk L a.mintB.key
  frame : ∀ k, k ∉ a.created → L' k = L k

/-- The addresses and the ledger after the `init` accounts, given that they are distinct. -/
theorem initAccounts_ok {a : InitializeMarketDomainV0} {args : InitializeMarketDomainV0Args}
    {bumps : InitializeMarketDomainV0Bumps} {w w' : World}
    (h : (initAccounts cfg a args).run w = (.ok bumps, w')) (hnodup : a.created.Nodup) :
    findProgramAddress [cfg.marketSeedV0, a.initializer.key.toList, args.marketId.toList] cfg.ID =
        some (a.market.key, bumps.market) ∧
      findProgramAddress [cfg.domainSeedV0, a.market.key.toList] cfg.ID =
        some (a.domain.key, bumps.domain) ∧
      findProgramAddress [cfg.feeLedgerSeedV0, a.market.key.toList, a.mintA.key.toList] cfg.ID =
        some (a.feeLedger.key, bumps.feeLedger) ∧
      findProgramAddress [cfg.vaultSeedV0, a.domain.key.toList, [assetAIndexV0]] cfg.ID =
        some (a.vaultA.key, bumps.vaultA) ∧
      findProgramAddress [cfg.vaultSeedV0, a.domain.key.toList, [assetBIndexV0]] cfg.ID =
        some (a.vaultB.key, bumps.vaultB) ∧
      findProgramAddress [cfg.feeVaultSeedV0, a.feeLedger.key.toList] cfg.ID =
        some (a.feeVault.key, bumps.feeVault) ∧
      (∀ k ∈ a.created, (w.ledger k).Unallocated) ∧
      (w'.ledger a.market.key).owner = cfg.ID ∧ (w'.ledger a.domain.key).owner = cfg.ID ∧
      (w'.ledger a.feeLedger.key).owner = cfg.ID ∧
      w'.ledger.token? a.vaultA.key = some (newTokenAccount a.mintA.key a.domain.key) ∧
      w'.ledger.token? a.vaultB.key = some (newTokenAccount a.mintB.key a.domain.key) ∧
      w'.ledger.token? a.feeVault.key = some (newTokenAccount a.mintA.key a.feeLedger.key) ∧
      ∀ k, k ∉ a.created → w'.ledger k = w.ledger k := by
  simp only [initAccounts, Exec.bind_ok_iff, Exec.pure_ok_iff] at h
  obtain ⟨_, w₁, h₁, _, w₂, h₂, _, w₃, h₃, _, w₄, h₄, _, w₅, h₅, _, w₆, h₆, rfl, rfl⟩ := h
  obtain ⟨hm, fm, e₁⟩ := initPda_ok h₁
  obtain ⟨hd, fd, e₂⟩ := initPda_ok h₂
  obtain ⟨hf, ff, e₃⟩ := initPda_ok h₃
  obtain ⟨ha, fa, e₄⟩ := initTokenAccount_ok h₄
  obtain ⟨hb, fb, e₅⟩ := initTokenAccount_ok h₅
  obtain ⟨hv, fv, e₆⟩ := initTokenAccount_ok h₆
  simp only [InitializeMarketDomainV0.created, List.nodup_cons, List.mem_cons, List.not_mem_nil,
    or_false, not_or, not_false_eq_true, List.nodup_nil, and_true] at hnodup
  obtain ⟨⟨md, mf, ma, mb, mv⟩, ⟨df, da, db, dv⟩, ⟨fa', fb', fv'⟩, ⟨ab, av⟩, bv⟩ := hnodup
  have hne : ∀ {k k' : Pubkey}, k ≠ k' → ∀ {L : Ledger} {owner data},
      L.assign k owner data k' = L k' := fun h => Ledger.assign_of_ne (Ne.symm h) _ _
  rw [e₁, hne md] at fd
  rw [e₂, hne df, e₁, hne mf] at ff
  rw [e₃, hne fa', e₂, hne da, e₁, hne ma] at fa
  rw [e₄, hne ab, e₃, hne fb', e₂, hne db, e₁, hne mb] at fb
  rw [e₅, hne bv, e₄, hne av, e₃, hne fv', e₂, hne dv, e₁, hne mv] at fv
  refine ⟨hm, hd, hf, ha, hb, hv, ?_, ?_, ?_, ?_, ?_, ?_, ?_, fun k hk => ?_⟩
  · simpa [InitializeMarketDomainV0.created] using ⟨fm, fd, ff, fa, fb, fv⟩
  · rw [e₆, hne (Ne.symm mv), e₅, hne (Ne.symm mb), e₄, hne (Ne.symm ma), e₃, hne (Ne.symm mf), e₂,
      hne (Ne.symm md), e₁, Ledger.assign_self]
  · rw [e₆, hne (Ne.symm dv), e₅, hne (Ne.symm db), e₄, hne (Ne.symm da), e₃, hne (Ne.symm df), e₂,
      Ledger.assign_self]
  · rw [e₆, hne (Ne.symm fv'), e₅, hne (Ne.symm fb'), e₄, hne (Ne.symm fa'), e₃, Ledger.assign_self]
  · rw [Ledger.token?_eq_some, e₆, hne (Ne.symm av), e₅, hne (Ne.symm ab), e₄, Ledger.assign_self]
    exact ⟨rfl, rfl⟩
  · rw [Ledger.token?_eq_some, e₆, hne (Ne.symm bv), e₅, Ledger.assign_self]
    exact ⟨rfl, rfl⟩
  · rw [Ledger.token?_eq_some, e₆, Ledger.assign_self]
    exact ⟨rfl, rfl⟩
  · simp only [InitializeMarketDomainV0.created, List.mem_cons, List.not_mem_nil, or_false,
      not_or] at hk
    obtain ⟨km, kd, kf, ka, kb, kv⟩ := hk
    rw [e₆, hne (Ne.symm kv), e₅, hne (Ne.symm kb), e₄, hne (Ne.symm ka), e₃, hne (Ne.symm kf), e₂,
      hne (Ne.symm kd), e₁, hne (Ne.symm km)]

omit [Crypto] in
theorem loadInitialize_ok {L : Ledger} {a : InitializeMarketDomainV0} {mintA mintB : Mint}
    (h : loadInitialize L a = .ok (mintA, mintB)) :
    L.mint? a.mintA.key = some mintA ∧ L.mint? a.mintB.key = some mintB := by
  simp only [loadInitialize, except_bind_ok_iff, loadMintAccount_ok_iff, except_pure_ok_iff,
    Prod.mk.injEq] at h
  obtain ⟨_, -, _, ha, _, hb, _, -, _, -, _, -, rfl, rfl⟩ := h
  exact ⟨ha, hb⟩

omit [Crypto] in
theorem validateInitialize_ok {L : Ledger} {a : InitializeMarketDomainV0}
    {args : InitializeMarketDomainV0Args} {mintA mintB : Mint} {u : Unit}
    (h : validateInitialize cfg L a args mintA mintB = .ok u) :
    a.created.Nodup ∧ a.mintA.key ≠ a.mintB.key ∧
      (a.mintA.key ≠ nativeMint ∧ mintA.freezeAuthority = none) ∧
      (a.mintB.key ≠ nativeMint ∧ mintB.freezeAuthority = none) := by
  simp only [validateInitialize, validateClassicMint, except_bind_ok_iff,
    ensureDistinctRoles_ok_iff, require_ok_iff] at h
  obtain ⟨_, -, _, hroles, _, hmints, _, -, _, ⟨_, -, _, hna, hfa⟩, _, ⟨_, -, _, hnb, hfb⟩, -⟩ := h
  refine ⟨hroles.sublist ?_, hmints, ⟨hna, hfa⟩, ⟨hnb, hfb⟩⟩
  refine List.Sublist.trans ?_ (List.sublist_append_left _ _)
  simp only [InitializeMarketDomainV0.created]
  exact .cons _ <| .cons_cons _ <| .cons_cons _ <| .cons_cons _ <| .cons _ <| .cons _ <|
    .cons_cons _ <| .cons_cons _ <| .cons_cons _ <| List.nil_sublist _

theorem initialize_ok {a : InitializeMarketDomainV0} {args : InitializeMarketDomainV0Args}
    {w w' : World} {u : Unit}
    (h : (handleInitializeMarketDomainV0 cfg a args).run w = (.ok u, w')) :
    ∃ bumps, Initialized cfg w.ledger w'.ledger a args bumps := by
  simp only [handleInitializeMarketDomainV0, Exec.bind_ok_iff, Exec.get_ok_iff, Exec.ofExcept_ok_iff,
    writeState, Exec.modify_ok_iff, emit, Prod.exists] at h
  obtain ⟨_, _, ⟨rfl, rfl⟩, mintA, mintB, _, ⟨hload, rfl⟩, bumps, w₁, hinit, _, _, ⟨-, rfl⟩, _, _,
    ⟨hvalid, rfl⟩, _, _, rfl, _, _, rfl, _, _, rfl, rfl⟩ := h
  obtain ⟨hma, hmb⟩ := loadInitialize_ok hload
  obtain ⟨hnodup, hmints, ⟨hna, hfa⟩, hnb, hfb⟩ := validateInitialize_ok hvalid
  obtain ⟨hm, hd, hf, ha, hb, hv, hfree, om, od, of, ta, tb, tv, hframe⟩ := initAccounts_ok hinit hnodup
  simp only [InitializeMarketDomainV0.created, List.nodup_cons, List.mem_cons, List.not_mem_nil,
    or_false, not_or, not_false_eq_true, List.nodup_nil, and_true] at hnodup
  obtain ⟨⟨md, mf, ma, mb, mv⟩, ⟨df, da, db, dv⟩, ⟨fa, fb, fv⟩, -⟩ := hnodup
  have htoken : ∀ k, k ≠ a.market.key → k ≠ a.domain.key → k ≠ a.feeLedger.key →
      (((w₁.ledger.setState a.market.key (.market (newMarket a args bumps))).setState a.domain.key
        (.domain (newDomain a args bumps))).setState a.feeLedger.key
          (.feeLedger (newFeeLedger a bumps))) k = w₁.ledger k := fun k hkm hkd hkf => by
    simp only [Ledger.setState, Ledger.setData_of_ne hkf, Ledger.setData_of_ne hkd,
      Ledger.setData_of_ne hkm]
  refine ⟨bumps, {
    marketAddress := hm, domainAddress := hd, feeLedgerAddress := hf, vaultAAddress := ha,
    vaultBAddress := hb, feeVaultAddress := hv, unallocated := hfree, mints := hmints,
    classicA := hna, classicB := hnb, mintA := ⟨mintA, hma, hfa⟩, mintB := ⟨mintB, hmb, hfb⟩,
    market := ?_, domain := ?_, feeLedger := ?_, vaultA := ?_, vaultB := ?_, feeVault := ?_,
    frame := ?_ }⟩
  · rw [Ledger.state?_setState_of_ne mf, Ledger.state?_setState_of_ne md,
      Ledger.state?_setState_self om]
  · rw [Ledger.state?_setState_of_ne df, Ledger.state?_setState_self]
    rw [Ledger.setState, Ledger.setData_owner, od]
  · rw [Ledger.state?_setState_self]
    rw [Ledger.setState, Ledger.setData_owner, Ledger.setState, Ledger.setData_owner, of]
  · exact (Ledger.token?_congr (htoken _ (Ne.symm ma) (Ne.symm da) (Ne.symm fa))).trans ta
  · exact (Ledger.token?_congr (htoken _ (Ne.symm mb) (Ne.symm db) (Ne.symm fb))).trans tb
  · exact (Ledger.token?_congr (htoken _ (Ne.symm mv) (Ne.symm dv) (Ne.symm fv))).trans tv
  · intro k hk
    have hk' := hk
    simp only [InitializeMarketDomainV0.created, List.mem_cons, not_or] at hk'
    exact (htoken k hk'.1 hk'.2.1 hk'.2.2.1).trans (hframe k hk)

theorem initialize_logged {a : InitializeMarketDomainV0} {args : InitializeMarketDomainV0Args}
    {w w' : World} {u : Unit}
    (h : (handleInitializeMarketDomainV0 cfg a args).run w = (.ok u, w')) :
    engineCalls w'.log = engineCalls w.log ∧ ∃ e : MarketDomainInitializedV0,
      emittedEvents w'.log = emittedEvents w.log ++ [.marketDomainInitialized e] ∧
      e.market = a.market.key := by
  simp only [handleInitializeMarketDomainV0, Exec.bind_ok_iff, Exec.get_ok_iff, Exec.ofExcept_ok_iff,
    writeState, Exec.modify_ok_iff, emit, Prod.exists] at h
  obtain ⟨_, _, ⟨rfl, rfl⟩, _, _, _, ⟨-, rfl⟩, bumps, w₁, hinit, _, _, ⟨-, rfl⟩, _, _,
    ⟨-, rfl⟩, _, _, rfl, _, _, rfl, _, _, rfl, rfl⟩ := h
  obtain ⟨hcalls, hemitted⟩ := initAccounts_quiet hinit
  refine ⟨?_, _, (emittedEvents_append _ _).trans (congrArg (· ++ _) hemitted), rfl⟩
  simpa using hcalls

section Effect

variable {L L' : Ledger} {a : InitializeMarketDomainV0} {args : InitializeMarketDomainV0Args}
  {bumps : InitializeMarketDomainV0Bumps}

/-- The market that an initialization opens. -/
def newRecord (a : InitializeMarketDomainV0) (args : InitializeMarketDomainV0Args)
    (bumps : InitializeMarketDomainV0Bumps) : MarketRecord where
  market := newMarket a args bumps
  domainKey := a.domain.key
  domain := newDomain a args bumps
  feeLedgerKey := a.feeLedger.key
  feeLedger := newFeeLedger a bumps
  vaultAKey := a.vaultA.key
  vaultA := newTokenAccount a.mintA.key a.domain.key
  vaultBKey := a.vaultB.key
  vaultB := newTokenAccount a.mintB.key a.domain.key
  feeVaultKey := a.feeVault.key
  feeVault := newTokenAccount a.mintA.key a.feeLedger.key

/-- Whatever is already in use is left alone. -/
theorem Initialized.keeps (h : Initialized cfg L L' a args bumps) {k : Pubkey}
    (hk : (L k).owner ≠ systemProgram) : L' k = L k :=
  h.frame k fun hmem => hk (h.unallocated k hmem).1

theorem Initialized.mint_kept (h : Initialized cfg L L' a args bumps) {k : Pubkey}
    (hk : MintOk L k) : MintOk L' k := by
  obtain ⟨m, hm, hfreeze⟩ := hk
  have heq : L' k = L k :=
    h.keeps (by rw [(Ledger.mint?_eq_some.mp hm).1]; exact tokenProgram_ne_system)
  exact ⟨m, (Ledger.mint?_congr heq).trans hm, hfreeze⟩

theorem Initialized.marketOk (h : Initialized cfg L L' a args bumps) :
    MarketOk cfg L' a.market.key (newRecord a args bumps) where
  market := h.market
  domain := h.domain
  feeLedger := h.feeLedger
  marketAddress := createProgramAddress_of_find h.marketAddress
  domainAddress := h.domainAddress
  feeLedgerAddress := h.feeLedgerAddress
  vaultAAddress := h.vaultAAddress
  vaultBAddress := h.vaultBAddress
  feeVaultAddress := h.feeVaultAddress
  feeBps := rfl
  domainMarket := rfl
  domainEngine := ⟨rfl, rfl, rfl⟩
  feeLedgerMarket := ⟨rfl, rfl⟩
  mints := h.mints
  mintA := h.mint_kept h.mintA
  mintB := h.mint_kept h.mintB
  vaultA := h.vaultA
  vaultB := h.vaultB
  feeVault := h.feeVault
  profileA := newTokenAccount_profile h.classicA
  profileB := newTokenAccount_profile h.classicB
  profileFee := newTokenAccount_profile h.classicA

theorem Initialized.spares (h : Initialized cfg L L' a args bumps) {key : Pubkey} {r : MarketRecord}
    (hr : MarketOk cfg L key r) : Spares L L' key r where
  market := h.keeps (by rw [(Ledger.state?_eq_some.mp hr.market).1]; exact cfg.ID_ne_system)
  domain := h.keeps (by rw [(Ledger.state?_eq_some.mp hr.domain).1]; exact cfg.ID_ne_system)
  feeLedger := h.keeps (by rw [(Ledger.state?_eq_some.mp hr.feeLedger).1]; exact cfg.ID_ne_system)
  vault k _ t ht :=
    have heq := h.keeps (by rw [(Ledger.token?_eq_some.mp ht).1]; exact tokenProgram_ne_system)
    ⟨t.amount, (Ledger.token?_congr heq).trans ht, UInt64.le_refl _⟩
  mint _ hk := h.mint_kept hk

theorem Initialized.refines (h : Initialized cfg L L' a args bumps) : Refines cfg L 0 L' where
  kept key r hr := hr.kept_of_spares (h.spares hr)
  opened k s hs := by
    by_cases hmem : k ∈ a.created
    · refine .inr ⟨a.market.key, newRecord a args bumps, h.marketOk, ?_, ?_, ?_⟩
      · simp only [InitializeMarketDomainV0.created, List.mem_cons, List.not_mem_nil, or_false] at hmem
        rcases hmem with hk | hk | hk | rfl | rfl | rfl
        · exact .inl hk
        · exact .inr (.inl hk)
        · exact .inr (.inr hk)
        · exact absurd rfl (Ledger.state?_ne_token? hs h.vaultA)
        · exact absurd rfl (Ledger.state?_ne_token? hs h.vaultB)
        · exact absurd rfl (Ledger.state?_ne_token? hs h.feeVault)
      · exact ⟨Nat.le_refl _, Nat.le_refl _, Nat.le_refl _⟩
      · exact ⟨rfl, rfl, rfl⟩
    · exact .inl ⟨s, (Ledger.state?_congr (h.frame k hmem)).symm.trans hs⟩
  idle _ _ := rfl

end Effect

end ProgrammableSolana.Core
